import Sesc.Cache.DirtyData
import Sesc.Cache.Frame

/-!
# The answers to invalidations

A cache that is told to invalidate a line answers at once or first passes the invalidation on
to the level above.  This file runs one cache in an arbitrary environment, with a ledger of the
invalidations and their answers on both connections.  An invalidation of a line whose
invalidation is pending is absorbed by the pending one; the others are answered one by one.
-/

namespace Sesc.Cache

open Lib

/-- The invalidation that a message to the local connection is. -/
def Sent.localInvalidate : Sent → Option InvalidateMsg
  | ⟨.localConnection, .invalidate m, _⟩ => some m
  | _ => none

/-- A cache and its invalidations. -/
structure Ledger where
  device : Device
  /-- The invalidations that have come from the remote connection. -/
  received : List InvalidateMsg
  /-- Those of them that came when no invalidation of their line was pending. -/
  accepted : List InvalidateMsg
  /-- The answers that have been sent to the remote connection. -/
  answers : List InvalidateResponseMsg
  /-- The invalidations that have been sent to the local connection and not been answered. -/
  outstanding : List InvalidateMsg

namespace CacheConfig

variable (cfg : CacheConfig)

/-- The invalidation that a message is. -/
def invalidation : Port → Msg → List InvalidateMsg
  | .remoteConnection, .invalidate m => [m]
  | _, _ => []

/-- The invalidations of the local connection that a message leaves without an answer. -/
def unanswered (l : List InvalidateMsg) : Port → Msg → List InvalidateMsg
  | .localConnection, .invalidateResponse r => l.eraseP fun m =>
      cfg.calcTag m.addr = cfg.calcTag r.addr ∧ m.msgID = r.solicitingMessage
  | _, _ => l

def ledgerStep (s : Ledger) : DeviceEvent → Except Fault Ledger
  | .recvMsg port msg rands => do
    let a ← cfg.recvMsg port msg (s.device.activation rands)
    return {
      device := { s.device with cache := a.cache, currentMsgStamp := a.currentMsgStamp }
      received := s.received ++ invalidation port msg
      accepted := s.accepted ++ (invalidation port msg).filter fun m =>
        s.device.cache.pendingInvalidate (cfg.calcTag m.addr) = none
      answers := s.answers ++ a.sent.filterMap Sent.invalidateAnswer
      outstanding :=
        cfg.unanswered s.outstanding port msg ++ a.sent.filterMap Sent.localInvalidate }
  | .processTick =>
    .ok { s with device := { s.device with currentTick := s.device.currentTick + 1 } }

/-- The machine of a cache whose invalidations are entered in a ledger. -/
def ledger : Machine Ledger DeviceEvent Fault where
  init := ⟨.new, [], [], [], []⟩
  step := cfg.ledgerStep

/-- The invalidations of a tag in a list, by their numbers. -/
def requestsOf (tag : AddrTag) (l : List InvalidateMsg) : List MessageID :=
  (l.filter fun m => cfg.calcTag m.addr = tag).map InvalidateMsg.msgID

/-- The answers about a tag in a list, by the numbers of what they answer. -/
def answersOf (tag : AddrTag) (l : List InvalidateResponseMsg) : List MessageID :=
  (l.filter fun m => cfg.calcTag m.addr = tag).map InvalidateResponseMsg.solicitingMessage

/-- The invalidations of a list are answered once: no answer is sent without one, and when the
local connection has answered the invalidations of a tag, those of the list have their
answers. -/
def AnswersOnce (s : Ledger) (l : List InvalidateMsg) : Prop :=
  ∀ tag, (cfg.answersOf tag s.answers).Subperm (cfg.requestsOf tag l) ∧
    ((∀ m ∈ s.outstanding, cfg.calcTag m.addr ≠ tag) →
      (cfg.answersOf tag s.answers).Perm (cfg.requestsOf tag l))

/-- What holds of the ledger: an accepted invalidation is answered or pending, and one that is
pending has been passed on. -/
structure Balanced (s : Ledger) : Prop where
  tag : ∀ tag m, s.device.cache.pendingInvalidate tag = some m → cfg.calcTag m.addr = tag
  requests : ∀ tag, cfg.requestsOf tag s.accepted = cfg.answersOf tag s.answers ++
    (s.device.cache.pendingInvalidate tag).toList.map InvalidateMsg.msgID
  passed : ∀ tag, s.device.cache.pendingInvalidate tag ≠ none →
    ∃ m ∈ s.outstanding, cfg.calcTag m.addr = tag

variable {cfg} {a b : Activation} {tag : AddrTag} {s s' : Ledger}

/-- The address of a line has the tag of the line. -/
lemma calcTag_calcAddr (addr : Address) :
    cfg.calcTag (cfg.calcAddr (cfg.calcTag addr)) = cfg.calcTag addr := by
  rw [calcTag, calcAddr, calcTag]
  rcases Nat.eq_zero_or_pos cfg.lineSize with hzero | hpos
  · rw [hzero, Nat.div_zero, Nat.div_zero]
  · exact Nat.mul_div_cancel _ hpos

lemma requestsOf_append (l l' : List InvalidateMsg) :
    cfg.requestsOf tag (l ++ l') = cfg.requestsOf tag l ++ cfg.requestsOf tag l' := by
  rw [requestsOf, List.filter_append, List.map_append]
  rfl

lemma answersOf_append (l l' : List InvalidateResponseMsg) :
    cfg.answersOf tag (l ++ l') = cfg.answersOf tag l ++ cfg.answersOf tag l' := by
  rw [answersOf, List.filter_append, List.map_append]
  rfl

lemma requestsOf_singleton (m : InvalidateMsg) :
    cfg.requestsOf tag [m] = if cfg.calcTag m.addr = tag then [m.msgID] else [] := by
  by_cases h : cfg.calcTag m.addr = tag <;> simp [requestsOf, h]

lemma answersOf_singleton (m : InvalidateResponseMsg) :
    cfg.answersOf tag [m] = if cfg.calcTag m.addr = tag then [m.solicitingMessage] else [] := by
  by_cases h : cfg.calcTag m.addr = tag <;> simp [answersOf, h]

/-! ## The handlers -/

/-- An invalidation that is not absorbed is answered at once or passed on. -/
lemma onRemoteInvalidate_traffic {m : InvalidateMsg}
    (hnone : a.cache.pendingInvalidate (cfg.calcTag m.addr) = none)
    (h : cfg.onRemoteInvalidate m a = .ok b) :
    (∃ res, res.solicitingMessage = m.msgID ∧ res.addr = cfg.calcAddr (cfg.calcTag m.addr) ∧
      b.invalidateTraffic = (a.cache.pendingInvalidate,
        a.sent.filterMap Sent.invalidateAnswer ++ [res])) ∨
    b.sent = a.sent ++ [⟨.localConnection, .invalidate m, 0⟩] ∧
      b.invalidateTraffic = (Function.update a.cache.pendingInvalidate (cfg.calcTag m.addr) (some m),
        a.sent.filterMap Sent.invalidateAnswer) := by
  rw [onRemoteInvalidate] at h
  dsimp only at h
  rw [hnone] at h
  dsimp only at h
  -- an answer at once leaves nothing pending
  have hrespond : cfg.respondInvalidate (cfg.calcTag m.addr)
      (a.setPendingInvalidate (cfg.calcTag m.addr) (some m)) = .ok b →
      ∃ res, res.solicitingMessage = m.msgID ∧ res.addr = cfg.calcAddr (cfg.calcTag m.addr) ∧
        b.invalidateTraffic = (a.cache.pendingInvalidate,
          a.sent.filterMap Sent.invalidateAnswer ++ [res]) := by
    intro hb
    obtain ⟨-, p, res, hp, hid, haddr, htraffic⟩ := respondInvalidate_traffic hb
    have hp : Function.update a.cache.pendingInvalidate (cfg.calcTag m.addr) (some m)
        (cfg.calcTag m.addr) = some p := hp
    rw [Function.update_self] at hp
    cases hp
    refine ⟨res, hid, haddr, htraffic.trans ?_⟩
    show (Function.update (Function.update a.cache.pendingInvalidate _ _) _ none, _) = _
    rw [Function.update_idem, Function.update_eq_self_iff.2 hnone.symm]
    rfl
  split at h
  · exact .inl (hrespond h)
  · split at h
    · cases h
      refine .inr ⟨rfl, ?_⟩
      exact Activation.invalidateTraffic_sendMsg rfl
    · exact .inl (hrespond h)

/-- The local connection has answered: so is the invalidation that is pending. -/
lemma onLocalInvalidateResponse_traffic {m : InvalidateResponseMsg}
    (h : cfg.onLocalInvalidateResponse m a = .ok b) :
    a.cache.pendingInvalidate (cfg.calcTag m.addr) = none ∧
      b.invalidateTraffic = a.invalidateTraffic ∨
    ∃ p res, a.cache.pendingInvalidate (cfg.calcTag m.addr) = some p ∧
      res.solicitingMessage = p.msgID ∧ res.addr = cfg.calcAddr (cfg.calcTag m.addr) ∧
      b.invalidateTraffic =
        (Function.update a.cache.pendingInvalidate (cfg.calcTag m.addr) none,
          a.sent.filterMap Sent.invalidateAnswer ++ [res]) := by
  rw [onLocalInvalidateResponse] at h
  obtain ⟨-, h⟩ := check_bind_eq_ok.1 h
  split at h
  · obtain ⟨-, h⟩ := check_bind_eq_ok.1 h
    obtain ⟨hnone, h⟩ := check_bind_eq_ok.1 h
    cases h
    exact .inl ⟨hnone, rfl⟩
  · dsimp only at h
    generalize hc : (ite (m.blockAttached = true) _ a : Activation) = c at h
    have hca : c.invalidateTraffic = a.invalidateTraffic := by
      rw [← hc]
      split
      · split
        · rfl
        · split <;> rfl
      · rfl
    obtain ⟨hcp, hcs⟩ := Prod.mk.inj hca
    -- an eviction that was pending is sent last and is no answer
    split at h
    · obtain ⟨d, hd, h⟩ := bind_eq_ok.1 h
      obtain ⟨-, p, res, hp, hid, haddr, htraffic⟩ := respondInvalidate_traffic hd
      rw [hcp] at hp htraffic
      rw [hcs] at htraffic
      refine .inr ⟨p, res, hp, hid, haddr, Eq.trans ?_ htraffic⟩
      split at h
      · cases h
        exact Activation.invalidateTraffic_sendMsg rfl
      · cases h
        rfl
    · rename_i hnone
      rw [hcp] at hnone
      refine .inl ⟨hnone, Eq.trans ?_ hca⟩
      rw [pure_bind] at h
      split at h
      · cases h
        exact Activation.invalidateTraffic_sendMsg rfl
      · cases h
        rfl

/-! ## The ledger -/

lemma balanced_new : cfg.Balanced ⟨.new, [], [], [], []⟩ where
  tag _ _ h := nomatch h
  requests _ := rfl
  passed _ h := absurd rfl h

/-- What is pending under a tag when `p` is entered under another or the same one. -/
lemma pending_update {c : BIPMOESICache} {p : Option InvalidateMsg} {t : AddrTag} :
    Function.update c.pendingInvalidate t p tag = if t = tag then p else c.pendingInvalidate tag := by
  by_cases h : t = tag
  · rw [if_pos h, ← h, Function.update_self]
  · rw [if_neg h, Function.update_of_ne (Ne.symm h)]

/-- The cache is told to invalidate a line. -/
lemma Balanced.onRemoteInvalidate (hs : cfg.Balanced s) {m : InvalidateMsg} {rands : List ℕ}
    (ha : cfg.onRemoteInvalidate m (s.device.activation rands) = .ok a)
    (hcache : s'.device.cache = a.cache)
    (haccepted : s'.accepted = s.accepted ++ [m].filter fun m =>
      s.device.cache.pendingInvalidate (cfg.calcTag m.addr) = none)
    (hanswers : s'.answers = s.answers ++ a.sent.filterMap Sent.invalidateAnswer)
    (houtstanding : s'.outstanding = s.outstanding ++ a.sent.filterMap Sent.localInvalidate) :
    cfg.Balanced s' := by
  have hkept : ∀ m' ∈ s.outstanding, m' ∈ s'.outstanding := by
    intro m' hm'
    rw [houtstanding]
    exact List.mem_append_left _ hm'
  rcases hp : s.device.cache.pendingInvalidate (cfg.calcTag m.addr) with _ | p
  · have haccepted : s'.accepted = s.accepted ++ [m] := by
      simp [haccepted, hp]
    rcases onRemoteInvalidate_traffic hp ha with ⟨res, hid, haddr, htraffic⟩ | ⟨hsent, htraffic⟩
    · -- answered at once
      obtain ⟨hpending, hres⟩ := Prod.mk.inj htraffic
      have hpending : s'.device.cache.pendingInvalidate = s.device.cache.pendingInvalidate := by
        rw [hcache]
        exact hpending
      have hres : a.sent.filterMap Sent.invalidateAnswer = [res] := hres
      refine ⟨?_, fun tag => ?_, fun tag h => ?_⟩
      · rw [hpending]
        exact hs.tag
      · rw [haccepted, hanswers, hres, hpending, requestsOf_append, answersOf_append,
          requestsOf_singleton, answersOf_singleton, hs.requests tag, haddr, calcTag_calcAddr, hid]
        split
        · rename_i htag
          rw [← htag, hp, Option.toList_none, List.map_nil, List.append_nil, List.append_nil]
        · rw [List.append_nil, List.append_nil]
      · rw [hpending] at h
        obtain ⟨m', hm', htag⟩ := hs.passed tag h
        exact ⟨m', hkept m' hm', htag⟩
    · -- passed on
      obtain ⟨hpending, hres⟩ := Prod.mk.inj htraffic
      have hpending : s'.device.cache.pendingInvalidate =
          Function.update s.device.cache.pendingInvalidate (cfg.calcTag m.addr) (some m) := by
        rw [hcache]
        exact hpending
      have hres : a.sent.filterMap Sent.invalidateAnswer = [] := hres
      have hm : m ∈ s'.outstanding := by
        rw [houtstanding, hsent]
        exact List.mem_append_right _ (.head _)
      refine ⟨fun tag p h => ?_, fun tag => ?_, fun tag h => ?_⟩
      · rw [hpending, pending_update] at h
        split at h
        · rename_i htag
          cases h
          exact htag
        · exact hs.tag tag p h
      · rw [haccepted, hanswers, hres, hpending, requestsOf_append, requestsOf_singleton,
          hs.requests tag, pending_update, List.append_nil]
        split
        · rename_i htag
          rw [← htag, hp, Option.toList_none, List.map_nil, List.append_nil]
          rfl
        · rw [List.append_nil]
      · rw [hpending, pending_update] at h
        by_cases htag : cfg.calcTag m.addr = tag
        · exact ⟨m, hm, htag⟩
        · rw [if_neg htag] at h
          obtain ⟨m', hm', htag'⟩ := hs.passed tag h
          exact ⟨m', hkept m' hm', htag'⟩
  · -- absorbed
    rw [CacheConfig.onRemoteInvalidate] at ha
    dsimp only at ha
    have hp' : (s.device.activation rands).cache.pendingInvalidate (cfg.calcTag m.addr) = some p := hp
    rw [hp'] at ha
    cases ha
    have hcache : s'.device.cache = s.device.cache := hcache
    have hanswers : s'.answers = s.answers := hanswers.trans (List.append_nil _)
    have haccepted : s'.accepted = s.accepted := by
      simp [haccepted, hp]
    refine ⟨?_, fun tag => ?_, fun tag h => ?_⟩
    · rw [hcache]
      exact hs.tag
    · rw [hcache, hanswers, haccepted]
      exact hs.requests tag
    · rw [hcache] at h
      obtain ⟨m', hm', htag⟩ := hs.passed tag h
      exact ⟨m', hkept m' hm', htag⟩

/-- The local connection answers an invalidation. -/
lemma Balanced.onLocalInvalidateResponse (hs : cfg.Balanced s) {m : InvalidateResponseMsg}
    {rands : List ℕ}
    (ha : cfg.onLocalInvalidateResponse m (s.device.activation rands) = .ok a)
    (hcache : s'.device.cache = a.cache) (haccepted : s'.accepted = s.accepted)
    (hanswers : s'.answers = s.answers ++ a.sent.filterMap Sent.invalidateAnswer)
    (houtstanding : ∀ m' ∈ s.outstanding, cfg.calcTag m'.addr ≠ cfg.calcTag m.addr →
      m' ∈ s'.outstanding) : cfg.Balanced s' := by
  rcases onLocalInvalidateResponse_traffic ha with ⟨hp, htraffic⟩ | ⟨p, res, hp, hid, haddr, htraffic⟩
  · obtain ⟨hpending, hres⟩ := Prod.mk.inj htraffic
    have hpending : s'.device.cache.pendingInvalidate = s.device.cache.pendingInvalidate := by
      rw [hcache]
      exact hpending
    have hres : a.sent.filterMap Sent.invalidateAnswer = [] := hres
    refine ⟨?_, fun tag => ?_, fun tag h => ?_⟩
    · rw [hpending]
      exact hs.tag
    · rw [haccepted, hanswers, hres, hpending, List.append_nil]
      exact hs.requests tag
    · rw [hpending] at h
      obtain ⟨m', hm', htag⟩ := hs.passed tag h
      refine ⟨m', houtstanding m' hm' ?_, htag⟩
      rintro heq
      rw [← htag, heq] at h
      exact h hp
  · obtain ⟨hpending, hres⟩ := Prod.mk.inj htraffic
    have hp : s.device.cache.pendingInvalidate (cfg.calcTag m.addr) = some p := hp
    have hpending : s'.device.cache.pendingInvalidate =
        Function.update s.device.cache.pendingInvalidate (cfg.calcTag m.addr) none := by
      rw [hcache]
      exact hpending
    have hres : a.sent.filterMap Sent.invalidateAnswer = [res] := hres
    refine ⟨fun tag p h => ?_, fun tag => ?_, fun tag h => ?_⟩
    · rw [hpending, pending_update] at h
      split at h
      · cases h
      · exact hs.tag tag p h
    · rw [haccepted, hanswers, hres, hpending, answersOf_append, answersOf_singleton,
        hs.requests tag, pending_update, haddr, calcTag_calcAddr, hid]
      split
      · rename_i htag
        rw [← htag, hp]
        exact (List.append_nil _).symm
      · rw [List.append_nil]
    · rw [hpending, pending_update] at h
      by_cases htag : cfg.calcTag m.addr = tag
      · rw [if_pos htag] at h
        exact absurd rfl h
      · rw [if_neg htag] at h
        obtain ⟨m', hm', htag'⟩ := hs.passed tag h
        exact ⟨m', houtstanding m' hm' fun heq => htag (heq.symm.trans htag'), htag'⟩

/-- One step. -/
lemma Balanced.step (hs : cfg.Balanced s) {e : DeviceEvent}
    (h : cfg.ledger.step s e = .ok s') : cfg.Balanced s' := by
  cases e with
  | processTick =>
    cases h
    exact ⟨hs.tag, hs.requests, hs.passed⟩
  | recvMsg port msg rands =>
    obtain ⟨a, ha, hret⟩ := bind_eq_ok.1 h
    by_cases hside : side port msg = some .invalidations
    · cases port <;> cases msg <;> cases hside
      · rename_i m
        cases hret
        refine hs.onLocalInvalidateResponse ha rfl (List.append_nil _) rfl fun m' hm' hne => ?_
        refine List.mem_append_left _ ((List.mem_eraseP_of_neg ?_).2 hm')
        exact fun h => hne (of_decide_eq_true h).1
      · cases hret
        exact hs.onRemoteInvalidate ha rfl rfl rfl rfl
    · obtain ⟨hpending, hres⟩ := Prod.mk.inj (invalidateTraffic_recvMsg hside a ha)
      have hpending : a.cache.pendingInvalidate = s.device.cache.pendingInvalidate := hpending
      have hres : a.sent.filterMap Sent.invalidateAnswer = [] := hres
      have hother : invalidation port msg = [] ∧
          cfg.unanswered s.outstanding port msg = s.outstanding := by
        cases port <;> cases msg <;> first
          | exact ⟨rfl, rfl⟩
          | exact absurd rfl hside
      cases hret
      refine ⟨?_, fun tag => ?_, fun tag h => ?_⟩
      · dsimp only
        rw [hpending]
        exact hs.tag
      · dsimp only
        rw [hpending, hres, hother.1, List.filter_nil, List.append_nil, List.append_nil]
        exact hs.requests tag
      · dsimp only at h
        rw [hpending] at h
        obtain ⟨m', hm', htag⟩ := hs.passed tag h
        refine ⟨m', List.mem_append_left _ ?_, htag⟩
        rw [hother.2]
        exact hm'

/-- The invalidations that are not absorbed by a pending one are answered once. -/
theorem answersOnce_of_reachable (cfg : CacheConfig) (s : Ledger) (h : cfg.ledger.Reachable s) :
    cfg.AnswersOnce s s.accepted := by
  have hs : cfg.Balanced s := h.invariant balanced_new fun s e s' hs hstep => hs.step hstep
  intro tag
  rw [hs.requests tag]
  refine ⟨⟨_, .rfl, List.sublist_append_left _ _⟩, fun hnone => ?_⟩
  have hpending : s.device.cache.pendingInvalidate tag = none := by
    by_contra hne
    obtain ⟨m, hm, htag⟩ := hs.passed tag hne
    exact hnone m hm htag
  rw [hpending]
  exact .of_eq (List.append_nil _).symm

end CacheConfig

/-! ## Two invalidations of one line -/

/-- A cache that holds line 0 is told twice to invalidate it before the level above has
answered. -/
def invalidatedTwiceRun : List DeviceEvent :=
  [.recvMsg .localConnection (.read
      { msgID := 1, addr := 0, requestingExclusive := true, alreadyHasBlock := false
        directoryLookup := false }) [],
    .recvMsg .remoteConnection (.readResponse
      { msgID := 3, addr := 0, satisfied := true, blockAttached := true, directoryLookup := false
        exclusiveOwnership := true, interventionMessage := 0, isDirty := false
        solicitingMessage := 2 }) [],
    .recvMsg .remoteConnection (.invalidate { msgID := 5, addr := 0, newOwner := 1 }) [],
    .recvMsg .remoteConnection (.invalidate { msgID := 6, addr := 0, newOwner := 2 }) [],
    .recvMsg .localConnection (.invalidateResponse
      { msgID := 7, addr := 0, blockAttached := false, solicitingMessage := 5 }) []]

/-- The state at its end: the second invalidation has no answer. -/
lemma exists_invalidatedTwice : ∃ s, (CacheConfig.ledger .oneBlock).Run invalidatedTwiceRun s ∧
    s.outstanding = [] ∧ s.answers.map (·.solicitingMessage) = [5] ∧
    s.answers.map (·.addr) = [0] ∧ s.accepted.map (·.msgID) = [5] ∧
    CacheConfig.requestsOf .oneBlock 0 s.received = [5, 6] := by
  have hrun : succeeds ((CacheConfig.ledger .oneBlock).exec (CacheConfig.ledger .oneBlock).init
      invalidatedTwiceRun) (fun s => decide (s.outstanding = [] ∧
        s.answers.map (·.solicitingMessage) = [5] ∧ s.answers.map (·.addr) = [0] ∧
        s.accepted.map (·.msgID) = [5] ∧
        CacheConfig.requestsOf .oneBlock 0 s.received = [5, 6])) = true := by
    decide +kernel
  obtain ⟨s, hs, htest⟩ := succeeds_iff.1 hrun
  exact ⟨s, Machine.run_of_exec hs, of_decide_eq_true htest⟩

theorem not_answersOnce_received : ∃ s,
    (CacheConfig.ledger .oneBlock).Run invalidatedTwiceRun s ∧
    ¬CacheConfig.AnswersOnce .oneBlock s s.received := by
  obtain ⟨s, hs, hout, hids, -, -, hreceived⟩ := exists_invalidatedTwice
  refine ⟨s, hs, fun honce => ?_⟩
  have hperm := (honce 0).2 (by rw [hout]; exact List.forall_mem_nil _)
  -- one answer at most, but two invalidations
  have hle : (CacheConfig.answersOf .oneBlock 0 s.answers).length ≤ s.answers.length := by
    rw [CacheConfig.answersOf, List.length_map]
    exact List.length_filter_le _ _
  have hone : s.answers.length = 1 := by
    rw [← List.length_map (f := fun m : InvalidateResponseMsg => m.solicitingMessage), hids]
    rfl
  have htwo := hperm.length_eq
  rw [hreceived] at htwo
  have htwo : (CacheConfig.answersOf .oneBlock 0 s.answers).length = 2 := htwo
  omega

/-- The invalidation that is not absorbed has its answer. -/
theorem answersOnce_invalidatedTwice : ∃ s, (CacheConfig.ledger .oneBlock).Reachable s ∧
    s.accepted.map (·.msgID) = [5] ∧ CacheConfig.AnswersOnce .oneBlock s s.accepted := by
  obtain ⟨s, hs, -, -, -, haccepted, -⟩ := exists_invalidatedTwice
  exact ⟨s, ⟨_, hs⟩, haccepted, CacheConfig.answersOnce_of_reachable .oneBlock s ⟨_, hs⟩⟩

end Sesc.Cache
