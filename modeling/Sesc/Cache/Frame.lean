import Sesc.Cache.Handlers

/-!
# What the handlers of a cache leave alone

A cache serves the requests of its local connection, the reads of its remote connection and
the invalidations of its remote connection.  Each of these three has its own tables and its
own kind of answer; a handler of one leaves the other two alone.
-/

namespace Sesc.Cache

open Lib

/-- The request of a local connection that an answer is for. -/
inductive LocalAnswer
  | read (m : ReadResponseMsg)
  | write (m : WriteResponseMsg)
deriving DecidableEq, Repr

/-- The answer to a local request. -/
def Sent.localAnswer : Sent → Option LocalAnswer
  | ⟨.localConnection, .readResponse m, _⟩ => some (.read m)
  | ⟨.localConnection, .writeResponse m, _⟩ => some (.write m)
  | _ => none

/-- The answer to a remote read. -/
def Sent.readAnswer : Sent → Option ReadResponseMsg
  | ⟨.remoteConnection, .readResponse m, _⟩ => some m
  | _ => none

/-- The answer to an invalidation. -/
def Sent.invalidateAnswer : Sent → Option InvalidateResponseMsg
  | ⟨.remoteConnection, .invalidateResponse m, _⟩ => some m
  | _ => none

namespace Activation

/-- What belongs to the requests of the local connection. -/
def localTraffic (a : Activation) :=
  (a.cache.waitingOnBlockUnlock, a.cache.waitingOnSetUnlock, a.sent.filterMap Sent.localAnswer)

/-- What belongs to the reads of the remote connection. -/
def readTraffic (a : Activation) :=
  (a.cache.waitingOnRemoteReads, a.sent.filterMap Sent.readAnswer)

/-- What belongs to the invalidations of the remote connection. -/
def invalidateTraffic (a : Activation) :=
  (a.cache.pendingInvalidate, a.sent.filterMap Sent.invalidateAnswer)

def remoteTraffic (a : Activation) := (a.readTraffic, a.invalidateTraffic)

def traffic (a : Activation) := (a.localTraffic, a.readTraffic, a.invalidateTraffic)

variable {a b : Activation} {port : Port} {msg : Msg} {delay : TimeDelta}

lemma localTraffic_sendMsg (h : Sent.localAnswer ⟨port, msg, delay⟩ = none) :
    (a.sendMsg port msg delay).localTraffic = a.localTraffic := by
  simp [localTraffic, sendMsg, h]

lemma readTraffic_sendMsg (h : Sent.readAnswer ⟨port, msg, delay⟩ = none) :
    (a.sendMsg port msg delay).readTraffic = a.readTraffic := by
  simp [readTraffic, sendMsg, h]

lemma invalidateTraffic_sendMsg (h : Sent.invalidateAnswer ⟨port, msg, delay⟩ = none) :
    (a.sendMsg port msg delay).invalidateTraffic = a.invalidateTraffic := by
  simp [invalidateTraffic, sendMsg, h]

lemma remoteTraffic_sendMsg (hread : Sent.readAnswer ⟨port, msg, delay⟩ = none)
    (hinvalidate : Sent.invalidateAnswer ⟨port, msg, delay⟩ = none) :
    (a.sendMsg port msg delay).remoteTraffic = a.remoteTraffic := by
  rw [remoteTraffic, readTraffic_sendMsg hread, invalidateTraffic_sendMsg hinvalidate]
  rfl

lemma traffic_sendMsg (hlocal : Sent.localAnswer ⟨port, msg, delay⟩ = none)
    (hread : Sent.readAnswer ⟨port, msg, delay⟩ = none)
    (hinvalidate : Sent.invalidateAnswer ⟨port, msg, delay⟩ = none) :
    (a.sendMsg port msg delay).traffic = a.traffic := by
  rw [traffic, localTraffic_sendMsg hlocal, readTraffic_sendMsg hread,
    invalidateTraffic_sendMsg hinvalidate]
  rfl

lemma remoteTraffic_eq (h : b.traffic = a.traffic) : b.remoteTraffic = a.remoteTraffic :=
  congrArg Prod.snd h

lemma localTraffic_eq (h : b.traffic = a.traffic) : b.localTraffic = a.localTraffic :=
  congrArg Prod.fst h

end Activation

namespace CacheConfig

open Activation

variable {cfg : CacheConfig} {a : Activation} {tag : AddrTag} {j : ℕ}

/-! ## Blocks -/

lemma keeps_invalidateBlock : Keeps traffic a (invalidateBlock j a) := by
  rw [invalidateBlock]
  exact keeps_check_bind.2 fun _ => keeps_pure.2 rfl

lemma keeps_prepareFreshBlock {set i : ℕ} :
    Keeps traffic a (cfg.prepareFreshBlock set i tag a) := by
  rw [prepareFreshBlock]
  refine keeps_check_bind.2 fun _ => ?_
  split
  · exact keeps_pure.2 rfl
  · exact keeps_check_bind.2 fun _ => keeps_check_bind.2 fun _ => keeps_pure.2 rfl

lemma keeps_evictBlock : Keeps traffic a (cfg.evictBlock tag a) := by
  rw [evictBlock]
  split
  · exact keeps_error
  · refine keeps_check_bind.2 fun _ => keeps_check_bind.2 fun _ => keeps_check_bind.2 fun _ =>
      keeps_check_bind.2 fun _ => keeps_pure.2 ?_
    exact traffic_sendMsg rfl rfl rfl

lemma traffic_evict {set : ℕ} {r : Option ℕ × Activation} (h : cfg.evict set a = .ok r) :
    r.2.traffic = a.traffic := by
  rw [evict] at h
  obtain ⟨-, h⟩ := check_bind_eq_ok.1 h
  split at h
  · obtain ⟨i, -, hret⟩ := bind_eq_ok.1 h
    cases hret
    rfl
  · obtain ⟨i, -, hret⟩ := bind_eq_ok.1 h
    cases hret
    show (if i = none then a else { a with rands := a.rands.tail }).traffic = a.traffic
    split <;> rfl

lemma traffic_allocateBlock :
    Ensures (fun r => r.2.traffic = a.traffic) (cfg.allocateBlock tag a) := by
  intro r h
  rw [allocateBlock] at h
  dsimp only at h
  split at h
  · obtain ⟨b, hb, hret⟩ := bind_eq_ok.1 h
    cases hret
    exact keeps_prepareFreshBlock b hb
  · obtain ⟨⟨eviction, b⟩, hevict, h⟩ := bind_eq_ok.1 h
    have hab : b.traffic = a.traffic := traffic_evict hevict
    dsimp only at h
    split at h
    · cases h
      exact hab
    · split at h
      · obtain ⟨c, hc, h⟩ := bind_eq_ok.1 h
        obtain ⟨d, hd, hret⟩ := bind_eq_ok.1 h
        cases hret
        exact (keeps_prepareFreshBlock d hd).trans ((keeps_evictBlock c hc).trans hab)
      · obtain ⟨-, h⟩ := check_bind_eq_ok.1 h
        obtain ⟨d, hd, hret⟩ := bind_eq_ok.1 h
        cases hret
        refine (keeps_prepareFreshBlock d hd).trans (Eq.trans ?_ hab)
        split
        · exact traffic_sendMsg rfl rfl rfl
        · rfl

lemma keeps_forwardMiss {x : BlockState} {requestingExclusive : Bool} :
    Keeps traffic a (cfg.forwardMiss tag x requestingExclusive a) := by
  rw [forwardMiss]
  split
  · exact keeps_ok.2 rfl
  · refine Keeps.bind (x := cfg.lockBlock tag a) ?_ fun b _ =>
      keeps_pure.2 (traffic_sendMsg rfl rfl rfl)
    rw [lockBlock]
    split
    · exact keeps_error
    · exact keeps_check_bind.2 fun _ => keeps_check_bind.2 fun _ => keeps_check_bind.2 fun _ =>
        keeps_pure.2 rfl

/-! ## Requests of the local connection -/

/-- A miss leaves the traffic of the remote connection alone. -/
lemma keeps_remote_forwardMiss {x : BlockState} {requestingExclusive : Bool} :
    Keeps remoteTraffic a (cfg.forwardMiss tag x requestingExclusive a) :=
  Ensures.mono keeps_forwardMiss fun _ => remoteTraffic_eq

lemma keeps_performRead (m : ReadMsg) : Keeps remoteTraffic a (cfg.performRead m a) := by
  rw [performRead]
  dsimp only
  split
  · exact keeps_error
  · split
    · exact keeps_remote_forwardMiss.bind fun b _ => keeps_pure.2 rfl
    · exact keeps_pure.2 (remoteTraffic_sendMsg rfl rfl)

lemma keeps_performWrite (m : WriteMsg) : Keeps remoteTraffic a (cfg.performWrite m a) := by
  rw [performWrite]
  dsimp only
  split
  · exact keeps_error
  · split
    · exact keeps_remote_forwardMiss.bind fun b _ => keeps_pure.2 rfl
    · exact keeps_pure.2 (remoteTraffic_sendMsg rfl rfl)

lemma keeps_onLocalRead (m : ReadMsg) : Keeps remoteTraffic a (cfg.onLocalRead m a) := by
  rw [onLocalRead]
  dsimp only
  split
  · exact keeps_performRead m
  · refine Ensures.bind traffic_allocateBlock fun r hr => ?_
    have hra : r.2.remoteTraffic = a.remoteTraffic := remoteTraffic_eq hr
    split
    · exact (keeps_performRead m).of_eq hra
    · exact keeps_pure.2 hra

lemma keeps_onLocalWrite (m : WriteMsg) : Keeps remoteTraffic a (cfg.onLocalWrite m a) := by
  rw [onLocalWrite]
  dsimp only
  split
  · exact keeps_performWrite m
  · refine Ensures.bind traffic_allocateBlock fun r hr => ?_
    have hra : r.2.remoteTraffic = a.remoteTraffic := remoteTraffic_eq hr
    split
    · exact (keeps_performWrite m).of_eq hra
    · exact keeps_pure.2 hra

lemma keeps_performBlockWaiters (l : List BlockWaiter) :
    Keeps remoteTraffic a (cfg.performBlockWaiters l a) := by
  induction l generalizing a with
  | nil => exact keeps_ok.2 rfl
  | cons f rest ih =>
    cases f with
    | performRead m => exact (keeps_performRead m).bind fun b _ => ih
    | performWrite m => exact (keeps_performWrite m).bind fun b _ => ih

lemma keeps_retrySetWaiters (l : List SetWaiter) :
    Keeps remoteTraffic a (cfg.retrySetWaiters l a) := by
  induction l generalizing a with
  | nil => exact keeps_ok.2 rfl
  | cons f rest ih =>
    cases f with
    | read m => exact (keeps_onLocalRead m).bind fun b _ => ih
    | write m => exact (keeps_onLocalWrite m).bind fun b _ => ih

lemma keeps_unlockBlock : Keeps remoteTraffic a (cfg.unlockBlock tag a) := by
  rw [unlockBlock]
  split
  · exact keeps_error
  · refine keeps_check_bind.2 fun _ => keeps_check_bind.2 fun _ => keeps_check_bind.2 fun _ => ?_
    refine Keeps.bind ((keeps_performBlockWaiters _).of_eq rfl) fun b _ => ?_
    split
    · exact keeps_pure.2 rfl
    · exact (keeps_retrySetWaiters _).of_eq rfl

lemma keeps_onRemoteReadResponse (m : ReadResponseMsg) :
    Keeps remoteTraffic a (cfg.onRemoteReadResponse m a) := by
  rw [onRemoteReadResponse]
  split
  · refine keeps_ok.2 ?_
    split
    · rfl
    · exact remoteTraffic_sendMsg rfl rfl
  · split
    · refine keeps_ok.2 ?_
      split
      · rfl
      · exact remoteTraffic_sendMsg rfl rfl
    · exact keeps_unlockBlock.of_eq rfl

/-! ## Reads of the remote connection -/

/-- What a remote read leaves alone. -/
def besideReads (a : Activation) := (a.localTraffic, a.invalidateTraffic)

lemma besideReads_sendMsg {port : Port} {msg : Msg} {delay : TimeDelta}
    (hlocal : Sent.localAnswer ⟨port, msg, delay⟩ = none)
    (hinvalidate : Sent.invalidateAnswer ⟨port, msg, delay⟩ = none) :
    besideReads (a.sendMsg port msg delay) = besideReads a := by
  rw [besideReads, localTraffic_sendMsg hlocal, invalidateTraffic_sendMsg hinvalidate]
  rfl

lemma keeps_performRemoteRead (m : ReadMsg) :
    Keeps besideReads a (cfg.performRemoteRead m a) := by
  rw [performRemoteRead]
  dsimp only
  split
  · exact keeps_ok.2 (besideReads_sendMsg rfl rfl)
  · split
    · exact keeps_ok.2 (besideReads_sendMsg rfl rfl)
    · split
      · split
        · refine keeps_check_bind.2 fun _ => keeps_ok.2 ?_
          exact besideReads_sendMsg rfl rfl
        · refine keeps_check_bind.2 fun _ => ?_
          refine Ensures.bind (keeps_invalidateBlock (a := a.stamped)) fun b hb =>
            ensures_pure.2 ((besideReads_sendMsg rfl rfl).trans ?_)
          exact congrArg (fun t => (t.1, t.2.2)) hb
      · exact keeps_ok.2 (besideReads_sendMsg rfl rfl)

lemma keeps_performRemoteReads (l : List ReadMsg) :
    Keeps besideReads a (cfg.performRemoteReads l a) := by
  induction l generalizing a with
  | nil => exact keeps_ok.2 rfl
  | cons m rest ih => exact (keeps_performRemoteRead m).bind fun b _ => ih

lemma keeps_onLocalReadResponse (m : ReadResponseMsg) :
    Keeps besideReads a (cfg.onLocalReadResponse m a) :=
  (keeps_performRemoteReads _).of_eq rfl

lemma keeps_onRemoteRead (m : ReadMsg) : Keeps besideReads a (cfg.onRemoteRead m a) := by
  rw [onRemoteRead]
  dsimp only
  split
  · exact keeps_performRemoteRead m
  · split
    · exact keeps_performRemoteRead m
    · exact keeps_ok.2 (besideReads_sendMsg (a := a.stamped) rfl rfl)

/-! ## Invalidations of the remote connection -/

/-- What an invalidation leaves alone. -/
def besideInvalidations (a : Activation) := (a.localTraffic, a.readTraffic)

lemma besideInvalidations_sendMsg {port : Port} {msg : Msg} {delay : TimeDelta}
    (hlocal : Sent.localAnswer ⟨port, msg, delay⟩ = none)
    (hread : Sent.readAnswer ⟨port, msg, delay⟩ = none) :
    besideInvalidations (a.sendMsg port msg delay) = besideInvalidations a := by
  rw [besideInvalidations, localTraffic_sendMsg hlocal, readTraffic_sendMsg hread]
  rfl

/-- The answer `res` to the invalidation `p` is sent. -/
lemma respondInvalidate_sends {c d : Activation} {p : InvalidateMsg} {res : InvalidateResponseMsg}
    {delay : TimeDelta} (hp : a.cache.pendingInvalidate tag = some p)
    (hid : res.solicitingMessage = p.msgID) (haddr : res.addr = cfg.calcAddr tag)
    (hc : c.traffic = a.traffic)
    (hd : d.traffic =
      (c.sendMsg .remoteConnection (.invalidateResponse res) delay).traffic) :
    besideInvalidations (d.setPendingInvalidate tag none) = besideInvalidations a ∧
      ∃ p res, a.cache.pendingInvalidate tag = some p ∧ res.solicitingMessage = p.msgID ∧
        res.addr = cfg.calcAddr tag ∧
        (d.setPendingInvalidate tag none).invalidateTraffic =
          (Function.update a.cache.pendingInvalidate tag none,
            a.sent.filterMap Sent.invalidateAnswer ++ [res]) := by
  have hbeside : besideInvalidations d = besideInvalidations a := by
    calc besideInvalidations d = besideInvalidations
          (c.sendMsg .remoteConnection (.invalidateResponse res) delay) :=
          congrArg (fun t => (t.1, t.2.1)) hd
      _ = besideInvalidations c := besideInvalidations_sendMsg rfl rfl
      _ = besideInvalidations a := congrArg (fun t => (t.1, t.2.1)) hc
  have hsent : (c.sendMsg .remoteConnection (.invalidateResponse res) delay).invalidateTraffic =
      (c.cache.pendingInvalidate, c.sent.filterMap Sent.invalidateAnswer ++ [res]) := by
    simp [invalidateTraffic, sendMsg, Sent.invalidateAnswer]
  have hd : d.invalidateTraffic = _ := (congrArg (fun t => t.2.2) hd).trans hsent
  have hc : c.invalidateTraffic = a.invalidateTraffic := congrArg (fun t => t.2.2) hc
  refine ⟨hbeside, p, res, hp, hid, haddr, ?_⟩
  obtain ⟨hdp, hds⟩ := Prod.mk.inj hd
  obtain ⟨hcp, hcs⟩ := Prod.mk.inj hc
  rw [← hcp, ← hcs, ← hdp, ← hds]
  rfl

/-- A pending invalidation gets one answer and is no longer pending. -/
lemma respondInvalidate_traffic {b : Activation} (h : cfg.respondInvalidate tag a = .ok b) :
    besideInvalidations b = besideInvalidations a ∧
      ∃ p res, a.cache.pendingInvalidate tag = some p ∧ res.solicitingMessage = p.msgID ∧
        res.addr = cfg.calcAddr tag ∧
        b.invalidateTraffic = (Function.update a.cache.pendingInvalidate tag none,
          a.sent.filterMap Sent.invalidateAnswer ++ [res]) := by
  rw [respondInvalidate] at h
  split at h
  · cases h
  · rename_i p hp
    dsimp only at h
    rcases hj : cfg.lookup a.cache tag with _ | j
    · rw [hj] at h
      rcases hx : a.stamped.cache.pendingEviction tag with _ | x
      all_goals
        rw [hx] at h
        dsimp only at h
        split at h
        · cases h
        · cases h
          exact respondInvalidate_sends hp rfl rfl rfl rfl
    · rw [hj] at h
      dsimp only at h
      split at h
      · obtain ⟨-, h⟩ := check_bind_eq_ok.1 h
        cases h
        -- the block is read again
        exact respondInvalidate_sends hp rfl rfl rfl (traffic_sendMsg rfl rfl rfl)
      · obtain ⟨c, hc, hret⟩ := bind_eq_ok.1 h
        cases hret
        exact respondInvalidate_sends (c := a.stamped) hp rfl rfl rfl (keeps_invalidateBlock c hc)

lemma keeps_respondInvalidate : Keeps besideInvalidations a (cfg.respondInvalidate tag a) :=
  fun _ h => (respondInvalidate_traffic h).1

lemma keeps_onLocalInvalidateResponse (m : InvalidateResponseMsg) :
    Keeps besideInvalidations a (cfg.onLocalInvalidateResponse m a) := by
  rw [onLocalInvalidateResponse]
  refine keeps_check_bind.2 fun _ => ?_
  split
  · exact keeps_check_bind.2 fun _ => keeps_check_bind.2 fun _ => keeps_pure.2 rfl
  · generalize hc : (ite (m.blockAttached = true) _ a : Activation) = c
    have hca : besideInvalidations c = besideInvalidations a := by
      rw [← hc]
      split
      · split
        · rfl
        · split <;> rfl
      · rfl
    dsimp only
    -- an eviction that was pending is sent at the end
    split
    · refine Ensures.bind (keeps_respondInvalidate.of_eq hca) fun d hd => ?_
      split
      · exact ensures_pure.2 ((besideInvalidations_sendMsg rfl rfl).trans hd)
      · exact ensures_pure.2 hd
    · rw [pure_bind]
      split
      · exact keeps_pure.2 ((besideInvalidations_sendMsg rfl rfl).trans hca)
      · exact keeps_pure.2 hca

lemma keeps_onRemoteInvalidate (m : InvalidateMsg) :
    Keeps besideInvalidations a (cfg.onRemoteInvalidate m a) := by
  rw [onRemoteInvalidate]
  dsimp only
  split
  · exact keeps_ok.2 rfl
  · split
    · exact keeps_respondInvalidate.of_eq rfl
    · split
      · exact keeps_ok.2 (besideInvalidations_sendMsg rfl rfl)
      · exact keeps_respondInvalidate.of_eq rfl

/-! ## The three kinds of traffic -/

/-- What a message belongs to. -/
inductive Side
  | requests
  | reads
  | invalidations
deriving DecidableEq, Repr

/-- What a message that arrives on a connection belongs to. -/
def side : Port → Msg → Option Side
  | .localConnection, .read _ => some .requests
  | .localConnection, .write _ => some .requests
  | .remoteConnection, .readResponse _ => some .requests
  | .remoteConnection, .read _ => some .reads
  | .localConnection, .readResponse _ => some .reads
  | .remoteConnection, .invalidate _ => some .invalidations
  | .localConnection, .invalidateResponse _ => some .invalidations
  | _, _ => none

lemma keeps_onLocalEviction (m : EvictionMsg) : Keeps traffic a (cfg.onLocalEviction m a) := by
  rw [onLocalEviction]
  refine keeps_ok.2 ((traffic_sendMsg rfl rfl rfl).trans ?_)
  split
  · split <;> rfl
  · rfl

/-- A message that is of no side. -/
lemma keeps_recvMsg {port : Port} {msg : Msg} (h : side port msg = none) :
    Keeps traffic a (cfg.recvMsg port msg a) := by
  cases port <;> cases msg <;> first
    | exact keeps_error
    | exact keeps_ok.2 rfl
    | exact keeps_onLocalEviction _
    | exact keeps_ok.2 (traffic_sendMsg rfl rfl rfl)
    | cases h

lemma keeps_recvMsg_requests {port : Port} {msg : Msg} (h : side port msg = some .requests) :
    Keeps remoteTraffic a (cfg.recvMsg port msg a) := by
  cases port <;> cases msg <;> first
    | exact keeps_onLocalRead _
    | exact keeps_onLocalWrite _
    | exact keeps_onRemoteReadResponse _
    | cases h

lemma keeps_recvMsg_reads {port : Port} {msg : Msg} (h : side port msg = some .reads) :
    Keeps besideReads a (cfg.recvMsg port msg a) := by
  cases port <;> cases msg <;> first
    | exact keeps_onRemoteRead _
    | exact keeps_onLocalReadResponse _
    | cases h

lemma keeps_recvMsg_invalidations {port : Port} {msg : Msg}
    (h : side port msg = some .invalidations) :
    Keeps besideInvalidations a (cfg.recvMsg port msg a) := by
  cases port <;> cases msg <;> first
    | exact keeps_onRemoteInvalidate _
    | exact keeps_onLocalInvalidateResponse _
    | cases h

/-- Only the messages of the remote reads change what belongs to them. -/
theorem readTraffic_recvMsg {port : Port} {msg : Msg} (h : side port msg ≠ some .reads) :
    Keeps readTraffic a (cfg.recvMsg port msg a) := by
  rcases hside : side port msg with _ | _ | _ | _
  · exact Ensures.mono (keeps_recvMsg hside) fun b hb => congrArg (fun t => t.2.1) hb
  · exact Ensures.mono (keeps_recvMsg_requests hside) fun b hb => congrArg Prod.fst hb
  · exact absurd hside h
  · exact Ensures.mono (keeps_recvMsg_invalidations hside) fun b hb => congrArg Prod.snd hb

/-- Only the messages of the invalidations change what belongs to them. -/
theorem invalidateTraffic_recvMsg {port : Port} {msg : Msg}
    (h : side port msg ≠ some .invalidations) :
    Keeps invalidateTraffic a (cfg.recvMsg port msg a) := by
  rcases hside : side port msg with _ | _ | _ | _
  · exact Ensures.mono (keeps_recvMsg hside) fun b hb => congrArg (fun t => t.2.2) hb
  · exact Ensures.mono (keeps_recvMsg_requests hside) fun b hb => congrArg Prod.snd hb
  · exact Ensures.mono (keeps_recvMsg_reads hside) fun b hb => congrArg Prod.snd hb
  · exact absurd hside h

/-- Only the messages of the local requests change what belongs to them. -/
theorem localTraffic_recvMsg {port : Port} {msg : Msg} (h : side port msg ≠ some .requests) :
    Keeps localTraffic a (cfg.recvMsg port msg a) := by
  rcases hside : side port msg with _ | _ | _ | _
  · exact Ensures.mono (keeps_recvMsg hside) fun b hb => congrArg Prod.fst hb
  · exact absurd hside h
  · exact Ensures.mono (keeps_recvMsg_reads hside) fun b hb => congrArg Prod.fst hb
  · exact Ensures.mono (keeps_recvMsg_invalidations hside) fun b hb => congrArg Prod.fst hb

end CacheConfig

end Sesc.Cache
