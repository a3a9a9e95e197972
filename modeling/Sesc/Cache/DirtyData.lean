import Sesc.Cache.Moves
import Sesc.Lib.Machine

/-!
# Dirty data from the level above

A cache that is not the top one gets dirty data with an eviction or with the answer to an
invalidation.  This file runs one cache in an arbitrary environment and states when such
data survive: they are in the cache afterwards or are sent to the level below.
-/

namespace Sesc.Cache

open Lib

/-! ## One cache and its environment -/

/-- A cache and the counters that the event manager keeps. -/
structure Device where
  cache : BIPMOESICache
  currentMsgStamp : MessageID
  currentTick : TickTime

def Device.new : Device where
  cache := .new
  currentMsgStamp := 1
  currentTick := 0

/-- The activation of a handler; `rands` are the next values of `rand`. -/
def Device.activation (s : Device) (rands : List ℕ) : Activation where
  cache := s.cache
  currentMsgStamp := s.currentMsgStamp
  currentTick := s.currentTick
  rands := rands
  sent := []

inductive DeviceEvent
  /-- Any message arrives on a connection. -/
  | recvMsg (port : Port) (msg : Msg) (rands : List ℕ)
  /-- `EventManager::ProcessTick`. -/
  | processTick

def deviceStep (cfg : CacheConfig) (s : Device) : DeviceEvent → Except Fault Device
  | .recvMsg port msg rands => do
    let a ← cfg.recvMsg port msg (s.activation rands)
    return { s with cache := a.cache, currentMsgStamp := a.currentMsgStamp }
  | .processTick => .ok { s with currentTick := s.currentTick + 1 }

/-- A cache in an environment that sends it any messages. -/
def device (cfg : CacheConfig) : Machine Device DeviceEvent Fault where
  init := .new
  step := deviceStep cfg

/-- A reachable cache is well-formed. -/
lemma wellFormed_of_reachable {cfg : CacheConfig} {s : Device} (hs : (device cfg).Reachable s) :
    cfg.WellFormed s.cache := by
  refine hs.invariant (I := fun s => cfg.WellFormed s.cache) .new fun s e s' hwf hstep => ?_
  cases e with
  | recvMsg port msg rands =>
    obtain ⟨a, ha, hret⟩ := bind_eq_ok.1 hstep
    cases hret
    exact (CacheConfig.moves_recvMsg port msg a ha hwf).1
  | processTick =>
    cases hstep
    exact hwf

/-! ## Dirty data -/

namespace CacheConfig

variable (cfg : CacheConfig)

/-- The tag whose dirty data a message of the local connection brings. -/
def dirtyTag : Msg → Option AddrTag
  | .eviction m => if m.blockAttached then some (cfg.calcTag m.addr) else none
  | .invalidateResponse m => if m.blockAttached then some (cfg.calcTag m.addr) else none
  | _ => none

/-- The cache still accounts for the tag. -/
def Accounts (c : BIPMOESICache) (tag : AddrTag) : Prop :=
  cfg.lookup c tag ≠ none ∨ c.pendingEviction tag ≠ none ∨ c.pendingInvalidate tag ≠ none

/-- The block of the tag in the array has a state with the given property. -/
def BlockIn (p : BIPMOESIState → Prop) (c : BIPMOESICache) (tag : AddrTag) : Prop :=
  ∃ x, cfg.block c tag = some x ∧ p x.state

/-- The block of the tag whose eviction is pending has a state with the given property. -/
def PendingIn (p : BIPMOESIState → Prop) (c : BIPMOESICache) (tag : AddrTag) : Prop :=
  ∃ x, c.pendingEviction tag = some x ∧ p x.state

/-- Whether a message to the level below carries the data of a line. -/
def hasBlock : Msg → Bool
  | .eviction m => m.blockAttached
  | .invalidateResponse m => m.blockAttached
  | .readResponse m => m.blockAttached
  | _ => false

/-- The data of the tag have been sent to the level below. -/
def SendsBlock (tag : AddrTag) (a : Activation) : Prop :=
  ∃ s ∈ a.sent, s.port = .remoteConnection ∧ s.msg.getAddress = cfg.calcAddr tag ∧
    hasBlock s.msg = true

/-- The block of the tag is dirty or its data have been sent to the level below. -/
def DirtyKept (tag : AddrTag) (a : Activation) : Prop :=
  cfg.BlockIn (·.isDirty = true) a.cache tag ∨ PendingIn (·.isDirty = true) a.cache tag ∨
    cfg.SendsBlock tag a

/-- Where dirty data can be kept: an eviction only looks at the array of blocks, the answer to
an invalidation of a canceled eviction at nothing. -/
def Receives (c : BIPMOESICache) (msg : Msg) (tag : AddrTag) : Prop :=
  match msg with
  | .eviction _ => cfg.BlockIn (· ≠ .invalid) c tag ∨ PendingIn (·.isDirty = true) c tag
  | .invalidateResponse _ =>
    if c.canceledBlockEviction tag then cfg.BlockIn (·.isDirty = true) c tag
    else c.pendingEviction tag ≠ none ∨ cfg.BlockIn (· ≠ .invalid) c tag
  | _ => True

/-- The step keeps the dirty data it receives. -/
def KeepsDirtyData (s : Device) : DeviceEvent → Prop
  | .recvMsg .localConnection msg rands => ∀ tag, cfg.dirtyTag msg = some tag →
      cfg.Accounts s.cache tag →
      Ensures (cfg.DirtyKept tag) (cfg.recvMsg .localConnection msg (s.activation rands))
  | _ => True

/-- The step receives dirty data only where they can be kept. -/
def ReceivesDirtyData (s : Device) : DeviceEvent → Prop
  | .recvMsg .localConnection msg _ => ∀ tag, cfg.dirtyTag msg = some tag →
      cfg.Accounts s.cache tag → cfg.Receives s.cache msg tag
  | _ => True

variable {cfg} {a b : Activation} {tag : AddrTag} {j : ℕ}

lemma isDirty_dirtied {x : BIPMOESIState} : x.dirtied.isDirty = true ↔ x ≠ .invalid := by
  cases x <;> simp [BIPMOESIState.dirtied, BIPMOESIState.isDirty]

lemma ne_invalid_of_isDirty {x : BIPMOESIState} (h : x.isDirty = true) : x ≠ .invalid := by
  rintro rfl
  cases h

lemma blockIn_iff_of_lookup {c : BIPMOESICache} {p : BIPMOESIState → Prop}
    (hj : cfg.lookup c tag = some j) : cfg.BlockIn p c tag ↔ p (c.cacheContents j).state := by
  rw [BlockIn, block_of_lookup hj]
  constructor
  · rintro ⟨x, ⟨⟩, hx⟩
    exact hx
  · exact fun h => ⟨_, rfl, h⟩

lemma not_blockIn_of_lookup {c : BIPMOESICache} {p : BIPMOESIState → Prop}
    (hj : cfg.lookup c tag = none) : ¬cfg.BlockIn p c tag := by
  rintro ⟨x, hx, -⟩
  rw [block_of_lookup_none hj] at hx
  cases hx

lemma not_pendingIn {c : BIPMOESICache} {p : BIPMOESIState → Prop}
    (hx : c.pendingEviction tag = none) : ¬PendingIn p c tag := by
  rintro ⟨y, hy, -⟩
  rw [hx] at hy
  cases hy

lemma not_sendsBlock (h : ∀ s ∈ a.sent, s.port = .localConnection ∨ hasBlock s.msg = false) :
    ¬cfg.SendsBlock tag a := by
  rintro ⟨s, hs, hport, -, hblock⟩
  rcases h s hs with hlocal | hnone
  · rw [hlocal] at hport
    cases hport
  · rw [hnone] at hblock
    cases hblock

/-- Dirty data make a block dirty unless it is invalid. -/
lemma blockIn_dirtied (hj : cfg.lookup a.cache tag = some j) :
    cfg.BlockIn (·.isDirty = true)
        (a.modifyBlock j fun b => b.mapState BIPMOESIState.dirtied).cache tag ↔
      cfg.BlockIn (· ≠ .invalid) a.cache tag := by
  have hlookup : cfg.lookup (a.modifyBlock j fun b => b.mapState BIPMOESIState.dirtied).cache =
      cfg.lookup a.cache := lookup_modifyBlock fun x => ⟨rfl, rfl⟩
  rw [blockIn_iff_of_lookup (hlookup ▸ hj), blockIn_iff_of_lookup hj,
    cacheContents_modifyBlock_self]
  exact isDirty_dirtied

/-! ## Evictions -/

lemma dirtyKept_onLocalEviction (ha : cfg.WellFormed a.cache) (hsent : a.sent = [])
    {m : EvictionMsg} (hm : m.blockAttached = true) (h : cfg.onLocalEviction m a = .ok b) :
    cfg.DirtyKept (cfg.calcTag m.addr) b ↔
      cfg.BlockIn (· ≠ .invalid) a.cache (cfg.calcTag m.addr) ∨
        PendingIn (·.isDirty = true) a.cache (cfg.calcTag m.addr) := by
  rw [onLocalEviction] at h
  rcases hj : cfg.lookup a.cache (cfg.calcTag m.addr) with _ | j
  · rw [hj] at h
    cases h
    have hsends : ¬cfg.SendsBlock (cfg.calcTag m.addr) (a.stamped.sendMsg .localConnection
        (.evictionResponse (.ofEviction a.currentMsgStamp m)) cfg.hitTime) := by
      refine not_sendsBlock fun s hs => ?_
      rw [Activation.sendMsg, Activation.stamped, hsent] at hs
      exact .inl (by rw [List.mem_singleton.1 hs])
    have hblock : ∀ p, ¬cfg.BlockIn p a.cache (cfg.calcTag m.addr) :=
      fun p => not_blockIn_of_lookup hj
    constructor
    · rintro (hb | hp | hs)
      · exact absurd hb (hblock _)
      · exact .inr hp
      · exact absurd hs hsends
    · rintro (hb | hp)
      · exact absurd hb (hblock _)
      · exact .inr (.inl hp)
  · rw [hj, hm] at h
    cases h
    have hsends : ¬cfg.SendsBlock (cfg.calcTag m.addr)
        ((a.modifyBlock j fun b => b.mapState BIPMOESIState.dirtied).stamped.sendMsg
          .localConnection (.evictionResponse (.ofEviction a.currentMsgStamp m)) cfg.hitTime) := by
      refine not_sendsBlock fun s hs => ?_
      have hs : s ∈ a.sent ++ [_] := hs
      rw [hsent] at hs
      exact .inl (by rw [List.mem_singleton.1 hs])
    have hpending := ha.pending_eq_none hj
    have hdirty := blockIn_dirtied hj
    constructor
    · rintro (hb | hp | hs)
      · exact .inl (hdirty.1 hb)
      · exact absurd hp (not_pendingIn hpending)
      · exact absurd hs hsends
    · rintro (hb | hp)
      · exact .inl (hdirty.2 hb)
      · exact absurd hp (not_pendingIn hpending)

/-! ## Answers to invalidations -/

/-- The data go with the answer exactly when the answer says so. -/
lemma sendsBlock_iff {res : InvalidateResponseMsg} {rest : List Sent}
    (haddr : res.addr = cfg.calcAddr tag)
    (hb : b.sent = ⟨.remoteConnection, .invalidateResponse res, cfg.invalidateTime⟩ :: rest)
    (hrest : ∀ s ∈ rest, hasBlock s.msg = false) :
    cfg.SendsBlock tag b ↔ res.blockAttached = true := by
  rw [SendsBlock, hb]
  constructor
  · rintro ⟨s, hs, -, -, hblock⟩
    rcases List.mem_cons.1 hs with rfl | hs
    · exact hblock
    · rw [hrest s hs] at hblock
      cases hblock
  · exact fun hblock => ⟨_, .head _, rfl, haddr, hblock⟩

/-- The data go with the answer exactly when the block, in the array or with its eviction
pending, is dirty; nothing valid is left. -/
lemma sendsBlock_respondInvalidate (ha : cfg.WellFormed a.cache) (hsent : a.sent = [])
    (h : cfg.respondInvalidate tag a = .ok b) :
    (cfg.SendsBlock tag b ↔ cfg.BlockIn (·.isDirty = true) a.cache tag ∨
      PendingIn (·.isDirty = true) a.cache tag) ∧
    ¬cfg.BlockIn (· ≠ .invalid) b.cache tag ∧ b.cache.pendingEviction tag = none := by
  obtain ⟨p, res, c, -, haddr, hinvalidates, rfl⟩ := respondInvalidate_eq_ok h
  have hstamped : cfg.WellFormed a.stamped.cache := ha
  cases hinvalidates with
  | refetch j m hj hwaiters hdirty hm =>
    have hpending := ha.pending_eq_none hj
    have hlines := (hstamped.block_modify hj (f := fun x => { x with state := .invalid })
      ⟨rfl, rfl⟩).2.2
    refine ⟨?_, ?_, hpending⟩
    · have hrest : ∀ s ∈ [(⟨.remoteConnection, .read m, cfg.invalidateTime⟩ : Sent)],
          hasBlock s.msg = false := by
        intro s hs
        rw [List.mem_singleton.1 hs]
        rfl
      refine (sendsBlock_iff haddr ?_ hrest).trans ?_
      · show a.sent ++ [_] ++ [_] = _
        rw [hsent]
        rfl
      · rw [hdirty, blockIn_iff_of_lookup hj, or_iff_left (not_pendingIn hpending)]
    · rintro ⟨x, hx, hstate⟩
      have hx : (cfg.lines (a.stamped.modifyBlock j
        fun x => { x with state := .invalid })).block tag = some x := hx
      rw [hlines, Lines.block_setBlock, if_pos rfl] at hx
      cases hx
      exact hstate rfl
  | erase j hj hwaiters hdirty =>
    have hpending := ha.pending_eq_none hj
    refine ⟨?_, ?_, hpending⟩
    · refine (sendsBlock_iff haddr ?_ (List.forall_mem_nil _)).trans ?_
      · show a.sent ++ [_] = _
        rw [hsent]
        rfl
      · rw [hdirty, blockIn_iff_of_lookup hj, or_iff_left (not_pendingIn hpending)]
    · rintro ⟨x, hx, -⟩
      have hx : (cfg.lines (a.stamped.modifyBlock j fun _ => .new)).block tag = some x := hx
      rw [(hstamped.block_erase hj).2, Lines.block_setBlock, if_pos rfl] at hx
      cases hx
  | absent c hnone hwaiters hdirty hcontents hpending hsent' =>
    have hblock : cfg.block c.cache tag = none :=
      (congrFun (block_of_cacheContents hcontents) tag).trans (block_of_lookup_none hnone)
    refine ⟨?_, ?_, ?_⟩
    · refine (sendsBlock_iff haddr ?_ (List.forall_mem_nil _)).trans ?_
      · show c.sent ++ [_] = _
        rw [hsent', hsent]
        rfl
      · rw [hdirty, or_iff_right (not_blockIn_of_lookup hnone)]
        rfl
    · rintro ⟨x, hx, -⟩
      exact Option.some_ne_none x (hx.symm.trans hblock)
    · show c.cache.pendingEviction tag = none
      rw [hpending, Function.update_self]

lemma dirtyKept_onLocalInvalidateResponse (ha : cfg.WellFormed a.cache) (hsent : a.sent = [])
    {m : InvalidateResponseMsg} (hm : m.blockAttached = true)
    (h : cfg.onLocalInvalidateResponse m a = .ok b) :
    cfg.DirtyKept (cfg.calcTag m.addr) b ↔
      if a.cache.canceledBlockEviction (cfg.calcTag m.addr) then
        cfg.BlockIn (·.isDirty = true) a.cache (cfg.calcTag m.addr)
      else a.cache.pendingEviction (cfg.calcTag m.addr) ≠ none ∨
        cfg.BlockIn (· ≠ .invalid) a.cache (cfg.calcTag m.addr) := by
  rw [onLocalInvalidateResponse] at h
  obtain ⟨hassert, h⟩ := check_bind_eq_ok.1 h
  by_cases hcanceled : a.cache.canceledBlockEviction (cfg.calcTag m.addr) = true
  · rw [if_pos hcanceled] at h ⊢
    obtain ⟨hpending, h⟩ := check_bind_eq_ok.1 h
    obtain ⟨-, h⟩ := check_bind_eq_ok.1 h
    cases h
    have hsends : ¬cfg.SendsBlock (cfg.calcTag m.addr)
        (a.setCanceledBlockEviction (cfg.calcTag m.addr) false) := by
      refine not_sendsBlock fun s hs => ?_
      have hs : s ∈ a.sent := hs
      rw [hsent] at hs
      cases hs
    constructor
    · rintro (hb | hp | hs)
      · exact hb
      · exact absurd hp (not_pendingIn hpending)
      · exact absurd hs hsends
    · exact .inl
  · rw [if_neg hcanceled] at h ⊢
    dsimp only at h
    generalize hc : (ite (m.blockAttached = true) _ a : Activation) = c at h
    rw [if_pos hm] at hc
    obtain ⟨hwf, htable, hnone, hsoiled⟩ : cfg.WellFormed c.cache ∧
        c.cache.pendingInvalidate = a.cache.pendingInvalidate ∧ c.sent = [] ∧
        (PendingIn (·.isDirty = true) c.cache (cfg.calcTag m.addr) ∧
            a.cache.pendingEviction (cfg.calcTag m.addr) ≠ none ∨
          a.cache.pendingEviction (cfg.calcTag m.addr) = none ∧
            c.cache.pendingEviction (cfg.calcTag m.addr) = none ∧
            (a.cache.pendingInvalidate (cfg.calcTag m.addr) ≠ none →
              (cfg.BlockIn (·.isDirty = true) c.cache (cfg.calcTag m.addr) ↔
                cfg.BlockIn (· ≠ .invalid) a.cache (cfg.calcTag m.addr)))) := by
      rw [← hc]
      split
      · rename_i x hx
        refine ⟨ha.soil hx, rfl, hsent, .inl ⟨⟨_, Function.update_self _ _ _, ?_⟩, ?_⟩⟩
        · exact isDirty_dirtied.2 (ha.pending _ x hx).2.2.2.1
        · rw [hx]
          exact Option.some_ne_none x
      · rename_i hx
        split
        · rename_i j hp hj
          exact ⟨(ha.block_modify hj ⟨rfl, rfl⟩).1, rfl, hsent,
            .inr ⟨hx, hx, fun _ => blockIn_dirtied hj⟩⟩
        · rename_i hmatch
          refine ⟨ha, rfl, hsent, .inr ⟨hx, hx, fun hp => ?_⟩⟩
          rcases hj : cfg.lookup a.cache (cfg.calcTag m.addr) with _ | j
          · exact iff_of_false (not_blockIn_of_lookup hj) (not_blockIn_of_lookup hj)
          · obtain ⟨p, hp⟩ := Option.ne_none_iff_exists'.1 hp
            exact (hmatch p j hp hj).elim
    split at h
    · -- the answer to the invalidation takes the data along
      obtain ⟨d, hd, h⟩ := bind_eq_ok.1 h
      obtain ⟨hsends, hblock, hpending⟩ := sendsBlock_respondInvalidate hwf hnone hd
      rw [hpending] at h
      cases h
      have hkept : cfg.DirtyKept (cfg.calcTag m.addr) b ↔ cfg.SendsBlock (cfg.calcTag m.addr) b := by
        refine ⟨?_, fun hs => .inr (.inr hs)⟩
        rintro (⟨x, hx, hdirty⟩ | hp | hs)
        · exact absurd ⟨x, hx, ne_invalid_of_isDirty hdirty⟩ hblock
        · exact absurd hp (not_pendingIn hpending)
        · exact hs
      rw [hkept, hsends]
      rename_i p hp
      rw [htable] at hp
      rcases hsoiled with ⟨hdirty, hx⟩ | ⟨hx, hx', hiff⟩
      · exact iff_of_true (.inr hdirty) (.inl hx)
      · rw [or_iff_left (not_pendingIn hx'), or_iff_right (fun hne => hne hx)]
        exact hiff (by rw [hp]; exact Option.some_ne_none p)
    · rename_i hp
      rw [pure_bind] at h
      rw [htable] at hp
      rcases hsoiled with ⟨⟨x, hx, hdirty⟩, hne⟩ | ⟨hx, -, -⟩
      · rw [hx] at h
        cases h
        exact iff_of_true (.inr (.inr ⟨_, List.mem_append_right _ (.head _), rfl, rfl, hdirty⟩))
          (.inl hne)
      · -- neither an eviction nor an invalidation is pending
        rcases hassert with hne | hne | hc
        · exact absurd hx hne
        · exact absurd hp hne
        · exact absurd hc hcanceled

end CacheConfig

/-! ## Runs -/

variable {cfg : CacheConfig}

/-- A step from a reachable state keeps the dirty data it receives exactly when it receives
them where they can be kept. -/
lemma keepsDirtyData_step_iff {s s' : Device} {e : DeviceEvent} (hs : (device cfg).Reachable s)
    (hstep : deviceStep cfg s e = .ok s') : cfg.KeepsDirtyData s e ↔ cfg.ReceivesDirtyData s e := by
  have hwf := wellFormed_of_reachable hs
  rcases e with ⟨_ | _, msg, rands⟩ | _
  · obtain ⟨a, ha, -⟩ := bind_eq_ok.1 hstep
    -- whether the data of the message are kept does not depend on the accounting
    have hiff : ∀ tag, cfg.dirtyTag msg = some tag →
        (cfg.DirtyKept tag a ↔ cfg.Receives s.cache msg tag) := by
      intro tag htag
      rcases msg with m | m | m | m | m | m | m | m | m | m | m | m | m | m | m | m | m | m
      case eviction =>
        obtain ⟨hm, htag⟩ := Option.ite_none_right_eq_some.1 htag
        cases htag
        exact CacheConfig.dirtyKept_onLocalEviction hwf rfl hm ha
      case invalidateResponse =>
        obtain ⟨hm, htag⟩ := Option.ite_none_right_eq_some.1 htag
        cases htag
        exact CacheConfig.dirtyKept_onLocalInvalidateResponse hwf rfl hm ha
      all_goals cases htag
    constructor
    · intro hkeeps tag htag hacc
      exact (hiff tag htag).1 (hkeeps tag htag hacc a ha)
    · intro hreceives tag htag hacc b hb
      rw [ha] at hb
      cases hb
      exact (hiff tag htag).2 (hreceives tag htag hacc)
  · exact .rfl
  · exact .rfl

/-- Dirty data from the level above are kept along a run exactly when every step of the run
receives them where they can be kept. -/
theorem keepsDirtyData_iff (cfg : CacheConfig) (es : List DeviceEvent) (s : Device) :
    (device cfg).RunWhere cfg.KeepsDirtyData es s ↔
      (device cfg).RunWhere cfg.ReceivesDirtyData es s := by
  constructor
  · intro h
    exact h.mono_of_run fun es s e s' hrun hstep =>
      (keepsDirtyData_step_iff ⟨es, hrun⟩ hstep).1
  · intro h
    exact h.mono_of_run fun es s e s' hrun hstep =>
      (keepsDirtyData_step_iff ⟨es, hrun⟩ hstep).2

/-! ## An eviction that crosses an eviction -/

/-- A lower cache with one block. -/
def CacheConfig.oneBlock : CacheConfig where
  kind := .bipMOESI
  hitTime := 1
  missTime := 1
  evictionTime := 2
  invalidateTime := 1
  satisfyRequestTime := 1
  evictionPolicy := .lru
  associativity := 1
  setCount := 1
  lineSize := 64
  topCache := false

/-- The level above has read line 0 exclusively and then asks for line 1, for which this cache
evicts line 0. -/
def crossingRun : List DeviceEvent :=
  [.recvMsg .localConnection (.read
      { msgID := 1, addr := 0, requestingExclusive := true, alreadyHasBlock := false
        directoryLookup := false }) [],
    .recvMsg .remoteConnection (.readResponse
      { msgID := 3, addr := 0, satisfied := true, blockAttached := true, directoryLookup := false
        exclusiveOwnership := true, interventionMessage := 0, isDirty := false
        solicitingMessage := 2 }) [],
    .recvMsg .localConnection (.read
      { msgID := 5, addr := 64, requestingExclusive := false, alreadyHasBlock := false
        directoryLookup := false }) []]

/-- The level above has itself evicted line 0, which it had written to, before it asked for
line 1. -/
def crossingEviction : Msg := .eviction { msgID := 6, addr := 0, blockAttached := true }

/-- The dirty data arrive when the line is only among the pending evictions, and are lost. -/
theorem not_keepsDirtyData_of_crossing : ∃ s a,
    (device .oneBlock).Run crossingRun s ∧
    CacheConfig.dirtyTag .oneBlock crossingEviction = some 0 ∧
    CacheConfig.Accounts .oneBlock s.cache 0 ∧
    CacheConfig.recvMsg .oneBlock .localConnection crossingEviction (s.activation []) = .ok a ∧
    ¬CacheConfig.DirtyKept .oneBlock 0 a := by
  have hrun : succeeds ((device .oneBlock).exec (device .oneBlock).init crossingRun) (fun s =>
      succeeds (CacheConfig.recvMsg .oneBlock .localConnection crossingEviction (s.activation []))
        fun a => decide (s.cache.pendingEviction 0 ≠ none ∧
          CacheConfig.block .oneBlock a.cache 0 = none ∧
          (a.cache.pendingEviction 0).map BlockState.state = some .exclusive ∧
          ∀ x ∈ a.sent, x.port = .localConnection)) = true := by
    decide +kernel
  obtain ⟨s, hs, hrecv⟩ := succeeds_iff.1 hrun
  obtain ⟨a, ha, htest⟩ := succeeds_iff.1 hrecv
  obtain ⟨hpending, hblock, hstate, hsent⟩ := of_decide_eq_true htest
  refine ⟨s, a, Machine.run_of_exec hs, rfl, .inr (.inl hpending), ha, ?_⟩
  rintro (⟨x, hx, -⟩ | ⟨x, hx, hdirty⟩ | ⟨x, hx, hport, -⟩)
  · rw [hblock] at hx
    cases hx
  · rw [hx] at hstate
    cases (Option.some.inj hstate) ▸ hdirty
  · rw [hsent x hx] at hport
    cases hport

end Sesc.Cache
