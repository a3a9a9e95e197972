import Sesc.Cache.Dirtiness
import Sesc.Cache.Inclusion

/-!
# The two signs of a dirty block in a run

What the other messages of a top cache do to its blocks, and that the two signs agree in every
run in which no exclusive answer hides what has been written.
-/

namespace Sesc.Cache

open Lib

namespace CacheConfig

variable {cfg : CacheConfig} {a b : Activation} {c c' : BIPMOESICache} {tag : AddrTag} {j : ℕ}
  {waiting : List BlockWaiter} {x : BlockState}

/-! ## Remote reads and invalidations -/

/-- A block changes, but not the requests that wait for it. -/
lemma AllAgree.restate (h : cfg.AllAgree [] c) (hc : cfg.WellFormed c)
    (hj : cfg.lookup c tag = some j) (hx : x.valid = true ∧ x.tag = tag)
    (hcontents : c'.cacheContents = Function.update c.cacheContents j x)
    (hwaiting : c'.waitingOnBlockUnlock = c.waitingOnBlockUnlock)
    (hagrees : cfg.Agrees tag [] (c.waitingOnBlockUnlock tag) x) : cfg.AllAgree [] c' := by
  refine h.replace hc hj hx hcontents (l := c.waitingOnBlockUnlock tag) ?_ ?_ hagrees
  · rw [hwaiting, Function.update_eq_self]
  · exact fun u y _ hy => hy

/-- A block is erased. -/
lemma AllAgree.erase (h : cfg.AllAgree [] c) (hc : cfg.WellFormed c)
    (hj : cfg.lookup c tag = some j)
    (hcontents : c'.cacheContents = Function.update c.cacheContents j .new)
    (hwaiting : c'.waitingOnBlockUnlock = c.waitingOnBlockUnlock) : cfg.AllAgree [] c' := by
  intro u y hy
  rw [hc.block_remove hj hcontents] at hy
  rw [hwaiting]
  split at hy
  · cases hy
  · exact h u y hy

/-- The blocks and the requests that wait for them are the same. -/
lemma AllAgree.congr (h : cfg.AllAgree [] c) (hcontents : c'.cacheContents = c.cacheContents)
    (hwaiting : c'.waitingOnBlockUnlock = c.waitingOnBlockUnlock) : cfg.AllAgree [] c' := by
  intro u y hy
  rw [block_of_cacheContents hcontents] at hy
  rw [hwaiting]
  exact h u y hy

lemma agree_performRemoteRead (hc : cfg.WellFormed a.cache) (h : cfg.AllAgree [] a.cache)
    (m : ReadMsg) : Ensures (fun b => cfg.AllAgree [] b.cache) (cfg.performRemoteRead m a) := by
  rw [performRemoteRead]
  dsimp only
  split
  · exact ensures_ok.2 h
  · rename_i j hj
    have hj : cfg.lookup a.cache (cfg.calcTag m.addr) = some j := hj
    have hold := isBlockOf_of_lookup hj
    have hagrees := h _ _ (block_of_lookup hj)
    split
    · exact ensures_ok.2 h
    · split
      · split
        · refine ensures_check_bind.2 fun hlocked => ?_
          have hlocked : (a.cache.cacheContents j).locked = true := of_decide_eq_true hlocked
          refine ensures_ok.2 (h.restate hc hj (x := { a.cache.cacheContents j with
            state := .invalid }) ⟨hold.2.1, hold.2.2⟩ rfl rfl (hagrees.invalidated hlocked))
        · refine ensures_check_bind.2 fun _ b hb => ?_
          obtain ⟨d, hd, hret⟩ := bind_eq_ok.1 hb
          cases hret
          rw [invalidateBlock_eq_ok hd]
          exact h.erase hc hj rfl rfl
      · refine ensures_ok.2 (h.restate hc hj (x := (a.cache.cacheContents j).mapState _)
          ⟨hold.2.1, hold.2.2⟩ rfl rfl (hagrees.mapState (fun _ => ?_) fun _ => ?_))
        · cases (a.cache.cacheContents j).state <;> rfl
        · cases (a.cache.cacheContents j).state <;> rfl

lemma agree_performRemoteReads (l : List ReadMsg) (hc : cfg.WellFormed a.cache)
    (h : cfg.AllAgree [] a.cache) :
    Ensures (fun b => cfg.AllAgree [] b.cache) (cfg.performRemoteReads l a) := by
  induction l generalizing a with
  | nil => exact ensures_ok.2 h
  | cons m rest ih =>
    intro d hd
    rw [performRemoteReads] at hd
    obtain ⟨b, hb, hd⟩ := bind_eq_ok.1 hd
    have hmoves : cfg.Moves .all a (cfg.performRemoteRead m a) :=
      moves_performRemoteRead trivial fun _ _ _ => trivial
    exact ih (hmoves b hb hc).1 (agree_performRemoteRead hc h m b hb) d hd

lemma agree_onLocalReadResponse (hc : cfg.WellFormed a.cache) (h : cfg.AllAgree [] a.cache)
    (m : ReadResponseMsg) :
    Ensures (fun b => cfg.AllAgree [] b.cache) (cfg.onLocalReadResponse m a) :=
  agree_performRemoteReads _ (hc.tables rfl rfl) (h.congr rfl rfl)

lemma agree_onRemoteRead (hc : cfg.WellFormed a.cache) (h : cfg.AllAgree [] a.cache)
    (m : ReadMsg) : Ensures (fun b => cfg.AllAgree [] b.cache) (cfg.onRemoteRead m a) := by
  rw [onRemoteRead]
  dsimp only
  split
  · exact agree_performRemoteRead hc h m
  · split
    · exact agree_performRemoteRead hc h m
    · exact ensures_ok.2 (h.congr rfl rfl)

lemma agree_respondInvalidate (hq : cfg.Queues none none a.cache) (h : cfg.AllAgree [] a.cache) :
    Ensures (fun b => cfg.AllAgree [] b.cache) (cfg.respondInvalidate tag a) := by
  intro b hb
  obtain ⟨p, res, c, -, -, hinvalidates, rfl⟩ := respondInvalidate_eq_ok hb
  have hc := hq.wellFormed
  cases hinvalidates with
  | refetch j m hj hwaiters hdirty hm =>
    have hold := isBlockOf_of_lookup hj
    have hblock := block_of_lookup hj
    exact h.restate hc hj (x := { a.cache.cacheContents j with state := .invalid })
      ⟨hold.2.1, hold.2.2⟩ rfl rfl
      ((h _ _ hblock).invalidated ((hq.locked _ _ hblock).2 hwaiters))
  | erase j hj hwaiters hdirty => exact h.erase hc hj rfl rfl
  | absent d hnone hwaiters hdirty hcontents hpending hsent =>
    have htraffic := keeps_respondInvalidate _ hb
    exact h.congr hcontents (congrArg (fun t => t.1.1) htraffic)

lemma agree_onRemoteInvalidate (hq : cfg.Queues none none a.cache) (h : cfg.AllAgree [] a.cache)
    (m : InvalidateMsg) : Ensures (fun b => cfg.AllAgree [] b.cache) (cfg.onRemoteInvalidate m a) := by
  have hqueues : ∀ p, cfg.Queues none none (a.setPendingInvalidate (cfg.calcTag m.addr) p).cache :=
    fun p => hq.tables (hq.wellFormed.tables rfl rfl) rfl rfl rfl
  rw [onRemoteInvalidate]
  dsimp only
  split
  · exact ensures_ok.2 h
  · split
    · exact agree_respondInvalidate (hqueues _) (h.congr rfl rfl)
    · split
      · exact ensures_ok.2 (h.congr rfl rfl)
      · exact agree_respondInvalidate (hqueues _) (h.congr rfl rfl)

/-! ## Messages of the local connection -/

/-- Dirty data from the level above meet no clean block. -/
def MeetsNoClean (cfg : CacheConfig) (c : BIPMOESICache) (m : EvictionMsg) : Prop :=
  m.blockAttached = true → ∀ x ∈ cfg.block c (cfg.calcTag m.addr), x.locked = false →
    x.state ≠ .exclusive ∧ x.state ≠ .shared

lemma agree_onLocalEviction (hc : cfg.WellFormed a.cache) (h : cfg.AllAgree [] a.cache)
    {m : EvictionMsg} (hm : cfg.MeetsNoClean a.cache m) :
    Ensures (fun b => cfg.AllAgree [] b.cache) (cfg.onLocalEviction m a) := by
  rw [onLocalEviction]
  refine ensures_ok.2 ?_
  show cfg.AllAgree [] (Activation.cache _)
  split
  · rename_i j hj
    split
    · rename_i hattached
      have hold := isBlockOf_of_lookup hj
      have hblock := block_of_lookup hj
      refine h.restate hc hj (x := (a.cache.cacheContents j).mapState BIPMOESIState.dirtied)
        ⟨hold.2.1, hold.2.2⟩ rfl rfl ((h _ _ hblock).mapState (fun hlocked => ?_) fun hlocked => ?_)
      · have hshared := ((h _ _ hblock).locked hlocked).1
        cases hs : (a.cache.cacheContents j).state <;> rw [hs] at hshared <;> first
          | rfl
          | cases hshared
      · obtain ⟨hexclusive, hshared⟩ := hm hattached _ hblock hlocked
        cases hs : (a.cache.cacheContents j).state <;> first
          | rfl
          | exact absurd hs hexclusive
          | exact absurd hs hshared
    · exact h
  · exact h

/-- Only the answer for a canceled eviction succeeds, as a top cache invalidates nothing above
it. -/
lemma onLocalInvalidateResponse_eq_ok {m : InvalidateResponseMsg}
    (hpending : ∀ tag, a.cache.pendingEviction tag = none)
    (hinvalidate : ∀ tag, a.cache.pendingInvalidate tag = none)
    (h : cfg.onLocalInvalidateResponse m a = .ok b) :
    b = a.setCanceledBlockEviction (cfg.calcTag m.addr) false := by
  rw [onLocalInvalidateResponse] at h
  obtain ⟨hcanceled, h⟩ := check_bind_eq_ok.1 h
  have hcanceled : a.cache.canceledBlockEviction (cfg.calcTag m.addr) = true := by
    rcases hcanceled with hp | hp | hp
    · exact absurd (hpending _) hp
    · exact absurd (hinvalidate _) hp
    · exact hp
  rw [if_pos hcanceled] at h
  obtain ⟨-, h⟩ := check_bind_eq_ok.1 h
  obtain ⟨-, h⟩ := check_bind_eq_ok.1 h
  cases h
  rfl

/-! ## Runs -/

/-- What a top cache keeps between two messages. -/
structure DirtinessInv (cfg : CacheConfig) (c : BIPMOESICache) : Prop where
  queues : cfg.Queues none none c
  pendingEviction : ∀ tag, c.pendingEviction tag = none
  pendingInvalidate : ∀ tag, c.pendingInvalidate tag = none
  agree : cfg.AllAgree [] c

/-- The time is past 0, an exclusive answer does not hide what has been written, and no dirty
data come from above for a clean block. -/
def KeepsDirtiness (cfg : CacheConfig) (s : Device) : DeviceEvent → Prop
  | .recvMsg .remoteConnection (.readResponse m) _ =>
    s.currentTick ≠ 0 ∧ cfg.WritesAgain s.cache m
  | .recvMsg .localConnection (.eviction m) _ => s.currentTick ≠ 0 ∧ cfg.MeetsNoClean s.cache m
  | .recvMsg _ _ _ => s.currentTick ≠ 0
  | .processTick => True

lemma DirtinessInv.new : cfg.DirtinessInv .new where
  queues := .new
  pendingEviction _ := rfl
  pendingInvalidate _ := rfl
  agree tag x h := by
    rw [block_of_lookup_none (lookup_new tag)] at h
    cases h

/-- The invalidations leave none pending. -/
lemma pendingInvalidate_recvMsg (htop : cfg.topCache = true) (h : cfg.DirtinessInv a.cache)
    {port : Port} {msg : Msg} (hb : cfg.recvMsg port msg a = .ok b) (tag : AddrTag) :
    b.cache.pendingInvalidate tag = none := by
  by_cases hside : side port msg = some .invalidations
  · cases port <;> cases msg
    case remoteConnection.invalidate m =>
      have hb : cfg.onRemoteInvalidate m a = .ok b := hb
      rw [onRemoteInvalidate, h.pendingInvalidate] at hb
      dsimp only at hb
      rw [if_pos htop] at hb
      obtain ⟨-, p, res, -, -, -, htraffic⟩ := respondInvalidate_traffic hb
      have hpending : b.cache.pendingInvalidate = Function.update (Function.update
          a.cache.pendingInvalidate (cfg.calcTag m.addr) (some m)) (cfg.calcTag m.addr) none :=
        congrArg Prod.fst htraffic
      rw [hpending, Function.update_idem]
      by_cases ht : tag = cfg.calcTag m.addr
      · rw [ht, Function.update_self]
      · rw [Function.update_of_ne ht]
        exact h.pendingInvalidate tag
    case localConnection.invalidateResponse m =>
      rw [onLocalInvalidateResponse_eq_ok h.pendingEviction h.pendingInvalidate hb]
      exact h.pendingInvalidate tag
    all_goals cases hside
  · have hpending : b.cache.pendingInvalidate = a.cache.pendingInvalidate :=
      congrArg Prod.fst (invalidateTraffic_recvMsg hside b hb)
    rw [hpending]
    exact h.pendingInvalidate tag

lemma DirtinessInv.recvMsg (htop : cfg.topCache = true) {s : Device} {port : Port} {msg : Msg}
    {rands : List ℕ} (h : cfg.DirtinessInv s.cache)
    (hcond : cfg.KeepsDirtiness s (.recvMsg port msg rands))
    (hb : cfg.recvMsg port msg (s.activation rands) = .ok b) : cfg.DirtinessInv b.cache := by
  have hwf : cfg.WellFormed (s.activation rands).cache := h.queues.wellFormed
  have hmoves : cfg.Reaches _ (s.activation rands) b := moves_recvMsg port msg b hb
  refine ⟨(serves_recvMsg port msg h.queues b hb).1,
    hmoves.pending_eq_none htop hwf h.pendingEviction,
    pendingInvalidate_recvMsg htop h hb, ?_⟩
  have hdated : s.currentTick ≠ 0 → cfg.Dated [] (s.activation rands) :=
    fun htick => ⟨hwf, h.pendingEviction, htick, h.agree⟩
  have hsame : ∀ d, Except.ok d = (.ok b : Except Fault Activation) → d.cache = s.cache →
      cfg.AllAgree [] b.cache := by
    rintro d ⟨⟩ hd
    rw [hd]
    exact h.agree
  cases port <;> cases msg
  case localConnection.read m => exact (dated_onLocalRead htop m (hdated hcond) b hb).agree
  case localConnection.write m => exact (dated_onLocalWrite htop m (hdated hcond) b hb).agree
  case localConnection.eviction m => exact agree_onLocalEviction hwf h.agree hcond.2 b hb
  case localConnection.readResponse m => exact agree_onLocalReadResponse hwf h.agree m b hb
  case localConnection.invalidateResponse m =>
    rw [onLocalInvalidateResponse_eq_ok h.pendingEviction h.pendingInvalidate hb]
    exact h.agree
  case remoteConnection.read m => exact agree_onRemoteRead hwf h.agree m b hb
  case remoteConnection.invalidate m => exact agree_onRemoteInvalidate h.queues h.agree m b hb
  case remoteConnection.readResponse m =>
    exact agree_onRemoteReadResponse htop h.queues (hdated hcond.1) hcond.2 b hb
  all_goals first
    | exact hsame _ hb rfl
    | cases hb

/-- The two signs of a dirty block agree, so an eviction and the answers to the remote
connection tell the same of an unlocked block. -/
structure SignsAgree (cfg : CacheConfig) (c : BIPMOESICache) : Prop where
  agree : ∀ s, ∀ j ∈ cfg.set s, (c.cacheContents j).valid = true →
    (c.cacheContents j).locked = false →
    ((c.cacheContents j).lastWrite ≠ 0 ↔ (c.cacheContents j).state.isDirty = true)
  /-- An eviction sends the data exactly when the state is dirty. -/
  evicts : ∀ tag x a, cfg.block c tag = some x → x.locked = false → a.cache = c → a.sent = [] →
    Ensures (fun b => cfg.SendsBlock tag b ↔ x.state.isDirty = true) (cfg.evictBlock tag a)
  /-- The answer to an invalidation has the data exactly when the block has been written. -/
  invalidates : ∀ m x a, cfg.block c (cfg.calcTag m.addr) = some x → x.locked = false →
    a.cache = c → a.sent = [] →
    Ensures (fun b => cfg.SendsBlock (cfg.calcTag m.addr) b ↔ x.lastWrite ≠ 0)
      (cfg.onRemoteInvalidate m a)
  /-- The answer to a shared read always has the data, and calls them dirty exactly when the
  block has been written and they have not been called so before. -/
  reads : ∀ m x a, cfg.block c (cfg.calcTag m.addr) = some x → x.locked = false →
    x.state ≠ .invalid → m.requestingExclusive = false → a.cache = c → a.sent = [] →
    Ensures (fun b => ∃ res, b.sent =
        [⟨.remoteConnection, .readResponse res, cfg.hitTime⟩] ∧ res.blockAttached = true ∧
        (res.isDirty = true ↔ x.lastWrite ≠ 0 ∧ x.state ≠ .owned)) (cfg.onRemoteRead m a)

/-- For an unlocked block nothing remains to be done. -/
lemma Agrees.iff (h : cfg.Agrees tag [] waiting x) (hx : x.locked = false) :
    x.lastWrite ≠ 0 ↔ x.state.isDirty = true := by
  refine ⟨fun hwrite => ?_, h.written hx⟩
  rcases h.dirty hx hwrite with hdirty | ⟨-, w, hw, -⟩
  · exact hdirty
  · exact absurd hw List.not_mem_nil

lemma sendsBlock_evictBlock (hx : cfg.block a.cache tag = some x) (hsent : a.sent = [])
    (h : cfg.evictBlock tag a = .ok b) : cfg.SendsBlock tag b ↔ x.lastWrite ≠ 0 := by
  have htag : x.tag = tag := by
    rw [CacheConfig.block] at hx
    obtain ⟨j, hj, rfl⟩ := Option.map_eq_some_iff.1 hx
    exact (isBlockOf_of_lookup hj).2.2
  rw [evictBlock, hx] at h
  obtain ⟨-, h⟩ := check_bind_eq_ok.1 h
  obtain ⟨-, h⟩ := check_bind_eq_ok.1 h
  obtain ⟨-, h⟩ := check_bind_eq_ok.1 h
  obtain ⟨-, h⟩ := check_bind_eq_ok.1 h
  cases h
  have hone : (a.stamped.sendMsg .remoteConnection (.eviction
      { msgID := a.currentMsgStamp, addr := cfg.calcAddr x.tag, blockAttached := x.lastWrite ≠ 0 })
      cfg.evictionTime).sent = [⟨.remoteConnection, .eviction
        { msgID := a.currentMsgStamp, addr := cfg.calcAddr x.tag
          blockAttached := x.lastWrite ≠ 0 }, cfg.evictionTime⟩] := by
    show a.sent ++ _ = _
    rw [hsent, List.nil_append]
  rw [SendsBlock, hone, htag]
  constructor
  · rintro ⟨s, hs, -, -, hblock⟩
    rw [List.mem_singleton.1 hs] at hblock
    exact of_decide_eq_true hblock
  · exact fun hwrite => ⟨_, .head _, rfl, rfl, decide_eq_true hwrite⟩

lemma DirtinessInv.signsAgree (htop : cfg.topCache = true) (h : cfg.DirtinessInv c) :
    cfg.SignsAgree c := by
  have hwf := h.queues.wellFormed
  refine ⟨fun s j hj hvalid hlocked => ?_, ?_, ?_, ?_⟩
  · have hlookup : cfg.lookup c (c.cacheContents j).tag = some j := by
      refine hwf.lookup_eq_some.2 ⟨?_, hvalid, rfl⟩
      rw [hwf.set s j hj hvalid]
      exact hj
    exact (h.agree _ _ (block_of_lookup hlookup)).iff hlocked
  · rintro tag x a hx hlocked rfl hsent b hb
    rw [sendsBlock_evictBlock hx hsent hb]
    exact (h.agree _ _ hx).iff hlocked
  · rintro m x a hx hlocked rfl hsent b hb
    rw [onRemoteInvalidate, h.pendingInvalidate] at hb
    dsimp only at hb
    rw [if_pos htop] at hb
    have hwf' : cfg.WellFormed (a.setPendingInvalidate (cfg.calcTag m.addr) (some m)).cache :=
      hwf.tables rfl rfl
    rw [(sendsBlock_respondInvalidate hwf' hsent hb).1, (h.agree _ _ hx).iff hlocked]
    constructor
    · rintro (⟨y, hy, hdirty⟩ | ⟨y, hy, -⟩)
      · rw [Option.some.inj (hx.symm.trans hy)]
        exact hdirty
      · have hnone : a.cache.pendingEviction (cfg.calcTag m.addr) = none := h.pendingEviction _
        exact absurd (hnone.symm.trans hy) (Option.some_ne_none y).symm
    · exact fun hdirty => .inl ⟨x, hx, hdirty⟩
  · rintro m x a hx hlocked hvalid hshared rfl hsent b hb
    have hagree := (h.agree _ _ hx).iff hlocked
    obtain ⟨j, hj, rfl⟩ := Option.map_eq_some_iff.1 hx
    rw [onRemoteRead, hx] at hb
    dsimp only at hb
    rw [if_pos (.inl htop), performRemoteRead] at hb
    dsimp only at hb
    have hj' : cfg.lookup a.stamped.cache (cfg.calcTag m.addr) = some j := hj
    rw [hj'] at hb
    dsimp only at hb
    rw [if_neg (show ¬(a.stamped.cache.cacheContents j).state = .invalid from hvalid),
      if_neg (by rw [hshared]; exact Bool.false_ne_true)] at hb
    cases hb
    refine ⟨_, congrArg (· ++ _) hsent, rfl, ?_⟩
    rw [hagree]
    show decide ((a.cache.cacheContents j).state = .modified) = true ↔ _
    cases (a.cache.cacheContents j).state <;> decide

/-- In every run of such steps the two signs of a dirty block agree. -/
theorem signsAgree_of_runWhere (cfg : CacheConfig) (htop : cfg.topCache = true)
    (es : List DeviceEvent) (s : Device) (h : (device cfg).RunWhere cfg.KeepsDirtiness es s) :
    cfg.SignsAgree s.cache := by
  have hs : cfg.DirtinessInv s.cache := by
    refine h.invariant (I := fun s => cfg.DirtinessInv s.cache) .new fun s e s' hs hcond hstep => ?_
    cases e with
    | recvMsg port msg rands =>
      obtain ⟨a, ha, hret⟩ := bind_eq_ok.1 hstep
      cases hret
      exact hs.recvMsg htop hcond ha
    | processTick =>
      cases hstep
      exact hs
  exact hs.signsAgree htop

/-! ## An owned block that is read exclusively -/

instance (c : BIPMOESICache) (m : ReadResponseMsg) : Decidable (cfg.WritesAgain c m) :=
  inferInstanceAs (Decidable (_ → ∀ x ∈ cfg.block c (cfg.calcTag m.addr), x.locked = true →
    x.lastWrite ≠ 0 → ∃ w ∈ c.waitingOnBlockUnlock (cfg.calcTag m.addr), w.isWrite = true))

instance (c : BIPMOESICache) (m : EvictionMsg) : Decidable (cfg.MeetsNoClean c m) :=
  inferInstanceAs (Decidable (_ → ∀ x ∈ cfg.block c (cfg.calcTag m.addr), x.locked = false →
    x.state ≠ .exclusive ∧ x.state ≠ .shared))

/-- The test of `KeepsDirtiness`. -/
def keepsDirtiness (cfg : CacheConfig) (s : Device) : DeviceEvent → Bool
  | .recvMsg .remoteConnection (.readResponse m) _ =>
    decide (s.currentTick ≠ 0 ∧ cfg.WritesAgain s.cache m)
  | .recvMsg .localConnection (.eviction m) _ =>
    decide (s.currentTick ≠ 0 ∧ cfg.MeetsNoClean s.cache m)
  | .recvMsg _ _ _ => decide (s.currentTick ≠ 0)
  | .processTick => true

lemma keepsDirtiness_iff {s : Device} {e : DeviceEvent} :
    cfg.keepsDirtiness s e = true ↔ cfg.KeepsDirtiness s e := by
  cases e with
  | processTick => exact iff_of_true rfl trivial
  | recvMsg port msg rands => cases port <;> cases msg <;> exact decide_eq_true_iff

end CacheConfig

/-- The level below answers the read of line 0. -/
def exclusiveAnswer : DeviceEvent :=
  .recvMsg .remoteConnection (.readResponse
    { msgID := 50, addr := 0, satisfied := true, blockAttached := true, directoryLookup := false
      exclusiveOwnership := true, interventionMessage := 0, isDirty := false
      solicitingMessage := 1 }) []

/-- The processor writes line 0. -/
def writtenLine : List DeviceEvent :=
  [.processTick, .recvMsg .localConnection (.write { msgID := 1, addr := 0 }) [], exclusiveAnswer]

/-- The written line is shared with another cache, and then the processor asks for it
exclusively. -/
def upgradedRun : List DeviceEvent :=
  writtenLine ++ [
    .recvMsg .remoteConnection (.read
      { msgID := 60, addr := 0, requestingExclusive := false, alreadyHasBlock := false
        directoryLookup := false }) [],
    .recvMsg .localConnection (.read
      { msgID := 2, addr := 0, requestingExclusive := true, alreadyHasBlock := false
        directoryLookup := false }) [],
    exclusiveAnswer]

theorem not_signsAgree_of_upgrade : ∃ s, (device (.directMapped 1 true)).Run upgradedRun s ∧
    ¬CacheConfig.SignsAgree (.directMapped 1 true) s.cache := by
  have hrun : succeeds ((device (.directMapped 1 true)).exec (device (.directMapped 1 true)).init
      upgradedRun) (fun s => decide ((s.cache.cacheContents 0).valid = true ∧
        (s.cache.cacheContents 0).locked = false ∧ (s.cache.cacheContents 0).lastWrite ≠ 0 ∧
        (s.cache.cacheContents 0).state = .exclusive)) = true := by
    decide +kernel
  obtain ⟨s, hs, htest⟩ := succeeds_iff.1 hrun
  obtain ⟨hvalid, hlocked, hwrite, hstate⟩ := of_decide_eq_true htest
  refine ⟨s, Machine.run_of_exec hs, fun h => ?_⟩
  have hdirty := (h.agree 0 0 (.head _) hvalid hlocked).1 hwrite
  rw [hstate] at hdirty
  cases hdirty

/-- A line is written: its block is modified. -/
theorem signsAgree_written : ∃ s,
    (device (.directMapped 1 true)).RunWhere (CacheConfig.KeepsDirtiness (.directMapped 1 true))
      writtenLine s ∧
    (s.cache.cacheContents 0).state = .modified ∧
    CacheConfig.SignsAgree (.directMapped 1 true) s.cache := by
  have hrun : succeeds (((device (.directMapped 1 true)).guarded
      (CacheConfig.keepsDirtiness (.directMapped 1 true)) .assertion).exec .new writtenLine) (fun s => decide ((s.cache.cacheContents 0).state = .modified)) = true := by
    decide +kernel
  obtain ⟨s, hs, htest⟩ := succeeds_iff.1 hrun
  have hwhere := (Machine.Run.of_guarded (Machine.run_of_exec hs)).mono
    (D := CacheConfig.KeepsDirtiness (.directMapped 1 true))
    fun s e h => CacheConfig.keepsDirtiness_iff.1 h
  exact ⟨s, hwhere, of_decide_eq_true htest,
    CacheConfig.signsAgree_of_runWhere (.directMapped 1 true) rfl writtenLine s hwhere⟩

end Sesc.Cache
