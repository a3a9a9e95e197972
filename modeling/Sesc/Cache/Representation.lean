import Sesc.Cache.NoStarvation

/-!
# The array of blocks

What `Lookup`, the locks and the queues rely on: a tag has one valid block, in its set, and a
block is locked exactly as long as requests wait for it.  That no block is locked which is not
valid is an invariant of its own.
-/

namespace Sesc.Cache

open Lib

namespace CacheConfig

/-- Only valid blocks are locked. -/
def Latched (c : BIPMOESICache) : Prop :=
  ∀ j, (c.cacheContents j).locked = true → (c.cacheContents j).valid = true

/-- A computation locks only valid blocks. -/
def Latches (a : Activation) (x : Except Fault Activation) : Prop :=
  Latched a.cache → Ensures (fun b => Latched b.cache) x

variable {cfg : CacheConfig} {a b : Activation} {c : BIPMOESICache} {tag : AddrTag} {j : ℕ}
  {x : Except Fault Activation} {g : Activation → Except Fault Activation}

/-- One block is replaced. -/
lemma Latched.update {c' : BIPMOESICache} (h : Latched c) {x : BlockState}
    (hcontents : c'.cacheContents = Function.update c.cacheContents j x)
    (hx : x.locked = true → x.valid = true) : Latched c' := by
  intro k hk
  rw [hcontents] at hk ⊢
  by_cases hkj : k = j
  · rw [hkj, Function.update_self] at hk ⊢
    exact hx hk
  · rw [Function.update_of_ne hkj] at hk ⊢
    exact h k hk

/-- Latching is a matter of the array. -/
lemma Latched.congr {c' : BIPMOESICache} (h : Latched c)
    (hcontents : c'.cacheContents = c.cacheContents) : Latched c' := by
  intro j hj
  rw [hcontents] at hj ⊢
  exact h j hj

/-- A block keeps its lock and stays valid, whatever else changes. -/
lemma Latched.mark {c' : BIPMOESICache} (h : Latched c) {f : BlockState → BlockState}
    (hcontents : c'.cacheContents = Function.update c.cacheContents j (f (c.cacheContents j)))
    (hf : ∀ x, (f x).locked = x.locked ∧ (f x).valid = x.valid) : Latched c' := by
  refine h.update hcontents fun hlocked => ?_
  rw [(hf _).1] at hlocked
  rw [(hf _).2]
  exact h j hlocked

/-- A block that is not locked is in no danger. -/
lemma Latched.unlock {c' : BIPMOESICache} (h : Latched c) {x : BlockState}
    (hcontents : c'.cacheContents = Function.update c.cacheContents j x)
    (hx : x.locked = false) : Latched c' := by
  refine h.update hcontents fun hlocked => ?_
  rw [hx] at hlocked
  cases hlocked

lemma Latches.bind (hx : Latches a x) (hg : ∀ b, Latches b (g b)) : Latches a (x >>= g) :=
  fun h => Ensures.bind (hx h) fun b hb => hg b hb

lemma latches_ok (h : b.cache.cacheContents = a.cache.cacheContents) : Latches a (.ok b) := by
  intro ha
  refine ensures_ok.2 fun j hj => ?_
  rw [h] at hj ⊢
  exact ha j hj

lemma latches_check {e : Fault} {p : Bool} {g : PUnit → Except Fault Activation}
    (hg : p = true → Latches a (g ⟨⟩)) : Latches a (check e p >>= g) :=
  fun h => ensures_check_bind.2 fun hp => hg hp h

lemma latches_prepareFreshBlock {set i : ℕ} : Latches a (cfg.prepareFreshBlock set i tag a) := by
  intro h b hb
  obtain ⟨x, hx, hunlocked, -, -⟩ := prepareFreshBlock_eq_ok hb
  exact h.unlock hx hunlocked

lemma latches_evictBlock : Latches a (cfg.evictBlock tag a) := by
  rw [evictBlock]
  split
  · exact fun _ => ensures_error
  · exact latches_check fun _ => latches_check fun _ => latches_check fun _ =>
      latches_check fun _ => latches_ok rfl

lemma latches_allocateBlock (h : Latched a.cache) :
    Ensures (fun r => Latched r.2.cache) (cfg.allocateBlock tag a) := by
  rw [allocateBlock]
  dsimp only
  split
  · exact Ensures.bind (latches_prepareFreshBlock h) fun b hb => ensures_ok.2 hb
  · refine fun r hr => ?_
    obtain ⟨⟨eviction, d⟩, hevict, hr⟩ := bind_eq_ok.1 hr
    obtain ⟨hcache, -, -⟩ := evict_eq_ok hevict
    have hd : Latched d.cache := by
      rw [show d.cache = a.cache from hcache]
      exact h
    dsimp only at hr
    split at hr
    · cases hr
      exact hd
    · split at hr
      · obtain ⟨e, he, hr⟩ := bind_eq_ok.1 hr
        obtain ⟨f, hf, hret⟩ := bind_eq_ok.1 hr
        cases hret
        exact latches_prepareFreshBlock (latches_evictBlock hd e he) f hf
      · obtain ⟨-, hr⟩ := check_bind_eq_ok.1 hr
        obtain ⟨f, hf, hret⟩ := bind_eq_ok.1 hr
        cases hret
        refine latches_prepareFreshBlock ?_ f hf
        split <;> exact hd

/-- A request is performed on a valid block. -/
lemma Performed.latched {w : BlockWaiter} {x : BlockState} {l : List BlockWaiter}
    (hw : cfg.Performed w a b j x l) (h : Latched a.cache) : Latched b.cache := by
  refine h.update hw.contents fun _ => ?_
  rw [hw.kept.1]
  exact (isBlockOf_of_lookup hw.lookup).2.1

lemma latches_performRead (m : ReadMsg) : Latches a (cfg.performRead m a) := by
  intro h b hb
  obtain ⟨j, x, l, hw⟩ := performed_performRead hb
  exact hw.latched h

lemma latches_performWrite (m : WriteMsg) : Latches a (cfg.performWrite m a) := by
  intro h b hb
  obtain ⟨j, x, l, hw⟩ := performed_performWrite hb
  exact hw.latched h

lemma latches_performRemoteRead (m : ReadMsg) : Latches a (cfg.performRemoteRead m a) := by
  intro h b hb
  obtain ⟨res, c, hanswers, -, -, -, rfl⟩ := performRemoteRead_eq_ok hb
  cases hanswers with
  | refuse => exact h
  | yield j f hj hstate hexclusive hsatisfied hres hf =>
    rcases hf with ⟨rfl, -⟩ | ⟨rfl, -⟩
    · exact h.mark (f := fun x => { x with state := .invalid }) rfl fun x => ⟨rfl, rfl⟩
    · exact h.unlock (x := .new) rfl rfl
  | share j f hj hstate hshared hsatisfied hres hf =>
    exact h.mark (f := fun x => x.mapState f) rfl fun x => ⟨rfl, rfl⟩

lemma latches_performRemoteReads (l : List ReadMsg) :
    Latches a (cfg.performRemoteReads l a) := by
  induction l generalizing a with
  | nil => exact latches_ok rfl
  | cons m rest ih => exact (latches_performRemoteRead m).bind fun b => ih

lemma latches_respondInvalidate : Latches a (cfg.respondInvalidate tag a) := by
  intro h b hb
  obtain ⟨p, res, c, -, -, hinvalidates, rfl⟩ := respondInvalidate_eq_ok hb
  cases hinvalidates with
  | refetch j m hj hwaiters hdirty hm =>
    exact h.mark (f := fun x => { x with state := .invalid }) rfl fun x => ⟨rfl, rfl⟩
  | erase j hj hwaiters hdirty => exact h.unlock (x := .new) rfl rfl
  | absent d hnone hwaiters hdirty hcontents hpending hsent => exact h.congr hcontents

lemma latches_onLocalRead (m : ReadMsg) : Latches a (cfg.onLocalRead m a) := by
  intro h
  rw [onLocalRead]
  dsimp only
  split
  · exact latches_performRead m h
  · refine Ensures.bind (latches_allocateBlock h) fun r hr => ?_
    split
    · exact latches_performRead m hr
    · exact ensures_pure.2 hr

lemma latches_onLocalWrite (m : WriteMsg) : Latches a (cfg.onLocalWrite m a) := by
  intro h
  rw [onLocalWrite]
  dsimp only
  split
  · exact latches_performWrite m h
  · refine Ensures.bind (latches_allocateBlock h) fun r hr => ?_
    split
    · exact latches_performWrite m hr
    · exact ensures_pure.2 hr

lemma latches_performBlockWaiters (l : List BlockWaiter) :
    Latches a (cfg.performBlockWaiters l a) := by
  induction l generalizing a with
  | nil => exact latches_ok rfl
  | cons w rest ih =>
    cases w with
    | performRead m => exact (latches_performRead m).bind fun b => ih
    | performWrite m => exact (latches_performWrite m).bind fun b => ih

lemma latches_retrySetWaiters (l : List SetWaiter) : Latches a (cfg.retrySetWaiters l a) := by
  induction l generalizing a with
  | nil => exact latches_ok rfl
  | cons w rest ih =>
    cases w with
    | read m => exact (latches_onLocalRead m).bind fun b => ih
    | write m => exact (latches_onLocalWrite m).bind fun b => ih

lemma latches_unlockBlock : Latches a (cfg.unlockBlock tag a) := by
  rw [unlockBlock]
  split
  · exact fun _ => ensures_error
  · refine latches_check fun _ => latches_check fun _ => latches_check fun _ h => ?_
    refine Ensures.bind (latches_performBlockWaiters _ ?_) fun b hb => ?_
    · exact h.unlock (x := { a.cache.cacheContents _ with locked := false }) rfl rfl
    · split
      · exact ensures_pure.2 hb
      · exact latches_retrySetWaiters _ hb

lemma latches_onRemoteReadResponse (m : ReadResponseMsg) :
    Latches a (cfg.onRemoteReadResponse m a) := by
  intro h
  rw [onRemoteReadResponse]
  split
  · split <;> exact ensures_ok.2 h
  · rename_i j hj
    split
    · split <;> exact ensures_ok.2 h
    · refine latches_unlockBlock ?_
      exact h.mark (f := fun b =>
        { b with state := if m.exclusiveOwnership then .exclusive else .shared }) rfl
        fun x => ⟨rfl, rfl⟩

lemma latches_onLocalEviction (m : EvictionMsg) : Latches a (cfg.onLocalEviction m a) := by
  intro h
  rw [onLocalEviction]
  refine ensures_ok.2 ?_
  show Latched (Activation.cache _)
  split
  · split
    · exact h.mark (f := fun b => b.mapState BIPMOESIState.dirtied) rfl fun x => ⟨rfl, rfl⟩
    · exact h
  · exact h

lemma latches_onLocalReadResponse (m : ReadResponseMsg) :
    Latches a (cfg.onLocalReadResponse m a) :=
  fun h => latches_performRemoteReads _ (h.congr rfl)

lemma latches_onLocalInvalidateResponse (m : InvalidateResponseMsg) :
    Latches a (cfg.onLocalInvalidateResponse m a) := by
  intro h
  rw [onLocalInvalidateResponse]
  refine ensures_check_bind.2 fun _ => ?_
  split
  · exact ensures_check_bind.2 fun _ => ensures_check_bind.2 fun _ => ensures_pure.2 h
  · dsimp only
    generalize hc : (ite (m.blockAttached = true) _ a : Activation) = c
    have hlatched : Latched c.cache := by
      rw [← hc]
      split
      · split
        · exact h
        · split
          · exact h.mark (f := fun b => b.mapState BIPMOESIState.dirtied) rfl fun x => ⟨rfl, rfl⟩
          · exact h
      · exact h
    split
    · refine Ensures.bind (latches_respondInvalidate hlatched) fun d hd => ?_
      split <;> exact ensures_pure.2 hd
    · rw [pure_bind]
      split <;> exact ensures_pure.2 hlatched

lemma latches_onRemoteRead (m : ReadMsg) : Latches a (cfg.onRemoteRead m a) := by
  rw [onRemoteRead]
  dsimp only
  split
  · exact latches_performRemoteRead m
  · split
    · exact latches_performRemoteRead m
    · exact latches_ok rfl

lemma latches_onRemoteInvalidate (m : InvalidateMsg) :
    Latches a (cfg.onRemoteInvalidate m a) := by
  intro h
  rw [onRemoteInvalidate]
  dsimp only
  split
  · exact ensures_ok.2 h
  · split
    · exact latches_respondInvalidate h
    · split
      · exact ensures_ok.2 h
      · exact latches_respondInvalidate h

/-- Every handler locks only valid blocks. -/
lemma latches_recvMsg (port : Port) (msg : Msg) : Latches a (cfg.recvMsg port msg a) := by
  cases port <;> cases msg <;> first
    | exact latches_onLocalRead _
    | exact latches_onLocalWrite _
    | exact latches_onLocalEviction _
    | exact latches_onLocalReadResponse _
    | exact latches_onLocalInvalidateResponse _
    | exact latches_onRemoteRead _
    | exact latches_onRemoteInvalidate _
    | exact latches_onRemoteReadResponse _
    | exact latches_ok rfl
    | exact fun _ => ensures_error

/-! ## The representation -/

variable (cfg) in
/-- The array, the locks and the queues of a cache fit together. -/
structure Represents (c : BIPMOESICache) : Prop where
  /-- A valid block is in the set of its tag. -/
  set : ∀ s, ∀ j ∈ cfg.set s, (c.cacheContents j).valid = true →
    cfg.calcSetFromTag (c.cacheContents j).tag = s
  /-- A tag is held by one valid block at most. -/
  unique : ∀ s s', ∀ j ∈ cfg.set s, ∀ k ∈ cfg.set s', (c.cacheContents j).valid = true →
    (c.cacheContents k).valid = true → (c.cacheContents j).tag = (c.cacheContents k).tag → j = k
  /-- A valid block is locked exactly as long as requests wait for its tag. -/
  locked : ∀ s, ∀ j ∈ cfg.set s, (c.cacheContents j).valid = true →
    ((c.cacheContents j).locked = true ↔ c.waitingOnBlockUnlock (c.cacheContents j).tag ≠ [])
  /-- A block that is not valid is not locked. -/
  free : ∀ j, (c.cacheContents j).valid = false → (c.cacheContents j).locked = false
  /-- Requests wait for a tag only while a block holds it. -/
  waiting : ∀ tag, c.waitingOnBlockUnlock tag ≠ [] → cfg.lookup c tag ≠ none
  /-- `Lookup` returns the block of a tag exactly when one is valid. -/
  lookup : ∀ tag j, cfg.lookup c tag = some j ↔
    ∃ s, j ∈ cfg.set s ∧ (c.cacheContents j).valid = true ∧ (c.cacheContents j).tag = tag

lemma Queues.represents (hq : cfg.Queues none none c) (hc : Latched c) : cfg.Represents c := by
  have hwf := hq.wellFormed
  have hheld : ∀ s, ∀ j ∈ cfg.set s, (c.cacheContents j).valid = true →
      cfg.lookup c (c.cacheContents j).tag = some j := by
    intro s j hj hvalid
    refine hwf.lookup_eq_some.2 ⟨?_, hvalid, rfl⟩
    rw [hwf.set s j hj hvalid]
    exact hj
  refine ⟨hwf.set, ?_, ?_, ?_, ?_, ?_⟩
  · intro s s' j hj k hk hvalid hvalid' htag
    have hlookup := hheld s j hj hvalid
    rw [htag, hheld s' k hk hvalid'] at hlookup
    exact (Option.some.inj hlookup).symm
  · intro s j hj hvalid
    exact hq.locked _ _ (block_of_lookup (hheld s j hj hvalid))
  · intro j hfree
    rw [← Bool.not_eq_true] at hfree ⊢
    exact fun hlocked => hfree (hc j hlocked)
  · intro tag htag hnone
    exact hq.held tag htag (block_of_lookup_none hnone)
  · intro tag j
    constructor
    · intro h
      obtain ⟨hmem, hvalid, htag⟩ := isBlockOf_of_lookup h
      exact ⟨_, hmem, hvalid, htag⟩
    · rintro ⟨s, hj, hvalid, rfl⟩
      exact hheld s j hj hvalid

/-- The representation is kept by every message. -/
theorem represents_of_reachable (cfg : CacheConfig) (s : Device) (h : (device cfg).Reachable s) :
    cfg.Represents s.cache := by
  have hs : cfg.Queues none none s.cache ∧ Latched s.cache := by
    refine h.invariant (I := fun s => cfg.Queues none none s.cache ∧ Latched s.cache) ?_ ?_
    · refine ⟨.new, fun j hlocked => ?_⟩
      cases hlocked
    · intro s e s' hs hstep
      cases e with
      | recvMsg port msg rands =>
        obtain ⟨a, ha, hret⟩ := bind_eq_ok.1 hstep
        cases hret
        exact ⟨(serves_recvMsg port msg hs.1 a ha).1, latches_recvMsg port msg hs.2 a ha⟩
      | processTick =>
        cases hstep
        exact hs
  exact hs.1.represents hs.2

end CacheConfig

/-- Line 0 is locked while line 1 waits for its set. -/
theorem represents_waiting : ∃ s, (device .oneBlock).Reachable s ∧
    (s.cache.cacheContents 0).locked = true ∧ CacheConfig.Represents .oneBlock s.cache := by
  have hrun : succeeds ((device .oneBlock).exec (device .oneBlock).init waitingRun)
      (fun s => (s.cache.cacheContents 0).locked) = true := by
    decide +kernel
  obtain ⟨s, hs, htest⟩ := succeeds_iff.1 hrun
  exact ⟨s, ⟨_, Machine.run_of_exec hs⟩, htest,
    CacheConfig.represents_of_reachable .oneBlock s ⟨_, Machine.run_of_exec hs⟩⟩

end Sesc.Cache
