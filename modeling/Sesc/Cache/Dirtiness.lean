import Sesc.Cache.NoStarvation

/-!
# The two signs of a dirty block

A top cache evicts a block with its data when the block has been written, which it sees from
the time of the last write, and answers an invalidation with the data when the state of the
block is dirty.  Both signs are set by a write that hits.  They part when an exclusive answer
arrives: the block becomes exclusive, whatever has been written to it before.
-/

namespace Sesc.Cache

open Lib

/-- The request needs its block exclusively. -/
def BlockWaiter.demands : BlockWaiter → Bool
  | performRead m => m.requestingExclusive
  | performWrite _ => true

def BlockWaiter.isWrite : BlockWaiter → Bool
  | performRead _ => false
  | performWrite _ => true

lemma BlockWaiter.demands_of_isWrite {w : BlockWaiter} (h : w.isWrite = true) :
    w.demands = true := by
  cases w with
  | performRead m => cases h
  | performWrite m => rfl

namespace CacheConfig

variable (cfg : CacheConfig)

/-- What is known of a block of the tag `tag` while the requests of `waiting` wait for it and
those of `todo` are still to be performed.  A block that has been written is dirty, or a
request is about to ask for it again. -/
structure Agrees (tag : AddrTag) (todo waiting : List BlockWaiter) (x : BlockState) : Prop where
  locked : x.locked = true → x.state.isExclusive = false ∧
    (x.lastWrite ≠ 0 → ∃ w ∈ waiting, w.demands = true)
  written : x.locked = false → x.state.isDirty = true → x.lastWrite ≠ 0
  dirty : x.locked = false → x.lastWrite ≠ 0 → x.state.isDirty = true ∨ x.state ≠ .invalid ∧
    ∃ w ∈ todo, cfg.tagOf w.request = tag ∧ w.demands = true ∧
      (x.state = .exclusive → w.isWrite = true)

/-- All blocks of a cache agree. -/
def AllAgree (todo : List BlockWaiter) (c : BIPMOESICache) : Prop :=
  ∀ tag x, cfg.block c tag = some x → cfg.Agrees tag todo (c.waitingOnBlockUnlock tag) x

variable {cfg} {a b : Activation} {c c' : BIPMOESICache} {tag : AddrTag} {j : ℕ}
  {todo rest waiting : List BlockWaiter} {x : BlockState}

lemma Agrees.mono (h : cfg.Agrees tag todo waiting x) (hsub : ∀ w ∈ todo, w ∈ rest) :
    cfg.Agrees tag rest waiting x := by
  refine ⟨h.locked, h.written, fun hunlocked hwrite => ?_⟩
  rcases h.dirty hunlocked hwrite with hdirty | ⟨hstate, w, hw, htag, hdemands⟩
  · exact .inl hdirty
  · exact .inr ⟨hstate, w, hsub w hw, htag, hdemands⟩

/-- Requests with other tags do not matter. -/
lemma Agrees.other {w : BlockWaiter} (h : cfg.Agrees tag (w :: rest) waiting x)
    (hw : cfg.tagOf w.request ≠ tag) : cfg.Agrees tag rest waiting x := by
  refine ⟨h.locked, h.written, fun hunlocked hwrite => ?_⟩
  rcases h.dirty hunlocked hwrite with hdirty | ⟨hstate, w', hw', htag, hdemands⟩
  · exact .inl hdirty
  · rcases List.mem_cons.1 hw' with rfl | hw'
    · exact absurd htag hw
    · exact .inr ⟨hstate, w', hw', htag, hdemands⟩

/-- A fresh block has not been written. -/
lemma Agrees.fresh (hlocked : x.locked = false) (hwrite : x.lastWrite = 0)
    (hstate : x.state = .invalid) : cfg.Agrees tag todo waiting x := by
  refine ⟨fun h => ?_, fun _ h => ?_, fun _ h => absurd hwrite h⟩
  · rw [hlocked] at h
    cases h
  · rw [hstate] at h
    cases h

/-- A locked block may lose its state. -/
lemma Agrees.invalidated (h : cfg.Agrees tag todo waiting x) (hlocked : x.locked = true) :
    cfg.Agrees tag todo waiting { x with state := .invalid } := by
  refine ⟨fun _ => ⟨rfl, (h.locked hlocked).2⟩, fun hunlocked => ?_, fun hunlocked => ?_⟩
  all_goals
    have hunlocked : x.locked = false := hunlocked
    rw [hlocked] at hunlocked
    cases hunlocked

/-- A change of the state that keeps it clean or dirty. -/
lemma Agrees.mapState (h : cfg.Agrees tag [] waiting x) {f : BIPMOESIState → BIPMOESIState}
    (hlocked : x.locked = true → (f x.state).isExclusive = false)
    (hunlocked : x.locked = false → (f x.state).isDirty = x.state.isDirty) :
    cfg.Agrees tag [] waiting (x.mapState f) := by
  refine ⟨fun hl => ⟨hlocked hl, (h.locked hl).2⟩, fun hl hdirty => ?_, fun hl hwrite => ?_⟩
  · have hdirty : (f x.state).isDirty = true := hdirty
    rw [hunlocked hl] at hdirty
    exact h.written hl hdirty
  · rcases h.dirty hl hwrite with hdirty | ⟨-, w, hw, -⟩
    · left
      exact (hunlocked hl).trans hdirty
    · exact absurd hw List.not_mem_nil

/-! ## Performing a request -/

/-- What a request makes of its block, which was `old` and is now `x`, and of the queue of its
tag at the time `tick`. -/
structure Uses (w : BlockWaiter) (tick : TickTime) (old x : BlockState)
    (waiting waiting' : List BlockWaiter) : Prop where
  lastWrite : x.lastWrite = if w.isWrite then tick else old.lastWrite
  outcome : waiting' = waiting ∧ x.locked = old.locked ∧ old.state ≠ .invalid ∧
      (w.demands = true → old.state.isExclusive = true) ∧
      x.state = (if w.isWrite then .modified else old.state) ∨
    waiting' = waiting ++ [w] ∧ x.locked = true ∧ x.state = old.state ∧
      old.state.isExclusive = false ∧ (old.state ≠ .invalid → w.demands = true)

/-- A request that was still to be performed has been. -/
lemma Agrees.uses {w : BlockWaiter} {tick : TickTime} {old : BlockState}
    {waiting' : List BlockWaiter} (h : cfg.Agrees tag (w :: rest) waiting old) (htick : tick ≠ 0)
    (hu : Uses w tick old x waiting waiting') : cfg.Agrees tag rest waiting' x := by
  have hwrite := hu.lastWrite
  rcases hu.outcome with ⟨rfl, hlocked, hvalid, hdemands, hstate⟩ |
    ⟨rfl, hlocked, hstate, hshared, hdemands⟩
  · by_cases hw : w.isWrite = true
    · rw [if_pos hw] at hstate hwrite
      have hexclusive := hdemands (BlockWaiter.demands_of_isWrite hw)
      refine ⟨fun hl => ?_, fun _ _ => ?_, fun _ _ => .inl ?_⟩
      · -- a locked block is not exclusive, so a write would have missed
        rw [hlocked] at hl
        rw [(h.locked hl).1] at hexclusive
        cases hexclusive
      · rw [hwrite]
        exact htick
      · rw [hstate]
        rfl
    · rw [if_neg hw] at hstate hwrite
      refine ⟨fun hl => ?_, fun hl hdirty => ?_, fun hl hnew => ?_⟩
      · rw [hstate, hwrite]
        exact h.locked (hlocked ▸ hl)
      · rw [hwrite]
        exact h.written (hlocked ▸ hl) (hstate ▸ hdirty)
      · rw [hwrite] at hnew
        rw [hstate]
        rcases h.dirty (hlocked ▸ hl) hnew with hdirty | ⟨hne, w', hw', htag, hdemands', hwrites⟩
        · exact .inl hdirty
        · rcases List.mem_cons.1 hw' with rfl | hw'
          · -- the read has hit, so the block is exclusive, and it was not left to a read
            left
            have hexclusive := hdemands hdemands'
            rcases hs : old.state with _ | _ | _ | _ | _
            · rfl
            · rfl
            · exact absurd (hwrites hs) hw
            · rw [hs] at hexclusive
              cases hexclusive
            · exact absurd hs hne
          · exact .inr ⟨hne, w', hw', htag, hdemands', hwrites⟩
  · refine ⟨fun _ => ?_, fun hl => ?_, fun hl => ?_⟩
    · rw [hstate]
      refine ⟨hshared, fun hnew => ?_⟩
      by_cases hd : w.demands = true
      · exact ⟨w, List.mem_append_right _ (List.mem_singleton.2 rfl), hd⟩
      · have hinvalid : old.state = .invalid := by
          by_contra hne
          exact hd (hdemands hne)
        have hw : ¬w.isWrite = true := fun hw => hd (BlockWaiter.demands_of_isWrite hw)
        rw [hwrite, if_neg hw] at hnew
        -- a block that was invalid and has been written was locked before
        rcases hl : old.locked with _ | _
        · rcases h.dirty hl hnew with hdirty | ⟨hne, -⟩
          · rw [hinvalid] at hdirty
            cases hdirty
          · exact absurd hinvalid hne
        · obtain ⟨w', hw', hd'⟩ := (h.locked hl).2 hnew
          exact ⟨w', List.mem_append_left _ hw', hd'⟩
    all_goals
      rw [hlocked] at hl
      cases hl

/-- A request has used the block of its tag, at `j`, which is now `x`. -/
structure UsesBlock (cfg : CacheConfig) (w : BlockWaiter) (a b : Activation) (j : ℕ)
    (x : BlockState) (waiting' : List BlockWaiter) : Prop where
  lookup : cfg.lookup a.cache (cfg.tagOf w.request) = some j
  kept : x.valid = (a.cache.cacheContents j).valid ∧ x.tag = (a.cache.cacheContents j).tag
  contents : b.cache.cacheContents = Function.update a.cache.cacheContents j x
  waiting : b.cache.waitingOnBlockUnlock =
    Function.update a.cache.waitingOnBlockUnlock (cfg.tagOf w.request) waiting'
  tick : b.currentTick = a.currentTick
  uses : Uses w a.currentTick (a.cache.cacheContents j) x
    (a.cache.waitingOnBlockUnlock (cfg.tagOf w.request)) waiting'

/-- A request that misses asks for what its block has not. -/
lemma usesBlock_miss {w : BlockWaiter} {d : Activation} {requestingExclusive : Bool}
    {f : BlockState → BlockState}
    (hf : ∀ x, (f x).valid = x.valid ∧ (f x).tag = x.tag ∧ (f x).locked = x.locked ∧
      (f x).state = x.state ∧ (f x).lastWrite = if w.isWrite then a.currentTick else x.lastWrite)
    (hj : cfg.lookup a.cache (cfg.tagOf w.request) = some j)
    (hd : cfg.forwardMiss (cfg.tagOf w.request) (a.cache.cacheContents j) requestingExclusive a =
      .ok d)
    (hmiss : (a.cache.cacheContents j).state.isExclusive = false ∧
      ((a.cache.cacheContents j).state ≠ .invalid → w.demands = true)) :
    ∃ x l, cfg.UsesBlock w a ((d.waitOnBlockUnlock (cfg.tagOf w.request) w).modifyBlock j f) j x
      l := by
  obtain ⟨htraffic, htick, hcontents⟩ := forwardMiss_eq_ok hj hd
  obtain ⟨hvalid, htag, hlocked, hstate, hwrite⟩ := hf { a.cache.cacheContents j with locked := true }
  have hblock : d.cache.waitingOnBlockUnlock = a.cache.waitingOnBlockUnlock :=
    congrArg Prod.fst htraffic
  refine ⟨_, a.cache.waitingOnBlockUnlock (cfg.tagOf w.request) ++ [w], hj, ⟨hvalid, htag⟩,
    cacheContents_touch hcontents, ?_, htick, hwrite, ?_⟩
  · rw [← hblock]
    rfl
  · exact .inr ⟨rfl, hlocked, hstate, hmiss⟩

lemma usesBlock_performRead {m : ReadMsg} (h : cfg.performRead m a = .ok b) :
    ∃ j x l, cfg.UsesBlock (.performRead m) a b j x l := by
  rw [performRead] at h
  dsimp only at h
  split at h
  · cases h
  · rename_i j hj
    have hj : cfg.lookup a.cache (cfg.tagOf (BlockWaiter.performRead m).request) = some j := hj
    split at h
    · rename_i hmiss
      obtain ⟨d, hd, hret⟩ := bind_eq_ok.1 h
      cases hret
      refine ⟨j, usesBlock_miss (w := .performRead m) (f := fun x => { x with lastRead := _ })
        (fun x => ⟨rfl, rfl, rfl, rfl, rfl⟩) hj hd ⟨?_, fun hvalid => ?_⟩⟩
      · rcases hmiss with hs | ⟨-, hs | hs⟩ <;> rw [hs] <;> rfl
      · rcases hmiss with hs | ⟨hexclusive, -⟩
        · exact absurd hs hvalid
        · exact hexclusive
    · rename_i hhit
      cases h
      obtain ⟨hvalid, hshared⟩ := not_or.1 hhit
      refine ⟨j, { a.cache.cacheContents j with lastRead := a.currentTick }, _, hj, ⟨rfl, rfl⟩, rfl,
        (Function.update_eq_self _ _).symm, rfl, rfl, .inl ⟨rfl, rfl, hvalid, fun hdemands => ?_, rfl⟩⟩
      rcases hs : (a.cache.cacheContents j).state with _ | _ | _ | _ | _
      · rfl
      · exact absurd ⟨hdemands, .inr hs⟩ hshared
      · rfl
      · exact absurd ⟨hdemands, .inl hs⟩ hshared
      · exact absurd hs hvalid

lemma usesBlock_performWrite {m : WriteMsg} (h : cfg.performWrite m a = .ok b) :
    ∃ j x l, cfg.UsesBlock (.performWrite m) a b j x l := by
  rw [performWrite] at h
  dsimp only at h
  split at h
  · cases h
  · rename_i j hj
    have hj : cfg.lookup a.cache (cfg.tagOf (BlockWaiter.performWrite m).request) = some j := hj
    split at h
    · rename_i hmiss
      obtain ⟨d, hd, hret⟩ := bind_eq_ok.1 h
      cases hret
      obtain ⟨-, htick, -⟩ := forwardMiss_eq_ok hj hd
      refine ⟨j, usesBlock_miss (w := .performWrite m) (f := fun x => { x with lastWrite := _ })
        (fun x => ⟨rfl, rfl, rfl, rfl, htick⟩) hj hd ⟨?_, fun _ => rfl⟩⟩
      rcases hmiss with hs | hs | hs <;> rw [hs] <;> rfl
    · rename_i hhit
      cases h
      obtain ⟨hvalid, hshared⟩ := not_or.1 hhit
      obtain ⟨hshared, howned⟩ := not_or.1 hshared
      refine ⟨j, { a.cache.cacheContents j with state := .modified, lastWrite := a.currentTick }, _,
        hj, ⟨rfl, rfl⟩, ?_, (Function.update_eq_self _ _).symm, rfl, rfl,
        .inl ⟨rfl, rfl, hvalid, fun _ => ?_, rfl⟩⟩
      · exact cacheContents_touch (x := { a.cache.cacheContents j with state := .modified }) rfl
      · rcases hs : (a.cache.cacheContents j).state with _ | _ | _ | _ | _
        · rfl
        · exact absurd hs howned
        · rfl
        · exact absurd hs hshared
        · exact absurd hs hvalid

/-! ## What the requests rely on -/

/-- A top cache while its requests are performed; those of `todo` remain. -/
structure Dated (cfg : CacheConfig) (todo : List BlockWaiter) (a : Activation) : Prop where
  wellFormed : cfg.WellFormed a.cache
  pending : ∀ tag, a.cache.pendingEviction tag = none
  tick : a.currentTick ≠ 0
  agree : cfg.AllAgree todo a.cache

/-- One block and the requests that wait for it change. -/
lemma AllAgree.replace (h : cfg.AllAgree todo c) (hc : cfg.WellFormed c)
    (hj : cfg.lookup c tag = some j) (hx : x.valid = true ∧ x.tag = tag) {l : List BlockWaiter}
    (hcontents : c'.cacheContents = Function.update c.cacheContents j x)
    (hwaiting : c'.waitingOnBlockUnlock = Function.update c.waitingOnBlockUnlock tag l)
    (hother : ∀ u y, u ≠ tag → cfg.Agrees u todo (c.waitingOnBlockUnlock u) y →
      cfg.Agrees u rest (c.waitingOnBlockUnlock u) y)
    (hagrees : cfg.Agrees tag rest l x) : cfg.AllAgree rest c' := by
  intro u y hy
  rw [hc.block_replace hj hx hcontents] at hy
  rw [hwaiting]
  by_cases hu : u = tag
  · rw [if_pos hu] at hy
    cases hy
    rw [hu, Function.update_self]
    exact hagrees
  · rw [if_neg hu] at hy
    rw [Function.update_of_ne hu]
    exact hother u y hu (h u y hy)

/-- A cache without pending evictions that makes moves as a top cache has none afterwards. -/
lemma Reaches.pending_eq_none {allow : Allowance} (htop : cfg.topCache = true)
    (hab : cfg.Reaches allow a b) (ha : cfg.WellFormed a.cache)
    (hnone : ∀ tag, a.cache.pendingEviction tag = none) (tag : AddrTag) :
    b.cache.pendingEviction tag = none := by
  obtain ⟨-, hmoves⟩ := hab ha
  have hkeep : ∀ l : Lines, Relation.ReflTransGen (cfg.Move allow) (cfg.lines a) l →
      ∀ tag, l.pending tag = none := by
    intro l hl
    induction hl with
    | refl => exact hnone
    | tail _ hmove ih =>
      intro u
      cases hmove with
      | suspend t hlower => rw [htop] at hlower; cases hlower
      | release t m delay hgive hp => rw [ih t] at hp; cases hp
      | restore t hb hp => rw [ih t] at hp; cases hp
      | soil t hp => rw [ih t] at hp; cases hp
      | invalidate t res delay b' =>
        show Function.update (Lines.pending _) t none u = none
        by_cases hu : u = t
        · rw [hu, Function.update_self]
        · rw [Function.update_of_ne hu]
          exact ih u
      | _ => exact ih u
  exact hkeep _ hmoves tag

/-- A request has been performed. -/
lemma UsesBlock.dated {w : BlockWaiter} (hw : cfg.UsesBlock w a b j x waiting)
    (h : cfg.Dated (w :: rest) a) (hwf : cfg.WellFormed b.cache)
    (hpending : ∀ tag, b.cache.pendingEviction tag = none) : cfg.Dated rest b := by
  have hold := isBlockOf_of_lookup hw.lookup
  refine ⟨hwf, hpending, ?_, ?_⟩
  · rw [hw.tick]
    exact h.tick
  · refine h.agree.replace h.wellFormed hw.lookup
      ⟨hw.kept.1.trans hold.2.1, hw.kept.2.trans hold.2.2⟩ hw.contents hw.waiting ?_ ?_
    · exact fun u y hu hy => hy.other (Ne.symm hu)
    · exact (h.agree _ _ (block_of_lookup hw.lookup)).uses h.tick hw.uses

lemma dated_performRead (htop : cfg.topCache = true) (m : ReadMsg)
    (h : cfg.Dated (.performRead m :: rest) a) : Ensures (cfg.Dated rest) (cfg.performRead m a) := by
  intro b hb
  obtain ⟨j, x, l, hw⟩ := usesBlock_performRead hb
  have hmoves : cfg.Reaches .all a b := moves_performRead trivial m b hb
  exact hw.dated h (hmoves h.wellFormed).1 (hmoves.pending_eq_none htop h.wellFormed h.pending)

lemma dated_performWrite (htop : cfg.topCache = true) (m : WriteMsg)
    (h : cfg.Dated (.performWrite m :: rest) a) :
    Ensures (cfg.Dated rest) (cfg.performWrite m a) := by
  intro b hb
  obtain ⟨j, x, l, hw⟩ := usesBlock_performWrite hb
  have hmoves : cfg.Reaches .all a b := moves_performWrite m b hb
  exact hw.dated h (hmoves h.wellFormed).1 (hmoves.pending_eq_none htop h.wellFormed h.pending)

lemma dated_performBlockWaiters (htop : cfg.topCache = true) (l : List BlockWaiter)
    (h : cfg.Dated l a) : Ensures (cfg.Dated []) (cfg.performBlockWaiters l a) := by
  induction l generalizing a with
  | nil => exact ensures_ok.2 h
  | cons w rest ih =>
    cases w with
    | performRead m => exact Ensures.bind (dated_performRead htop m h) fun b hb => ih hb
    | performWrite m => exact Ensures.bind (dated_performWrite htop m h) fun b hb => ih hb

/-! ## Allocating a block -/

lemma tick_evict {set : ℕ} {r : Option ℕ × Activation} (h : cfg.evict set a = .ok r) :
    r.2.currentTick = a.currentTick := by
  rw [evict] at h
  obtain ⟨-, h⟩ := check_bind_eq_ok.1 h
  split at h
  · obtain ⟨i, -, hret⟩ := bind_eq_ok.1 h
    cases hret
    rfl
  · obtain ⟨i, -, hret⟩ := bind_eq_ok.1 h
    cases hret
    show (if i = none then a else { a with rands := a.rands.tail }).currentTick = a.currentTick
    split <;> rfl

/-- A top cache gives the place of a block in the set to the tag, or changes nothing. -/
lemma allocateBlock_eq_ok (htop : cfg.topCache = true) (ha : cfg.WellFormed a.cache) {r : Bool}
    (h : cfg.allocateBlock tag a = .ok (r, b)) :
    b.cache = a.cache ∧ b.currentTick = a.currentTick ∨ ∃ i d, i < cfg.associativity ∧
      d.cache = a.cache ∧ d.currentTick = a.currentTick ∧
      cfg.prepareFreshBlock (cfg.calcSetFromTag tag) i tag d = .ok b := by
  rw [allocateBlock] at h
  dsimp only at h
  split at h
  · rename_i i hfind
    obtain ⟨d, hd, hret⟩ := bind_eq_ok.1 h
    cases hret
    exact .inr ⟨i, a, List.mem_range.1 (List.mem_of_find?_eq_some hfind), rfl, rfl, hd⟩
  · obtain ⟨⟨eviction, d⟩, hevict, h⟩ := bind_eq_ok.1 h
    obtain ⟨hcache, -, hfound⟩ := evict_eq_ok hevict
    have htick : d.currentTick = a.currentTick := tick_evict hevict
    dsimp only at h
    split at h
    · cases h
      exact .inl ⟨hcache, htick⟩
    · rename_i i
      obtain ⟨hi, hevictable⟩ := hfound i rfl
      have hlookup := (lookup_of_isEvictable ha hi hevictable).1
      rw [if_pos htop] at h
      obtain ⟨e, he, h⟩ := bind_eq_ok.1 h
      obtain ⟨f, hf, hret⟩ := bind_eq_ok.1 h
      cases hret
      rw [← hcache] at hlookup
      obtain ⟨m, delay, -, rfl⟩ := evictBlock_eq_ok hlookup he
      exact .inr ⟨i, d.stamped.sendMsg _ _ _, hi, hcache, htick, hf⟩

/-- Every block was there before or is fresh. -/
lemma block_prepareFreshBlock {d : Activation} {i : ℕ} (ha : cfg.WellFormed a.cache)
    (hb : cfg.WellFormed b.cache) (habsent : cfg.lookup a.cache tag = none)
    (hi : i < cfg.associativity) (hcache : d.cache = a.cache)
    (hnone : a.cache.pendingEviction tag = none)
    (h : cfg.prepareFreshBlock (cfg.calcSetFromTag tag) i tag d = .ok b) {u : AddrTag}
    (hx : cfg.block b.cache u = some x) :
    cfg.block a.cache u = some x ∨ x.locked = false ∧ x.lastWrite = 0 ∧ x.state = .invalid := by
  rw [prepareFreshBlock, hcache, hnone] at h
  obtain ⟨hfree, h⟩ := check_bind_eq_ok.1 h
  cases h
  generalize hd : (d.modifyBlock _ _).cache = c at hb hx
  generalize hj : cfg.blockIndex (cfg.calcSetFromTag tag) i = j at hfree hd
  have hcontents : c.cacheContents = Function.update a.cache.cacheContents j
      { a.cache.cacheContents j with
        valid := true, tag := tag, lastWrite := 0, lastRead := 0, state := .invalid } := by
    rw [← hd, ← hcache]
    rfl
  have hself : c.cacheContents j = { a.cache.cacheContents j with
      valid := true, tag := tag, lastWrite := 0, lastRead := 0, state := .invalid } := by
    rw [hcontents, Function.update_self]
  have hplaces : Places cfg j tag a.cache c :=
    { absent := habsent
      mem := mem_set_iff.2 ⟨i, hi, hj⟩
      valid := by rw [hself]
      tag_eq := by rw [hself]
      others := fun k hk => by rw [hcontents, Function.update_of_ne hk] }
  obtain ⟨hother, hdropped, hplaced⟩ := ha.block_place hb hplaces
  by_cases hu : u = tag
  · rw [hu, hplaced, hself] at hx
    cases hx
    exact .inr ⟨hfree, rfl, rfl⟩
  · by_cases hk : cfg.lookup a.cache u = some j
    · rw [hdropped u hk] at hx
      cases hx
    · rw [hother u hk hu] at hx
      exact .inl hx

lemma tick_prepareFreshBlock {set i : ℕ} :
    Keeps Activation.currentTick a (cfg.prepareFreshBlock set i tag a) := by
  rw [prepareFreshBlock]
  refine keeps_check_bind.2 fun _ => ?_
  split
  · exact keeps_pure.2 rfl
  · exact keeps_check_bind.2 fun _ => keeps_check_bind.2 fun _ => keeps_pure.2 rfl

lemma dated_allocateBlock (htop : cfg.topCache = true) (habsent : cfg.lookup a.cache tag = none)
    (h : cfg.Dated [] a) : Ensures (fun r => cfg.Dated [] r.2) (cfg.allocateBlock tag a) := by
  rintro ⟨result, b⟩ hb
  have hmoves : cfg.Reaches .all a b := moves_allocateBlock .all habsent _ hb
  have hwf := (hmoves h.wellFormed).1
  have htraffic : b.localTraffic = a.localTraffic :=
    Activation.localTraffic_eq (traffic_allocateBlock _ hb)
  have hwaiting : b.cache.waitingOnBlockUnlock = a.cache.waitingOnBlockUnlock :=
    congrArg Prod.fst htraffic
  refine ⟨hwf, hmoves.pending_eq_none htop h.wellFormed h.pending, ?_, fun u x hx => ?_⟩
  · rcases allocateBlock_eq_ok htop h.wellFormed hb with ⟨-, htick⟩ | ⟨i, d, -, -, htick, hd⟩
    · rw [htick]
      exact h.tick
    · have hkeep : b.currentTick = d.currentTick := tick_prepareFreshBlock b hd
      rw [hkeep, htick]
      exact h.tick
  · rw [hwaiting]
    rcases allocateBlock_eq_ok htop h.wellFormed hb with ⟨hcache, -⟩ | ⟨i, d, hi, hcache, -, hd⟩
    · rw [hcache] at hx
      exact h.agree u x hx
    · rcases block_prepareFreshBlock h.wellFormed hwf habsent hi hcache (h.pending tag) hd hx with
        hold | ⟨hlocked, hwrite, hstate⟩
      · exact h.agree u x hold
      · exact .fresh hlocked hwrite hstate

/-! ## Local requests -/

/-- A request that has just arrived is to be performed. -/
lemma Dated.receive (h : cfg.Dated [] a) (w : BlockWaiter) : cfg.Dated [w] a :=
  ⟨h.wellFormed, h.pending, h.tick, fun u x hx =>
    (h.agree u x hx).mono fun _ hw => absurd hw List.not_mem_nil⟩

lemma dated_onLocalRead (htop : cfg.topCache = true) (m : ReadMsg) (h : cfg.Dated [] a) :
    Ensures (cfg.Dated []) (cfg.onLocalRead m a) := by
  rw [onLocalRead]
  dsimp only
  split
  · exact dated_performRead htop m (h.receive _)
  · rename_i hnone
    refine Ensures.bind (dated_allocateBlock htop hnone h) fun r hr => ?_
    split
    · exact dated_performRead htop m (hr.receive _)
    · exact ensures_pure.2 ⟨hr.wellFormed.tables rfl rfl, hr.pending, hr.tick, hr.agree⟩

lemma dated_onLocalWrite (htop : cfg.topCache = true) (m : WriteMsg) (h : cfg.Dated [] a) :
    Ensures (cfg.Dated []) (cfg.onLocalWrite m a) := by
  rw [onLocalWrite]
  dsimp only
  split
  · exact dated_performWrite htop m (h.receive _)
  · rename_i hnone
    refine Ensures.bind (dated_allocateBlock htop hnone h) fun r hr => ?_
    split
    · exact dated_performWrite htop m (hr.receive _)
    · exact ensures_pure.2 ⟨hr.wellFormed.tables rfl rfl, hr.pending, hr.tick, hr.agree⟩

lemma dated_retrySetWaiters (htop : cfg.topCache = true) (l : List SetWaiter)
    (h : cfg.Dated [] a) : Ensures (cfg.Dated []) (cfg.retrySetWaiters l a) := by
  induction l generalizing a with
  | nil => exact ensures_ok.2 h
  | cons w rest ih =>
    cases w with
    | read m => exact Ensures.bind (dated_onLocalRead htop m h) fun b hb => ih hb
    | write m => exact Ensures.bind (dated_onLocalWrite htop m h) fun b hb => ih hb

/-! ## The answer of the level below -/

/-- The exclusive answer does not make a block that has been written exclusive unless a write
waits for it. -/
def WritesAgain (cfg : CacheConfig) (c : BIPMOESICache) (m : ReadResponseMsg) : Prop :=
  m.exclusiveOwnership = true → ∀ x ∈ cfg.block c (cfg.calcTag m.addr), x.locked = true →
    x.lastWrite ≠ 0 → ∃ w ∈ c.waitingOnBlockUnlock (cfg.calcTag m.addr), w.isWrite = true

/-- The block gets the state `s` of the answer, and the requests that wait for it are
performed. -/
lemma agree_unlockBlock (htop : cfg.topCache = true) {s : BIPMOESIState}
    (hs : s ≠ .invalid ∧ s.isDirty = false) (hq : cfg.Queues none none a.cache)
    (h : cfg.Dated [] a) (hj : cfg.lookup a.cache tag = some j)
    (hm : (a.cache.cacheContents j).lastWrite ≠ 0 → ∃ w ∈ a.cache.waitingOnBlockUnlock tag,
      w.demands = true ∧ (s = .exclusive → w.isWrite = true)) :
    Ensures (fun b => cfg.AllAgree [] b.cache)
      (cfg.unlockBlock tag (a.modifyBlock j fun b => { b with state := s })) := by
  have hold := isBlockOf_of_lookup hj
  have hsame : cfg.lookup (a.modifyBlock j fun b => { b with state := s }).cache =
      cfg.lookup a.cache := lookup_modifyBlock fun x => ⟨rfl, rfl⟩
  have hlookup : cfg.lookup (a.modifyBlock j fun b => { b with state := s }).cache tag = some j := by
    rw [hsame, hj]
  rw [unlockBlock, hlookup]
  refine ensures_check_bind.2 fun _ => ensures_check_bind.2 fun _ => ?_
  dsimp only
  refine ensures_check_bind.2 fun _ => ?_
  generalize hopen : ((a.modifyBlock j fun b => { b with state := s }).modifyBlock j
    fun b => { b with locked := false }).setWaitingOnBlockUnlock tag [] = d
  have hcontents : d.cache.cacheContents = Function.update a.cache.cacheContents j
      { a.cache.cacheContents j with state := s, locked := false } := by
    rw [← hopen]
    exact cacheContents_touch (a := a) (x := { a.cache.cacheContents j with state := s })
      (f := fun b => { b with locked := false }) rfl
  have hwaiting : d.cache.waitingOnBlockUnlock =
      Function.update a.cache.waitingOnBlockUnlock tag [] := by
    rw [← hopen]
    rfl
  have hpending : d.cache.pendingEviction = a.cache.pendingEviction := by
    rw [← hopen]
    rfl
  have hd : cfg.Dated (a.cache.waitingOnBlockUnlock tag) d := by
    refine ⟨?_, fun u => ?_, ?_, ?_⟩
    · rw [← hopen]
      have hfirst := (hq.wellFormed.block_modify hj (f := fun b => { b with state := s })
        ⟨rfl, rfl⟩).1
      exact (hfirst.block_modify hlookup (f := fun b => { b with locked := false })
        ⟨rfl, rfl⟩).1.tables rfl rfl
    · rw [hpending]
      exact h.pending u
    · rw [← hopen]
      exact h.tick
    · refine h.agree.replace h.wellFormed hj
        (x := { a.cache.cacheContents j with state := s, locked := false })
        ⟨hold.2.1, hold.2.2⟩ hcontents hwaiting ?_ ?_
      · exact fun u y _ hy => hy.mono fun w hw => absurd hw List.not_mem_nil
      · refine ⟨fun hl => ?_, fun _ hdirty => ?_, fun _ hwrite => .inr ⟨hs.1, ?_⟩⟩
        · cases hl
        · exact absurd (hs.2.symm.trans hdirty) Bool.false_ne_true
        · obtain ⟨w, hw, hdemands, hwrites⟩ := hm hwrite
          exact ⟨w, hw, hq.filedBlock tag w hw, hdemands, hwrites⟩
  refine Ensures.bind (dated_performBlockWaiters htop _ hd) fun b hb => ?_
  split
  · exact ensures_pure.2 hb.agree
  · refine (dated_retrySetWaiters htop _ ?_).mono fun e he => he.agree
    exact ⟨hb.wellFormed.tables rfl rfl, hb.pending, hb.tick, hb.agree⟩

lemma agree_onRemoteReadResponse (htop : cfg.topCache = true) {m : ReadResponseMsg}
    (hq : cfg.Queues none none a.cache) (h : cfg.Dated [] a) (hm : cfg.WritesAgain a.cache m) :
    Ensures (fun b => cfg.AllAgree [] b.cache) (cfg.onRemoteReadResponse m a) := by
  rw [onRemoteReadResponse]
  split
  · refine ensures_ok.2 ?_
    split <;> exact h.agree
  · rename_i j hj
    split
    · refine ensures_ok.2 ?_
      split <;> exact h.agree
    · rename_i hlocked
      have hlocked : (a.cache.cacheContents j).locked = true := Bool.not_eq_false _ ▸ hlocked
      have hblock := block_of_lookup hj
      refine agree_unlockBlock htop ?_ hq h hj fun hwrite => ?_
      · split <;> exact ⟨BIPMOESIState.noConfusion, rfl⟩
      · -- who needs the block exclusively is about to ask again, or to write
        by_cases hexclusive : m.exclusiveOwnership = true
        · obtain ⟨w, hw, hwrites⟩ := hm hexclusive _ hblock hlocked hwrite
          exact ⟨w, hw, BlockWaiter.demands_of_isWrite hwrites, fun _ => hwrites⟩
        · obtain ⟨w, hw, hdemands⟩ := ((h.agree _ _ hblock).locked hlocked).2 hwrite
          refine ⟨w, hw, hdemands, fun hs => ?_⟩
          rw [if_neg hexclusive] at hs
          cases hs

end CacheConfig

end Sesc.Cache
