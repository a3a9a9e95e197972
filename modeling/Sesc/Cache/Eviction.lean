import Sesc.Cache.Moves

/-!
# The random eviction policy

`RandomEvictionPolicy::Evict` counts the blocks of a set that it may evict, draws an index and
skips as many of them.  The index is drawn below the size of the set, not below the count, so
the draw may pass the last of them.
-/

namespace Sesc.Cache

open Lib

/-- A way of a set that can be given to another tag: it holds no block, or one that is not
locked. -/
def BlockState.isFree (b : BlockState) : Bool := !b.valid || !b.locked

/-- The places of the blocks of a set that a policy may evict. -/
def evictable (blocks : List BlockState) : List ℕ :=
  (List.range blocks.length).filter fun i => (blocks[i]?.map BlockState.isEvictable).getD false

/-- The second loop of `RandomEvictionPolicy::Evict`: the place of the next block and the number
of blocks to skip. -/
def randomLoop : List BlockState → ℕ → ℕ → Option ℕ
  | [], _, _ => none
  | b :: rest, i, index =>
    if b.isEvictable then
      if index = 0 then some i else randomLoop rest (i + 1) (index - 1)
    else randomLoop rest (i + 1) index

variable {blocks : List BlockState} {rand i : ℕ}

lemma evictable_cons (b : BlockState) (rest : List BlockState) :
    evictable (b :: rest) =
      (if b.isEvictable then [0] else []) ++ (evictable rest).map (· + 1) := by
  have htail : ((List.range rest.length).map (· + 1)).filter (fun i =>
      ((b :: rest)[i]?.map BlockState.isEvictable).getD false) = (evictable rest).map (· + 1) := by
    rw [List.filter_map]
    rfl
  rw [evictable, List.length_cons, List.range_succ_eq_map, List.filter_cons]
  by_cases hb : b.isEvictable = true
  · have hfirst : (((b :: rest)[0]?).map BlockState.isEvictable).getD false = true := hb
    rw [if_pos hfirst, if_pos hb]
    exact congrArg _ htail
  · have hfirst : (((b :: rest)[0]?).map BlockState.isEvictable).getD false ≠ true := hb
    rw [if_neg hfirst, if_neg hb]
    exact htail

/-- The loop finds the block whose place comes after as many as were to be skipped. -/
lemma randomLoop_eq (blocks : List BlockState) (i index : ℕ) :
    randomLoop blocks i index = (evictable blocks)[index]?.map (· + i) := by
  induction blocks generalizing i index with
  | nil => rfl
  | cons b rest ih =>
    rw [randomLoop, evictable_cons]
    have hshift : ∀ k : ℕ, (((evictable rest).map (· + 1))[k]?).map (· + i) =
        (evictable rest)[k]?.map (· + (i + 1)) := by
      intro k
      rw [List.getElem?_map, Option.map_map]
      congr 1
      funext n
      simp only [Function.comp_apply]
      omega
    split
    · rcases index with _ | k
      · simp
      · rw [if_neg (Nat.succ_ne_zero k), ih]
        simpa using (hshift k).symm
    · rw [ih]
      simpa using (hshift index).symm

lemma length_evictable (blocks : List BlockState) :
    (evictable blocks).length = blocks.countP BlockState.isEvictable := by
  induction blocks with
  | nil => rfl
  | cons b rest ih =>
    rw [evictable_cons, List.length_append, List.length_map, ih, List.countP_cons, Nat.add_comm]
    split <;> rfl

lemma mem_evictable : i ∈ evictable blocks ↔ ∃ b, blocks[i]? = some b ∧ b.isEvictable = true := by
  rw [evictable, List.mem_filter, List.mem_range]
  constructor
  · rintro ⟨hi, hb⟩
    rw [List.getElem?_eq_getElem hi] at hb ⊢
    exact ⟨blocks[i], rfl, hb⟩
  · rintro ⟨b, hb, hevictable⟩
    obtain ⟨hi, -⟩ := List.getElem?_eq_some_iff.1 hb
    rw [hb]
    exact ⟨hi, hevictable⟩

/-- The policy draws an index, and its loop skips as many blocks. -/
lemma randomEvict_eq (hne : blocks.countP BlockState.isEvictable ≠ 0) :
    randomEvict blocks rand =
      (randomLoop blocks 0 (rand % blocks.length)).elim (.error .assertion)
        fun i => .ok (some i) := by
  rw [randomEvict, if_neg hne, randomLoop_eq]
  have hzero : (fun i : ℕ => i + 0) = id := rfl
  rw [hzero, Option.map_id, id_eq]
  dsimp only
  split
  · rename_i i hi
    rw [show (evictable blocks)[rand % blocks.length]? = some i from hi, Option.elim_some]
  · rename_i hi
    rw [show (evictable blocks)[rand % blocks.length]? = none from hi, Option.elim_none]

/-- No block is reported when there is none to evict. -/
lemma randomEvict_eq_none :
    randomEvict blocks rand = .ok none ↔ blocks.countP BlockState.isEvictable = 0 := by
  by_cases hzero : blocks.countP BlockState.isEvictable = 0
  · rw [randomEvict, if_pos hzero]
    exact iff_of_true rfl hzero
  · rw [randomEvict_eq hzero]
    refine iff_of_false ?_ hzero
    rcases randomLoop blocks 0 (rand % blocks.length) with _ | i
    · exact fun h => by cases h
    · exact fun h => by cases h

/-- A block is found exactly when it comes after as many others as the index says. -/
lemma randomEvict_eq_some :
    randomEvict blocks rand = .ok (some i) ↔
      (evictable blocks)[rand % blocks.length]? = some i := by
  by_cases hzero : blocks.countP BlockState.isEvictable = 0
  · have hnil : evictable blocks = [] := by
      rw [← List.length_eq_zero_iff, length_evictable]
      exact hzero
    rw [randomEvict, if_pos hzero, hnil]
    exact iff_of_false (fun h => by cases h) fun h => by cases h
  · rw [randomEvict_eq hzero, randomLoop_eq]
    rcases (evictable blocks)[rand % blocks.length]? with _ | k
    · exact iff_of_false (fun h => by cases h) fun h => by cases h
    · refine ⟨fun h => ?_, fun h => ?_⟩
      · cases h
        rfl
      · cases h
        rfl

/-! ## What the policy should do -/

/-- The policy gives away a free way of the set, and reports that there is none exactly when
there is none. -/
structure PicksFree (blocks : List BlockState) (rand : ℕ) : Prop where
  found : (∃ b ∈ blocks, b.isFree = true) → ∃ i b, randomEvict blocks rand = .ok (some i) ∧
    blocks[i]? = some b ∧ b.isFree = true
  none : randomEvict blocks rand = .ok none ↔ ∀ b ∈ blocks, b.isFree = false

/-- Every free way of the set is given away for some value of `rand`. -/
def PicksAll (blocks : List BlockState) : Prop :=
  ∀ i b, blocks[i]? = some b → b.isFree = true →
    ∃ rand, randomEvict blocks rand = .ok (some i)

lemma BlockState.isFree_of_isEvictable {b : BlockState} (h : b.isEvictable = true) :
    b.isFree = true := by
  have hlocked : (!b.locked) = true := (Bool.and_eq_true_iff.1 h).2
  rw [isFree, hlocked, Bool.or_true]

/-- A draw is right exactly when there is nothing to draw or the index is not too large. -/
lemma picksFree_iff : PicksFree blocks rand ↔ (∀ b ∈ blocks, b.isFree = false) ∨
    rand % blocks.length < blocks.countP BlockState.isEvictable := by
  constructor
  · intro h
    by_cases hnone : ∀ b ∈ blocks, b.isFree = false
    · exact .inl hnone
    · obtain ⟨b, hb, hfree⟩ := by simpa using hnone
      obtain ⟨i, -, hi, -, -⟩ := h.found ⟨b, hb, hfree⟩
      obtain ⟨hlt, -⟩ := List.getElem?_eq_some_iff.1 (randomEvict_eq_some.1 hi)
      rw [length_evictable] at hlt
      exact .inr hlt
  · rintro (hnone | hlt)
    · refine ⟨fun ⟨b, hb, hfree⟩ => ?_, iff_of_true (randomEvict_eq_none.2 ?_) hnone⟩
      · rw [hnone b hb] at hfree
        cases hfree
      · refine List.countP_eq_zero.2 fun b hb hevictable => ?_
        have hfree := BlockState.isFree_of_isEvictable hevictable
        rw [hnone b hb] at hfree
        cases hfree
    · rw [← length_evictable] at hlt
      have hi := List.getElem?_eq_getElem hlt
      obtain ⟨b, hb, hevictable⟩ := mem_evictable.1 (List.mem_of_getElem? hi)
      have hfree := BlockState.isFree_of_isEvictable hevictable
      refine ⟨fun _ => ⟨_, b, randomEvict_eq_some.2 hi, hb, hfree⟩, iff_of_false ?_ ?_⟩
      · rw [randomEvict_eq_some.2 hi]
        exact fun h => by cases h
      · intro hnone
        rw [hnone b (List.mem_of_getElem? hb)] at hfree
        cases hfree

/-- All free ways are drawn exactly when they hold blocks that the policy may evict. -/
lemma picksAll_iff : PicksAll blocks ↔ ∀ b ∈ blocks, b.isFree = true → b.isEvictable = true := by
  constructor
  · intro h b hb hfree
    obtain ⟨i, hi⟩ := List.mem_iff_getElem?.1 hb
    obtain ⟨rand, hrand⟩ := h i b hi hfree
    obtain ⟨b', hb', hevictable⟩ := evicts_of_randomEvict hrand
    rw [hi] at hb'
    cases hb'
    exact hevictable
  · intro h i b hb hfree
    have hmem : i ∈ evictable blocks :=
      mem_evictable.2 ⟨b, hb, h b (List.mem_of_getElem? hb) hfree⟩
    obtain ⟨k, hk, hki⟩ := List.mem_iff_getElem.1 hmem
    have hle : blocks.countP BlockState.isEvictable ≤ blocks.length := List.countP_le_length
    have hlt : k < blocks.length := by
      rw [length_evictable] at hk
      omega
    refine ⟨k, randomEvict_eq_some.2 ?_⟩
    rw [Nat.mod_eq_of_lt hlt, List.getElem?_eq_getElem hk, hki]

/-- The policy picks right for a value of `rand` exactly when no way is free or the value is, up
to the size of the set, below the number of blocks it may evict; for all values, and with every
free way picked for some value, exactly when all ways are locked or all may be evicted. -/
theorem randomEvict_picksFree_iff (blocks : List BlockState) :
    (∀ rand, PicksFree blocks rand ↔ (∀ b ∈ blocks, b.isFree = false) ∨
      rand % blocks.length < blocks.countP BlockState.isEvictable) ∧
    ((∀ rand, PicksFree blocks rand) ∧ PicksAll blocks ↔
      (∀ b ∈ blocks, b.isFree = false) ∨ ∀ b ∈ blocks, b.isEvictable = true) := by
  refine ⟨fun rand => picksFree_iff, ?_⟩
  rw [picksAll_iff]
  constructor
  · rintro ⟨hfree, -⟩
    by_cases hnone : ∀ b ∈ blocks, b.isFree = false
    · exact .inl hnone
    · -- the largest index a draw may give
      have hlast := (picksFree_iff.1 (hfree (blocks.length - 1))).resolve_left hnone
      have hpos : 0 < blocks.length := by
        refine List.length_pos_iff.2 fun hnil => hnone ?_
        rw [hnil]
        exact List.forall_mem_nil _
      rw [Nat.mod_eq_of_lt (by omega)] at hlast
      have hle : blocks.countP BlockState.isEvictable ≤ blocks.length := List.countP_le_length
      exact .inr (List.countP_eq_length.1 (by omega))
  · rintro (hnone | hall)
    · refine ⟨fun rand => picksFree_iff.2 (.inl hnone), fun b hb hfree => ?_⟩
      rw [hnone b hb] at hfree
      cases hfree
    · refine ⟨fun rand => picksFree_iff.2 ?_, fun b hb _ => hall b hb⟩
      rw [List.countP_eq_length.2 hall]
      rcases blocks with _ | ⟨b, rest⟩
      · exact .inl (List.forall_mem_nil _)
      · exact .inr (Nat.mod_lt _ (Nat.succ_pos _))

/-- A set of two ways of which the first is locked: the second value of `rand` skips the only
block that may be evicted. -/
theorem not_picksFree_of_locked :
    let b : BlockState := { BlockState.new with valid := true, state := .shared }
    ¬PicksFree [{ b with locked := true }, b] 1 := by
  intro b h
  obtain ⟨i, -, hi, -⟩ := h.found ⟨b, .tail _ (.head _), rfl⟩
  have hfault : randomEvict [{ b with locked := true }, b] 1 = .error .assertion := rfl
  rw [hfault] at hi
  cases hi

end Sesc.Cache
