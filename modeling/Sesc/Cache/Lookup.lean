import Sesc.Cache.Handlers

/-!
# The block of a tag

In every reachable state a tag has at most one block, in the set of the tag, and no block
while its eviction is pending.  This file proves that each handler keeps this invariant.
-/

namespace Sesc.Cache

open Lib

namespace CacheConfig

variable (cfg : CacheConfig)

/-- The block with index `j` is one of the set of `tag`, valid, and has this tag. -/
def IsBlockOf (c : BIPMOESICache) (tag : AddrTag) (j : ℕ) : Prop :=
  j ∈ cfg.set (cfg.calcSetFromTag tag) ∧ (c.cacheContents j).valid = true ∧
    (c.cacheContents j).tag = tag

/-- Valid blocks are in the set of their tag, a tag has one block at most, and a tag whose
eviction is pending has none. -/
structure WellFormed (c : BIPMOESICache) : Prop where
  set : ∀ s, ∀ j ∈ cfg.set s, (c.cacheContents j).valid = true →
    cfg.calcSetFromTag (c.cacheContents j).tag = s
  unique : ∀ tag j j', cfg.IsBlockOf c tag j → cfg.IsBlockOf c tag j' → j = j'
  pending : ∀ tag b, c.pendingEviction tag = some b → b.tag = tag ∧ b.valid = true ∧
    b.locked = false ∧ b.state ≠ .invalid ∧ cfg.lookup c tag = none

variable {cfg} {c c' : BIPMOESICache} {tag : AddrTag} {j : ℕ}

lemma isBlockOf_of_lookup (h : cfg.lookup c tag = some j) : cfg.IsBlockOf c tag j := by
  have hj := List.find?_some h
  rw [Bool.and_eq_true, beq_iff_eq] at hj
  exact ⟨List.mem_of_find?_eq_some h, hj.1, hj.2⟩

lemma lookup_eq_none : cfg.lookup c tag = none ↔ ∀ j, ¬cfg.IsBlockOf c tag j := by
  rw [lookup, List.find?_eq_none]
  constructor
  · rintro h j ⟨hmem, hvalid, htag⟩
    refine h j hmem ?_
    rw [hvalid, htag, beq_self_eq_true]
    rfl
  · intro h j hmem hj
    rw [Bool.and_eq_true, beq_iff_eq] at hj
    exact h j ⟨hmem, hj.1, hj.2⟩

lemma WellFormed.lookup_eq_some (h : cfg.WellFormed c) :
    cfg.lookup c tag = some j ↔ cfg.IsBlockOf c tag j := by
  refine ⟨isBlockOf_of_lookup, fun hj => ?_⟩
  rcases hl : cfg.lookup c tag with _ | k
  · exact absurd hj (lookup_eq_none.1 hl j)
  · rw [h.unique tag k j (isBlockOf_of_lookup hl) hj]

lemma WellFormed.new : cfg.WellFormed .new where
  set _ _ _ h := nomatch h
  unique _ _ _ h := nomatch h.2.1
  pending _ _ h := nomatch h

lemma lookup_new (tag : AddrTag) : cfg.lookup .new tag = none :=
  lookup_eq_none.2 fun _ h => nomatch h.2.1

/-! ## Changing a block -/

lemma lookup_congr (h : ∀ k, (c'.cacheContents k).valid = (c.cacheContents k).valid ∧
    (c'.cacheContents k).tag = (c.cacheContents k).tag) : cfg.lookup c' = cfg.lookup c := by
  funext u
  refine congrFun (congrArg _ (funext fun k => ?_)) _
  rw [(h k).1, (h k).2]

lemma isBlockOf_congr (h : ∀ k, (c'.cacheContents k).valid = (c.cacheContents k).valid ∧
    (c'.cacheContents k).tag = (c.cacheContents k).tag) {u : AddrTag} {k : ℕ} :
    cfg.IsBlockOf c' u k ↔ cfg.IsBlockOf c u k := by
  rw [IsBlockOf, IsBlockOf, (h k).1, (h k).2]

/-- The tags and the pending evictions are the same, up to the states of the blocks. -/
lemma WellFormed.congr (hc : cfg.WellFormed c)
    (h : ∀ k, (c'.cacheContents k).valid = (c.cacheContents k).valid ∧
      (c'.cacheContents k).tag = (c.cacheContents k).tag)
    (hpending : ∀ u b, c'.pendingEviction u = some b → ∃ b', c.pendingEviction u = some b' ∧
      b.tag = b'.tag ∧ b.valid = b'.valid ∧ b.locked = b'.locked ∧
      (b'.state ≠ .invalid → b.state ≠ .invalid)) : cfg.WellFormed c' where
  set s k hk hvalid := by
    rw [(h k).1] at hvalid
    rw [(h k).2]
    exact hc.set s k hk hvalid
  unique u k k' hk hk' :=
    hc.unique u k k' ((isBlockOf_congr h).1 hk) ((isBlockOf_congr h).1 hk')
  pending u b hb := by
    obtain ⟨b', hb', htag, hvalid, hlocked, hstate⟩ := hpending u b hb
    obtain ⟨htag', hvalid', hlocked', hstate', hlookup⟩ := hc.pending u b' hb'
    rw [lookup_congr h]
    exact ⟨htag.trans htag', hvalid.trans hvalid', hlocked.trans hlocked', hstate hstate', hlookup⟩

/-- The block at index `j` is no longer valid. -/
structure Erases (j : ℕ) (c c' : BIPMOESICache) : Prop where
  erased : (c'.cacheContents j).valid = false
  others : ∀ k, k ≠ j → c'.cacheContents k = c.cacheContents k

lemma Erases.isBlockOf_iff (h : Erases j c c') {u : AddrTag} {k : ℕ} :
    cfg.IsBlockOf c' u k ↔ k ≠ j ∧ cfg.IsBlockOf c u k := by
  by_cases hk : k = j
  · subst hk
    refine iff_of_false (fun hb => ?_) fun hb => hb.1 rfl
    rw [IsBlockOf, h.erased] at hb
    exact Bool.false_ne_true hb.2.1
  · rw [IsBlockOf, IsBlockOf, h.others k hk, and_iff_right hk]

lemma WellFormed.erase (hc : cfg.WellFormed c) (h : Erases j c c')
    (hpending : c'.pendingEviction = c.pendingEviction) : cfg.WellFormed c' where
  set s k hk hvalid := by
    by_cases hkj : k = j
    · subst hkj
      rw [h.erased] at hvalid
      cases hvalid
    · rw [h.others k hkj] at hvalid ⊢
      exact hc.set s k hk hvalid
  unique u k k' hk hk' := hc.unique u k k' (h.isBlockOf_iff.1 hk).2 (h.isBlockOf_iff.1 hk').2
  pending u b hb := by
    rw [hpending] at hb
    obtain ⟨htag, hvalid, hlocked, hstate, hlookup⟩ := hc.pending u b hb
    refine ⟨htag, hvalid, hlocked, hstate, lookup_eq_none.2 fun k hk => ?_⟩
    exact lookup_eq_none.1 hlookup k (h.isBlockOf_iff.1 hk).2

/-- The block of the tag is gone and the others are where they were. -/
lemma WellFormed.lookup_erase (hc : cfg.WellFormed c) (hc' : cfg.WellFormed c')
    (h : Erases j c c') (hj : cfg.lookup c tag = some j) (u : AddrTag) :
    cfg.lookup c' u = if u = tag then none else cfg.lookup c u := by
  split
  · rename_i hu
    subst hu
    refine lookup_eq_none.2 fun k hk => ?_
    obtain ⟨hkj, hk⟩ := h.isBlockOf_iff.1 hk
    exact hkj (hc.unique u k j hk (isBlockOf_of_lookup hj))
  · rename_i hu
    refine Option.ext fun k => ?_
    rw [hc'.lookup_eq_some, hc.lookup_eq_some, h.isBlockOf_iff]
    refine and_iff_right_of_imp ?_
    rintro hk rfl
    exact hu (hk.2.2.symm.trans (isBlockOf_of_lookup hj).2.2)

/-- The block at index `j` is now the block of `tag`, which had none. -/
structure Places (cfg : CacheConfig) (j : ℕ) (tag : AddrTag) (c c' : BIPMOESICache) : Prop where
  absent : cfg.lookup c tag = none
  mem : j ∈ cfg.set (cfg.calcSetFromTag tag)
  valid : (c'.cacheContents j).valid = true
  tag_eq : (c'.cacheContents j).tag = tag
  others : ∀ k, k ≠ j → c'.cacheContents k = c.cacheContents k

lemma mem_set_iff {s k : ℕ} : k ∈ cfg.set s ↔ ∃ i, i < cfg.associativity ∧ cfg.blockIndex s i = k := by
  simp [CacheConfig.set]

/-- A block belongs to one set. -/
lemma set_unique {s s' k : ℕ} (h : k ∈ cfg.set s) (h' : k ∈ cfg.set s') : s = s' := by
  obtain ⟨i, hi, rfl⟩ := mem_set_iff.1 h
  obtain ⟨i', hi', heq⟩ := mem_set_iff.1 h'
  have hpos : 0 < cfg.associativity := by omega
  have hs : (s * cfg.associativity + i) / cfg.associativity = s := by
    rw [Nat.mul_comm, Nat.mul_add_div hpos, Nat.div_eq_of_lt hi, Nat.add_zero]
  have hs' : (s' * cfg.associativity + i') / cfg.associativity = s' := by
    rw [Nat.mul_comm, Nat.mul_add_div hpos, Nat.div_eq_of_lt hi', Nat.add_zero]
  rw [blockIndex, blockIndex] at heq
  rw [← hs, ← hs', heq]

lemma Places.isBlockOf_iff (h : Places cfg j tag c c') {u : AddrTag} {k : ℕ} :
    cfg.IsBlockOf c' u k ↔ k = j ∧ u = tag ∨ k ≠ j ∧ cfg.IsBlockOf c u k := by
  by_cases hk : k = j
  · subst hk
    rw [IsBlockOf, h.valid, h.tag_eq]
    constructor
    · rintro ⟨-, -, rfl⟩
      exact .inl ⟨rfl, rfl⟩
    · rintro (⟨-, rfl⟩ | ⟨hne, -⟩)
      · exact ⟨h.mem, rfl, rfl⟩
      · exact absurd rfl hne
  · rw [IsBlockOf, IsBlockOf, h.others k hk]
    simp [hk]

lemma WellFormed.place (hc : cfg.WellFormed c) (h : Places cfg j tag c c')
    (hpending : ∀ u b, c'.pendingEviction u = some b → u ≠ tag ∧ (c.pendingEviction u = some b ∨
      cfg.lookup c u = some j ∧ c.cacheContents j = b ∧ b.locked = false ∧ b.state ≠ .invalid)) :
    cfg.WellFormed c' where
  set s k hk hvalid := by
    by_cases hkj : k = j
    · subst hkj
      rw [h.tag_eq]
      exact set_unique h.mem hk
    · rw [h.others k hkj] at hvalid ⊢
      exact hc.set s k hk hvalid
  unique u k k' hk hk' := by
    rcases h.isBlockOf_iff.1 hk with ⟨rfl, rfl⟩ | ⟨-, hk⟩ <;>
      rcases h.isBlockOf_iff.1 hk' with ⟨rfl, hu⟩ | ⟨-, hk'⟩
    · rfl
    · exact absurd hk' (lookup_eq_none.1 h.absent k')
    · subst hu
      exact absurd hk (lookup_eq_none.1 h.absent k)
    · exact hc.unique u k k' hk hk'
  pending u b hb := by
    obtain ⟨hne, hb | ⟨hu, rfl, hlocked, hstate⟩⟩ := hpending u b hb
    · obtain ⟨htag, hvalid, hlocked, hstate, hlookup⟩ := hc.pending u b hb
      refine ⟨htag, hvalid, hlocked, hstate, lookup_eq_none.2 fun k hk => ?_⟩
      rcases h.isBlockOf_iff.1 hk with ⟨-, hu⟩ | ⟨-, hk⟩
      · exact hne hu
      · exact lookup_eq_none.1 hlookup k hk
    · have hj := isBlockOf_of_lookup hu
      refine ⟨hj.2.2, hj.2.1, hlocked, hstate, lookup_eq_none.2 fun k hk => ?_⟩
      rcases h.isBlockOf_iff.1 hk with ⟨-, hu⟩ | ⟨hkj, hk⟩
      · exact hne hu
      · exact hkj (hc.unique u k j hk hj)

/-- The tag has its block, the tag of the block that was replaced has none. -/
lemma WellFormed.lookup_place (hc : cfg.WellFormed c) (hc' : cfg.WellFormed c')
    (h : Places cfg j tag c c') (u : AddrTag) : cfg.lookup c' u =
      if u = tag then some j else if cfg.lookup c u = some j then none else cfg.lookup c u := by
  split
  · rename_i hu
    exact hc'.lookup_eq_some.2 (h.isBlockOf_iff.2 (.inl ⟨rfl, hu⟩))
  · rename_i hu
    refine Option.ext fun k => ?_
    rw [hc'.lookup_eq_some, h.isBlockOf_iff, ← hc.lookup_eq_some]
    split
    · rename_i hj
      rw [hj]
      simp [hu]
      exact fun hne => Ne.symm hne
    · rename_i hj
      constructor
      · rintro (⟨-, h⟩ | ⟨-, h⟩)
        · exact absurd h hu
        · exact h
      · intro hk
        refine .inr ⟨?_, hk⟩
        rintro rfl
        exact hj hk

end CacheConfig

end Sesc.Cache
