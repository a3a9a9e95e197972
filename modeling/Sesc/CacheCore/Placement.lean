import Sesc.CacheCore.CacheGeneric

/-!
# Where the tags of a cache array are

Every line whose tag is not 0 is in one of the places of its tag, and no two lines have the same tag.
An operation that moves pointers inside a set, or that gives a line in a place of the tag a tag that
no other line has, keeps this.
-/

namespace Sesc.CacheCore

open Lib

namespace Geometry

variable (g : Geometry)

lemma assoc_pos : 0 < g.assoc := by
  obtain ⟨k, hk⟩ := g.assoc_isPowerOfTwo
  rw [hk]
  exact Nat.two_pow_pos k

/-- The sets follow one another. -/
lemma calcIndex4Tag_eq (tag : Tag) : g.calcIndex4Tag tag = g.calcSet4Tag tag * g.assoc := by
  obtain ⟨k, hk⟩ := g.assoc_isPowerOfTwo
  rw [calcIndex4Tag, calcIndex4Set, log2Assoc, Nat.shiftLeft_eq, hk, Nat.log2_two_pow]

lemma calcSet4Tag_lt (tag : Tag) : g.calcSet4Tag tag < g.sets := by
  have hle : g.calcSet4Tag tag ≤ g.sets - 1 := Nat.and_le_right
  exact Nat.lt_of_le_of_lt hle (Nat.sub_lt g.sets_pos Nat.one_pos)

/-- The set of a tag is inside of the array. -/
lemma calcIndex4Tag_add_le (tag : Tag) : g.calcIndex4Tag tag + g.assoc ≤ g.numLines := by
  rw [calcIndex4Tag_eq, ← Nat.succ_mul]
  exact Nat.le_trans (Nat.mul_le_mul_right _ (g.calcSet4Tag_lt tag)) (Nat.div_mul_le_self _ _)

lemma calcIndex4Tag_lt (tag : Tag) : g.calcIndex4Tag tag < g.numLines := by
  have := g.calcIndex4Tag_add_le tag
  have := g.assoc_pos
  omega

/-- The sets of two tags are the same or have no place in common. -/
lemma calcIndex4Tag_eq_or (tag tag' : Tag) :
    g.calcIndex4Tag tag' = g.calcIndex4Tag tag ∨
      g.calcIndex4Tag tag + g.assoc ≤ g.calcIndex4Tag tag' ∨
      g.calcIndex4Tag tag' + g.assoc ≤ g.calcIndex4Tag tag := by
  rw [calcIndex4Tag_eq, calcIndex4Tag_eq]
  rcases Nat.lt_trichotomy (g.calcSet4Tag tag) (g.calcSet4Tag tag') with h | h | h
  · refine .inr (.inl ?_)
    rw [← Nat.succ_mul]
    exact Nat.mul_le_mul_right _ h
  · exact .inl (by rw [h])
  · refine .inr (.inr ?_)
    rw [← Nat.succ_mul]
    exact Nat.mul_le_mul_right _ h

end Geometry

namespace CacheGeneric

variable {impl : Implementation} {g : Geometry} {c c' : CacheGeneric}

/-! ## Lines -/

@[simp] lemma content_modifyLine (l : Line) (f : CacheLine → CacheLine) :
    (c.modifyLine l f).content = c.content := rfl

@[simp] lemma irand_modifyLine (l : Line) (f : CacheLine → CacheLine) :
    (c.modifyLine l f).irand = c.irand := rfl

lemma line_modifyLine (l l' : Line) (f : CacheLine → CacheLine) (hl : l < c.mem.length) :
    (c.modifyLine l f).line l' = if l' = l then f (c.line l) else c.line l' := by
  rw [line, modifyLine, line, line, List.getD_eq_getElem?_getD, List.getD_eq_getElem?_getD,
    List.getD_eq_getElem?_getD, List.getElem?_modify]
  by_cases h : l' = l
  · subst h
    simp [hl]
  · have h' : l ≠ l' := fun heq => h heq.symm
    simp [h, h']

/-! ## Places -/

/-- The second place of a tag in a skewed cache. -/
lemma calcTag_skew (addr : Addr) :
    g.calcTag (addr ^^^ addr >>> 7) = g.calcTag addr ^^^ g.calcTag addr >>> 7 := by
  rw [Geometry.calcTag, Geometry.calcTag, Nat.shiftRight_xor_distrib, ← Nat.shiftRight_add,
    ← Nat.shiftRight_add, Nat.add_comm]

/-- The lines that are in the places of a tag. -/
def candidates (g : Geometry) (c : CacheGeneric) (tag : Tag) : Implementation → List Line
  | .cacheAssoc _ => CacheAssoc.theSet g c tag
  | .cacheDM => c.content[g.calcIndex4Tag tag]?.toList
  | .cacheDMSkew => c.content[g.calcIndex4Tag tag]?.toList ++
      c.content[g.calcIndex4Tag (tag ^^^ tag >>> 7)]?.toList

/-- At most one line has a tag. -/
def Unique (c : CacheGeneric) : Prop :=
  ∀ l l', (c.line l).tag ≠ 0 → (c.line l).tag = (c.line l').tag → l = l'

/-- What holds of a cache array between two operations. -/
structure Inv (impl : Implementation) (g : Geometry) (c : CacheGeneric) : Prop where
  length_content : c.content.length = g.numLines
  length_mem : c.mem.length = g.numLines
  lt_of_mem : ∀ l ∈ c.content, l < g.numLines
  irand_lt : c.irand < g.assoc
  placed : ∀ l, (c.line l).tag ≠ 0 → l ∈ candidates g c (c.line l).tag impl
  unique : c.Unique
  not_isLocked : ∀ l, (c.line l).tag = 0 → (c.line l).isLocked = false

/-- A cache with the same lines and the same candidates for every tag. -/
structure Rearranges (impl : Implementation) (g : Geometry) (c c' : CacheGeneric) : Prop where
  mem_eq : c'.mem = c.mem
  length_content : c'.content.length = c.content.length
  lt_of_mem : ∀ l ∈ c'.content, l ∈ c.content
  irand_lt : c.irand < g.assoc → c'.irand < g.assoc
  mem_candidates : ∀ tag l, l ∈ candidates g c' tag impl ↔ l ∈ candidates g c tag impl

lemma Rearranges.refl : Rearranges impl g c c :=
  ⟨rfl, rfl, fun _ h => h, fun h => h, fun _ _ => Iff.rfl⟩

lemma Rearranges.line_eq (h : Rearranges impl g c c') (l : Line) : c'.line l = c.line l := by
  rw [line, h.mem_eq, line]

lemma Inv.rearrange (h : c.Inv impl g) (hc : Rearranges impl g c c') : c'.Inv impl g := by
  refine ⟨hc.length_content.trans h.length_content, hc.mem_eq ▸ h.length_mem,
    fun l hl => h.lt_of_mem l (hc.lt_of_mem l hl), hc.irand_lt h.irand_lt, ?_, ?_, ?_⟩
  · intro l hl
    rw [hc.line_eq] at hl ⊢
    exact (hc.mem_candidates _ _).2 (h.placed l hl)
  · intro l l' hl hll
    rw [hc.line_eq] at hl hll
    rw [hc.line_eq] at hll
    exact h.unique l l' hl hll
  · intro l hl
    rw [hc.line_eq] at hl ⊢
    exact h.not_isLocked l hl

lemma Inv.lt_of_mem_candidates (h : c.Inv impl g) {tag : Tag} {l : Line}
    (hl : l ∈ candidates g c tag impl) : l < g.numLines := by
  refine h.lt_of_mem l ?_
  cases impl with
  | cacheAssoc policy => exact mem_of_mem_segment hl
  | cacheDM => exact List.mem_of_getElem? (Option.mem_toList.1 hl)
  | cacheDMSkew =>
    rcases List.mem_append.1 hl with hl | hl
    · exact List.mem_of_getElem? (Option.mem_toList.1 hl)
    · exact List.mem_of_getElem? (Option.mem_toList.1 hl)

/-- A line may change when its tag is one of its place that no other line has. -/
lemma Inv.modifyLine (h : c.Inv impl g) {l : Line} (f : CacheLine → CacheLine)
    (hlt : l < g.numLines)
    (hplaced : (f (c.line l)).tag ≠ 0 → l ∈ candidates g c (f (c.line l)).tag impl)
    (hone : (f (c.line l)).tag ≠ 0 → ∀ l', (c.line l').tag = (f (c.line l)).tag → l' = l)
    (hlocked : (f (c.line l)).tag = 0 → (f (c.line l)).isLocked = false) :
    (c.modifyLine l f).Inv impl g := by
  have hline := fun l' => line_modifyLine (c := c) l l' f (h.length_mem ▸ hlt)
  refine ⟨h.length_content, ?_, h.lt_of_mem, h.irand_lt, ?_, ?_, ?_⟩
  · rw [CacheGeneric.modifyLine, List.length_modify, h.length_mem]
  · intro l' hl'
    by_cases heq : l' = l
    · rw [hline, if_pos heq] at hl' ⊢
      exact heq ▸ hplaced hl'
    · rw [hline, if_neg heq] at hl' ⊢
      exact h.placed l' hl'
  · intro l₁ l₂ hne htag
    rw [hline] at hne htag
    rw [hline l₂] at htag
    by_cases h₁ : l₁ = l
    · by_cases h₂ : l₂ = l
      · rw [h₁, h₂]
      · rw [if_pos h₁] at hne htag
        rw [if_neg h₂] at htag
        exact h₁.trans (hone hne l₂ htag.symm).symm
    · rw [if_neg h₁] at hne htag
      by_cases h₂ : l₂ = l
      · rw [if_pos h₂] at htag
        exact (hone (htag ▸ hne) l₁ htag).trans h₂.symm
      · rw [if_neg h₂] at htag
        exact h.unique l₁ l₂ hne htag
  · intro l' hl'
    by_cases heq : l' = l
    · rw [hline, if_pos heq] at hl' ⊢
      exact hlocked hl'
    · rw [hline, if_neg heq] at hl' ⊢
      exact h.not_isLocked l' hl'

/-- A line in a place of a tag gets the tag when no other line has it. -/
lemma Inv.setTag (h : c.Inv impl g) {tag : Tag} {l : Line} (hl : l ∈ candidates g c tag impl)
    (hone : ∀ l', (c.line l').tag = tag → l' = l) (htag : tag ≠ 0) :
    (c.modifyLine l fun line => line.setTag tag).Inv impl g :=
  h.modifyLine (fun line => line.setTag tag) (h.lt_of_mem_candidates hl) (fun _ => hl)
    (fun _ => hone) (fun hzero => absurd hzero htag)

/-- A line keeps its tag and is locked or unlocked. -/
lemma Inv.setLocked (h : c.Inv impl g) {l : Line} (hlt : l < g.numLines) (locked : Bool)
    (hvalid : locked = true → (c.line l).isValid = true) :
    (c.modifyLine l fun line => { line with locked }).Inv impl g := by
  refine h.modifyLine _ hlt (fun hne => h.placed l hne)
    (fun hne l' htag => h.unique l' l (htag ▸ hne) htag) (fun hzero => ?_)
  cases hlocked : locked with
  | false => rfl
  | true =>
    have hne : (c.line l).tag ≠ 0 := of_decide_eq_true (hvalid hlocked)
    exact absurd hzero hne

lemma Inv.invalidate (h : c.Inv impl g) {l : Line} (hlt : l < g.numLines) :
    (c.modifyLine l CacheLine.invalidate).Inv impl g :=
  h.modifyLine _ hlt (fun hne => absurd rfl hne) (fun hne => absurd rfl hne) (fun _ => rfl)

lemma line_new (g : Geometry) (l : Line) : (new g).line l = ⟨0, false⟩ := by
  rw [line, List.getD_eq_getElem?_getD]
  show ((List.replicate g.numLines (⟨0, false⟩ : CacheLine))[l]?).getD ⟨0, false⟩ = _
  rw [List.getElem?_replicate]
  split <;> rfl

lemma Inv.new (impl : Implementation) (g : Geometry) : (new g).Inv impl g := by
  have hline := line_new g
  refine ⟨List.length_range, List.length_replicate, fun l hl => List.mem_range.1 hl, g.assoc_pos,
    ?_, ?_, ?_⟩
  · intro l hl
    exact absurd (by rw [hline]) hl
  · intro l l' hl
    exact absurd (by rw [hline]) hl
  · intro l _
    rw [hline]
    rfl

end CacheGeneric

end Sesc.CacheCore
