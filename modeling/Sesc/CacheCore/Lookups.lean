import Sesc.CacheCore.Placement

/-!
# What the lookups return

For each class of cache arrays: `findLine` returns the line with the tag, and `findLine2Replace`
a line in a place of the tag.  In a skewed cache the latter may be the wrong one.
-/

namespace Sesc.CacheCore

open Lib

namespace CacheGeneric

variable {impl : Implementation} {g : Geometry} {c : CacheGeneric} {addr : Addr}

/-- `findLine` returns the line with the tag of the address. -/
structure Finds (impl : Implementation) (g : Geometry) (c : CacheGeneric) (addr : Addr) : Prop where
  rearranges : Rearranges impl g c (c.findLine g addr impl).2
  iff : ∀ l, (c.findLine g addr impl).1 = some l ↔ (c.line l).tag = g.calcTag addr

/-- `findLine2Replace` returns a line in a place of the tag: the one with the tag if there is one,
and a locked one only on demand. -/
structure Replaces (impl : Implementation) (g : Geometry) (c : CacheGeneric) (addr : Addr)
    (ignoreLocked : Bool) (r : Option Line × CacheGeneric) : Prop where
  rearranges : Rearranges impl g c r.2
  mem_candidates : ∀ l, r.1 = some l → l ∈ candidates g c (g.calcTag addr) impl
  tag_eq : ∀ l, r.1 = some l → ∀ l', (c.line l').tag = g.calcTag addr → l' = l
  tag_of_isLocked : ignoreLocked = false → ∀ l, r.1 = some l → (c.line l).isLocked →
    (c.line l).tag = g.calcTag addr
  of_none : ignoreLocked = false → r.1 = none → ∀ l ∈ candidates g c (g.calcTag addr) impl,
    (c.line l).isLocked ∧ (c.line l).tag ≠ g.calcTag addr

/-! ## `CacheAssoc` -/

namespace CacheAssoc

variable {policy : ReplacementPolicy} {tag : Tag} {set : List Line}

lemma length_theSet (h : c.content.length = g.numLines) (tag : Tag) :
    (theSet g c tag).length = g.assoc :=
  length_segment (h ▸ g.calcIndex4Tag_add_le tag)

/-- Moving a line to the front of its set leaves it in the set. -/
lemma rearranges_toFront (h : c.content.length = g.numLines) (tag : Tag) {k irand : ℕ}
    (hk : k < g.assoc) (hirand : c.irand < g.assoc → irand < g.assoc) :
    Rearranges (.cacheAssoc policy) g c (toFront g { c with irand } tag k) := by
  have hlength := length_theSet h tag
  have hk' : k < (theSet g c tag).length := hlength ▸ hk
  have hperm := moveToFront_perm hk'
  have hmoved : (moveToFront (theSet g c tag) k).length = g.assoc := hperm.length_eq.trans hlength
  have hfits : g.calcIndex4Tag tag + (moveToFront (theSet g c tag) k).length ≤ c.content.length := by
    rw [hmoved, h]
    exact g.calcIndex4Tag_add_le tag
  refine ⟨rfl, length_setSegment hfits, ?_, hirand, ?_⟩
  · intro l hl
    rcases List.mem_append.1 hl with hl | hl
    · rcases List.mem_append.1 hl with hl | hl
      · exact List.mem_of_mem_take hl
      · exact mem_of_mem_segment (hperm.mem_iff.1 hl)
    · exact List.mem_of_mem_drop hl
  · intro tag' l
    show l ∈ segment (setSegment c.content (g.calcIndex4Tag tag) (moveToFront (theSet g c tag) k))
      (g.calcIndex4Tag tag') g.assoc ↔ l ∈ segment c.content (g.calcIndex4Tag tag') g.assoc
    rcases g.calcIndex4Tag_eq_or tag tag' with heq | hdisjoint
    · rw [heq]
      have hself := segment_setSegment_self hfits
      rw [hmoved] at hself
      rw [hself]
      exact hperm.mem_iff
    · rw [segment_setSegment_of_disjoint hfits (hmoved ▸ hdisjoint)]

/-- `findLine` looks at the whole set. -/
lemma finds (h : c.Inv (.cacheAssoc policy) g) (htag : g.calcTag addr ≠ 0) :
    c.Finds (.cacheAssoc policy) g addr := by
  have hlength := length_theSet h.length_content (g.calcTag addr)
  have hplaced : ∀ l, (c.line l).tag = g.calcTag addr → l ∈ theSet g c (g.calcTag addr) :=
    fun l hl => hl ▸ h.placed l (hl ▸ htag)
  cases hfind : (theSet g c (g.calcTag addr)).findIdx? fun l => (c.line l).tag = g.calcTag addr with
  | none =>
    have heq : c.findLine g addr (.cacheAssoc policy) = (none, c) := by
      rw [findLine, findLinePrivate, hfind]
    refine ⟨heq ▸ .refl, fun l => ?_⟩
    rw [heq]
    refine ⟨fun hl => absurd hl (by simp), fun hl => ?_⟩
    have hne := List.findIdx?_eq_none_iff.1 hfind l (hplaced l hl)
    exact absurd hl (of_decide_eq_false hne)
  | some k =>
    obtain ⟨hk, hkTag, -⟩ := List.findIdx?_eq_some_iff_getElem.1 hfind
    have hkTag : (c.line (theSet g c (g.calcTag addr))[k]).tag = g.calcTag addr :=
      of_decide_eq_true hkTag
    have heq : c.findLine g addr (.cacheAssoc policy) =
        ((theSet g c (g.calcTag addr))[k]?, toFront g c (g.calcTag addr) k) := by
      rw [findLine, findLinePrivate, hfind]
    refine ⟨?_, fun l => ?_⟩
    · rw [heq]
      exact rearranges_toFront h.length_content _ (hlength ▸ hk) (fun h => h)
    · rw [heq, List.getElem?_eq_getElem hk]
      constructor
      · rintro hl
        rw [← Option.some.inj hl]
        exact hkTag
      · intro hl
        have hne : (c.line (theSet g c (g.calcTag addr))[k]).tag ≠ 0 := fun h => htag (hkTag ▸ h)
        exact congrArg some (h.unique _ l hne (hkTag.trans hl.symm))

/-- The free position after the loop has looked at a line without the tag. -/
def nextFree (c : CacheGeneric) (set : List Line) (n : ℕ) (lineFree : Option ℕ) : Option ℕ :=
  if !(c.line (set.getD n 0)).isValid then some n
  else if lineFree = none ∧ !(c.line (set.getD n 0)).isLocked then some n
  else lineFree

lemma scan_succ {n : ℕ} (lineFree : Option ℕ) (h : (c.line (set.getD n 0)).tag ≠ tag) :
    scan c set tag (n + 1) lineFree = scan c set tag n (nextFree c set n lineFree) := by
  rw [scan, nextFree]
  simp only [if_neg h]
  split
  · rfl
  · split <;> rfl

lemma nextFree_eq_some {n k : ℕ} {lineFree : Option ℕ}
    (h : nextFree c set n lineFree = some k) :
    lineFree = some k ∨ k = n ∧ ((c.line (set.getD n 0)).isValid = false ∨
      (c.line (set.getD n 0)).isLocked = false) := by
  rw [nextFree] at h
  split at h
  · rename_i hvalid
    exact .inr ⟨(Option.some.inj h).symm, .inl (by simpa using hvalid)⟩
  · split at h
    · rename_i hlocked
      exact .inr ⟨(Option.some.inj h).symm, .inr (by simpa using hlocked.2)⟩
    · exact .inl h

lemma nextFree_eq_none {n : ℕ} {lineFree : Option ℕ} (h : nextFree c set n lineFree = none) :
    lineFree = none ∧ (c.line (set.getD n 0)).isLocked = true := by
  rw [nextFree] at h
  split at h
  · exact absurd h (by simp)
  · split at h
    · exact absurd h (by simp)
    · rename_i hlocked
      refine ⟨h, ?_⟩
      by_contra hfree
      exact hlocked ⟨h, by simpa using hfree⟩

/-- What the loop over the first `n` positions finds. -/
lemma scan_spec (c : CacheGeneric) (set : List Line) (tag : Tag) (n : ℕ) (lineFree : Option ℕ) :
    (∀ k, (scan c set tag n lineFree).1 = some k →
      k < n ∧ (c.line (set.getD k 0)).tag = tag) ∧
    ((scan c set tag n lineFree).1 = none →
      ∀ k < n, (c.line (set.getD k 0)).tag ≠ tag) ∧
    (∀ k, (scan c set tag n lineFree).2 = some k → lineFree = some k ∨
      k < n ∧ ((c.line (set.getD k 0)).isValid = false ∨
        (c.line (set.getD k 0)).isLocked = false)) ∧
    ((scan c set tag n lineFree).1 = none → (scan c set tag n lineFree).2 = none →
      lineFree = none ∧ ∀ k < n, (c.line (set.getD k 0)).isLocked = true) := by
  induction n generalizing lineFree with
  | zero =>
    refine ⟨fun k hk => absurd hk (by simp [scan]), fun _ k hk => absurd hk (Nat.not_lt_zero k),
      fun k hk => .inl hk, fun _ hfree => ⟨hfree, fun k hk => absurd hk (Nat.not_lt_zero k)⟩⟩
  | succ n ih =>
    by_cases hhit : (c.line (set.getD n 0)).tag = tag
    · -- the loop ends at the line with the tag
      rw [scan]
      simp only [if_pos hhit]
      refine ⟨fun k hk => ?_, fun hk => absurd hk (by simp), fun k hk => .inl hk,
        fun hk => absurd hk (by simp)⟩
      rw [← Option.some.inj hk]
      exact ⟨Nat.lt_succ_self n, hhit⟩
    rw [scan_succ lineFree hhit]
    obtain ⟨hfound, hnone, hfree, hall⟩ := ih (nextFree c set n lineFree)
    refine ⟨fun k hk => ?_, fun hk k hlt => ?_, fun k hk => ?_, fun hk hk' => ?_⟩
    · obtain ⟨hlt, htag⟩ := hfound k hk
      exact ⟨Nat.lt_succ_of_lt hlt, htag⟩
    · rcases Nat.lt_succ_iff_lt_or_eq.1 hlt with hlt | rfl
      · exact hnone hk k hlt
      · exact hhit
    · rcases hfree k hk with hk | ⟨hlt, hline⟩
      · rcases nextFree_eq_some hk with hk | ⟨rfl, hline⟩
        · exact .inl hk
        · exact .inr ⟨Nat.lt_succ_self k, hline⟩
      · exact .inr ⟨Nat.lt_succ_of_lt hlt, hline⟩
    · obtain ⟨hnext, hlocked⟩ := hall hk hk'
      obtain ⟨hempty, hlast⟩ := nextFree_eq_none hnext
      refine ⟨hempty, fun k hlt => ?_⟩
      rcases Nat.lt_succ_iff_lt_or_eq.1 hlt with hlt | rfl
      · exact hlocked k hlt
      · exact hlast

/-- The position that is replaced: one that is not locked, or any on demand. -/
lemma victim_spec (policy : ReplacementPolicy) (set : List Line) {lineFree : Option ℕ}
    (ignoreLocked : Bool) (hirand : c.irand < g.assoc)
    (hfree : ∀ k, lineFree = some k → k < g.assoc) :
    (victim g c policy set lineFree ignoreLocked).2 < g.assoc ∧
    (∀ k, (victim g c policy set lineFree ignoreLocked).1 = some k →
      k < g.assoc ∧ (ignoreLocked = false → lineFree = some k)) ∧
    ((victim g c policy set lineFree ignoreLocked).1 = none →
      ignoreLocked = false ∧ lineFree = none) := by
  have hnext : (c.irand + 1) &&& g.maskAssoc < g.assoc := by
    have hle : (c.irand + 1) &&& g.maskAssoc ≤ g.assoc - 1 := Nat.and_le_right
    have := g.assoc_pos
    omega
  have hlast : g.assoc - 1 < g.assoc := Nat.sub_lt g.assoc_pos Nat.one_pos
  cases lineFree with
  | none =>
    cases ignoreLocked with
    | false =>
      exact ⟨hirand, fun k hk => absurd hk.symm (Option.some_ne_none k), fun _ => ⟨rfl, rfl⟩⟩
    | true =>
      cases policy with
      | RANDOM =>
        refine ⟨hnext, fun k hk => ⟨?_, fun h => absurd h.symm Bool.false_ne_true⟩,
          fun h => absurd h (Option.some_ne_none _)⟩
        rw [← Option.some.inj hk]
        exact hirand
      | LRU =>
        refine ⟨hirand, fun k hk => ⟨?_, fun h => absurd h.symm Bool.false_ne_true⟩,
          fun h => absurd h (Option.some_ne_none _)⟩
        rw [← Option.some.inj hk]
        exact hlast
  | some k =>
    rw [victim]
    split
    · rename_i hrandom
      refine ⟨hnext, fun k' hk => ⟨?_, fun h => absurd hrandom.1 (by simp [h])⟩,
        fun h => absurd h (by simp)⟩
      rw [← Option.some.inj hk]
      exact hirand
    · refine ⟨hirand, fun k' hk => ?_, fun h => absurd h (by simp)⟩
      rw [← Option.some.inj hk]
      exact ⟨hfree k rfl, fun _ => rfl⟩

lemma getElem?_eq_getD {k : ℕ} (hk : k < set.length) : set[k]? = some (set.getD k 0) := by
  rw [List.getD_eq_getElem?_getD, List.getElem?_eq_getElem hk]
  rfl

lemma getD_mem {k : ℕ} (hk : k < set.length) : set.getD k 0 ∈ set :=
  List.mem_of_getElem? (getElem?_eq_getD hk)

lemma exists_getD_of_mem {l : Line} (hl : l ∈ set) : ∃ k < set.length, set.getD k 0 = l := by
  obtain ⟨k, hk, hget⟩ := List.mem_iff_getElem.1 hl
  refine ⟨k, hk, ?_⟩
  rw [List.getD_eq_getElem?_getD, List.getElem?_eq_getElem hk, hget]
  rfl

/-- A line of the set with the tag is returned. -/
lemma replaces_hit (h : c.Inv (.cacheAssoc policy) g) (htag : g.calcTag addr ≠ 0)
    {ignoreLocked : Bool} {l : Line} (hl : l ∈ theSet g c (g.calcTag addr))
    (hhit : (c.line l).tag = g.calcTag addr) :
    c.Replaces (.cacheAssoc policy) g addr ignoreLocked (some l, c) := by
  have hne : (c.line l).tag ≠ 0 := fun hzero => htag (hhit ▸ hzero)
  refine ⟨.refl, fun l' hl' => ?_, fun l' hl' l'' hl'' => ?_, fun _ l' hl' _ => ?_,
    fun _ hnone => absurd hnone (by simp)⟩
  · exact Option.some.inj hl' ▸ hl
  · rw [← Option.some.inj hl']
    exact (h.unique l l'' hne (hhit.trans hl''.symm)).symm
  · rw [← Option.some.inj hl']
    exact hhit

/-- `findLine2Replace` returns the line with the tag, or else a line of the set. -/
lemma replaces (h : c.Inv (.cacheAssoc policy) g) (htag : g.calcTag addr ≠ 0)
    (ignoreLocked odd : Bool) : c.Replaces (.cacheAssoc policy) g addr ignoreLocked
      (c.findLine2Replace g addr ignoreLocked odd (.cacheAssoc policy)) := by
  have hlength := length_theSet h.length_content (g.calcTag addr)
  show c.Replaces _ g addr ignoreLocked (findLine2Replace g c policy addr ignoreLocked)
  rw [findLine2Replace]
  simp only
  generalize hset : theSet g c (g.calcTag addr) = set at hlength
  by_cases hfront : (c.line (set.getD 0 0)).tag = g.calcTag addr
  · have hzero : 0 < set.length := hlength ▸ g.assoc_pos
    rw [if_pos hfront, getElem?_eq_getD hzero]
    exact replaces_hit h htag (by rw [hset]; exact getD_mem hzero) hfront
  rw [if_neg hfront]
  obtain ⟨hfound, hnone, hfree, hall⟩ := scan_spec c set (g.calcTag addr) g.assoc none
  generalize scan c set (g.calcTag addr) g.assoc none = r at hfound hnone hfree hall
  obtain ⟨lineHit, lineFree⟩ := r
  cases lineHit with
  | some k =>
    obtain ⟨hk, hhit⟩ := hfound k rfl
    have hk : k < set.length := hlength ▸ hk
    simp only
    rw [getElem?_eq_getD hk]
    exact replaces_hit h htag (by rw [hset]; exact getD_mem hk) hhit
  | none =>
    -- no line of the set has the tag, and so no line of the cache
    have habsent : ∀ l, (c.line l).tag ≠ g.calcTag addr := by
      intro l hl
      have hmem : l ∈ theSet g c (g.calcTag addr) := hl ▸ h.placed l (hl ▸ htag)
      rw [hset] at hmem
      obtain ⟨k, hk, rfl⟩ := exists_getD_of_mem hmem
      exact hnone rfl k (hlength ▸ hk) hl
    have hfreeLt : ∀ k, lineFree = some k → k < g.assoc := by
      intro k hk
      rcases hfree k hk with hk | ⟨hlt, -⟩
      · exact absurd hk (by simp)
      · exact hlt
    obtain ⟨hirand, hvictim, hvictimNone⟩ :=
      victim_spec policy set ignoreLocked h.irand_lt hfreeLt
    simp only
    generalize victim g c policy set lineFree ignoreLocked = v at hirand hvictim hvictimNone
    obtain ⟨lineFree', irand⟩ := v
    cases lineFree' with
    | none =>
      obtain ⟨-, hempty⟩ := hvictimNone rfl
      refine ⟨.refl, fun l hl => absurd hl (by simp), fun l hl => absurd hl (by simp),
        fun _ l hl => absurd hl (by simp), fun _ _ l hl => ⟨?_, habsent l⟩⟩
      obtain ⟨-, hlocked⟩ := hall rfl hempty
      have hl : l ∈ theSet g c (g.calcTag addr) := hl
      rw [hset] at hl
      obtain ⟨k, hk, rfl⟩ := exists_getD_of_mem hl
      exact hlocked k (hlength ▸ hk)
    | some k =>
      obtain ⟨hk, hvictimFree⟩ := hvictim k rfl
      have hk' : k < set.length := hlength ▸ hk
      simp only
      rw [getElem?_eq_getD hk']
      refine ⟨rearranges_toFront h.length_content _ hk fun _ => hirand, fun l hl => ?_,
        fun l _ l' hl' => absurd hl' (habsent l'), fun hignore l hl hlocked => ?_,
        fun _ hnone => absurd hnone (by simp)⟩
      · rw [← Option.some.inj hl]
        show set.getD k 0 ∈ theSet g c (g.calcTag addr)
        rw [hset]
        exact getD_mem hk'
      · rw [← Option.some.inj hl] at hlocked
        rcases hfree k (hvictimFree hignore) with hk | ⟨-, hvalid | hunlocked⟩
        · exact absurd hk (by simp)
        · have hzero : (c.line (set.getD k 0)).tag = 0 := by simpa [CacheLine.isValid] using hvalid
          rw [h.not_isLocked _ hzero] at hlocked
          exact absurd hlocked (by simp)
        · rw [hunlocked] at hlocked
          exact absurd hlocked (by simp)

end CacheAssoc

/-! ## `CacheDM` -/

namespace CacheDM

/-- The place of a tag has a line. -/
lemma exists_place (h : c.Inv impl g) (addr : Addr) : ∃ l, place g c addr = some l := by
  have hlt := g.calcIndex4Tag_lt (g.calcTag addr)
  rw [← h.length_content] at hlt
  exact ⟨_, List.getElem?_eq_getElem hlt⟩

lemma candidates_eq {l : Line} (hl : place g c addr = some l) :
    candidates g c (g.calcTag addr) .cacheDM = [l] :=
  congrArg Option.toList hl

lemma finds (h : c.Inv .cacheDM g) (htag : g.calcTag addr ≠ 0) : c.Finds .cacheDM g addr := by
  obtain ⟨l, hl⟩ := exists_place h addr
  have hplaced : ∀ l', (c.line l').tag = g.calcTag addr → l' = l := by
    intro l' hl'
    have hmem := h.placed l' (hl' ▸ htag)
    rw [hl', candidates_eq hl] at hmem
    exact List.mem_singleton.1 hmem
  have heq : (c.findLine g addr .cacheDM).1 =
      if (c.line l).tag = g.calcTag addr then some l else none := by
    show findLinePrivate g c addr = _
    rw [findLinePrivate, hl]
    rfl
  refine ⟨.refl, fun l' => ?_⟩
  rw [heq]
  constructor
  · intro hl'
    split at hl'
    · rename_i htag'
      rw [← Option.some.inj hl']
      exact htag'
    · cases hl'
  · intro hl'
    rw [if_pos (hplaced l' hl' ▸ hl'), hplaced l' hl']

lemma replaces (h : c.Inv .cacheDM g) (htag : g.calcTag addr ≠ 0) (ignoreLocked odd : Bool) :
    c.Replaces .cacheDM g addr ignoreLocked
      (c.findLine2Replace g addr ignoreLocked odd .cacheDM) := by
  obtain ⟨l, hl⟩ := exists_place h addr
  have hcandidates := candidates_eq hl
  have hplaced : ∀ l', (c.line l').tag = g.calcTag addr → l' = l := by
    intro l' hl'
    have hmem := h.placed l' (hl' ▸ htag)
    rw [hl', hcandidates] at hmem
    exact List.mem_singleton.1 hmem
  have heq : c.findLine2Replace g addr ignoreLocked odd .cacheDM =
      (if ignoreLocked then some l
       else if (c.line l).tag = g.calcTag addr then some l
       else if (c.line l).isLocked then none
       else some l, c) := by
    show (findLine2Replace g c addr ignoreLocked, c) = _
    rw [findLine2Replace, hl]
    rfl
  rw [heq]
  have hsome : ∀ l', (if ignoreLocked then some l
      else if (c.line l).tag = g.calcTag addr then some l
      else if (c.line l).isLocked then none
      else some l) = some l' → l' = l := by
    intro l' hl'
    split at hl'
    · exact (Option.some.inj hl').symm
    · split at hl'
      · exact (Option.some.inj hl').symm
      · split at hl'
        · cases hl'
        · exact (Option.some.inj hl').symm
  refine ⟨.refl, fun l' hl' => ?_, fun l' hl' l'' hl'' => ?_, fun hignore l' hl' hlocked => ?_,
    fun hignore hnone l' hl' => ?_⟩
  · rw [hsome l' hl', hcandidates]
    exact List.mem_singleton.2 rfl
  · exact (hplaced l'' hl'').trans (hsome l' hl').symm
  · have hll := hsome l' hl'
    subst hll
    simp only [hignore, Bool.false_eq_true, if_false] at hl'
    by_contra hne
    rw [if_neg hne, if_pos hlocked] at hl'
    cases hl'
  · rw [hcandidates] at hl'
    rw [List.mem_singleton.1 hl']
    simp only [hignore, Bool.false_eq_true, if_false] at hnone
    split at hnone
    · cases hnone
    · rename_i hne
      split at hnone
      · rename_i hlocked
        exact ⟨hlocked, hne⟩
      · cases hnone

end CacheDM

/-! ## `CacheDMSkew` -/

namespace CacheDMSkew

/-- When `findLine2Replace` returns a right line: with `ignoreLocked`, when the tag is not in the
second place alone; without, when the first place has the tag, or is locked as the second one is, or
when the second place has the tag, is not locked, or is not asked for. -/
def Chooses (g : Geometry) (c : CacheGeneric) (addr : Addr) (ignoreLocked odd : Bool) : Bool :=
  (place g c addr).all fun l => (place2 g c addr).all fun l2 =>
    if ignoreLocked then (c.line l2).tag ≠ g.calcTag addr || l2 = l
    else (c.line l).tag = g.calcTag addr ||
      if (c.line l).isLocked then (c.line l2).isLocked && (c.line l2).tag ≠ g.calcTag addr
      else (c.line l2).tag = g.calcTag addr || odd || !(c.line l2).isLocked

variable {l l2 : Line}

lemma exists_places (h : c.Inv impl g) (addr : Addr) :
    ∃ l l2, place g c addr = some l ∧ place2 g c addr = some l2 := by
  have hlt := g.calcIndex4Tag_lt (g.calcTag addr)
  have hlt2 := g.calcIndex4Tag_lt (g.calcTag (addr ^^^ addr >>> 7))
  rw [← h.length_content] at hlt hlt2
  exact ⟨_, _, List.getElem?_eq_getElem hlt, List.getElem?_eq_getElem hlt2⟩

lemma candidates_eq (hl : place g c addr = some l) (hl2 : place2 g c addr = some l2) :
    candidates g c (g.calcTag addr) .cacheDMSkew = [l, l2] := by
  rw [place2, calcTag_skew] at hl2
  show (c.content[g.calcIndex4Tag (g.calcTag addr)]?).toList ++
    (c.content[g.calcIndex4Tag (g.calcTag addr ^^^ g.calcTag addr >>> 7)]?).toList = _
  rw [hl2]
  rw [place] at hl
  rw [hl]
  rfl

/-- The line with a tag is in one of its two places. -/
lemma eq_or_eq (h : c.Inv .cacheDMSkew g) (htag : g.calcTag addr ≠ 0)
    (hl : place g c addr = some l) (hl2 : place2 g c addr = some l2) {l' : Line}
    (hl' : (c.line l').tag = g.calcTag addr) : l' = l ∨ l' = l2 := by
  have hmem := h.placed l' (hl' ▸ htag)
  rw [hl', candidates_eq hl hl2] at hmem
  simpa using hmem

lemma finds (h : c.Inv .cacheDMSkew g) (htag : g.calcTag addr ≠ 0) :
    c.Finds .cacheDMSkew g addr := by
  obtain ⟨l, l2, hl, hl2⟩ := exists_places h addr
  have heq : (c.findLine g addr .cacheDMSkew).1 =
      if (c.line l).tag = g.calcTag addr then some l
      else if (c.line l2).tag = g.calcTag addr then some l2
      else none := by
    show findLinePrivate g c addr = _
    rw [findLinePrivate, hl, hl2]
    rfl
  refine ⟨.refl, fun l' => ?_⟩
  rw [heq]
  constructor
  · intro hl'
    split at hl'
    · rename_i htag'
      rw [← Option.some.inj hl']
      exact htag'
    · split at hl'
      · rename_i htag'
        rw [← Option.some.inj hl']
        exact htag'
      · cases hl'
  · intro hl'
    rcases eq_or_eq h htag hl hl2 hl' with rfl | rfl
    · rw [if_pos hl']
    · by_cases hfirst : (c.line l).tag = g.calcTag addr
      · have hne : (c.line l).tag ≠ 0 := fun hzero => htag (hfirst ▸ hzero)
        rw [if_pos hfirst, h.unique l l' hne (hfirst.trans hl'.symm)]
      · rw [if_neg hfirst, if_pos hl']

lemma findLine2Replace_eq (hl : place g c addr = some l) (hl2 : place2 g c addr = some l2)
    (ignoreLocked odd : Bool) : c.findLine2Replace g addr ignoreLocked odd .cacheDMSkew =
      (if ignoreLocked then some l
       else if (c.line l).tag = g.calcTag addr then some l
       else if (c.line l).isLocked then none
       else if (c.line l2).tag = g.calcTag addr then some l2
       else if odd then some l
       else some l2, c) := by
  show (findLine2Replace g c addr ignoreLocked odd, c) = _
  rw [findLine2Replace, hl, hl2]
  rfl

lemma chooses_iff (hl : place g c addr = some l) (hl2 : place2 g c addr = some l2)
    (ignoreLocked odd : Bool) : Chooses g c addr ignoreLocked odd = true ↔
      if ignoreLocked then (c.line l2).tag = g.calcTag addr → l2 = l
      else (c.line l).tag = g.calcTag addr ∨
        if (c.line l).isLocked then
          (c.line l2).isLocked = true ∧ (c.line l2).tag ≠ g.calcTag addr
        else (c.line l2).tag = g.calcTag addr ∨ odd = true ∨ (c.line l2).isLocked = false := by
  rw [Chooses, hl, hl2, Option.all_some, Option.all_some]
  cases ignoreLocked with
  | true => simp [Decidable.imp_iff_not_or]
  | false =>
    cases hlocked : (c.line l).isLocked with
    | true => simp
    | false => simp [or_assoc]

/-- The line with the tag, or one of its places when no line has it, is a right line. -/
lemma replaces_some (h : c.Inv .cacheDMSkew g) (htag : g.calcTag addr ≠ 0)
    (hl : place g c addr = some l) (hl2 : place2 g c addr = some l2) {ignoreLocked : Bool}
    {l' : Line} (hmem : l' = l ∨ l' = l2)
    (htags : ((c.line l).tag = g.calcTag addr → l' = l) ∧
      ((c.line l2).tag = g.calcTag addr → l' = l2))
    (hlocked : ignoreLocked = false → (c.line l').isLocked = true →
      (c.line l').tag = g.calcTag addr) :
    c.Replaces .cacheDMSkew g addr ignoreLocked (some l', c) := by
  refine ⟨.refl, fun l₁ h₁ => ?_, fun l₁ h₁ l₂ h₂ => ?_, fun hignore l₁ h₁ hl₁ => ?_,
    fun _ hnone => absurd hnone (Option.some_ne_none _)⟩
  · rw [← Option.some.inj h₁, candidates_eq hl hl2]
    simpa using hmem
  · rw [← Option.some.inj h₁]
    rcases eq_or_eq h htag hl hl2 h₂ with rfl | rfl
    · exact (htags.1 h₂).symm
    · exact (htags.2 h₂).symm
  · rw [← Option.some.inj h₁] at hl₁ ⊢
    exact hlocked hignore hl₁

lemma replaces (h : c.Inv .cacheDMSkew g) (htag : g.calcTag addr ≠ 0) {ignoreLocked odd : Bool}
    (hchooses : Chooses g c addr ignoreLocked odd = true) :
    c.Replaces .cacheDMSkew g addr ignoreLocked
      (c.findLine2Replace g addr ignoreLocked odd .cacheDMSkew) := by
  obtain ⟨l, l2, hl, hl2⟩ := exists_places h addr
  rw [chooses_iff hl hl2] at hchooses
  rw [findLine2Replace_eq hl hl2]
  have hsame : (c.line l).tag = g.calcTag addr → (c.line l2).tag = g.calcTag addr → l = l2 :=
    fun h₁ h₂ => h.unique l l2 (fun hzero => htag (h₁ ▸ hzero)) (h₁.trans h₂.symm)
  cases ignoreLocked with
  | true =>
    exact replaces_some h htag hl hl2 (.inl rfl) ⟨fun _ => rfl, fun h₂ => (hchooses h₂).symm⟩
      (fun hignore => absurd hignore.symm Bool.false_ne_true)
  | false =>
    simp only [Bool.false_eq_true, if_false] at hchooses ⊢
    by_cases h₁ : (c.line l).tag = g.calcTag addr
    · rw [if_pos h₁]
      exact replaces_some h htag hl hl2 (.inl rfl) ⟨fun _ => rfl, hsame h₁⟩ (fun _ _ => h₁)
    rw [if_neg h₁]
    rcases hchooses with hchooses | hchooses
    · exact absurd hchooses h₁
    by_cases hlocked : (c.line l).isLocked = true
    · -- both places are locked
      rw [if_pos hlocked] at hchooses ⊢
      refine ⟨.refl, fun l' hl' => absurd hl'.symm (Option.some_ne_none _),
        fun l' hl' => absurd hl'.symm (Option.some_ne_none _),
        fun _ l' hl' => absurd hl'.symm (Option.some_ne_none _), fun _ _ l' hl' => ?_⟩
      rw [candidates_eq hl hl2] at hl'
      rcases List.mem_cons.1 hl' with rfl | hl'
      · exact ⟨hlocked, h₁⟩
      · rw [List.mem_singleton.1 hl']
        exact hchooses
    rw [if_neg hlocked] at hchooses ⊢
    by_cases h₂ : (c.line l2).tag = g.calcTag addr
    · rw [if_pos h₂]
      exact replaces_some h htag hl hl2 (.inr rfl) ⟨fun h => absurd h h₁, fun _ => rfl⟩ (fun _ _ => h₂)
    rw [if_neg h₂]
    have htags : ∀ l', ((c.line l).tag = g.calcTag addr → l' = l) ∧
        ((c.line l2).tag = g.calcTag addr → l' = l2) :=
      fun _ => ⟨fun h => absurd h h₁, fun h => absurd h h₂⟩
    cases odd with
    | true =>
      exact replaces_some h htag hl hl2 (.inl rfl) (htags l) (fun _ h => absurd h hlocked)
    | false =>
      rcases hchooses with hchooses | hchooses | hchooses
      · exact absurd hchooses h₂
      · exact absurd hchooses Bool.false_ne_true
      · refine replaces_some h htag hl hl2 (.inr rfl) (htags l2) (fun _ h => ?_)
        rw [hchooses] at h
        exact absurd h Bool.false_ne_true

end CacheDMSkew

end CacheGeneric

end Sesc.CacheCore
