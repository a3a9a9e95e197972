import Mathlib.Data.List.Nodup
import Mathlib.Data.List.Range
import Sesc.CacheCore.Sound

/-!
# Least recently used lines

While no line is locked, an associative cache with the policy LRU has the pointers of each set in the
order of the last use of their lines, with the lines that have never been used at the end.  A tag that
no line has goes to a line that is not valid, or else to the one that was used least recently.
-/

namespace Sesc.CacheCore

open Lib

namespace CacheGeneric

variable (g : Geometry) (c : CacheGeneric)

/-- The pointers of a set. -/
def setLines (set : ℕ) : List Line := segment c.content (g.calcIndex4Set set) g.assoc

/-- `getPLine`. -/
def getPLine (l : ℕ) : Except Fault Line := do
  check .assertion (l < g.numLines)
  return c.content.getD l 0

/-- No line of the set of a tag has it. -/
def Absent (tag : Tag) : Prop := ∀ l ∈ CacheAssoc.theSet g c tag, (c.line l).tag ≠ tag

instance (tag : Tag) : Decidable (c.Absent g tag) := inferInstanceAs (Decidable (∀ _ ∈ _, _))

end CacheGeneric

/-- The lookups and the fills. -/
inductive Access
  | findLine (addr : Addr)
  | fillLine (addr : Addr) (ignoreLocked : Bool)
deriving DecidableEq, Repr

/-- A cache array with the times of the last uses, which are 0 for the lines that have never been
used. -/
structure Traced extends CacheGeneric where
  clock : ℕ
  lastUse : Line → ℕ

namespace Traced

variable (g : Geometry) (s : Traced)

/-- What an access leaves, when it has used a line or not. -/
def touch (c : CacheGeneric) (used : Option Line) : Traced where
  toCacheGeneric := c
  clock := s.clock + 1
  lastUse := fun l => if used = some l then s.clock + 1 else s.lastUse l

/-- A hit of `findLine` is a use, and so is a fill of a tag that no line has. -/
def perform : Access → Except Fault Traced
  | .findLine addr => do
    check .noSuchEvent (g.calcTag addr ≠ 0)
    let (line, c) := s.findLine g addr (.cacheAssoc .LRU)
    return s.touch c line
  | .fillLine addr ignoreLocked => do
    check .assertion (g.calcTag addr ≠ 0)
    let (line, _, c) := s.fillLine g (.cacheAssoc .LRU) addr ignoreLocked false
    return s.touch c (if s.Absent g (g.calcTag addr) then line else none)

/-- A line comes before another one: it was used later, or neither has been used. -/
def Later (l l' : Line) : Prop :=
  s.lastUse l' < s.lastUse l ∨ s.lastUse l = 0 ∧ s.lastUse l' = 0

/-- A fill takes the line that has the tag; when there is none, it takes a line of the set that is not
valid, or else the one that was used least recently, and reports the address of its tag. -/
def FillsLeastRecent (addr : Addr) (ignoreLocked : Bool) : Prop :=
  let tag := g.calcTag addr
  let set := CacheGeneric.CacheAssoc.theSet g s.toCacheGeneric tag
  ∃ l ∈ set, ∃ rplcAddr c', s.fillLine g (.cacheAssoc .LRU) addr ignoreLocked false =
      (some l, rplcAddr, c') ∧
    if s.Absent g tag then
      ((∃ l' ∈ set, (s.line l').isValid = false) → (s.line l).isValid = false) ∧
      ((∀ l' ∈ set, (s.line l').isValid = true) → ∀ l' ∈ set, s.lastUse l ≤ s.lastUse l') ∧
      rplcAddr = if (s.line l).isValid then g.calcAddr4Tag (s.line l).tag else 0
    else (s.line l).tag = tag ∧ rplcAddr = 0

/-- The array implements the policy LRU. -/
structure LeastRecentlyUsed : Prop where
  /-- The pointers of each set are those to its own lines. -/
  perm_set : ∀ set < g.sets,
    (s.setLines g set).Perm (List.range' (g.calcIndex4Set set) g.assoc)
  sorted : ∀ set < g.sets, (s.setLines g set).Pairwise s.Later
  isValid_iff : ∀ l < g.numLines, (s.line l).isValid = true ↔ s.lastUse l ≠ 0
  fills : ∀ addr ignoreLocked, g.calcTag addr ≠ 0 → s.FillsLeastRecent g addr ignoreLocked
  getPLine : ∀ l < g.numLines, ∃ i, s.getPLine g i = .ok l ∧ ∀ i', s.getPLine g i' = .ok l → i' = i

end Traced

/-- The machine of an associative cache that is only looked up and filled. -/
def lruMachine (g : Geometry) : Machine Traced Access Fault where
  init := { toCacheGeneric := .new g, clock := 0, lastUse := fun _ => 0 }
  step := Traced.perform g

/-! ## The moves -/

namespace Geometry

variable (g : Geometry)

lemma calcIndex4Set_eq (set : ℕ) : g.calcIndex4Set set = set * g.assoc := by
  obtain ⟨k, hk⟩ := g.assoc_isPowerOfTwo
  rw [calcIndex4Set, log2Assoc, Nat.shiftLeft_eq, hk, Nat.log2_two_pow]

/-- The set of a line. -/
lemma div_eq_of_mem {l set : ℕ} (hl : l ∈ List.range' (g.calcIndex4Set set) g.assoc) :
    l / g.assoc = set := by
  rw [List.mem_range'_1, calcIndex4Set_eq] at hl
  refine Nat.div_eq_of_lt_le hl.1 ?_
  rw [Nat.add_mul, Nat.one_mul]
  exact hl.2

end Geometry

namespace CacheGeneric

open CacheAssoc

variable {g : Geometry} {c : CacheGeneric} {tag : Tag} {addr : Addr} {set : List Line} {k : ℕ}

/-- The move of a line changes only its own set. -/
lemma setLines_toFront (h : c.content.length = g.numLines) (tag : Tag) (hk : k < g.assoc)
    (set : ℕ) : (toFront g c tag k).setLines g set =
      if set = g.calcSet4Tag tag then moveToFront (theSet g c tag) k else c.setLines g set := by
  have hlength := length_theSet h tag
  have hmoved : (moveToFront (theSet g c tag) k).length = g.assoc :=
    (length_moveToFront (hlength ▸ hk)).trans hlength
  have hfits : g.calcIndex4Tag tag + (moveToFront (theSet g c tag) k).length ≤ c.content.length := by
    rw [hmoved, h]
    exact g.calcIndex4Tag_add_le tag
  split
  · rename_i heq
    have hself := segment_setSegment_self hfits
    rw [hmoved] at hself
    rw [setLines, heq]
    exact hself
  · rename_i hne
    refine segment_setSegment_of_disjoint hfits ?_
    rw [hmoved, Geometry.calcIndex4Tag, g.calcIndex4Set_eq, g.calcIndex4Set_eq, ← Nat.succ_mul,
      ← Nat.succ_mul]
    rcases Nat.lt_or_gt_of_ne hne with hlt | hlt
    · exact .inr (Nat.mul_le_mul_right _ hlt)
    · exact .inl (Nat.mul_le_mul_right _ hlt)

/-- The array keeps its pointers. -/
lemma content_toFront_perm (h : c.content.length = g.numLines) (tag : Tag) (hk : k < g.assoc) :
    (toFront g c tag k).content.Perm c.content := by
  have hlength := length_theSet h tag
  refine setSegment_perm ?_
  rw [length_moveToFront (hlength ▸ hk), hlength]
  exact moveToFront_perm (hlength ▸ hk)

/-- Among lines that are not locked, the loop finds one that is not valid, or else the last one. -/
lemma scan_of_not_isLocked {n : ℕ} (lineFree : Option ℕ)
    (hlocked : ∀ i < n, (c.line (set.getD i 0)).isLocked = false)
    (hnone : ∀ i < n, (c.line (set.getD i 0)).tag ≠ tag) :
    (scan c set tag n lineFree).1 = none ∧
    ((∃ k < n, (scan c set tag n lineFree).2 = some k ∧
        (c.line (set.getD k 0)).isValid = false) ∨
      (∀ i < n, (c.line (set.getD i 0)).isValid = true) ∧
        (scan c set tag n lineFree).2 = lineFree.or (if n = 0 then none else some (n - 1))) := by
  induction n generalizing lineFree with
  | zero => exact ⟨rfl, .inr ⟨fun i hi => absurd hi (Nat.not_lt_zero i), by simp [scan]⟩⟩
  | succ n ih =>
    have hlast := Nat.lt_succ_self n
    rw [scan_succ _ (hnone n hlast)]
    obtain ⟨hhit, hfree⟩ := ih (nextFree c set n lineFree)
      (fun i hi => hlocked i (Nat.lt_succ_of_lt hi)) fun i hi => hnone i (Nat.lt_succ_of_lt hi)
    refine ⟨hhit, ?_⟩
    rcases hfree with ⟨k, hk, hscan, hinvalid⟩ | ⟨hvalid, hscan⟩
    · exact .inl ⟨k, Nat.lt_succ_of_lt hk, hscan, hinvalid⟩
    · cases hn : (c.line (set.getD n 0)).isValid with
      | false =>
        refine .inl ⟨n, hlast, ?_, hn⟩
        rw [hscan, nextFree, hn]
        rfl
      | true =>
        refine .inr ⟨fun i hi => ?_, ?_⟩
        · rcases Nat.lt_succ_iff_lt_or_eq.1 hi with hi | rfl
          · exact hvalid i hi
          · exact hn
        · rw [hscan, nextFree, hn, hlocked n hlast]
          cases lineFree <;> simp

/-- A hit of `findLine` moves the line to the front. -/
lemma findLine_eq (g : Geometry) (c : CacheGeneric) (addr : Addr) :
    (c.Absent g (g.calcTag addr) ∧ c.findLine g addr (.cacheAssoc .LRU) = (none, c)) ∨
    ∃ k, ∃ hk : k < (theSet g c (g.calcTag addr)).length,
      (c.line (theSet g c (g.calcTag addr))[k]).tag = g.calcTag addr ∧
      c.findLine g addr (.cacheAssoc .LRU) =
        (some (theSet g c (g.calcTag addr))[k], toFront g c (g.calcTag addr) k) := by
  cases hfind : (theSet g c (g.calcTag addr)).findIdx? fun l => (c.line l).tag = g.calcTag addr with
  | none =>
    refine .inl ⟨fun l hl => ?_, ?_⟩
    · exact of_decide_eq_false (List.findIdx?_eq_none_iff.1 hfind l hl)
    · rw [findLine, findLinePrivate, hfind]
  | some k =>
    obtain ⟨hk, hkTag, -⟩ := List.findIdx?_eq_some_iff_getElem.1 hfind
    refine .inr ⟨k, hk, of_decide_eq_true hkTag, ?_⟩
    rw [findLine, findLinePrivate, hfind, ← List.getElem?_eq_getElem hk]

lemma getD_eq_getElem (hk : k < set.length) : set.getD k 0 = set[k] :=
  Option.some.inj ((getElem?_eq_getD hk).symm.trans (List.getElem?_eq_getElem hk))

/-- The line with the tag is taken as it is. -/
lemma findLine2Replace_hit (h : c.Inv (.cacheAssoc .LRU) g) (ignoreLocked odd : Bool)
    (hpresent : ¬c.Absent g (g.calcTag addr)) :
    ∃ l ∈ theSet g c (g.calcTag addr), (c.line l).tag = g.calcTag addr ∧
      c.findLine2Replace g addr ignoreLocked odd (.cacheAssoc .LRU) = (some l, c) := by
  have hlength := length_theSet h.length_content (g.calcTag addr)
  rw [Absent] at hpresent
  show ∃ l ∈ theSet g c (g.calcTag addr), (c.line l).tag = g.calcTag addr ∧
    CacheAssoc.findLine2Replace g c .LRU addr ignoreLocked = (some l, c)
  rw [CacheAssoc.findLine2Replace]
  simp only
  generalize theSet g c (g.calcTag addr) = set at hlength hpresent
  by_cases hfront : (c.line (set.getD 0 0)).tag = g.calcTag addr
  · have hzero : 0 < set.length := hlength ▸ g.assoc_pos
    rw [if_pos hfront, getElem?_eq_getD hzero]
    exact ⟨_, getD_mem hzero, hfront, rfl⟩
  · rw [if_neg hfront]
    obtain ⟨hfound, hnone, -, -⟩ := scan_spec c set (g.calcTag addr) g.assoc none
    generalize scan c set (g.calcTag addr) g.assoc none = r at hfound hnone
    obtain ⟨lineHit, lineFree⟩ := r
    cases lineHit with
    | none =>
      refine absurd (fun l hl => ?_) hpresent
      obtain ⟨k, hk, rfl⟩ := exists_getD_of_mem hl
      exact hnone rfl k (hlength ▸ hk)
    | some k =>
      obtain ⟨hk, hhit⟩ := hfound k rfl
      simp only
      rw [getElem?_eq_getD (hlength ▸ hk)]
      exact ⟨_, getD_mem (hlength ▸ hk), hhit, rfl⟩

/-- Without the tag, a line that is not valid is taken, or else the last one of the set. -/
lemma findLine2Replace_miss (h : c.Inv (.cacheAssoc .LRU) g) (ignoreLocked odd : Bool)
    (hlocked : ∀ l, (c.line l).isLocked = false) (habsent : c.Absent g (g.calcTag addr)) :
    ∃ k, ∃ hk : k < (theSet g c (g.calcTag addr)).length,
      ((c.line (theSet g c (g.calcTag addr))[k]).isValid = false ∨
        k = g.assoc - 1 ∧ ∀ l ∈ theSet g c (g.calcTag addr), (c.line l).isValid = true) ∧
      c.findLine2Replace g addr ignoreLocked odd (.cacheAssoc .LRU) =
        (some (theSet g c (g.calcTag addr))[k], toFront g c (g.calcTag addr) k) := by
  have hlength := length_theSet h.length_content (g.calcTag addr)
  rw [Absent] at habsent
  show ∃ k, ∃ hk : k < (theSet g c (g.calcTag addr)).length, _ ∧
    CacheAssoc.findLine2Replace g c .LRU addr ignoreLocked = _
  rw [CacheAssoc.findLine2Replace]
  simp only
  generalize theSet g c (g.calcTag addr) = set at hlength habsent
  have hnone : ∀ i < g.assoc, (c.line (set.getD i 0)).tag ≠ g.calcTag addr :=
    fun i hi => habsent _ (getD_mem (hlength ▸ hi))
  rw [if_neg (hnone 0 g.assoc_pos)]
  obtain ⟨hhit, hfree⟩ := scan_of_not_isLocked none (fun i _ => hlocked _) hnone
  generalize scan c set (g.calcTag addr) g.assoc none = r at hhit hfree
  obtain ⟨lineHit, lineFree⟩ := r
  cases hhit
  have hvictim : ∀ k, lineFree = some k →
      victim g c .LRU set lineFree ignoreLocked = (some k, c.irand) := by
    rintro k rfl
    rw [victim]
    simp
  rcases hfree with ⟨k, hk, hscan, hinvalid⟩ | ⟨hvalid, hscan⟩
  · have hk' : k < set.length := hlength ▸ hk
    refine ⟨k, hk', .inl ?_, ?_⟩
    · rw [← hinvalid, getD_eq_getElem hk']
    · rw [hvictim k hscan]
      simp only [List.getElem?_eq_getElem hk']
  · have hpos := g.assoc_pos
    rw [if_neg (Nat.ne_of_gt hpos), Option.none_or] at hscan
    have hk : g.assoc - 1 < set.length := by omega
    refine ⟨g.assoc - 1, hk, .inr ⟨rfl, fun l hl => ?_⟩, ?_⟩
    · obtain ⟨i, hi, rfl⟩ := exists_getD_of_mem hl
      exact hvalid i (hlength ▸ hi)
    · rw [hvictim _ hscan]
      simp only [List.getElem?_eq_getElem hk]

end CacheGeneric

/-! ## The invariant -/

namespace Traced

open CacheGeneric CacheAssoc

variable {g : Geometry} {s s' : Traced} {c : CacheGeneric} {addr : Addr} {ignoreLocked : Bool}
  {tag : Tag} {k : ℕ} {l : Line}

/-- What holds between two accesses. -/
structure Inv (g : Geometry) (s : Traced) : Prop where
  inv : s.toCacheGeneric.Inv (.cacheAssoc .LRU) g
  isLocked_eq : ∀ l, (s.line l).isLocked = false
  perm : s.content.Perm (List.range g.numLines)
  perm_set : ∀ set < g.sets, (s.setLines g set).Perm (List.range' (g.calcIndex4Set set) g.assoc)
  sorted : ∀ set < g.sets, (s.setLines g set).Pairwise s.Later
  tag_iff : ∀ l < g.numLines, (s.line l).tag ≠ 0 ↔ s.lastUse l ≠ 0
  lastUse_le : ∀ l, s.lastUse l ≤ s.clock

lemma Inv.nodup_set (h : s.Inv g) {set : ℕ} (hset : set < g.sets) : (s.setLines g set).Nodup :=
  (h.perm_set set hset).nodup_iff.2 List.nodup_range'

/-- A line that is not used keeps its time, and the others their order. -/
lemma later_touch {l' : Line} (used : Option Line) (hl : used ≠ some l) (hl' : used ≠ some l') :
    (s.touch c used).Later l l' ↔ s.Later l l' := by
  rw [Later, Later, touch]
  simp only [if_neg hl, if_neg hl']

/-- An access that uses no line. -/
lemma Inv.untouched (h : s.Inv g) (hc : c.Inv (.cacheAssoc .LRU) g)
    (hcontent : c.content = s.content) (hline : ∀ l, c.line l = s.line l) :
    (s.touch c none).Inv g where
  inv := hc
  isLocked_eq := fun l => by
    show (c.line l).isLocked = false
    rw [hline, h.isLocked_eq]
  perm := hcontent ▸ h.perm
  perm_set := fun set hset => by
    rw [setLines, show (s.touch c none).content = s.content from hcontent]
    exact h.perm_set set hset
  sorted := fun set hset => by
    rw [setLines, show (s.touch c none).content = s.content from hcontent]
    exact (h.sorted set hset).imp (later_touch none (by simp) (by simp)).2
  tag_iff := fun l hl => by
    show (c.line l).tag ≠ 0 ↔ _
    rw [hline]
    exact h.tag_iff l hl
  lastUse_le := fun l => Nat.le_succ_of_le (h.lastUse_le l)

/-- An access that uses a line moves it to the front of its set. -/
lemma Inv.touched (h : s.Inv g) (hc : c.Inv (.cacheAssoc .LRU) g)
    (hk : k < (theSet g s.toCacheGeneric tag).length)
    (hcontent : c.content = (toFront g s.toCacheGeneric tag k).content)
    (hlocked : ∀ l, (c.line l).isLocked = false)
    (htag : ∀ l, (c.line l).tag ≠ 0 ↔
      l = (theSet g s.toCacheGeneric tag)[k] ∨ (s.line l).tag ≠ 0) :
    (s.touch c (some (theSet g s.toCacheGeneric tag)[k])).Inv g := by
  have hlength := length_theSet h.inv.length_content tag
  have hset := g.calcSet4Tag_lt tag
  have hnodup : (theSet g s.toCacheGeneric tag).Nodup := h.nodup_set hset
  have hsets := fun set => setLines_toFront h.inv.length_content tag (hlength ▸ hk) set
  have hcontent' : ∀ set, (s.touch c (some (theSet g s.toCacheGeneric tag)[k])).setLines g set =
      (toFront g s.toCacheGeneric tag k).setLines g set := by
    intro set
    rw [setLines, setLines]
    exact congrArg (segment · _ _) hcontent
  refine ⟨hc, hlocked, ?_, fun set hlt => ?_, fun set hlt => ?_, fun l hl => ?_, fun l => ?_⟩
  · rw [show (s.touch c _).content = _ from hcontent]
    exact (content_toFront_perm h.inv.length_content tag (hlength ▸ hk)).trans h.perm
  · rw [hcontent', hsets]
    split
    · rename_i heq
      subst heq
      exact (moveToFront_perm hk).trans (h.perm_set _ hset)
    · exact h.perm_set set hlt
  · rw [hcontent', hsets]
    split
    · -- the line that is used is later than the others, whose order stays
      rw [moveToFront, List.getElem?_eq_getElem hk, Option.toList_some, List.singleton_append,
        List.pairwise_cons]
      have hne : ∀ l ∈ (theSet g s.toCacheGeneric tag).eraseIdx k,
          (theSet g s.toCacheGeneric tag)[k] ≠ l := by
        intro l hl heq
        have hperm := (List.getElem_cons_eraseIdx_perm hk).nodup_iff.2 hnodup
        exact (List.nodup_cons.1 hperm).1 (heq ▸ hl)
      refine ⟨fun l hl => .inl ?_, ?_⟩
      · have hle := h.lastUse_le l
        rw [touch]
        simp only [if_true, Option.some.injEq, if_neg (hne l hl)]
        omega
      · refine ((h.sorted _ hset).sublist (List.eraseIdx_sublist _ _)).imp_of_mem ?_
        intro l l' hl hl' hlater
        refine (later_touch _ ?_ ?_).2 hlater
        · exact fun heq => hne l hl (Option.some.inj heq)
        · exact fun heq => hne l' hl' (Option.some.inj heq)
    · rename_i hother
      have hne : ∀ l ∈ s.setLines g set, some (theSet g s.toCacheGeneric tag)[k] ≠ some l := by
        intro l hl heq
        have hused := g.div_eq_of_mem ((h.perm_set _ hset).mem_iff.1 (List.getElem_mem hk))
        rw [Option.some.inj heq, g.div_eq_of_mem ((h.perm_set set hlt).mem_iff.1 hl)] at hused
        exact hother hused
      exact (h.sorted set hlt).imp_of_mem fun hl hl' =>
        (later_touch _ (hne _ hl) (hne _ hl')).2
  · show (c.line l).tag ≠ 0 ↔ _
    rw [htag, touch]
    simp only [Option.some.injEq]
    split
    · rename_i heq
      exact iff_of_true (.inl heq.symm) (Nat.succ_ne_zero _)
    · rename_i hne
      rw [← h.tag_iff l hl]
      exact or_iff_right fun heq => hne heq.symm
  · have hle := h.lastUse_le l
    show (if _ then s.clock + 1 else s.lastUse l) ≤ s.clock + 1
    split
    · exact Nat.le_refl _
    · exact Nat.le_succ_of_le hle

lemma fillLine_eq {c c' : CacheGeneric} (h : c.findLine2Replace g addr ignoreLocked false
      (.cacheAssoc .LRU) = (some l, c')) :
    c.fillLine g (.cacheAssoc .LRU) addr ignoreLocked false =
      (some l, if (c'.line l).isValid ∧ (c'.line l).tag ≠ g.calcTag addr then
          g.calcAddr4Tag (c'.line l).tag else 0,
        c'.modifyLine l fun line => line.setTag (g.calcTag addr)) := by
  rw [CacheGeneric.fillLine, h]

lemma Inv.lt_of_mem_theSet (h : s.Inv g) (hl : l ∈ theSet g s.toCacheGeneric tag) :
    l < s.mem.length := by
  rw [h.inv.length_mem]
  exact h.inv.lt_of_mem l (mem_of_mem_segment hl)

lemma inv_findLine (h : s.Inv g) (hstep : s.perform g (.findLine addr) = .ok s') : s'.Inv g := by
  rw [perform, check_bind_eq_ok] at hstep
  obtain ⟨htag, hstep⟩ := hstep
  have hinv := h.inv.rearrange (h.inv.finds htag).rearranges
  rcases findLine_eq g s.toCacheGeneric addr with ⟨-, heq⟩ | ⟨k, hk, hkTag, heq⟩
  · rw [heq] at hstep
    cases hstep
    exact h.untouched h.inv rfl fun _ => rfl
  · rw [heq] at hstep hinv
    cases hstep
    refine h.touched hinv hk rfl h.isLocked_eq fun l => ?_
    show (s.line l).tag ≠ 0 ↔ _
    refine ⟨Or.inr, ?_⟩
    rintro (rfl | hl)
    · rw [hkTag]
      exact htag
    · exact hl

lemma inv_fillLine (h : s.Inv g) (hstep : s.perform g (.fillLine addr ignoreLocked) = .ok s') :
    s'.Inv g := by
  rw [perform, check_bind_eq_ok] at hstep
  obtain ⟨htag, hstep⟩ := hstep
  have hinv : (s.fillLine g (.cacheAssoc .LRU) addr ignoreLocked false).2.2.Inv
      (.cacheAssoc .LRU) g := (h.inv.fillLine htag rfl).1
  by_cases habsent : s.Absent g (g.calcTag addr)
  · obtain ⟨k, hk, -, heq⟩ := findLine2Replace_miss h.inv ignoreLocked false h.isLocked_eq habsent
    rw [fillLine_eq heq] at hstep hinv
    simp only [if_pos habsent] at hstep
    cases hstep
    have hlt := h.lt_of_mem_theSet (List.getElem_mem hk)
    have hline : ∀ l, ((toFront g s.toCacheGeneric (g.calcTag addr) k).modifyLine
          (theSet g s.toCacheGeneric (g.calcTag addr))[k]
          fun line => line.setTag (g.calcTag addr)).line l =
        if l = (theSet g s.toCacheGeneric (g.calcTag addr))[k] then
          (s.line l).setTag (g.calcTag addr) else s.line l := by
      intro l
      rw [line_modifyLine (c := toFront g s.toCacheGeneric (g.calcTag addr) k) _ _ _ hlt]
      split
      · rename_i hl
        rw [hl]
        rfl
      · rfl
    refine h.touched hinv hk rfl (fun l => ?_) fun l => ?_
    · rw [hline]
      split <;> exact h.isLocked_eq l
    · rw [hline]
      split
      · rename_i hl
        exact iff_of_true htag (.inl hl)
      · rename_i hl
        exact (or_iff_right hl).symm
  · obtain ⟨l, hl, hhit, heq⟩ := findLine2Replace_hit h.inv ignoreLocked false habsent
    rw [fillLine_eq heq] at hstep hinv
    simp only [if_neg habsent] at hstep
    cases hstep
    refine h.untouched hinv rfl fun l' => ?_
    -- the line gets the tag that it has
    rw [line_modifyLine _ _ _ (h.lt_of_mem_theSet hl)]
    split
    · rename_i heq'
      subst heq'
      rw [CacheLine.setTag, ← hhit]
    · rfl

/-- The order of the set tells which line was used least recently. -/
lemma Inv.fillsLeastRecent (h : s.Inv g) (ignoreLocked : Bool) (addr : Addr) :
    s.FillsLeastRecent g addr ignoreLocked := by
  rw [FillsLeastRecent]
  have hlength := length_theSet h.inv.length_content (g.calcTag addr)
  by_cases habsent : s.Absent g (g.calcTag addr)
  · obtain ⟨k, hk, hvictim, heq⟩ :=
      findLine2Replace_miss h.inv ignoreLocked false h.isLocked_eq habsent
    have hmem := List.getElem_mem hk
    refine ⟨_, hmem, _, _, fillLine_eq heq, ?_⟩
    rw [if_pos habsent]
    refine ⟨?_, ?_, if_congr (and_iff_left (habsent _ hmem)) rfl rfl⟩
    · rintro ⟨l', hl', hinvalid⟩
      rcases hvictim with hvictim | ⟨-, hvalid⟩
      · exact hvictim
      · rw [hvalid l' hl'] at hinvalid
        cases hinvalid
    · intro hvalid l' hl'
      rcases hvictim with hvictim | ⟨hlast, -⟩
      · rw [hvalid _ hmem] at hvictim
        cases hvictim
      · obtain ⟨i, hi, rfl⟩ := List.mem_iff_getElem.1 hl'
        rcases Nat.lt_or_ge i k with hik | hik
        · have hlater := List.pairwise_iff_getElem.1
            (h.sorted _ (g.calcSet4Tag_lt (g.calcTag addr))) i k hi hk hik
          rcases hlater with hlt | ⟨-, hzero⟩
          · exact Nat.le_of_lt hlt
          · exact hzero ▸ Nat.zero_le _
        · have heq' : i = k := by omega
          subst heq'
          exact Nat.le_refl _
  · obtain ⟨l, hl, hhit, heq⟩ := findLine2Replace_hit h.inv ignoreLocked false habsent
    refine ⟨l, hl, _, _, fillLine_eq heq, ?_⟩
    rw [if_neg habsent]
    exact ⟨hhit, if_neg fun hne => hne.2 hhit⟩

lemma Inv.leastRecentlyUsed (h : s.Inv g) : s.LeastRecentlyUsed g where
  perm_set := h.perm_set
  sorted := h.sorted
  isValid_iff := fun l hl => by
    rw [CacheLine.isValid, decide_eq_true_eq]
    exact h.tag_iff l hl
  fills := fun addr ignoreLocked _ => h.fillsLeastRecent ignoreLocked addr
  getPLine := fun l hl => by
    have hget : ∀ i, s.getPLine g i = .ok l ↔ ∃ hi : i < s.content.length, s.content[i] = l := by
      intro i
      rw [getPLine, check_bind_eq_ok, ← h.inv.length_content]
      constructor
      · rintro ⟨hi, heq⟩
        refine ⟨hi, ?_⟩
        rw [← getD_eq_getElem hi]
        exact Except.ok.inj heq
      · rintro ⟨hi, heq⟩
        refine ⟨hi, ?_⟩
        rw [getD_eq_getElem hi, heq]
        rfl
    obtain ⟨i, hi, heq⟩ := List.mem_iff_getElem.1 (h.perm.mem_iff.2 (List.mem_range.2 hl))
    refine ⟨i, (hget i).2 ⟨hi, heq⟩, fun i' hi' => ?_⟩
    obtain ⟨hi', heq'⟩ := (hget i').1 hi'
    have hnodup : s.content.Nodup := h.perm.nodup_iff.2 List.nodup_range
    exact (List.Nodup.getElem_inj_iff hnodup).1 (heq'.trans heq.symm)

lemma inv_init (g : Geometry) : (lruMachine g).init.Inv g := by
  have hset : ∀ set < g.sets, (CacheGeneric.new g).setLines g set =
      List.range' (g.calcIndex4Set set) g.assoc := by
    intro set hset
    have hfits : g.calcIndex4Set set + g.assoc ≤ g.numLines := by
      rw [g.calcIndex4Set_eq, ← Nat.succ_mul]
      exact Nat.le_trans (Nat.mul_le_mul_right _ hset) (Nat.div_mul_le_self _ _)
    show ((List.range g.numLines).drop _).take _ = _
    rw [List.range_eq_range', List.drop_range', List.take_range'_of_length_ge (by omega),
      Nat.zero_add, Nat.mul_one]
  refine ⟨.new _ g, fun l => ?_, .refl _, fun set hlt => ?_, fun set hlt => ?_, fun l _ => ?_,
    fun l => Nat.le_refl _⟩
  · show ((CacheGeneric.new g).line l).isLocked = false
    rw [line_new]
    rfl
  · rw [show (lruMachine g).init.setLines g set = _ from hset set hlt]
  · exact List.pairwise_of_forall fun _ _ => .inr ⟨rfl, rfl⟩
  · show ((CacheGeneric.new g).line l).tag ≠ 0 ↔ _
    rw [line_new]
    exact Iff.rfl

end Traced

/-- After any lookups and fills, an associative cache with the policy LRU has the lines of each set in
the order of their last use, and fills the line that was used least recently. -/
theorem leastRecentlyUsed_of_run {g : Geometry} {es : List Access} {s : Traced}
    (h : (lruMachine g).Run es s) : s.LeastRecentlyUsed g := by
  have hinv : s.Inv g := h.invariant (Traced.inv_init g) fun s e s' hs _ hstep => by
    cases e with
    | findLine addr => exact Traced.inv_findLine hs hstep
    | fillLine addr ignoreLocked => exact Traced.inv_fillLine hs hstep
  exact hinv.leastRecentlyUsed

/-- Three tags in a set of two lines: the first one is looked up before the third one is filled, and
is filled again when it is still there. -/
def threeTags : List Access :=
  [.fillLine 5 false, .fillLine 6 false, .findLine 5, .fillLine 7 false, .findLine 9,
    .fillLine 5 true]

/-- The third tag replaces the second one. -/
theorem leastRecentlyUsed_threeTags : ∃ s, (lruMachine CacheGeneric.oneSet).Run threeTags s ∧
    s.content = [1, 0] ∧ s.mem = [⟨5, false⟩, ⟨7, false⟩] ∧ s.lastUse 0 = 3 ∧ s.lastUse 1 = 4 ∧
    s.LeastRecentlyUsed CacheGeneric.oneSet := by
  have hrun : succeeds ((lruMachine CacheGeneric.oneSet).exec
      (lruMachine CacheGeneric.oneSet).init threeTags)
      (fun s => decide (s.content = [1, 0] ∧ s.mem = [⟨5, false⟩, ⟨7, false⟩] ∧
        s.lastUse 0 = 3 ∧ s.lastUse 1 = 4)) = true := by
    decide +kernel
  obtain ⟨s, hs, htest⟩ := succeeds_iff.1 hrun
  obtain ⟨hcontent, hmem, hfirst, hsecond⟩ := of_decide_eq_true htest
  have hrun := Machine.run_of_exec hs
  exact ⟨s, hrun, hcontent, hmem, hfirst, hsecond, leastRecentlyUsed_of_run hrun⟩

end Sesc.CacheCore
