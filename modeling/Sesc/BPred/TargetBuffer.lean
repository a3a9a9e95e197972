import Sesc.BPred.BranchKey
import Sesc.BPred.Yags
import Sesc.CacheCore.Sound

/-!
# Predictions of the branch target buffer

A prediction without an update leaves the lines of the target buffer and their targets alone.  A
prediction with an update of a taken branch reads the target from the line that it fills, which is
another one than the line that is looked up without the update when the branch has none.
-/

namespace Sesc.CacheCore.CacheGeneric

variable {impl : Implementation} {g : Geometry} {c c' : CacheGeneric} {addr : Addr} {l : Line}

/-- A line that is found has the tag, also where the tag is 0. -/
lemma tag_of_findLine (h : (c.findLine g addr impl).1 = some l) : (c.line l).tag = g.calcTag addr := by
  cases impl with
  | cacheAssoc policy =>
    simp only [findLine, CacheAssoc.findLinePrivate] at h
    cases hfind : (CacheAssoc.theSet g c (g.calcTag addr)).findIdx? fun l =>
        (c.line l).tag = g.calcTag addr with
    | none =>
      rw [hfind] at h
      cases h
    | some k =>
      obtain ⟨hk, hkTag, -⟩ := List.findIdx?_eq_some_iff_getElem.1 hfind
      rw [hfind] at h
      simp only [List.getElem?_eq_getElem hk, Option.some.injEq] at h
      rw [← h]
      exact of_decide_eq_true hkTag
  | cacheDM =>
    simp only [findLine, CacheDM.findLinePrivate, Option.bind_eq_bind, Option.bind_eq_some_iff] at h
    obtain ⟨l', -, h⟩ := h
    split at h
    · rename_i htag
      cases h
      exact htag
    · cases h
  | cacheDMSkew =>
    simp only [findLine, CacheDMSkew.findLinePrivate, Option.bind_eq_bind, Option.bind_eq_some_iff] at h
    obtain ⟨l₁, -, l₂, -, h⟩ := h
    split at h
    · rename_i htag
      cases h
      exact htag
    · split at h
      · rename_i htag
        cases h
        exact htag
      · cases h

/-- A lookup that finds no line changes nothing. -/
lemma findLine_of_none (h : (c.findLine g addr impl).1 = none) : (c.findLine g addr impl).2 = c := by
  cases impl with
  | cacheAssoc policy =>
    simp only [findLine, CacheAssoc.findLinePrivate] at h ⊢
    cases hfind : (CacheAssoc.theSet g c (g.calcTag addr)).findIdx? fun l =>
        (c.line l).tag = g.calcTag addr with
    | none => rfl
    | some k =>
      obtain ⟨hk, -, -⟩ := List.findIdx?_eq_some_iff_getElem.1 hfind
      rw [hfind] at h
      simp only [List.getElem?_eq_getElem hk] at h
      cases h
  | cacheDM => rfl
  | cacheDMSkew => rfl

/-- No line is locked. -/
def Unlocked (c : CacheGeneric) : Prop := ∀ l, (c.line l).isLocked = false

/-- Without locked lines, all classes of caches replace soundly. -/
lemma Inv.fills_of_unlocked (h : c.Inv impl g) (hc : c.Unlocked) (addr : Addr) (odd : Bool) :
    c.Fills g addr false odd impl = true := by
  cases impl with
  | cacheAssoc policy => rfl
  | cacheDM => rfl
  | cacheDMSkew =>
    obtain ⟨l, l2, hl, hl2⟩ := CacheDMSkew.exists_places h addr
    show CacheDMSkew.Chooses g c addr false odd = true
    rw [CacheDMSkew.chooses_iff hl hl2]
    simp [hc l, hc l2]

lemma Inv.exists_candidate (h : c.Inv impl g) (tag : Tag) : ∃ l, l ∈ candidates g c tag impl := by
  have hlt := g.calcIndex4Tag_lt tag
  rw [← h.length_content] at hlt
  cases impl with
  | cacheAssoc policy =>
    have hlength := CacheAssoc.length_theSet h.length_content tag
    exact List.exists_mem_of_length_pos (hlength ▸ g.assoc_pos)
  | cacheDM =>
    refine ⟨c.content[g.calcIndex4Tag tag], ?_⟩
    show _ ∈ c.content[g.calcIndex4Tag tag]?.toList
    rw [List.getElem?_eq_getElem hlt]
    exact List.mem_singleton.2 rfl
  | cacheDMSkew =>
    refine ⟨c.content[g.calcIndex4Tag tag], List.mem_append_left _ ?_⟩
    rw [List.getElem?_eq_getElem hlt]
    exact List.mem_singleton.2 rfl

/-- Without locked lines there is a line to replace. -/
lemma Inv.exists_replace (h : c.Inv impl g) (hc : c.Unlocked) (htag : g.calcTag addr ≠ 0) (odd : Bool) :
    ∃ l c', c.findLine2Replace g addr false odd impl = (some l, c') := by
  have hr := h.replaces htag (h.fills_of_unlocked hc addr odd)
  obtain ⟨r, c', heq⟩ : ∃ r c', c.findLine2Replace g addr false odd impl = (r, c') := ⟨_, _, rfl⟩
  rw [heq] at hr
  cases r with
  | none =>
    obtain ⟨l, hl⟩ := h.exists_candidate (g.calcTag addr)
    have hlocked := (hr.of_none rfl rfl l hl).1
    rw [hc l] at hlocked
    exact absurd hlocked Bool.false_ne_true
  | some l => exact ⟨l, c', heq⟩

end Sesc.CacheCore.CacheGeneric

namespace Sesc.BPred

open Lib Sesc.CacheCore

namespace BPBTB

variable (C : BTBConfig) (b b' : BPBTB) (inst : Instruction) (oracleID : InstID)

/-- What holds of a target buffer between two calls. -/
structure Inv : Prop where
  data : ∀ impl g, C.cache = some (impl, g) → b.data.Inv impl g
  unlocked : b.data.Unlocked

/-- The lines and their targets are the same, and each key finds the same line. -/
structure SameTargets : Prop where
  mem : b'.data.mem = b.data.mem
  inst : b'.inst = b.inst
  found : ∀ impl g key, C.cache = some (impl, g) → g.calcTag key ≠ 0 →
    (b'.data.findLine g key impl).1 = (b.data.findLine g key impl).1

/-- The branch has a line. -/
def Hits : Prop :=
  ∀ impl g, C.cache = some (impl, g) → ∃ l, (b.data.findLine g (key C inst) impl).1 = some l

/-- The branch can have a line. -/
def HasTag : Prop := ∀ impl g, C.cache = some (impl, g) → g.calcTag (key C inst) ≠ 0

/-- The line that is replaced for the branch has another target. -/
def ReplacesOther (odd : Bool) : Prop :=
  ∀ impl g l, C.cache = some (impl, g) →
    (b.data.findLine2Replace g (key C inst) false odd impl).1 = some l → b.inst l ≠ oracleID

/-- The target buffer gives the same prediction with and without an update: the branch is not taken, or
it has a line, or it gets one that has another target so far. -/
def Agrees (odd : Bool) : Prop :=
  C.cache = none ∨ inst.calcNextInstID = oracleID ∨ b.Hits C inst ∨
    HasTag C inst ∧ b.ReplacesOther C inst oracleID odd

/-- The target of the branch can be put into the target buffer. -/
def Updatable : Prop := C.cache = none ∨ inst.calcNextInstID = oracleID ∨ HasTag C inst

variable {C b b' inst oracleID} {impl : Implementation} {g : Geometry} {key : Addr} {odd : Bool}

lemma inv_new : (new C).Inv C := by
  cases hC : C.cache with
  | none =>
    have hnew : new C = ⟨⟨[], [], 0⟩, fun _ => 0⟩ := by rw [new, hC]; rfl
    rw [hnew]
    exact ⟨fun impl g h => absurd (hC.symm.trans h) (by simp), fun l => rfl⟩
  | some c =>
    have hnew : new C = ⟨.new c.2, fun _ => 0⟩ := by rw [new, hC]; rfl
    rw [hnew]
    refine ⟨fun impl g h => ?_, fun l => ?_⟩
    · cases hC.symm.trans h
      exact .new impl g
    · rw [CacheGeneric.line_new]
      rfl

lemma SameTargets.refl : SameTargets C b b := ⟨rfl, rfl, fun _ _ _ _ _ => rfl⟩

/-! ## The operations on the cache -/

lemma readLine_of_none (h : (b.data.findLine g key impl).1 = none) :
    b.readLine impl g key = .ok (none, b) := by
  rw [readLine, h, CacheGeneric.findLine_of_none h]
  rfl

lemma readLine_of_some {l : Line} (h : (b.data.findLine g key impl).1 = some l)
    (htag : g.calcTag key ≠ 0) :
    b.readLine impl g key = .ok (some l, { b with data := (b.data.findLine g key impl).2 }) := by
  have hvalid : (b.data.line l).isValid = true := by
    rw [CacheLine.isValid, CacheGeneric.tag_of_findLine h]
    exact decide_eq_true htag
  rw [readLine, h, Option.all_some, hvalid]
  rfl

/-- A line without a tag fails the assertion of the lookup. -/
lemma readLine_error {l : Line} (h : (b.data.findLine g key impl).1 = some l)
    (htag : g.calcTag key = 0) : b.readLine impl g key = .error .assertion := by
  have hvalid : (b.data.line l).isValid = false := by
    rw [CacheLine.isValid, CacheGeneric.tag_of_findLine h, htag]
    rfl
  rw [readLine, h, Option.all_some, hvalid]
  rfl

lemma fillLine_error (htag : g.calcTag key = 0) : b.fillLine impl g key odd = .error .assertion := by
  unfold fillLine
  split
  · rfl
  · exact check_bind_of_not fun h => h htag

lemma Inv.fillLine (h : b.Inv C) (hC : C.cache = some (impl, g)) (htag : g.calcTag key ≠ 0)
    (odd : Bool) :
    ∃ l data, (b.data.findLine2Replace g key false odd impl).1 = some l ∧
      b.fillLine impl g key odd = .ok (l, { b with data }) ∧ { b with data }.Inv C ∧
      (data.line l).tag = g.calcTag key ∧
      (∀ l', (b.data.line l').tag = g.calcTag key → l' = l) := by
  have hdata := h.data impl g hC
  obtain ⟨l, c', heq⟩ := hdata.exists_replace h.unlocked htag odd
  have hfills := hdata.fills_of_unlocked h.unlocked key odd
  have hr := hdata.replaces htag hfills
  have hinv := (hdata.fillLine htag hfills).1
  obtain ⟨hfst, hsnd⟩ := CacheGeneric.fillLine_some heq
  rw [heq] at hr
  have hmem := (hr.rearranges.mem_candidates _ _).2 (hr.mem_candidates l rfl)
  have hlt : l < c'.mem.length :=
    (hdata.rearrange hr.rearranges).length_mem ▸ (hdata.rearrange hr.rearranges).lt_of_mem_candidates hmem
  have hline := fun l' => CacheGeneric.line_modifyLine (c := c') l l'
    (fun line => line.setTag (g.calcTag key)) hlt
  refine ⟨l, (b.data.fillLine g impl key false odd).2.2, by rw [heq], ?_, ?_, ?_, hr.tag_eq l rfl⟩
  · unfold BPBTB.fillLine
    split
    · rename_i hnone
      rw [hnone] at hfst
      cases hfst
    · rename_i l' _ data hsome
      rw [hsome] at hfst
      cases hfst
      rw [check_bind htag, hsome]
      rfl
  · refine ⟨fun impl' g' hC' => ?_, fun l' => ?_⟩
    · cases hC.symm.trans hC'
      exact hinv
    · show ((b.data.fillLine g impl key false odd).2.2.line l').isLocked = false
      rw [hsnd, hline]
      split
      · exact (hr.rearranges.line_eq l).symm ▸ h.unlocked l
      · rw [hr.rearranges.line_eq]
        exact h.unlocked l'
  · rw [hsnd, hline, if_pos rfl]
    rfl

/-! ## The predictions -/

lemma Inv.findLine (h : b.Inv C) (hC : C.cache = some (impl, g)) (htag : g.calcTag key ≠ 0) :
    { b with data := (b.data.findLine g key impl).2 }.Inv C ∧
      SameTargets C b { b with data := (b.data.findLine g key impl).2 } := by
  have hdata := h.data impl g hC
  have hr := (hdata.finds htag).rearranges
  have hinv := hdata.rearrange hr
  refine ⟨⟨fun impl' g' hC' => ?_, fun l => (congrArg CacheLine.isLocked (hr.line_eq l)).trans (h.unlocked l)⟩,
    hr.mem_eq, rfl, fun impl' g' key' hC' htag' => ?_⟩
  · cases hC.symm.trans hC'
    exact hinv
  · cases hC.symm.trans hC'
    refine Option.ext fun l => ?_
    rw [(hinv.finds htag').iff, (hdata.finds htag').iff, hr.line_eq]

/-- A lookup keeps the targets. -/
lemma Inv.readLine (h : b.Inv C) (hC : C.cache = some (impl, g)) :
    Ensures (fun r => r.2.Inv C ∧ SameTargets C b r.2) (b.readLine impl g key) := by
  intro r hr
  cases hfind : (b.data.findLine g key impl).1 with
  | none =>
    rw [readLine_of_none hfind] at hr
    cases hr
    exact ⟨h, .refl⟩
  | some l =>
    by_cases htag : g.calcTag key = 0
    · rw [readLine_error hfind htag] at hr
      cases hr
    · rw [readLine_of_some hfind htag] at hr
      cases hr
      exact h.findLine hC htag

lemma Inv.setInst (h : b.Inv C) (l : Line) (target : InstID) :
    { b with inst := Function.update b.inst l target }.Inv C := ⟨h.data, h.unlocked⟩

/-- Filling a line keeps the invariant, or fails. -/
lemma Inv.ensures_fillLine (h : b.Inv C) (hC : C.cache = some (impl, g)) :
    Ensures (fun r => r.2.Inv C) (b.fillLine impl g key odd) := by
  intro r hr
  by_cases htag : g.calcTag key = 0
  · rw [fillLine_error htag] at hr
    cases hr
  · obtain ⟨l, data, -, hfill, hinv, -⟩ := h.fillLine hC htag odd
    rw [hfill] at hr
    cases hr
    exact hinv

lemma Inv.updateOnly (h : b.Inv C) : Ensures (Inv C) (b.updateOnly C inst oracleID odd) := by
  unfold BPBTB.updateOnly
  split
  · exact ensures_ok.2 h
  · rename_i impl g hC
    split
    · exact ensures_ok.2 h
    · exact (h.ensures_fillLine hC).bind fun r hr => ensures_pure.2 (hr.setInst _ _)

lemma Inv.predict {doUpdate : Bool} (h : b.Inv C) :
    Ensures (fun r => r.2.Inv C) (b.predict C inst oracleID doUpdate odd) := by
  unfold BPBTB.predict
  dsimp only
  split
  · rw [ensures_check_bind]
    exact fun _ => ensures_pure.2 h
  · rename_i impl g hC
    split
    · exact (h.readLine hC).bind fun r hr => ensures_pure.2 hr.1
    · exact (h.ensures_fillLine hC).bind fun r hr => ensures_pure.2 (hr.setInst _ _)

/-- A prediction without an update keeps the targets. -/
lemma Inv.predict_false (h : b.Inv C) :
    Ensures (fun r => SameTargets C b r.2) (b.predict C inst oracleID false odd) := by
  unfold BPBTB.predict
  dsimp only
  split
  · rw [ensures_check_bind]
    exact fun _ => ensures_pure.2 .refl
  · rename_i impl g hC
    rw [if_pos (.inr rfl)]
    exact (h.readLine hC).bind fun r hr => ensures_pure.2 hr.2

lemma updateOnly_iff (h : b.Inv C) (oracleID : InstID) (odd : Bool) :
    (∃ b', b.updateOnly C inst oracleID odd = .ok b') ↔ Updatable C inst oracleID := by
  unfold BPBTB.updateOnly Updatable HasTag
  cases hC : C.cache with
  | none => exact iff_of_true ⟨_, rfl⟩ (.inl rfl)
  | some c =>
    obtain ⟨impl, g⟩ := c
    by_cases hntaken : inst.calcNextInstID = oracleID
    · exact iff_of_true ⟨_, if_pos hntaken⟩ (.inr (.inl hntaken))
    by_cases htag : g.calcTag (BPBTB.key C inst) = 0
    · refine iff_of_false ?_ ?_
      · rintro ⟨b', hb'⟩
        simp only [if_neg hntaken, fillLine_error htag] at hb'
        cases hb'
      · rintro (hnone | hsame | hkey)
        · exact absurd hnone (by simp)
        · exact hntaken hsame
        · exact hkey impl g rfl htag
    · obtain ⟨l, data, -, hfill, -⟩ := h.fillLine hC htag odd
      refine iff_of_true ⟨{ data, inst := Function.update b.inst l oracleID }, ?_⟩
        (.inr (.inr fun impl' g' hC' => ?_))
      · simp only [if_neg hntaken, hfill]
        rfl
      · cases hC'
        exact htag

/-- What the target in a line says about a taken branch. -/
def verdict (target oracleID : InstID) : PredType :=
  if target = oracleID then .CorrectPrediction else .NoBTBPrediction

lemma verdict_eq_noBTB {target : InstID} : verdict target oracleID = .NoBTBPrediction ↔
    target ≠ oracleID := by
  unfold verdict
  split
  · rename_i heq
    exact iff_of_false nofun (not_not.2 heq)
  · rename_i hne
    exact iff_of_true rfl hne

/-- The prediction for a taken branch without an update. -/
lemma predict_false_eq (hC : C.cache = some (impl, g)) :
    (b.predict C inst oracleID false odd).map Prod.fst =
      match (b.data.findLine g (BPBTB.key C inst) impl).1 with
      | none => .ok .NoBTBPrediction
      | some l => if g.calcTag (BPBTB.key C inst) = 0 then .error .assertion
          else .ok (verdict (b.inst l) oracleID) := by
  unfold BPBTB.predict
  rw [hC]
  dsimp only
  rw [if_pos (.inr rfl)]
  cases hfind : (b.data.findLine g (BPBTB.key C inst) impl).1 with
  | none =>
    rw [readLine_of_none hfind]
    rfl
  | some l =>
    dsimp only
    split
    · rename_i htag
      rw [readLine_error hfind htag]
      rfl
    · rename_i htag
      rw [readLine_of_some hfind htag]
      rfl

/-- The prediction for a taken branch with an update; it is made by the line that is filled. -/
lemma predict_true_eq (hC : C.cache = some (impl, g)) (htaken : inst.calcNextInstID ≠ oracleID)
    {r : Line × BPBTB} (hfill : b.fillLine impl g (BPBTB.key C inst) odd = .ok r)
    (hinst : r.2.inst = b.inst) :
    (b.predict C inst oracleID true odd).map Prod.fst = .ok (verdict (b.inst r.1) oracleID) := by
  unfold BPBTB.predict
  rw [hC]
  dsimp only
  rw [if_neg (by simpa using htaken), hfill, ← hinst]
  rfl

lemma predict_true_error (hC : C.cache = some (impl, g)) (htaken : inst.calcNextInstID ≠ oracleID)
    (htag : g.calcTag (BPBTB.key C inst) = 0) :
    (b.predict C inst oracleID true odd).map Prod.fst = .error .assertion := by
  unfold BPBTB.predict
  rw [hC]
  dsimp only
  rw [if_neg (by simpa using htaken), fillLine_error htag]
  rfl

/-- Where the branch is not taken, an update makes no difference. -/
lemma predict_of_not_taken (hntaken : inst.calcNextInstID = oracleID) (doUpdate : Bool) :
    b.predict C inst oracleID doUpdate odd = b.predict C inst oracleID false odd := by
  unfold BPBTB.predict
  dsimp only
  split
  · rfl
  · rw [if_pos (.inl (decide_eq_true hntaken)), if_pos (.inr rfl)]

lemma agrees_iff (h : b.Inv C) : (b.predict C inst oracleID false odd).map Prod.fst =
    (b.predict C inst oracleID true odd).map Prod.fst ↔ b.Agrees C inst oracleID odd := by
  by_cases hntaken : inst.calcNextInstID = oracleID
  · rw [predict_of_not_taken hntaken true]
    exact iff_of_true rfl (.inr (.inl hntaken))
  cases hC : C.cache with
  | none =>
    refine iff_of_true ?_ (.inl hC)
    unfold BPBTB.predict
    rw [hC]
  | some c =>
    obtain ⟨impl, g⟩ := c
    have hhits : b.Hits C inst ↔ ∃ l, (b.data.findLine g (BPBTB.key C inst) impl).1 = some l :=
      ⟨fun h => h impl g hC, fun h impl' g' hC' => by cases hC.symm.trans hC'; exact h⟩
    have hsimp : b.Agrees C inst oracleID odd ↔ b.Hits C inst ∨
        HasTag C inst ∧ b.ReplacesOther C inst oracleID odd := by
      simp [Agrees, hC, hntaken]
    rw [hsimp, predict_false_eq hC, hhits]
    by_cases htag : g.calcTag (BPBTB.key C inst) = 0
    · have hnoTag : ¬HasTag C inst := fun h => h impl g hC htag
      rw [predict_true_error hC hntaken htag]
      cases hfind : (b.data.findLine g (BPBTB.key C inst) impl).1 with
      | none => simp [hnoTag]
      | some l => simp [htag]
    · obtain ⟨l, data, hreplace, hfill, -, -, hother⟩ := h.fillLine hC htag odd
      have hHasTag : HasTag C inst := fun impl' g' hC' => by cases hC.symm.trans hC'; exact htag
      have hreplaces : b.ReplacesOther C inst oracleID odd ↔ b.inst l ≠ oracleID := by
        constructor
        · exact fun h => h impl g l hC hreplace
        · intro hne impl' g' l' hC' hl'
          cases hC.symm.trans hC'
          rw [hreplace] at hl'
          cases hl'
          exact hne
      rw [predict_true_eq hC hntaken hfill rfl]
      cases hfind : (b.data.findLine g (BPBTB.key C inst) impl).1 with
      | none =>
        simp only [Except.ok.injEq, hHasTag, hreplaces, true_and, reduceCtorEq, exists_false, false_or]
        rw [eq_comm, verdict_eq_noBTB]
      | some l' =>
        have hl' : l' = l := hother l' (CacheGeneric.tag_of_findLine hfind)
        simp [htag, hl']

/-- After the target has been put into the target buffer, the prediction is correct. -/
lemma predict_of_updateOnly (h : b.Inv C) (htaken : inst.calcNextInstID ≠ oracleID)
    (hupdate : b.updateOnly C inst oracleID odd = .ok b') (hC : C.cache ≠ none) :
    (b'.predict C inst oracleID true odd).map Prod.fst = .ok .CorrectPrediction := by
  obtain ⟨⟨impl, g⟩, hC⟩ := Option.ne_none_iff_exists'.1 hC
  have htag : g.calcTag (BPBTB.key C inst) ≠ 0 := by
    rcases (updateOnly_iff h oracleID odd).1 ⟨b', hupdate⟩ with hnone | hsame | hkey
    · exact absurd (hC.symm.trans hnone) (by simp)
    · exact absurd hsame htaken
    · exact hkey impl g hC
  obtain ⟨l, data, -, hfill, hinv, hline, -⟩ := h.fillLine hC htag odd
  have hb' : b' = { data, inst := Function.update b.inst l oracleID } := by
    unfold BPBTB.updateOnly at hupdate
    rw [hC] at hupdate
    simp only [if_neg htaken, hfill] at hupdate
    cases hupdate
    rfl
  have hinv' : b'.Inv C := hb' ▸ hinv.setInst l oracleID
  obtain ⟨l', data', -, hfill', -, -, hother⟩ := hinv'.fillLine hC htag odd
  have hl' : l = l' := hother l (by rw [hb']; exact hline)
  have hinst : b'.inst l' = oracleID := by
    rw [hb', hl']
    exact Function.update_self ..
  rw [predict_true_eq hC htaken hfill' rfl, hinst, verdict, if_pos rfl]

end BPBTB

end Sesc.BPred
