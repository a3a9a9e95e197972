import Sesc.BPred.Yags

/-!
# The counters that YAGS trains

A branch that has an entry in a direction cache, or gets one, trains the counter that is read with this
entry, but for the entry of an exception to "taken", where the counter of the key without the history is
trained.
-/

namespace Sesc.BPred

open Lib

namespace SCTable

variable (t : SCTable) (cid : HistoryType) (taken : Bool)

/-- The table with taken and not taken exchanged. -/
def complement : SCTable where
  bits := t.bits
  sizeMask := t.sizeMask
  table c := t.MaxValue - t.table c
  bits_pos := t.bits_pos
  table_le _ := Nat.sub_le _ _

@[simp] lemma complement_complement : t.complement.complement = t := by
  refine SCTable.ext rfl rfl ?_
  funext c
  have hle : t.table c ≤ t.MaxValue := t.table_le c
  exact Nat.sub_sub_self hle

lemma complement_inj {t t' : SCTable} : t.complement = t'.complement ↔ t = t' := by
  constructor
  · intro h
    rw [← t.complement_complement, h, complement_complement]
  · exact congrArg complement

lemma predict_complement : t.complement.predict cid = !t.predict cid := by
  have hle : t.entry cid ≤ t.MaxValue := t.table_le _
  have hsaturate : 2 * t.Saturate = t.MaxValue + 1 := two_mul_saturate t.bits_pos
  show decide (t.Saturate ≤ t.MaxValue - t.entry cid) = !decide (t.Saturate ≤ t.entry cid)
  rw [← decide_not, decide_eq_decide]
  omega

lemma update_complement : t.complement.update cid (!taken) = (t.update cid taken).complement := by
  refine SCTable.ext rfl rfl ?_
  have hle : t.entry cid ≤ t.MaxValue := t.table_le _
  have htrain : t.complement.train (!taken) (t.MaxValue - t.entry cid) =
      t.MaxValue - t.train taken (t.entry cid) := by
    show (if !taken then if t.MaxValue - t.entry cid < t.MaxValue then _ else _ else _) = _
    unfold train
    cases taken
    · simp only [Bool.not_false, if_true, Bool.false_eq_true, if_false]
      split <;> split <;> omega
    · simp only [Bool.not_true, if_true, Bool.false_eq_true, if_false]
      split <;> split <;> omega
  funext c
  show Function.update (fun c => t.MaxValue - t.table c) (t.index cid)
      (t.complement.train (!taken) (t.MaxValue - t.entry cid)) c =
    t.MaxValue - Function.update t.table (t.index cid) (t.train taken (t.entry cid)) c
  by_cases hc : c = t.index cid
  · rw [hc, Function.update_self, Function.update_self, htrain]
  · rw [Function.update_of_ne hc, Function.update_of_ne hc]

end SCTable

namespace Directions

variable (C : YagsConfig) (d d' : Directions) (iID iIDHist : HistoryType) (taken doUpdate : Bool)

/-- The tables and caches with taken and not taken exchanged. -/
def mirror : Directions where
  ctableTaken := d.ctableNotTaken.complement
  ctableNotTaken := d.ctableTaken.complement
  CacheTaken := d.CacheNotTaken
  CacheNotTaken := d.CacheTaken

/-- A lookup of the same branch with the same history finds its entry in the cache for branches that are
not taken, and the counter that it reads is the only one that has been trained. -/
def TrainsNotTaken : Prop :=
  d'.hitsNotTaken C iID iIDHist = true ∧
    d'.ctableNotTaken = d.ctableNotTaken.update iIDHist taken

/-- The same for the cache for taken branches. -/
def TrainsTaken : Prop :=
  d'.hitsTaken C iID iIDHist = true ∧ d'.ctableTaken = d.ctableTaken.update iIDHist taken

/-- The part of `predict` for branches that are taken by default does what the other one does with taken
and not taken exchanged. -/
def Mirrored : Prop :=
  d.mirror.searchTaken C.mirror iID iIDHist (!taken) doUpdate =
    (!(d.searchNotTaken C iID iIDHist taken doUpdate).1,
      (d.searchNotTaken C iID iIDHist taken doUpdate).2.mirror)

/-- A branch that gets no entry in the cache for branches that are not taken, or for which training the
counter of the key has the effect of training the one of the mixed key. -/
def Alike : Prop :=
  d.hitsNotTaken C iID iIDHist = true ∨ taken = true ∨
  d.ctableNotTaken.index iID = d.ctableNotTaken.index iIDHist ∨
  d.ctableNotTaken.entry iID = 0 ∧ d.ctableNotTaken.entry iIDHist = 0

variable {C d d' iID iIDHist taken}

/-- A tag fits into the 8 bits of an entry. -/
lemma zeroExtend_tag : ((iID &&& BitVec.ofNat 64 (2 ^ C.tagbits - 1)).truncate 8).zeroExtend 64 =
    iID &&& BitVec.ofNat 64 (2 ^ C.tagbits - 1) := by
  have hmask : 2 ^ C.tagbits ≤ 2 ^ 7 := Nat.pow_le_pow_right Nat.two_pos C.tagbits_le
  have hle : iID.toNat &&& (2 ^ C.tagbits - 1) ≤ 2 ^ C.tagbits - 1 := Nat.and_le_right
  apply BitVec.eq_of_toNat_eq
  rw [BitVec.toNat_setWidth, BitVec.toNat_setWidth, BitVec.toNat_and, BitVec.toNat_ofNat,
    Nat.mod_eq_of_lt (show 2 ^ C.tagbits - 1 < 2 ^ 64 by omega)]
  omega

lemma hitsNotTaken_setNotTaken {t : SCTable} :
    hitsNotTaken C { d.setNotTaken C iID iIDHist with ctableNotTaken := t } iID iIDHist = true := by
  rw [hitsNotTaken, decide_eq_true_eq]
  show ((Function.update d.CacheNotTaken _ _ _).zeroExtend 64 : HistoryType) = _
  rw [Function.update_self]
  exact zeroExtend_tag

lemma hitsTaken_setTaken {t : SCTable} :
    hitsTaken C { d.setTaken C iID iIDHist with ctableTaken := t } iID iIDHist = true := by
  rw [hitsTaken, decide_eq_true_eq]
  show ((Function.update d.CacheTaken _ _ _).zeroExtend 64 : HistoryType) = _
  rw [Function.update_self]
  exact zeroExtend_tag

/-- The training of the other counter is right if it has the same effect. -/
lemma update_eq_iff_alike (hhits : d.hitsNotTaken C iID iIDHist = false) (htaken : taken = false) :
    d.ctableNotTaken.update iID taken = d.ctableNotTaken.update iIDHist taken ↔
      d.Alike C iID iIDHist taken := by
  rw [SCTable.update_eq_update_iff, SCTable.train_eq_self, SCTable.train_eq_self, Alike, hhits, htaken]
  simp

lemma trainsNotTaken_iff (huse : d.hitsNotTaken C iID iIDHist = true ∨ taken = false) :
    d.TrainsNotTaken C (d.searchNotTaken C iID iIDHist taken true).2 iID iIDHist taken ↔
      d.Alike C iID iIDHist taken := by
  rw [TrainsNotTaken, searchNotTaken]
  cases hhits : d.hitsNotTaken C iID iIDHist
  · have htaken : taken = false := huse.resolve_left (by rw [hhits]; exact Bool.false_ne_true)
    rw [if_neg Bool.false_ne_true, if_pos ⟨rfl, htaken⟩, ← update_eq_iff_alike hhits htaken]
    exact and_iff_right hitsNotTaken_setNotTaken
  · rw [if_pos rfl, if_pos rfl]
    exact iff_of_true ⟨hitsNotTaken_setNotTaken, rfl⟩ (.inl hhits)

lemma trainsTaken (huse : d.hitsTaken C iID iIDHist = true ∨ taken = true) :
    d.TrainsTaken C (d.searchTaken C iID iIDHist taken true).2 iID iIDHist taken := by
  rw [TrainsTaken, searchTaken]
  cases hhits : d.hitsTaken C iID iIDHist
  · have htaken : taken = true := huse.resolve_left (by rw [hhits]; exact Bool.false_ne_true)
    rw [if_neg Bool.false_ne_true, if_pos ⟨rfl, htaken⟩]
    exact ⟨hitsTaken_setTaken, rfl⟩
  · rw [if_pos rfl, if_pos rfl]
    exact ⟨hitsTaken_setTaken, rfl⟩

lemma mirrored_iff : d.Mirrored C iID iIDHist taken doUpdate ↔
    (doUpdate = true → d.Alike C iID iIDHist taken) := by
  have hmirror : d.mirror.hitsTaken C.mirror iID iIDHist = d.hitsNotTaken C iID iIDHist := rfl
  rw [Mirrored, searchTaken, hmirror, searchNotTaken]
  cases hhits : d.hitsNotTaken C iID iIDHist
  · rw [if_neg Bool.false_ne_true, if_neg Bool.false_ne_true]
    by_cases hcreate : doUpdate = true ∧ taken = false
    · have halike := update_eq_iff_alike hhits hcreate.2
      have hmirrored : doUpdate = true ∧ (!taken) = true := by simpa using hcreate
      rw [if_pos hmirrored, if_pos hcreate, ← halike]
      constructor
      · intro h _
        have htable := congrArg (fun r => r.2.ctableTaken) h
        exact (SCTable.complement_inj.1 ((SCTable.update_complement ..).symm.trans htable)).symm
      · intro h
        refine Prod.ext rfl (Directions.ext ?_ rfl rfl rfl)
        show (d.ctableNotTaken.complement).update iIDHist (!taken) =
          (d.ctableNotTaken.update iID taken).complement
        rw [SCTable.update_complement, h hcreate.1]
    · rw [if_neg hcreate, if_neg (by simpa using hcreate)]
      refine iff_of_true rfl fun hupdate => .inr (.inl ?_)
      simpa [hupdate] using hcreate
  · rw [if_pos rfl, if_pos rfl]
    refine iff_of_true ?_ fun _ => .inl hhits
    cases doUpdate
    · exact Prod.ext (SCTable.predict_complement ..) rfl
    · refine Prod.ext (SCTable.predict_complement ..) (Directions.ext ?_ rfl rfl rfl)
      exact SCTable.update_complement ..

end Directions

namespace BPyags

variable (C : YagsConfig) (y y' : BPyags) (inst : Instruction) (oracleID : InstID)

/-- The outcome of a branch. -/
def outcome (inst : Instruction) (oracleID : InstID) : Bool := inst.calcNextInstID ≠ oracleID

/-- The key of a branch. -/
def keyOf (inst : Instruction) : HistoryType :=
  calcInstID C.btb.bpred4CycleAddrShift inst.currentID

/-- A branch with an entry in the direction cache that is searched for it, or for which one is made,
trains the counter that is read with this entry. -/
structure TrainsConsulted : Prop where
  notTaken : y.table.predict (keyOf C inst) = true →
    (y.hitsNotTaken C (keyOf C inst) (mixed y.ghr (keyOf C inst)) = true ∨
      outcome inst oracleID = false) →
    y.TrainsNotTaken C y'.toDirections (keyOf C inst) (mixed y.ghr (keyOf C inst))
      (outcome inst oracleID)
  taken : y.table.predict (keyOf C inst) = false →
    (y.hitsTaken C (keyOf C inst) (mixed y.ghr (keyOf C inst)) = true ∨
      outcome inst oracleID = true) →
    y.TrainsTaken C y'.toDirections (keyOf C inst) (mixed y.ghr (keyOf C inst))
      (outcome inst oracleID)

variable {C y y' inst oracleID}

/-- What an update does to the direction caches and their counters. -/
lemma toDirections_predict {pred : PredType} {odd : Bool} (hinst : inst.isBranchTaken = false)
    (h : y.predict C inst oracleID true odd = .ok (pred, y')) : y'.toDirections =
      if y.table.predict (keyOf C inst) then
        (y.searchNotTaken C (keyOf C inst) (mixed y.ghr (keyOf C inst)) (outcome inst oracleID) true).2
      else
        (y.searchTaken C (keyOf C inst) (mixed y.ghr (keyOf C inst)) (outcome inst oracleID) true).2 := by
  rw [predict, hinst, if_neg Bool.false_ne_true] at h
  obtain ⟨⟨pred', btb⟩, -, h⟩ := bind_eq_ok.1 h
  cases h
  show Prod.snd (if y.table.predict (keyOf C inst) then _ else _) = _
  split <;> rfl

/-- An update trains the counter that a lookup of the same branch with the same history reads, and the
two directions are mirror images, exactly when the branch is `Alike`. -/
theorem trains_consulted_iff {pred : PredType} {odd : Bool} (hinst : inst.isBranchTaken = false)
    (h : y.predict C inst oracleID true odd = .ok (pred, y')) :
    (TrainsConsulted C y y' inst oracleID ↔ (y.table.predict (keyOf C inst) = true →
      y.Alike C (keyOf C inst) (mixed y.ghr (keyOf C inst)) (outcome inst oracleID))) ∧
    (y.Mirrored C (keyOf C inst) (mixed y.ghr (keyOf C inst)) (outcome inst oracleID) true ↔
      y.Alike C (keyOf C inst) (mixed y.ghr (keyOf C inst)) (outcome inst oracleID)) := by
  have hdirections := toDirections_predict hinst h
  refine ⟨?_, (Directions.mirrored_iff true).trans (forall_prop_of_true rfl)⟩
  constructor
  · intro htrains hchoice
    rw [hchoice, if_pos rfl] at hdirections
    by_cases huse : y.hitsNotTaken C (keyOf C inst) (mixed y.ghr (keyOf C inst)) = true ∨
        outcome inst oracleID = false
    · have htrain := htrains.notTaken hchoice huse
      rw [hdirections] at htrain
      exact (Directions.trainsNotTaken_iff huse).1 htrain
    · exact .inr (.inl (by simpa using (not_or.1 huse).2))
  · intro halike
    constructor
    · intro hchoice huse
      rw [hchoice, if_pos rfl] at hdirections
      rw [hdirections]
      exact (Directions.trainsNotTaken_iff huse).2 (halike hchoice)
    · intro hchoice huse
      rw [hchoice, if_neg Bool.false_ne_true] at hdirections
      rw [hdirections]
      exact Directions.trainsTaken huse

/-- Caches of four entries that are not in use, and a choice predictor that predicts the branches with
even keys as taken.  There is no target buffer. -/
def fourEntries : YagsConfig := ⟨⟨0, none⟩, 4, 4, 2, by decide⟩

def evenTaken (ghr : HistoryType) : BPyags where
  ctableTaken := .new 4 2 (by decide)
  ctableNotTaken := .new 4 2 (by decide)
  CacheTaken _ := 255
  CacheNotTaken _ := 255
  btb := ⟨⟨[], [], 0⟩, fun _ => 0⟩
  table := .new 2 1 (by decide)
  ghr := ghr

/-- A branch with an odd key is taken, and gets an entry and its counter. -/
theorem trains_consulted_iff_odd :
    ∃ y', (evenTaken 1).predict fourEntries ⟨21, .other, false, 1⟩ 40 true false =
        .ok (.MissPrediction, y') ∧
      y'.hitsTaken fourEntries 21 (mixed 1 21) = true ∧ y'.ctableTaken.entry (mixed 1 21) = 2 ∧
      TrainsConsulted fourEntries (evenTaken 1) y' ⟨21, .other, false, 1⟩ 40 := by
  obtain ⟨y', hpredict, hhits, hentry⟩ :
      ∃ y', (evenTaken 1).predict fourEntries ⟨21, .other, false, 1⟩ 40 true false =
        .ok (.MissPrediction, y') ∧
      y'.hitsTaken fourEntries 21 (mixed 1 21) = true ∧ y'.ctableTaken.entry (mixed 1 21) = 2 :=
    ⟨_, rfl, by decide +kernel, by decide +kernel⟩
  have hchoice : ¬(evenTaken 1).table.predict (keyOf fourEntries ⟨21, .other, false, 1⟩) = true := by
    decide +kernel
  exact ⟨y', hpredict, hhits, hentry,
    (trains_consulted_iff rfl hpredict).1.2 fun h => absurd h hchoice⟩

/-- A branch with an even key is not taken, and gets an entry; the counter of the key is trained, and the
one that is read with the entry is not. -/
theorem not_trains_consulted :
    ∃ y', (evenTaken 1).predict fourEntries ⟨20, .other, false, 1⟩ 21 true false =
        .ok (.MissPrediction, y') ∧
      y'.hitsNotTaken fourEntries 20 (mixed 1 20) = true ∧
      (evenTaken 1).ctableNotTaken.entry (mixed 1 20) = 1 ∧
      y'.ctableNotTaken.entry (mixed 1 20) = 1 ∧ y'.ctableNotTaken.entry 20 = 0 ∧
      ¬TrainsConsulted fourEntries (evenTaken 1) y' ⟨20, .other, false, 1⟩ 21 := by
  obtain ⟨y', hpredict, hhits, hbefore, hafter, hkey⟩ :
      ∃ y', (evenTaken 1).predict fourEntries ⟨20, .other, false, 1⟩ 21 true false =
        .ok (.MissPrediction, y') ∧
      y'.hitsNotTaken fourEntries 20 (mixed 1 20) = true ∧
      (evenTaken 1).ctableNotTaken.entry (mixed 1 20) = 1 ∧
      y'.ctableNotTaken.entry (mixed 1 20) = 1 ∧ y'.ctableNotTaken.entry 20 = 0 :=
    ⟨_, rfl, by decide +kernel, by decide +kernel, by decide +kernel, by decide +kernel⟩
  refine ⟨y', hpredict, hhits, hbefore, hafter, hkey, fun htrains => ?_⟩
  have htrain := (htrains.notTaken (by decide +kernel) (.inr (by decide +kernel))).2
  have hentry := congrArg (fun t => t.entry (mixed 1 20)) htrain
  have hwrong : ((evenTaken 1).ctableNotTaken.update (mixed 1 20) false).entry (mixed 1 20) = 0 := by
    decide +kernel
  exact absurd (hafter.symm.trans (hentry.trans hwrong)) (by decide)

end BPyags

end Sesc.BPred
