import Sesc.BPred.OgehlSafety
import Sesc.BPred.Predictors

/-!
# Predictions with and without an update

A prediction without an update changes nothing but the order of the lines in the sets of the target
buffer.  It agrees with the one with an update except where the stack or the target buffer is read after
it has changed.
-/

namespace Sesc.BPred

open Lib Sesc.CacheCore

variable {inst : Instruction} {oracleID : InstID} {odd : Bool}

/-- Two computations make the same prediction, or fail alike. -/
def SamePrediction {α : Type} (x y : Except BPredFault (PredType × α)) : Prop :=
  x.map Prod.fst = y.map Prod.fst

lemma map_fst_map {α β : Type} {f : α → β} {x : Except BPredFault (PredType × α)} :
    (x.map (Prod.map id f)).map Prod.fst = x.map Prod.fst := by
  cases x <;> rfl

lemma samePrediction_map {α β : Type} {f : α → β} {x y : Except BPredFault (PredType × α)} :
    SamePrediction (x.map (Prod.map id f)) (y.map (Prod.map id f)) ↔ SamePrediction x y := by
  rw [SamePrediction, SamePrediction, map_fst_map, map_fst_map]

lemma ensures_map {α β : Type} {f : α → β} {x : Except BPredFault (PredType × α)} {P : β → Prop}
    (h : Ensures (fun r => P (f r.2)) x) :
    Ensures (fun r => P r.2) (x.map (Prod.map id f)) := by
  intro r hr
  obtain ⟨r', hr', rfl⟩ := map_eq_ok.1 hr
  exact h r' hr'

/-- What follows a prediction changes the state only. -/
lemma map_bind_pure {α β γ : Type} {x : Except BPredFault (PredType × α)} {f : α → β} {g : β → γ} :
    (x >>= fun r => pure (r.1, f r.2)).map (Prod.map id g) = x >>= fun r => pure (r.1, g (f r.2)) := by
  cases x <;> rfl

/-! ## The return address stack -/

namespace BPRas

/-- The positions before and after a return say the same of the target. -/
def Agrees (RasSize : ℕ) (s : BPRas) (inst : Instruction) (oracleID : InstID) : Prop :=
  inst.isFuncRet = true → RasSize ≠ 0 →
    (s.stack s.index = oracleID ↔ s.stack (previous RasSize s.index) = oracleID)

variable {RasSize : ℕ} {s : BPRas}

lemma predict_false : (s.predict RasSize inst oracleID false).2 = s := by
  unfold predict
  split
  · split <;> rfl
  · rw [if_neg (by simp)]

lemma agrees_iff : (s.predict RasSize inst oracleID false).1 = (s.predict RasSize inst oracleID true).1 ↔
    s.Agrees RasSize inst oracleID := by
  unfold predict Agrees
  by_cases hret : inst.isFuncRet = true
  · by_cases hsize : RasSize = 0
    · simp [hret, hsize]
    · simp only [hret, if_true, if_neg hsize, Bool.false_eq_true, if_false, forall_true_left]
      by_cases hold : s.stack s.index = oracleID <;>
        by_cases hnew : s.stack (previous RasSize s.index) = oracleID <;> simp [hold, hnew, hsize]
  · rw [if_neg hret, if_neg hret]
    refine iff_of_true ?_ fun h => absurd h hret
    split <;> split <;> rfl

end BPRas

/-! ## Predictors of the direction -/

namespace BPBTB

/-- A branch that is predicted as taken or not taken is predicted alike with and without an update. -/
def ConcludesAlike (C : BTBConfig) (b : BPBTB) (inst : Instruction) (oracleID : InstID) (odd : Bool)
    (ptaken : Bool) : Prop :=
  if decide (inst.calcNextInstID ≠ oracleID) = ptaken then ptaken = true → b.Agrees C inst oracleID odd
  else Updatable C inst oracleID

variable {C : BTBConfig} {b : BPBTB} {taken ptaken doUpdate : Bool}

lemma Inv.conclude (h : b.Inv C) :
    Ensures (fun r => r.2.Inv C) (b.conclude C inst oracleID taken ptaken doUpdate odd) := by
  unfold BPBTB.conclude
  split
  · split
    · exact h.updateOnly.bind fun _ ht => ensures_pure.2 ht
    · exact ensures_ok.2 h
  · split
    · exact h.predict
    · exact ensures_ok.2 h

lemma Inv.conclude_false (h : b.Inv C) :
    Ensures (fun r => SameTargets C b r.2) (b.conclude C inst oracleID taken ptaken false odd) := by
  unfold BPBTB.conclude
  split
  · rw [if_neg Bool.false_ne_true]
    exact ensures_ok.2 .refl
  · split
    · exact h.predict_false
    · exact ensures_ok.2 .refl

lemma concludesAlike_iff (h : b.Inv C) : SamePrediction
      (b.conclude C inst oracleID (inst.calcNextInstID ≠ oracleID) ptaken false odd)
      (b.conclude C inst oracleID (inst.calcNextInstID ≠ oracleID) ptaken true odd) ↔
    b.ConcludesAlike C inst oracleID odd ptaken := by
  unfold SamePrediction BPBTB.conclude ConcludesAlike
  by_cases hright : decide (inst.calcNextInstID ≠ oracleID) = ptaken
  · rw [if_neg (not_not.2 hright), if_neg (not_not.2 hright), if_pos hright]
    cases ptaken with
    | false => simp
    | true =>
      rw [if_pos rfl, if_pos rfl, forall_prop_of_true rfl]
      exact agrees_iff h
  · rw [if_pos hright, if_pos hright, if_neg hright, if_neg Bool.false_ne_true, if_pos rfl,
      ← updateOnly_iff h oracleID odd]
    cases hupdate : b.updateOnly C inst oracleID odd with
    | ok b' => exact iff_of_true rfl ⟨b', rfl⟩
    | error f => exact iff_of_false nofun nofun

end BPBTB

namespace Directed

variable {σ : Type} {C : BTBConfig} {direction : Direction σ} {s : Directed σ} {doUpdate : Bool}

/-- Tables that give the same direction with and without an update, and change only with one. -/
def ReadsFirst (direction : Direction σ) : Prop :=
  ∀ s inst taken, direction s inst taken false = ((direction s inst taken true).1, s)

/-- What the agreement of a predictor depends on. -/
def Agrees (C : BTBConfig) (direction : Direction σ) (s : Directed σ) (inst : Instruction)
    (oracleID : InstID) (odd : Bool) : Prop :=
  if inst.isBranchTaken then s.btb.Agrees C inst oracleID odd
  else s.btb.ConcludesAlike C inst oracleID odd
    (direction s.tables inst (inst.calcNextInstID ≠ oracleID) false).1

lemma predict_inv (h : s.btb.Inv C) :
    Ensures (fun r => r.2.btb.Inv C) (s.predict C direction inst oracleID doUpdate odd) := by
  unfold predict
  split
  · exact h.predict.bind fun _ ht => ensures_pure.2 ht
  · exact h.conclude.bind fun _ ht => ensures_pure.2 ht

lemma predict_false (hdirection : ReadsFirst direction) (h : s.btb.Inv C) :
    Ensures (fun r => r.2.tables = s.tables ∧ BPBTB.SameTargets C s.btb r.2.btb)
      (s.predict C direction inst oracleID false odd) := by
  unfold predict
  split
  · exact h.predict_false.bind fun _ ht => ensures_pure.2 ⟨rfl, ht⟩
  · dsimp only
    rw [hdirection]
    exact h.conclude_false.bind fun _ ht => ensures_pure.2 ⟨rfl, ht⟩

/-- The state does not matter for the prediction. -/
lemma map_fst_bind {α β : Type} {x : Except BPredFault (PredType × α)} {f : α → β} :
    (x >>= fun r => pure (r.1, f r.2)).map Prod.fst = x.map Prod.fst := by
  cases x <;> rfl

lemma agrees_iff (hdirection : ReadsFirst direction) (h : s.btb.Inv C) :
    SamePrediction (s.predict C direction inst oracleID false odd)
      (s.predict C direction inst oracleID true odd) ↔ s.Agrees C direction inst oracleID odd := by
  unfold SamePrediction predict Agrees
  split
  · refine Iff.trans (Eq.congr ?_ ?_) (BPBTB.agrees_iff h)
    · exact map_fst_bind (f := fun btb => ({ s with btb } : Directed σ))
    · exact map_fst_bind (f := fun btb => ({ s with btb } : Directed σ))
  · refine Iff.trans (Eq.congr ?_ ?_) (BPBTB.concludesAlike_iff h)
    · exact map_fst_bind (f := fun btb => (⟨btb, _⟩ : Directed σ))
    · rw [hdirection]
      exact map_fst_bind (f := fun btb => (⟨btb, _⟩ : Directed σ))

end Directed

lemma BP2bit.readsFirst (C : BTBConfig) : Directed.ReadsFirst (direction C) := fun _ _ _ => rfl

lemma BP2level.readsFirst (C : Config) : Directed.ReadsFirst (direction C) := fun _ _ _ => rfl

lemma BPHybrid.readsFirst (C : Config) : Directed.ReadsFirst (direction C) := by
  have hchoose : ∀ t l2Index globalTaken localTaken taken,
      (choose t l2Index globalTaken localTaken taken true).1 = t.predict l2Index := by
    intro t l2Index globalTaken localTaken taken
    unfold choose
    rw [if_neg (by simp)]
    split
    · rfl
    · split <;> rfl
  intro s inst taken
  refine Prod.ext ?_ rfl
  unfold direction
  dsimp only
  rw [hchoose]
  rfl

lemma BP2BcgSkew.readsFirst (C : Config) : Directed.ReadsFirst (direction C) := fun _ _ _ => rfl

/-! ## YAGS -/

namespace BPyags

variable {C : YagsConfig} {y : BPyags} {doUpdate : Bool}

/-- The tables of the predictor, apart from the target buffer. -/
abbrev Tables := Directions × SCTable × HistoryType

/-- The tables look a branch up in one of the direction caches. -/
def direction (C : YagsConfig) : Direction Tables := fun s inst taken doUpdate =>
  let iID := calcInstID C.btb.bpred4CycleAddrShift inst.currentID
  let iIDHist := mixed s.2.2 iID
  let ghr := if doUpdate then shiftHistory s.2.2 iID taken &&& historyMask else s.2.2
  let table := if doUpdate then s.2.1.update iID taken else s.2.1
  let r :=
    if s.2.1.predict iID then s.1.searchNotTaken C iID iIDHist taken doUpdate
    else s.1.searchTaken C iID iIDHist taken doUpdate
  (r.1, r.2, table, ghr)

/-- YAGS as a predictor with tables. -/
def directed (y : BPyags) : Directed Tables := ⟨y.btb, y.toDirections, y.table, y.ghr⟩

def ofDirected (s : Directed Tables) : BPyags := ⟨s.tables.1, s.btb, s.tables.2.1, s.tables.2.2⟩

lemma predict_eq : y.predict C inst oracleID doUpdate odd =
    (Directed.predict C.btb (direction C) y.directed inst oracleID doUpdate odd).map
      (Prod.map id ofDirected) := by
  unfold predict Directed.predict
  split
  · exact (map_bind_pure (x := y.btb.predict C.btb inst oracleID doUpdate odd)
      (f := fun btb => ({ y.directed with btb } : Directed Tables)) (g := ofDirected)).symm
  · generalize htaken : decide (inst.calcNextInstID ≠ oracleID) = taken
    exact (map_bind_pure (x := y.btb.conclude C.btb inst oracleID taken
        (direction C y.directed.tables inst taken doUpdate).1 doUpdate odd)
      (f := fun btb => (⟨btb, (direction C y.directed.tables inst taken doUpdate).2⟩ : Directed Tables))
      (g := ofDirected)).symm

lemma readsFirst (C : YagsConfig) : Directed.ReadsFirst (direction C) := by
  have hnotTaken : ∀ d : Directions, ∀ iID iIDHist taken,
      d.searchNotTaken C iID iIDHist taken false = ((d.searchNotTaken C iID iIDHist taken true).1, d) := by
    intro d iID iIDHist taken
    unfold Directions.searchNotTaken
    split
    · rfl
    · rw [if_neg (by simp)]
      split <;> rfl
  have htaken : ∀ d : Directions, ∀ iID iIDHist taken,
      d.searchTaken C iID iIDHist taken false = ((d.searchTaken C iID iIDHist taken true).1, d) := by
    intro d iID iIDHist taken
    unfold Directions.searchTaken
    split
    · rfl
    · rw [if_neg (by simp)]
      split <;> rfl
  intro s inst taken
  unfold direction
  dsimp only
  rw [hnotTaken, htaken]
  split <;> rfl

end BPyags

/-! ## O-GEHL -/

/-- The line of a taken branch has the target already, so that putting it there first changes no
prediction. -/
def BPBTB.HitsTarget (C : BTBConfig) (b : BPBTB) (inst : Instruction) (oracleID : InstID) : Prop :=
  ∀ impl g, C.cache = some (impl, g) →
    ∃ l, (b.data.findLine g (BPBTB.key C inst) impl).1 = some l ∧
      (g.calcTag (BPBTB.key C inst) ≠ 0 → b.inst l = oracleID)

/-- Putting the target into the target buffer before a prediction with an update. -/
lemma BPBTB.hitsTarget_iff {C : BTBConfig} {b : BPBTB} (h : b.Inv C)
    (htaken : inst.calcNextInstID ≠ oracleID) (odd : Bool) :
    SamePrediction (b.predict C inst oracleID false odd)
      (b.updateOnly C inst oracleID odd >>= fun b => b.predict C inst oracleID true odd) ↔
    b.HitsTarget C inst oracleID := by
  unfold SamePrediction
  cases hC : C.cache with
  | none =>
    refine iff_of_true ?_ fun impl g hC' => absurd (hC.symm.trans hC') (by simp)
    have hupdate : b.updateOnly C inst oracleID odd = .ok b := by
      unfold updateOnly
      rw [hC]
    rw [hupdate, ok_bind]
    unfold predict
    rw [hC]
  | some c =>
    obtain ⟨impl, g⟩ := c
    have hhits : b.HitsTarget C inst oracleID ↔
        ∃ l, (b.data.findLine g (BPBTB.key C inst) impl).1 = some l ∧
          (g.calcTag (BPBTB.key C inst) ≠ 0 → b.inst l = oracleID) :=
      ⟨fun h => h impl g hC, fun h impl' g' hC' => by cases hC.symm.trans hC'; exact h⟩
    rw [hhits, predict_false_eq hC]
    cases hupdate : b.updateOnly C inst oracleID odd with
    | error f =>
      have hassert : f = .assertion := failsOnly_updateOnly f hupdate
      have htag : g.calcTag (BPBTB.key C inst) = 0 := by
        by_contra htag
        obtain ⟨b', hb'⟩ := (updateOnly_iff h oracleID odd).2
          (.inr (.inr fun impl' g' hC' => by cases hC.symm.trans hC'; exact htag))
        rw [hupdate] at hb'
        cases hb'
      rw [error_bind, hassert]
      cases hfind : (b.data.findLine g (BPBTB.key C inst) impl).1 with
      | none => exact iff_of_false nofun (by simp)
      | some l =>
        refine iff_of_true ?_ ⟨l, rfl, fun hne => absurd htag hne⟩
        simp only [if_pos htag]
        rfl
    | ok b' =>
      have htag : g.calcTag (BPBTB.key C inst) ≠ 0 := by
        rcases (updateOnly_iff h oracleID odd).1 ⟨b', hupdate⟩ with hnone | hsame | hkey
        · exact absurd (hC.symm.trans hnone) (by simp)
        · exact absurd hsame htaken
        · exact hkey impl g hC
      rw [ok_bind, predict_of_updateOnly h htaken hupdate (by rw [hC]; exact Option.some_ne_none _)]
      cases hfind : (b.data.findLine g (BPBTB.key C inst) impl).1 with
      | none => exact iff_of_false nofun (by simp)
      | some l =>
        dsimp only
        rw [if_neg htag]
        unfold verdict
        by_cases htarget : b.inst l = oracleID
        · rw [if_pos htarget]
          exact iff_of_true rfl ⟨l, rfl, fun _ => htarget⟩
        · rw [if_neg htarget]
          refine iff_of_false nofun ?_
          rintro ⟨l', hl', hinst⟩
          cases hl'
          exact htarget (hinst htag)

namespace BPOgehl

variable {C : OgehlConfig} {s : BPOgehl} {taken ptaken doUpdate : Bool} {S : ℤ} {iID : ℕ → ℕ}

/-- The lengths of the histories are set only if there are enough tables. -/
def LengthsFit (C : OgehlConfig) (s : BPOgehl) (inst : Instruction) (iID : ℕ → ℕ) : Prop :=
  7 ≤ C.mtables ∨ ¬s.SaturatesAt inst (iID (C.M_SIZ - 1))

/-- What the agreement of the predictor depends on, where its tables give a sum for the branch: with a
right prediction of a taken branch that trains the tables, that the target buffer has the target; with
another right one, that the target buffer agrees; with a wrong one, that the update goes through. -/
def Agrees (C : OgehlConfig) (s : BPOgehl) (inst : Instruction) (oracleID : InstID) (odd : Bool) : Prop :=
  if inst.isBranchTaken then s.btb.Agrees C.btb inst oracleID odd
  else ∀ iID S T, s.lookup C inst C.M_SIZ = .ok (iID, S, T) →
    if decide (inst.calcNextInstID ≠ oracleID) = decide (0 ≤ S) then 0 ≤ S →
      if (s.adjustTheta C true true S).Trains true true S then s.btb.HitsTarget C.btb inst oracleID
      else s.btb.Agrees C.btb inst oracleID odd
    else BPBTB.Updatable C.btb inst oracleID ∧ s.LengthsFit C inst iID

lemma lookup_lt {n : ℕ} : ∀ {iID S T}, s.lookup C inst n = .ok (iID, S, T) →
    ∀ i < n, iID i < 2 ^ C.logpred := by
  induction n with
  | zero => exact fun _ i hi => absurd hi (Nat.not_lt_zero i)
  | succ n ih =>
    intro iID S T h i hi
    rw [lookup] at h
    obtain ⟨⟨iID', S', T'⟩, hlookup, h⟩ := bind_eq_ok.1 h
    obtain ⟨⟨index, T''⟩, -, h⟩ := bind_eq_ok.1 h
    obtain ⟨hindex, h⟩ := check_bind_eq_ok.1 h
    cases h
    rcases Nat.lt_succ_iff_lt_or_eq.1 hi with hlt | rfl
    · rw [Function.update_of_ne hlt.ne]
      exact ih hlookup i hlt
    · rw [Function.update_self]
      exact hindex

lemma setLengths_spec {AC : ℤ} {i6 i4 i2 : ℕ} :
    FailsOnly (· ≠ .assertion) (s.setLengths C AC i6 i4 i2) ∧
      Ensures (fun t => t.btb = s.btb) (s.setLengths C AC i6 i4 i2) := by
  refine ⟨FailsOnly.check_bind (by decide) failsOnly_ok, ?_⟩
  unfold setLengths
  rw [ensures_check_bind]
  exact fun _ => ensures_pure.2 rfl

lemma adaptLengths_spec {miniTag : ℤ} :
    FailsOnly (· ≠ .assertion) (s.adaptLengths C inst taken ptaken miniTag) ∧
      Ensures (fun t => t.btb = s.btb) (s.adaptLengths C inst taken ptaken miniTag) := by
  unfold adaptLengths
  split
  · exact ⟨failsOnly_ok, ensures_ok.2 rfl⟩
  · split
    · split
      · exact setLengths_spec
      · exact ⟨failsOnly_ok, ensures_ok.2 rfl⟩
    · split
      · exact setLengths_spec
      · exact ⟨failsOnly_ok, ensures_ok.2 rfl⟩

lemma updateTag_spec {last : ℕ} :
    FailsOnly (· ≠ .assertion) (s.updateTag C inst last taken ptaken) ∧
      Ensures (fun t => t.btb = s.btb) (s.updateTag C inst last taken ptaken) := by
  unfold updateTag
  split
  · refine ⟨FailsOnly.check_bind (by decide) (adaptLengths_spec.1.bind fun _ _ => failsOnly_ok), ?_⟩
    rw [ensures_check_bind]
    exact fun _ => adaptLengths_spec.2.bind fun t ht => ensures_pure.2 ht
  · exact ⟨failsOnly_ok, ensures_ok.2 rfl⟩

/-- With enough tables, the tag is updated. -/
lemma exists_updateTag {last : ℕ} (hlast : last < 2 ^ C.logpred)
    (h : 7 ≤ C.mtables ∨ ¬(taken ≠ ptaken ∧ s.SaturatesAt inst last)) :
    ∃ t, s.updateTag C inst last taken ptaken = .ok t ∧ t.btb = s.btb := by
  cases hupdate : s.updateTag C inst last taken ptaken with
  | ok t => exact ⟨t, rfl, updateTag_spec.2 t hupdate⟩
  | error f => exact absurd (failsOnly_updateTag hlast h f hupdate) (updateTag_spec.1 f hupdate)

lemma trainAll_of_not (h : ¬s.Trains taken ptaken S) :
    s.trainAll C inst oracleID odd taken ptaken S iID = .ok s := if_neg h

lemma trainAll_error {f : BPredFault} (h : s.Trains taken ptaken S)
    (hbtb : s.btb.updateOnly C.btb inst oracleID odd = .error f) :
    s.trainAll C inst oracleID odd taken ptaken S iID = .error f := by
  rw [trainAll, if_pos h]
  show (s.btb.updateOnly C.btb inst oracleID odd >>= _) = _
  rw [hbtb]
  rfl

/-- The tables are trained, and the target is put into the target buffer. -/
lemma exists_trainAll {btb : BPBTB} (h : s.Trains taken ptaken S)
    (hlast : iID (C.M_SIZ - 1) < 2 ^ C.logpred) (hlengths : taken ≠ ptaken → s.LengthsFit C inst iID)
    (hbtb : s.btb.updateOnly C.btb inst oracleID odd = .ok btb) :
    ∃ t, s.trainAll C inst oracleID odd taken ptaken S iID = .ok t ∧ t.btb = btb := by
  have hfit : 7 ≤ C.mtables ∨ ¬(taken ≠ ptaken ∧
      SaturatesAt { s.trainTables C iID taken with btb } inst (iID (C.M_SIZ - 1))) := by
    by_cases hwrong : taken ≠ ptaken
    · exact (hlengths hwrong).imp_right fun hnot hsat => hnot hsat.2
    · exact .inr fun hsat => hwrong hsat.1
  obtain ⟨t, ht, htbtb⟩ := exists_updateTag hlast hfit
  refine ⟨t, ?_, htbtb⟩
  rw [trainAll, if_pos h]
  show (s.btb.updateOnly C.btb inst oracleID odd >>= _) = _
  rw [hbtb]
  exact ht

lemma lengthsFit_adjustTheta :
    (s.adjustTheta C taken ptaken S).LengthsFit C inst iID ↔ s.LengthsFit C inst iID := by
  unfold LengthsFit SaturatesAt Saturates
  rw [adjustTheta_AC, adjustTheta_MINITAG]

/-- The prediction for a branch for which the tables give a sum. -/
lemma predict_eq (hinst : ¬inst.isBranchTaken = true) {T : ℕ → ℕ}
    (hlookup : s.lookup C inst C.M_SIZ = .ok (iID, S, T)) :
    (s.predict C inst oracleID doUpdate odd).map Prod.fst =
      (update C { s with T } inst oracleID doUpdate odd (inst.calcNextInstID ≠ oracleID)
          (decide (0 ≤ S)) S iID >>= fun t =>
        if decide (inst.calcNextInstID ≠ oracleID) ≠ decide (0 ≤ S) then .ok .MissPrediction
        else if 0 ≤ S then (t.btb.predict C.btb inst oracleID doUpdate odd).map Prod.fst
        else .ok .CorrectPrediction) := by
  unfold predict
  rw [if_neg hinst]
  dsimp only
  rw [hlookup, ok_bind]
  dsimp only
  cases hupdate : update C { s with T } inst oracleID doUpdate odd
      (decide (inst.calcNextInstID ≠ oracleID)) (decide (0 ≤ S)) S iID with
  | error f => rfl
  | ok t =>
    rw [ok_bind, ok_bind]
    split
    · rfl
    · by_cases hS : 0 ≤ S
      · rw [if_pos (decide_eq_true hS), if_pos hS]
        exact Directed.map_fst_bind (f := fun btb => ({ t with btb } : BPOgehl))
      · rw [if_neg (by simpa using hS), if_neg hS]
        rfl

/-- The scratch array does not matter for the threshold. -/
lemma adjustTheta_withT (T : ℕ → ℕ) : adjustTheta C { s with T } taken ptaken S =
    { s.adjustTheta C taken ptaken S with T } := by
  unfold adjustTheta
  dsimp only
  repeat' split
  all_goals rfl

/-- An update of a branch with a right prediction puts its target into the target buffer where the tables
are trained. -/
lemma update_right {T : ℕ → ℕ} (hlast : iID (C.M_SIZ - 1) < 2 ^ C.logpred) :
    (update C { s with T } inst oracleID true odd taken taken S iID).map (·.btb) =
      if (s.adjustTheta C taken taken S).Trains taken taken S then
        s.btb.updateOnly C.btb inst oracleID odd
      else .ok s.btb := by
  have hbtb : (adjustTheta C { s with T } taken taken S).btb = s.btb := adjustTheta_btb
  have htrains : (adjustTheta C { s with T } taken taken S).Trains taken taken S ↔
      (s.adjustTheta C taken taken S).Trains taken taken S := by
    rw [adjustTheta_withT]
    exact Iff.rfl
  rw [update, if_pos rfl]
  by_cases htrain : (s.adjustTheta C taken taken S).Trains taken taken S
  · rw [if_pos htrain]
    cases hupdate : s.btb.updateOnly C.btb inst oracleID odd with
    | error f =>
      rw [trainAll_error (htrains.2 htrain) (by rw [hbtb]; exact hupdate)]
      rfl
    | ok b =>
      obtain ⟨t, ht, htbtb⟩ := exists_trainAll (htrains.2 htrain) hlast (fun h => absurd rfl h)
        (by rw [hbtb]; exact hupdate)
      rw [ht, ok_bind]
      exact congrArg _ htbtb
  · rw [if_neg htrain, trainAll_of_not (fun h => htrain (htrains.1 h)), ok_bind]
    exact congrArg _ hbtb

/-- An update of a branch with a wrong prediction goes through if its target can be put into the target
buffer and the lengths that are set fit. -/
lemma update_wrong {T : ℕ → ℕ} (hwrong : taken ≠ ptaken) (h : s.btb.Inv C.btb)
    (hlast : iID (C.M_SIZ - 1) < 2 ^ C.logpred) :
    (∃ t, update C { s with T } inst oracleID true odd taken ptaken S iID = .ok t) ↔
      BPBTB.Updatable C.btb inst oracleID ∧ s.LengthsFit C inst iID := by
  have hbtb : (adjustTheta C { s with T } taken ptaken S).btb = s.btb := adjustTheta_btb
  have hfit : (adjustTheta C { s with T } taken ptaken S).LengthsFit C inst iID ↔
      s.LengthsFit C inst iID := lengthsFit_adjustTheta
  rw [← BPBTB.updateOnly_iff h oracleID odd]
  cases hupdate : s.btb.updateOnly C.btb inst oracleID odd with
  | error f =>
    refine iff_of_false ?_ fun h => nomatch h.1.choose_spec
    rintro ⟨t, ht⟩
    rw [update, if_pos rfl, trainAll_error (.inl hwrong) (by rw [hbtb]; exact hupdate)] at ht
    cases ht
  | ok b =>
    rw [and_iff_right ⟨b, rfl⟩]
    by_cases hlengths : s.LengthsFit C inst iID
    · obtain ⟨t, ht, -⟩ := exists_trainAll (s := adjustTheta C { s with T } taken ptaken S)
        (S := S) (.inl hwrong) hlast (fun _ => hfit.2 hlengths) (by rw [hbtb]; exact hupdate)
      refine iff_of_true ⟨t.shiftHistories inst taken, ?_⟩ hlengths
      rw [update, if_pos rfl, ht]
      rfl
    · refine iff_of_false ?_ hlengths
      rintro ⟨t, ht⟩
      obtain ⟨hM, hsat⟩ := not_or.1 hlengths
      have herror : update C { s with T } inst oracleID true odd taken ptaken S iID = .error .bound :=
        update_error hM hwrong hupdate (not_not.1 hsat)
      rw [herror] at ht
      cases ht

/-- What follows an update depends on the target buffer. -/
lemma bind_btb {α : Type} {x : Except BPredFault BPOgehl} {f : BPBTB → Except BPredFault α} :
    (x >>= fun t => f t.btb) = x.map (·.btb) >>= f := by
  cases x <;> rfl

/-- A taken branch that is predicted as taken. -/
lemma taken_iff {T : ℕ → ℕ} (h : s.btb.Inv C.btb) (htaken : inst.calcNextInstID ≠ oracleID)
    (hlast : iID (C.M_SIZ - 1) < 2 ^ C.logpred) :
    (s.btb.predict C.btb inst oracleID false odd).map Prod.fst =
      (update C { s with T } inst oracleID true odd true true S iID >>= fun t =>
        (t.btb.predict C.btb inst oracleID true odd).map Prod.fst) ↔
      if (s.adjustTheta C true true S).Trains true true S then s.btb.HitsTarget C.btb inst oracleID
      else s.btb.Agrees C.btb inst oracleID odd := by
  rw [bind_btb (f := fun btb => (btb.predict C.btb inst oracleID true odd).map Prod.fst),
    update_right hlast]
  split
  · rw [← BPBTB.hitsTarget_iff h htaken odd, SamePrediction]
    cases s.btb.updateOnly C.btb inst oracleID odd <;> exact Iff.rfl
  · exact BPBTB.agrees_iff h

/-- A branch that is not taken and predicted so is updated. -/
lemma exists_update_notTaken {T : ℕ → ℕ} (hntaken : inst.calcNextInstID = oracleID)
    (hlast : iID (C.M_SIZ - 1) < 2 ^ C.logpred) (odd : Bool) :
    ∃ t, update C { s with T } inst oracleID true odd false false S iID = .ok t := by
  have hbtb : s.btb.updateOnly C.btb inst oracleID odd = .ok s.btb := by
    unfold BPBTB.updateOnly
    split
    · rfl
    · exact if_pos hntaken
  have hupdate : (update C { s with T } inst oracleID true odd false false S iID).map (·.btb) =
      .ok s.btb := by
    rw [update_right hlast, hbtb, ite_self]
  obtain ⟨t, ht, -⟩ := map_eq_ok.1 hupdate
  exact ⟨t, ht⟩

lemma agrees_iff (h : s.btb.Inv C.btb) : SamePrediction (s.predict C inst oracleID false odd)
    (s.predict C inst oracleID true odd) ↔ s.Agrees C inst oracleID odd := by
  unfold Agrees
  by_cases hinst : inst.isBranchTaken = true
  · rw [if_pos hinst, ← BPBTB.agrees_iff h]
    unfold SamePrediction predict
    rw [if_pos hinst, if_pos hinst]
    refine Eq.congr ?_ ?_
    · exact Directed.map_fst_bind (f := fun btb => ({ s with btb } : BPOgehl))
    · exact Directed.map_fst_bind (f := fun btb => ({ s with btb } : BPOgehl))
  rw [if_neg hinst]
  cases hlookup : s.lookup C inst C.M_SIZ with
  | error f =>
    refine iff_of_true ?_ fun _ _ _ h => nomatch h
    unfold SamePrediction predict
    rw [if_neg hinst, if_neg hinst]
    dsimp only
    rw [hlookup]
    rfl
  | ok r =>
    obtain ⟨iID, S, T⟩ := r
    have hlast : iID (C.M_SIZ - 1) < 2 ^ C.logpred :=
      lookup_lt hlookup _ (Nat.sub_lt (Nat.zero_lt_of_lt C.six_le_mtables) Nat.one_pos)
    have hbody : ∀ P : (ℕ → ℕ) → ℤ → Prop, (∀ iID' S' T', (Except.ok (iID, S, T) :
        Except BPredFault ((ℕ → ℕ) × ℤ × (ℕ → ℕ))) = .ok (iID', S', T') → P iID' S') ↔ P iID S := by
      intro P
      exact ⟨fun h => h _ _ _ rfl, fun h _ _ _ heq => by cases heq; exact h⟩
    rw [hbody fun iID S => _]
    unfold SamePrediction
    rw [predict_eq hinst hlookup, predict_eq hinst hlookup]
    have hfalse : update C { s with T } inst oracleID false odd (inst.calcNextInstID ≠ oracleID)
        (decide (0 ≤ S)) S iID = .ok { s with T } := if_neg Bool.false_ne_true
    rw [hfalse, ok_bind]
    by_cases hright : decide (inst.calcNextInstID ≠ oracleID) = decide (0 ≤ S)
    · simp only [if_neg (not_not.2 hright), if_pos hright]
      by_cases hS : 0 ≤ S
      · have htaken : inst.calcNextInstID ≠ oracleID := by simpa [hS] using hright
        simp only [decide_eq_true htaken, decide_eq_true hS, if_pos hS, forall_prop_of_true hS]
        exact taken_iff h htaken hlast
      · have hntaken : inst.calcNextInstID = oracleID := by simpa [hS] using hright
        have hfalse : decide (inst.calcNextInstID ≠ oracleID) = false := by simpa using hntaken
        obtain ⟨t, ht⟩ := exists_update_notTaken hntaken hlast odd
        simp only [hfalse, decide_eq_false hS, if_neg hS]
        rw [ht]
        exact iff_of_true rfl fun hS' => absurd hS' hS
    · simp only [if_pos hright, if_neg hright]
      rw [← update_wrong hright h hlast]
      constructor
      · intro heq
        obtain ⟨t, ht, -⟩ := bind_eq_ok.1 heq.symm
        exact ⟨t, ht⟩
      · rintro ⟨t, ht⟩
        rw [ht]
        rfl

lemma update_inv (h : s.btb.Inv C.btb) :
    Ensures (fun t => t.btb.Inv C.btb) (s.update C inst oracleID doUpdate odd taken ptaken S iID) := by
  have hadjust : (s.adjustTheta C taken ptaken S).btb.Inv C.btb := by
    rw [adjustTheta_btb]
    exact h
  have htrain : Ensures (fun t => t.btb.Inv C.btb)
      ((s.adjustTheta C taken ptaken S).trainAll C inst oracleID odd taken ptaken S iID) := by
    unfold trainAll
    split
    · exact hadjust.updateOnly.bind fun btb hbtb =>
        updateTag_spec.2.mono fun t ht => by rw [ht]; exact hbtb
    · exact ensures_ok.2 hadjust
  unfold update
  split
  · exact htrain.bind fun t ht => ensures_pure.2 ht
  · exact ensures_ok.2 h

/-- A prediction keeps the invariant of the target buffer. -/
lemma predict_inv (h : s.btb.Inv C.btb) :
    Ensures (fun r => r.2.btb.Inv C.btb) (s.predict C inst oracleID doUpdate odd) := by
  unfold predict
  split
  · exact h.predict.bind fun _ ht => ensures_pure.2 ht
  · refine Ensures.skip fun r => ?_
    have hT : (BPOgehl.btb { s with T := r.2.2 }).Inv C.btb := h
    refine (update_inv hT).bind fun t ht => ?_
    dsimp only
    split
    · exact ensures_pure.2 ht
    · split
      · exact ht.predict.bind fun _ ht' => ensures_pure.2 ht'
      · exact ensures_pure.2 ht

/-- Without an update only the scratch array and the order in the target buffer change. -/
lemma predict_false (h : s.btb.Inv C.btb) :
    Ensures (fun r => ∃ btb T, BPBTB.SameTargets C.btb s.btb btb ∧ r.2 = { s with btb, T })
      (s.predict C inst oracleID false odd) := by
  unfold predict
  split
  · exact h.predict_false.bind fun r hr => ensures_pure.2 ⟨r.2, s.T, hr, rfl⟩
  · refine Ensures.skip fun r => ?_
    have hsame : Ensures (fun t => t = { s with T := r.2.2 }) (update C { s with T := r.2.2 } inst
        oracleID false odd (inst.calcNextInstID ≠ oracleID) (decide (0 ≤ r.2.1)) r.2.1 r.1) := by
      rw [update, if_neg Bool.false_ne_true]
      exact ensures_ok.2 rfl
    refine hsame.bind fun t ht => ?_
    dsimp only
    rw [ht]
    split
    · exact ensures_pure.2 ⟨s.btb, r.2.2, .refl, rfl⟩
    · split
      · exact h.predict_false.bind fun r' hr' => ensures_pure.2 ⟨r'.2, r.2.2, hr', rfl⟩
      · exact ensures_pure.2 ⟨s.btb, r.2.2, .refl, rfl⟩

end BPOgehl

/-! ## All predictors -/

namespace Predictor

/-- Nothing that a prediction depends on is different: the tables, the histories and the stack are the
same, and so are the targets in the target buffer; the scratch array of O-GEHL may differ. -/
inductive SameContents : Predictor → Predictor → Prop
  | ras {RasSize s} : SameContents (.ras RasSize s) (.ras RasSize s)
  | btb {C s s'} : BPBTB.SameTargets C s s' → SameContents (.btb C s) (.btb C s')
  | static {C s s'} : BPBTB.SameTargets C s s' → SameContents (.static C s) (.static C s')
  | twoBit {C s btb} : BPBTB.SameTargets C s.btb btb →
      SameContents (.twoBit C s) (.twoBit C { s with btb })
  | twoLevel {C s btb} : BPBTB.SameTargets C.btb s.btb btb →
      SameContents (.twoLevel C s) (.twoLevel C { s with btb })
  | hybrid {C s btb} : BPBTB.SameTargets C.btb s.btb btb →
      SameContents (.hybrid C s) (.hybrid C { s with btb })
  | twoBcgSkew {C s btb} : BPBTB.SameTargets C.btb s.btb btb →
      SameContents (.twoBcgSkew C s) (.twoBcgSkew C { s with btb })
  | yags {C s btb} : BPBTB.SameTargets C.btb s.btb btb →
      SameContents (.yags C s) (.yags C { s with btb })
  | ogehl {C s btb T} : BPBTB.SameTargets C.btb s.btb btb →
      SameContents (.ogehl C s) (.ogehl C { s with btb, T })

/-- What holds of a predictor between two calls. -/
def Inv : Predictor → Prop
  | .ras _ _ => True
  | .btb C s => s.Inv C
  | .static C s => s.Inv C
  | .twoBit C s => s.btb.Inv C
  | .twoLevel C s => s.btb.Inv C.btb
  | .hybrid C s => s.btb.Inv C.btb
  | .twoBcgSkew C s => s.btb.Inv C.btb
  | .yags C s => s.btb.Inv C.btb
  | .ogehl C s => s.btb.Inv C.btb

/-- What the agreement of the predictions with and without an update depends on. -/
def Agrees (inst : Instruction) (oracleID : InstID) (odd : Bool) : Predictor → Prop
  | .ras n s => s.Agrees n inst oracleID
  | .btb C s => s.Agrees C inst oracleID odd
  | .static C s => s.ConcludesAlike C inst oracleID odd inst.guessAsTaken
  | .twoBit C s => s.Agrees C (BP2bit.direction C) inst oracleID odd
  | .twoLevel C s => s.Agrees C.btb (BP2level.direction C) inst oracleID odd
  | .hybrid C s => s.Agrees C.btb (BPHybrid.direction C) inst oracleID odd
  | .twoBcgSkew C s => s.Agrees C.btb (BP2BcgSkew.direction C) inst oracleID odd
  | .yags C s => s.directed.Agrees C.btb (BPyags.direction C) inst oracleID odd
  | .ogehl C s => s.Agrees C inst oracleID odd

variable {p p' p₀ : Predictor}

lemma Fresh.inv (h : p.Fresh) : p.Inv := by
  cases p with
  | ras => trivial
  | btb | static =>
    rw [Fresh] at h
    rw [Inv, h]
    exact BPBTB.inv_new
  | twoBit | twoLevel | hybrid | twoBcgSkew | yags | ogehl =>
    rw [Fresh] at h
    rw [Inv, h]
    exact BPBTB.inv_new

lemma Inv.predict {doUpdate : Bool} (h : p.Inv) :
    Ensures (fun r => r.2.Inv) (p.predict inst oracleID doUpdate odd) := by
  cases p with
  | ras => exact ensures_ok.2 trivial
  | btb C s => exact ensures_map (BPBTB.Inv.predict h)
  | static C s => exact ensures_map (BPBTB.Inv.conclude h)
  | twoBit C s => exact ensures_map (Directed.predict_inv h)
  | twoLevel C s => exact ensures_map (Directed.predict_inv h)
  | hybrid C s => exact ensures_map (Directed.predict_inv h)
  | twoBcgSkew C s => exact ensures_map (Directed.predict_inv h)
  | yags C s =>
    refine ensures_map ?_
    rw [BPyags.predict_eq]
    exact ensures_map (P := fun y : BPyags => y.btb.Inv C.btb) (Directed.predict_inv (s := s.directed) h)
  | ogehl C s => exact ensures_map (BPOgehl.predict_inv h)

lemma inv_of_run {es : List Branch} (h₀ : p₀.Fresh) (h : (calls p₀).Run es p) : p.Inv := by
  refine h.invariant h₀.inv fun t e t' ht _ hstep => ?_
  obtain ⟨r, hr, rfl⟩ := map_eq_ok.1 hstep
  exact ht.predict r hr

/-- A prediction without an update changes nothing that a prediction depends on. -/
lemma Inv.sameContents (h : p.Inv) :
    Ensures (fun r => SameContents p r.2) (p.predict inst oracleID false odd) := by
  have hdirected : ∀ {σ : Type} {C : BTBConfig} {direction : Direction σ} {s : Directed σ},
      Directed.ReadsFirst direction → s.btb.Inv C →
      Ensures (fun r => ∃ btb, BPBTB.SameTargets C s.btb btb ∧ r.2 = { s with btb })
        (s.predict C direction inst oracleID false odd) :=
    fun hdirection h => (Directed.predict_false hdirection h).mono fun r hr =>
      ⟨r.2.btb, hr.2, by rw [← hr.1]⟩
  cases p with
  | ras n s => exact ensures_ok.2 (by rw [Prod.map_snd, BPRas.predict_false]; exact .ras)
  | btb C s => exact ensures_map ((BPBTB.Inv.predict_false h).mono fun _ hr => .btb hr)
  | static C s => exact ensures_map ((BPBTB.Inv.conclude_false h).mono fun _ hr => .static hr)
  | twoBit C s =>
    refine ensures_map ((hdirected (BP2bit.readsFirst C) h).mono ?_)
    rintro r ⟨btb, hbtb, hr⟩
    rw [hr]
    exact .twoBit hbtb
  | twoLevel C s =>
    refine ensures_map ((hdirected (BP2level.readsFirst C) h).mono ?_)
    rintro r ⟨btb, hbtb, hr⟩
    rw [hr]
    exact .twoLevel hbtb
  | hybrid C s =>
    refine ensures_map ((hdirected (BPHybrid.readsFirst C) h).mono ?_)
    rintro r ⟨btb, hbtb, hr⟩
    rw [hr]
    exact .hybrid hbtb
  | twoBcgSkew C s =>
    refine ensures_map ((hdirected (BP2BcgSkew.readsFirst C) h).mono ?_)
    rintro r ⟨btb, hbtb, hr⟩
    rw [hr]
    exact .twoBcgSkew hbtb
  | yags C s =>
    refine ensures_map ?_
    rw [BPyags.predict_eq]
    refine ensures_map (P := fun y => SameContents (.yags C s) (.yags C y))
      ((hdirected (s := s.directed) (BPyags.readsFirst C) h).mono ?_)
    rintro r ⟨btb, hbtb, hr⟩
    rw [hr]
    exact .yags hbtb
  | ogehl C s =>
    refine ensures_map ((BPOgehl.predict_false h).mono ?_)
    rintro r ⟨btb, T, hbtb, hr⟩
    rw [hr]
    exact .ogehl hbtb

lemma Inv.agrees_iff (h : p.Inv) : SamePrediction (p.predict inst oracleID false odd)
    (p.predict inst oracleID true odd) ↔ p.Agrees inst oracleID odd := by
  cases p with
  | ras n s =>
    refine Iff.trans ?_ BPRas.agrees_iff
    exact ⟨fun h => Except.ok.inj h, fun h => congrArg Except.ok h⟩
  | btb C s => exact samePrediction_map.trans (BPBTB.agrees_iff h)
  | static C s => exact samePrediction_map.trans (BPBTB.concludesAlike_iff h)
  | twoBit C s => exact samePrediction_map.trans (Directed.agrees_iff (BP2bit.readsFirst C) h)
  | twoLevel C s => exact samePrediction_map.trans (Directed.agrees_iff (BP2level.readsFirst C) h)
  | hybrid C s => exact samePrediction_map.trans (Directed.agrees_iff (BPHybrid.readsFirst C) h)
  | twoBcgSkew C s => exact samePrediction_map.trans (Directed.agrees_iff (BP2BcgSkew.readsFirst C) h)
  | yags C s =>
    refine samePrediction_map.trans ?_
    rw [BPyags.predict_eq, BPyags.predict_eq]
    exact samePrediction_map.trans (Directed.agrees_iff (BPyags.readsFirst C) h)
  | ogehl C s => exact samePrediction_map.trans (BPOgehl.agrees_iff h)

/-- In every state that calls reach, a prediction without an update changes nothing, and it agrees with the
one with an update exactly under the condition for the predictor. -/
theorem predict_agrees_iff {es : List Branch} (h₀ : p₀.Fresh) (h : (calls p₀).Run es p)
    (inst : Instruction) (oracleID : InstID) (odd : Bool) :
    (∀ pred p', p.predict inst oracleID false odd = .ok (pred, p') → SameContents p p') ∧
    (SamePrediction (p.predict inst oracleID false odd) (p.predict inst oracleID true odd) ↔
      p.Agrees inst oracleID odd) := by
  have hinv := inv_of_run h₀ h
  exact ⟨fun pred p' hp' => hinv.sameContents _ hp', hinv.agrees_iff⟩

/-- A target buffer of two lines, each of which is a set. -/
def twoTargets : BTBConfig := ⟨0, some (.cacheDM, CacheGeneric.twoSets)⟩

/-- A jump from one instruction to another one. -/
def jump (currentID oracleID : InstID) : Branch :=
  ⟨⟨currentID, .other, true, 1⟩, oracleID, true, false⟩

/-- The target buffer has the target of a jump after it has been predicted once. -/
theorem predict_agrees_iff_jump : ∃ p, (calls (.btb twoTargets (.new twoTargets))).Run [jump 20 50] p ∧
    SamePrediction (p.predict (jump 20 50).inst 50 false false)
      (p.predict (jump 20 50).inst 50 true false) := by
  obtain ⟨p, hrun, hagrees⟩ : ∃ p, (calls (.btb twoTargets (.new twoTargets))).Run [jump 20 50] p ∧
      p.Agrees (jump 20 50).inst 50 false := by
    refine ⟨_, Machine.run_of_exec rfl, .inr (.inr (.inl fun impl g hC => ?_))⟩
    cases hC
    exact ⟨0, rfl⟩
  have hfresh : Fresh (.btb twoTargets (.new twoTargets)) := rfl
  exact ⟨p, hrun, (predict_agrees_iff hfresh hrun _ _ _).2.2 hagrees⟩

/-- After a call, the return is predicted with an update only: without one the position after the entry is
read.  A jump to the same place as one that has the same line is predicted with an update only, too. -/
theorem not_predict_agrees :
    (∃ p, (calls (.ras 4 ⟨fun _ => 0, 0⟩)).Run [⟨⟨100, .BJCall, true, 1⟩, 200, true, false⟩] p ∧
      (p.predict ⟨210, .BJRet, true, 1⟩ 101 false false).map Prod.fst = .ok .MissPrediction ∧
      (p.predict ⟨210, .BJRet, true, 1⟩ 101 true false).map Prod.fst = .ok .CorrectPrediction) ∧
    ∃ p, (calls (.btb twoTargets (.new twoTargets))).Run [jump 20 50] p ∧
      (p.predict (jump 22 50).inst 50 false false).map Prod.fst = .ok .NoBTBPrediction ∧
      (p.predict (jump 22 50).inst 50 true false).map Prod.fst = .ok .CorrectPrediction :=
  ⟨⟨_, Machine.run_of_exec rfl, rfl, rfl⟩, ⟨_, Machine.run_of_exec rfl, rfl, rfl⟩⟩

end Predictor

end Sesc.BPred
