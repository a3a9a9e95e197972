import Sesc.BPred.OgehlIndex
import Sesc.Lib.Machine

/-!
# Safety of the O-GEHL predictor

A prediction stays inside of the arrays and has no bad shift or division, unless there are fewer than 4
index bits, or the lengths of the histories are adapted in a predictor of 6 tables.
-/

namespace Sesc.BPred

open Lib

/-! ## The target buffer -/

namespace BPBTB

variable {C : BTBConfig} {b : BPBTB} {inst : Instruction} {oracleID : InstID} {doUpdate odd : Bool}

lemma failsOnly_fillLine {impl : Sesc.CacheCore.Implementation} {g : Sesc.CacheCore.Geometry}
    {key : Sesc.CacheCore.Addr} : FailsOnly (· = .assertion) (b.fillLine impl g key odd) := by
  unfold fillLine
  split
  · exact failsOnly_error.2 rfl
  · exact FailsOnly.check_bind rfl failsOnly_ok

lemma failsOnly_updateOnly : FailsOnly (· = .assertion) (b.updateOnly C inst oracleID odd) := by
  unfold updateOnly
  split
  · exact failsOnly_ok
  · split
    · exact failsOnly_ok
    · exact failsOnly_fillLine.bind fun _ _ => failsOnly_ok

lemma failsOnly_predict : FailsOnly (· = .assertion) (b.predict C inst oracleID doUpdate odd) := by
  unfold predict
  dsimp only
  split
  · exact FailsOnly.check_bind rfl failsOnly_ok
  · split
    · have hread : ∀ impl g key, FailsOnly (· = .assertion) (b.readLine impl g key) :=
        fun _ _ _ => FailsOnly.check_bind rfl failsOnly_ok
      exact (hread _ _ _).bind fun _ _ => failsOnly_ok
    · exact failsOnly_fillLine.bind fun _ _ => failsOnly_ok

end BPBTB

/-! ## The faults of the index function -/

namespace Geoidx

variable {sizeT : ℕ} {T : ℕ → ℕ} {histo : ℕ → BitVec 64}

lemma failsOnly_shiftRight {x : BitVec 64} {k : ℤ} : FailsOnly (· ≠ .assertion) (shiftRight x k) :=
  FailsOnly.check_bind (by decide) failsOnly_ok

lemma failsOnly_shiftLeft {x : BitVec 64} {k : ℤ} : FailsOnly (· ≠ .assertion) (shiftLeft x k) :=
  FailsOnly.check_bind (by decide) failsOnly_ok

lemma failsOnly_nextWord {i PT : ℕ} {Hh : BitVec 64} :
    FailsOnly (· ≠ .assertion) (nextWord T histo i PT Hh) := by
  unfold nextWord
  split
  · exact failsOnly_ok
  · exact FailsOnly.check_bind (by decide) failsOnly_ok

lemma failsOnly_sampleHistory {m : ℕ} (steps : ℕ) : ∀ i PT Hh inter,
    FailsOnly (· ≠ .assertion) (sampleHistory sizeT T histo m steps i PT Hh inter) := by
  induction steps with
  | zero => exact fun _ _ _ _ => failsOnly_error.2 (by decide)
  | succ steps ih =>
    intro i PT Hh inter
    rw [sampleHistory]
    refine FailsOnly.check_bind (by decide) ?_
    split
    · exact failsOnly_nextWord.bind fun _ _ => failsOnly_shiftRight.bind fun _ _ => ih _ _ _ _
    · exact failsOnly_ok

lemma failsOnly_sampleBits {Hh : BitVec 64} {start stop : ℕ} (steps : ℕ) : ∀ i inter,
    FailsOnly (· ≠ .assertion) (sampleBits sizeT T Hh start stop steps i inter) := by
  induction steps with
  | zero => exact fun _ _ => failsOnly_error.2 (by decide)
  | succ steps ih =>
    intro i inter
    rw [sampleBits]
    refine FailsOnly.check_bind (by decide) ?_
    split
    · exact failsOnly_shiftRight.bind fun _ _ => ih _ _
    · exact failsOnly_ok

lemma failsOnly_fold {logpred : ℕ} (steps : ℕ) : ∀ inter FUNCT Res,
    FailsOnly (· ≠ .assertion) (fold logpred steps inter FUNCT Res) := by
  induction steps with
  | zero => exact fun _ _ _ => failsOnly_ok
  | succ steps ih =>
    intro inter FUNCT Res
    rw [fold]
    exact failsOnly_shiftRight.bind fun _ _ => failsOnly_shiftLeft.bind fun _ _ =>
      FailsOnly.check_bind (by decide) (ih _ _ _)

/-- Folding needs as many index bits as the first part is moved by. -/
lemma le_of_fold_eq_ok {logpred steps FUNCT : ℕ} {inter Res r : BitVec 64}
    (h : fold logpred (steps + 1) inter FUNCT Res = .ok r) : FUNCT ≤ logpred := by
  rw [fold] at h
  obtain ⟨low, -, h⟩ := bind_eq_ok.1 h
  obtain ⟨high, hhigh, -⟩ := bind_eq_ok.1 h
  have hshift := (check_bind_eq_ok.1 hhigh).1
  omega

end Geoidx

variable {sizeT logpred m funct : ℕ} {T : ℕ → ℕ} {Add : BitVec 64} {histo : ℕ → BitVec 64}
  {phisto : BitVec 64}

lemma failsOnly_geoidx :
    FailsOnly (· ≠ .assertion) (geoidx sizeT T logpred Add histo phisto m funct) := by
  unfold geoidx
  generalize (if m < 16 then m else 16) = plength
  dsimp only
  split
  · exact (Geoidx.failsOnly_fold _ _ _ _).bind fun _ _ => failsOnly_ok
  · have hpositions : FailsOnly (· ≠ .assertion) (Geoidx.positions sizeT T logpred m plength) :=
      FailsOnly.check_bind (by decide) (FailsOnly.check_bind (by decide) failsOnly_ok)
    refine hpositions.bind fun _ _ => FailsOnly.bind ?_ fun _ _ =>
      (Geoidx.failsOnly_fold _ _ _ _).bind fun _ _ => failsOnly_ok
    refine FailsOnly.check_bind (by decide) (Geoidx.failsOnly_shiftRight.bind fun _ _ => ?_)
    exact (Geoidx.failsOnly_sampleHistory _ _ _ _ _).bind fun _ _ =>
      (Geoidx.failsOnly_sampleBits _ _ _).bind fun _ _ =>
        (Geoidx.failsOnly_sampleBits _ _ _).bind fun _ _ => failsOnly_ok

lemma le_of_geoidx_eq_ok {r : ℕ × (ℕ → ℕ)}
    (h : geoidx sizeT T logpred Add histo phisto m funct = .ok r) : funct ≤ logpred := by
  unfold geoidx at h
  generalize (if m < 16 then m else 16) = plength at h
  dsimp only at h
  split at h
  · obtain ⟨Res, hfold, -⟩ := bind_eq_ok.1 h
    exact Geoidx.le_of_fold_eq_ok hfold
  · obtain ⟨T', -, h⟩ := bind_eq_ok.1 h
    obtain ⟨inter, -, h⟩ := bind_eq_ok.1 h
    obtain ⟨Res, hfold, -⟩ := bind_eq_ok.1 h
    exact Geoidx.le_of_fold_eq_ok hfold

/-! ## The lookup -/

namespace OgehlConfig

variable (C : OgehlConfig)

lemma logpred_eq : C.logpred = C.logTsize := log2i_two_pow _ (by have := C.logTsize_le; omega)

variable {C}

/-- With 4 index bits the first part of the samples can be moved in each table. -/
lemma funct_le_logpredOf (h : 4 ≤ C.logTsize) (i : ℕ) : (i &&& 3) + 1 ≤ C.logpredOf i := by
  have hand : i &&& 3 ≤ 3 := Nat.and_le_right
  rw [logpredOf, logpred_eq]
  split
  · rename_i hone
    have htwo : (i &&& 3) + 1 = 2 := by rw [hone]; rfl
    omega
  · omega

lemma logpredOf_le (i : ℕ) : C.logpredOf i ≤ C.logpred := by
  unfold logpredOf
  split <;> omega

end OgehlConfig

namespace BPOgehl

variable (C : OgehlConfig) (s : BPOgehl)

/-- The counters are in their ranges, and the lengths of the histories are at most `glength`. -/
structure Bounded : Prop where
  pred : ∀ i j, -C.PREDUP ≤ (s.pred i j).toInt ∧ (s.pred i j).toInt ≤ C.PREDUP - 1
  TC : -C.THETAUP ≤ s.TC ∧ s.TC < C.THETAUP
  usedHistLength : ∀ i, s.usedHistLength i ≤ glength

variable {C s} {inst : Instruction} {oracleID : InstID} {odd taken ptaken : Bool}

/-- Each table has an index for a branch. -/
lemma Bounded.geoidx_spec (hs : s.Bounded C) (h : 4 ≤ C.logTsize) (i : ℕ) (T : ℕ → ℕ)
    (Add phisto : BitVec 64) (histo : ℕ → BitVec 64) :
    ∃ r T', geoidx (nentry * C.logpred + 1) T (C.logpredOf i) Add histo phisto
      (s.usedHistLength i) ((i &&& 3) + 1) = .ok (r, T') ∧ r < 2 ^ C.logpredOf i := by
  have hfunct := OgehlConfig.funct_le_logpredOf h i
  have hle := C.logpredOf_le i
  have hmax : C.logpred ≤ 30 := C.logpred_eq.trans_le C.logTsize_le
  exact BPred.geoidx_spec T Add histo phisto (by omega) (by omega) hfunct
    (Nat.lt_succ_of_le (Nat.mul_le_mul_left _ hle)) (hs.usedHistLength i)

lemma Bounded.lookup_spec (hs : s.Bounded C) (h : 4 ≤ C.logTsize) (n : ℕ) :
    ∃ iID S T, s.lookup C inst n = .ok (iID, S, T) ∧ ∀ i < n, iID i < 2 ^ C.logpredOf i := by
  induction n with
  | zero => exact ⟨_, _, _, rfl, fun i hi => absurd hi (Nat.not_lt_zero i)⟩
  | succ n ih =>
    obtain ⟨iID, S, T, hlookup, hiID⟩ := ih
    obtain ⟨r, T', hindex, hr⟩ := hs.geoidx_spec h n T (inst.currentID.zeroExtend 64) s.phist s.ghist
    have hbound : r < 2 ^ C.logpred :=
      hr.trans_le (Nat.pow_le_pow_right Nat.two_pos (C.logpredOf_le n))
    refine ⟨Function.update iID n r, S + (s.pred n r).toInt, T', ?_, fun i hi => ?_⟩
    · rw [lookup, hlookup, ok_bind]
      show (geoidx _ T _ _ _ _ _ _ >>= _) = _
      rw [hindex, ok_bind]
      exact check_bind hbound
    · rcases Nat.lt_succ_iff_lt_or_eq.1 hi with hlt | rfl
      · rw [Function.update_of_ne hlt.ne]
        exact hiID i hlt
      · rw [Function.update_self]
        exact hr

lemma failsOnly_lookup (n : ℕ) : FailsOnly (· ≠ .assertion) (s.lookup C inst n) := by
  induction n with
  | zero => exact failsOnly_ok
  | succ n ih =>
    rw [lookup]
    exact ih.bind fun _ _ => failsOnly_geoidx.bind fun _ _ =>
      FailsOnly.check_bind (by decide) failsOnly_ok

/-- With fewer than 4 index bits there is no index into table 3. -/
lemma lookup_ne_ok (h : ¬4 ≤ C.logTsize) (n : ℕ) : ∀ r, s.lookup C inst (n + 4) ≠ .ok r := by
  induction n with
  | zero =>
    intro r hr
    rw [Nat.zero_add, lookup] at hr
    obtain ⟨r', -, hr⟩ := bind_eq_ok.1 hr
    obtain ⟨_, hindex, -⟩ := bind_eq_ok.1 hr
    have hle : 4 ≤ C.logpred := le_of_geoidx_eq_ok hindex
    rw [C.logpred_eq] at hle
    exact h hle
  | succ n ih =>
    intro r hr
    rw [Nat.succ_add, lookup] at hr
    obtain ⟨r', hlookup, -⟩ := bind_eq_ok.1 hr
    exact ih r' hlookup

/-! ## The counters stay in their ranges -/

lemma toInt_range : ∀ p : BitVec 8, -128 ≤ p.toInt ∧ p.toInt ≤ 127 := by decide +kernel

lemma toInt_succ : ∀ p : BitVec 8, p.toInt < 127 → (p + 1).toInt = p.toInt + 1 := by decide +kernel

lemma toInt_pred : ∀ p : BitVec 8, -128 < p.toInt → (p - 1).toInt = p.toInt - 1 := by decide +kernel

/-- A counter wraps around only if the range has all numbers of 8 bits. -/
lemma trainCounter_range {p : BitVec 8} (hp : -C.PREDUP ≤ p.toInt ∧ p.toInt ≤ C.PREDUP - 1) :
    -C.PREDUP ≤ (trainCounter C taken p).toInt ∧ (trainCounter C taken p).toInt ≤ C.PREDUP - 1 := by
  have hrange := toInt_range p
  unfold trainCounter
  split
  · split
    · rcases lt_or_ge p.toInt 127 with hlt | hge
      · rw [toInt_succ p hlt]
        omega
      · have hnew := toInt_range (p + 1)
        omega
    · exact hp
  · split
    · rcases lt_or_ge (-128) p.toInt with hlt | hge
      · rw [toInt_pred p hlt]
        omega
      · have hnew := toInt_range (p - 1)
        omega
    · exact hp

lemma Bounded.adjustTheta {S : ℤ} (hs : s.Bounded C) :
    (s.adjustTheta C taken ptaken S).Bounded C := by
  have hup : 0 < C.THETAUP := Int.pow_pos (by decide)
  have hTC := hs.TC
  unfold BPOgehl.adjustTheta
  split
  · split
    · split
      · exact ⟨hs.pred, by constructor <;> dsimp only <;> omega, hs.usedHistLength⟩
      · exact ⟨hs.pred, by constructor <;> dsimp only <;> omega, hs.usedHistLength⟩
    · exact ⟨hs.pred, by constructor <;> dsimp only <;> omega, hs.usedHistLength⟩
  · split
    · split
      · split
        · exact ⟨hs.pred, by constructor <;> dsimp only <;> omega, hs.usedHistLength⟩
        · exact ⟨hs.pred, by constructor <;> dsimp only <;> omega, hs.usedHistLength⟩
      · exact ⟨hs.pred, by constructor <;> dsimp only <;> omega, hs.usedHistLength⟩
    · exact hs

lemma Bounded.trainTables {iID : ℕ → ℕ} (hs : s.Bounded C) : (s.trainTables C iID taken).Bounded C := by
  refine ⟨fun i j => ?_, hs.TC, hs.usedHistLength⟩
  unfold BPOgehl.trainTables
  dsimp only
  split
  · exact trainCounter_range (hs.pred i j)
  · exact hs.pred i j

lemma Bounded.setLengths {AC : ℤ} {i6 i4 i2 : ℕ} (hs : s.Bounded C) :
    Ensures (Bounded C) (s.setLengths C AC i6 i4 i2) := by
  unfold BPOgehl.setLengths
  rw [ensures_check_bind]
  refine fun _ => ensures_pure.2 ⟨hs.pred, hs.TC, fun i => ?_⟩
  have hlength : ∀ u : ℕ → ℕ, (∀ i, u i ≤ glength) → ∀ a k i,
      Function.update u a (C.histLength k) i ≤ glength := by
    intro u hu a k i
    by_cases hi : i = a
    · rw [hi, Function.update_self]
      exact C.histLength_le k
    · rw [Function.update_of_ne hi]
      exact hu i
  exact hlength _ (hlength _ (hlength _ hs.usedHistLength 6 i6) 4 i4) 2 i2 i

lemma Bounded.adaptLengths {miniTag : ℤ} (hs : s.Bounded C) :
    Ensures (Bounded C) (s.adaptLengths C inst taken ptaken miniTag) := by
  unfold BPOgehl.adaptLengths
  split
  · exact ensures_ok.2 hs
  · split
    · split
      · exact hs.setLengths
      · exact ensures_ok.2 ⟨hs.pred, hs.TC, hs.usedHistLength⟩
    · split
      · exact hs.setLengths
      · exact ensures_ok.2 ⟨hs.pred, hs.TC, hs.usedHistLength⟩

lemma Bounded.updateTag {last : ℕ} (hs : s.Bounded C) :
    Ensures (Bounded C) (s.updateTag C inst last taken ptaken) := by
  unfold BPOgehl.updateTag
  split
  · rw [ensures_check_bind]
    exact fun _ => hs.adaptLengths.bind fun t ht =>
      ensures_pure.2 ⟨ht.pred, ht.TC, ht.usedHistLength⟩
  · exact ensures_ok.2 hs

lemma Bounded.trainAll {S : ℤ} {iID : ℕ → ℕ} (hs : s.Bounded C) :
    Ensures (Bounded C) (s.trainAll C inst oracleID odd taken ptaken S iID) := by
  unfold BPOgehl.trainAll
  split
  · have htables : (s.trainTables C iID taken).Bounded C := hs.trainTables
    exact Ensures.skip fun btb =>
      Bounded.updateTag ⟨htables.pred, htables.TC, htables.usedHistLength⟩
  · exact ensures_ok.2 hs

lemma Bounded.update {doUpdate : Bool} {S : ℤ} {iID : ℕ → ℕ} (hs : s.Bounded C) :
    Ensures (Bounded C) (s.update C inst oracleID doUpdate odd taken ptaken S iID) := by
  unfold BPOgehl.update
  split
  · exact hs.adjustTheta.trainAll.bind fun t ht =>
      ensures_pure.2 ⟨ht.pred, ht.TC, ht.usedHistLength⟩
  · exact ensures_ok.2 hs

/-- A prediction keeps the counters in their ranges. -/
lemma Bounded.predict {doUpdate : Bool} (hs : s.Bounded C) :
    Ensures (fun r => Bounded C r.2) (s.predict C inst oracleID doUpdate odd) := by
  unfold BPOgehl.predict
  split
  · exact Ensures.skip fun _ => ensures_pure.2 ⟨hs.pred, hs.TC, hs.usedHistLength⟩
  · refine Ensures.skip fun r => ?_
    have hT : Bounded C { s with T := r.2.2 } := ⟨hs.pred, hs.TC, hs.usedHistLength⟩
    refine hT.update.bind fun t ht => ?_
    split
    · exact ensures_pure.2 ht
    · split
      · exact Ensures.skip fun _ => ensures_pure.2 ⟨ht.pred, ht.TC, ht.usedHistLength⟩
      · exact ensures_pure.2 ht

/-! ## Where the adaptation of the lengths goes wrong -/

variable (C s)

/-- The counter that adapts the lengths comes to an end of its range. -/
def Saturates (inst : Instruction) (miniTag : ℤ) : Prop :=
  if miniTag ≠ (inst.currentID.toNat % 2 : ℕ) then s.AC - 4 < -256 else 256 - 1 < s.AC + 1

/-- An entry of the last table has a tag, and with it the counter comes to an end. -/
def SaturatesAt (inst : Instruction) (last : ℕ) : Prop :=
  last % 2 = 0 ∧ s.Saturates inst (s.MINITAG (last / 2))

/-- The lengths of the histories are set: the tables are trained after a wrong prediction, the last one
at an entry with which the counter comes to an end. -/
def Adapts (e : Branch) : Prop :=
  e.doUpdate = true ∧ ∃ iID S T btb, s.lookup C e.inst C.M_SIZ = .ok (iID, S, T) ∧
    e.taken ≠ decide (0 ≤ S) ∧ s.btb.updateOnly C.btb e.inst e.oracleID e.odd = .ok btb ∧
    s.SaturatesAt e.inst (iID (C.M_SIZ - 1))

/-- The branches that a predictor handles: all of them with 4 index bits and 7 tables; with 6 tables,
those for which the lengths are not set. -/
def Meets (e : Branch) : Prop :=
  e.inst.isBranchTaken = true ∨ 4 ≤ C.logTsize ∧ (7 ≤ C.mtables ∨ ¬s.Adapts C e)

/-- A prediction accesses its arrays inside of their bounds, and has no shift by a negative amount and no
division by zero. -/
def Safe (e : Branch) : Prop :=
  FailsOnly (· = .assertion) (s.predict C e.inst e.oracleID e.doUpdate e.odd)

variable {C s} {S : ℤ}

@[simp] lemma adjustTheta_btb : (s.adjustTheta C taken ptaken S).btb = s.btb := by
  unfold adjustTheta
  repeat' split
  all_goals rfl

@[simp] lemma adjustTheta_AC : (s.adjustTheta C taken ptaken S).AC = s.AC := by
  unfold adjustTheta
  repeat' split
  all_goals rfl

@[simp] lemma adjustTheta_MINITAG : (s.adjustTheta C taken ptaken S).MINITAG = s.MINITAG := by
  unfold adjustTheta
  repeat' split
  all_goals rfl

lemma setLengths_ok (hM : 7 ≤ C.mtables) (AC : ℤ) {i6 i4 i2 : ℕ} (h6 : i6 < C.M_SIZ + 3)
    (h4 : i4 < C.M_SIZ + 3) (h2 : i2 < C.M_SIZ + 3) : ∃ s', s.setLengths C AC i6 i4 i2 = .ok s' :=
  ⟨_, check_bind ⟨hM, h6, h4, h2⟩⟩

lemma setLengths_error (hM : ¬7 ≤ C.mtables) {AC : ℤ} {i6 i4 i2 : ℕ} :
    s.setLengths C AC i6 i4 i2 = .error .bound :=
  check_bind_of_not fun h => hM h.1

lemma failsOnly_adaptLengths {miniTag : ℤ}
    (h : 7 ≤ C.mtables ∨ ¬(taken ≠ ptaken ∧ s.Saturates inst miniTag)) :
    FailsOnly (· = .assertion) (s.adaptLengths C inst taken ptaken miniTag) := by
  have hset : ∀ i6 i4 i2 : ℕ, taken ≠ ptaken → s.Saturates inst miniTag → i6 < C.M_SIZ + 3 →
      i4 < C.M_SIZ + 3 → i2 < C.M_SIZ + 3 → ∀ AC,
      FailsOnly (· = .assertion) (s.setLengths C AC i6 i4 i2) := by
    intro i6 i4 i2 hwrong hsat h6 h4 h2 AC
    obtain ⟨s', hs'⟩ := setLengths_ok (s := s)
      (h.resolve_right fun hnot => hnot ⟨hwrong, hsat⟩) AC h6 h4 h2
    rw [hs']
    exact failsOnly_ok
  have hM : C.M_SIZ = C.mtables := rfl
  have hsix := C.six_le_mtables
  unfold adaptLengths
  split
  · exact failsOnly_ok
  · rename_i hwrong
    split
    · rename_i htag
      split
      · rename_i hend
        exact hset _ _ _ hwrong (by rw [Saturates, if_pos htag]; exact hend) (by omega) (by omega)
          (by omega) _
      · exact failsOnly_ok
    · rename_i htag
      split
      · rename_i hend
        exact hset _ _ _ hwrong (by rw [Saturates, if_neg htag]; exact hend) (by omega) (by omega)
          (by omega) _
      · exact failsOnly_ok

/-- With 6 tables there is no length of table 6 to set. -/
lemma adaptLengths_error {miniTag : ℤ} (hM : ¬7 ≤ C.mtables) (hwrong : taken ≠ ptaken)
    (hsat : s.Saturates inst miniTag) :
    s.adaptLengths C inst taken ptaken miniTag = .error .bound := by
  rw [Saturates] at hsat
  rw [adaptLengths, if_neg hwrong]
  split
  · rename_i htag
    rw [if_pos htag] at hsat
    rw [if_pos hsat, setLengths_error hM]
  · rename_i htag
    rw [if_neg htag] at hsat
    rw [if_pos hsat, setLengths_error hM]

lemma failsOnly_updateTag {last : ℕ} (hlast : last < 2 ^ C.logpred)
    (h : 7 ≤ C.mtables ∨ ¬(taken ≠ ptaken ∧ s.SaturatesAt inst last)) :
    FailsOnly (· = .assertion) (s.updateTag C inst last taken ptaken) := by
  have hpos := C.one_le_logTsize
  have hpow : 2 ^ C.logpred = 2 ^ (C.logpred - 1) * 2 := by
    rw [← pow_succ, Nat.sub_add_cancel (C.logpred_eq ▸ hpos)]
  unfold updateTag
  split
  · rename_i heven
    rw [check_bind (show last / 2 < 2 ^ (C.logpred - 1) by omega)]
    refine FailsOnly.bind (failsOnly_adaptLengths ?_) fun _ _ => failsOnly_ok
    exact h.imp_right fun hnot hsat => hnot ⟨hsat.1, heven, hsat.2⟩
  · exact failsOnly_ok

lemma updateTag_error {last : ℕ} (hM : ¬7 ≤ C.mtables) (hwrong : taken ≠ ptaken)
    (hsat : s.SaturatesAt inst last) :
    s.updateTag C inst last taken ptaken = .error .bound := by
  rw [updateTag, if_pos hsat.1]
  by_cases hlast : last / 2 < 2 ^ (C.logpred - 1)
  · rw [check_bind hlast, adaptLengths_error hM hwrong hsat.2]
    rfl
  · exact check_bind_of_not hlast

lemma failsOnly_update {doUpdate : Bool} {iID : ℕ → ℕ} (hlast : iID (C.M_SIZ - 1) < 2 ^ C.logpred)
    (h : 7 ≤ C.mtables ∨ ∀ btb, doUpdate = true → taken ≠ ptaken →
      s.btb.updateOnly C.btb inst oracleID odd = .ok btb → ¬s.SaturatesAt inst (iID (C.M_SIZ - 1))) :
    FailsOnly (· = .assertion) (s.update C inst oracleID doUpdate odd taken ptaken S iID) := by
  unfold update
  split
  · rename_i hdo
    refine FailsOnly.bind ?_ fun _ _ => failsOnly_ok
    unfold trainAll
    split
    · refine BPBTB.failsOnly_updateOnly.bind fun btb hbtb => failsOnly_updateTag hlast ?_
      refine h.imp_right fun hnot hsat => hnot btb hdo hsat.1 ?_ ?_
      · exact (congrArg (fun b => BPBTB.updateOnly C.btb b inst oracleID odd) adjustTheta_btb).symm.trans
          hbtb
      · have hsat := hsat.2
        unfold SaturatesAt Saturates at hsat ⊢
        simpa [trainTables] using hsat
    · exact failsOnly_ok
  · exact failsOnly_ok

lemma update_error {iID : ℕ → ℕ} {btb : BPBTB} (hM : ¬7 ≤ C.mtables) (hwrong : taken ≠ ptaken)
    (hbtb : s.btb.updateOnly C.btb inst oracleID odd = .ok btb)
    (hsat : s.SaturatesAt inst (iID (C.M_SIZ - 1))) :
    s.update C inst oracleID true odd taken ptaken S iID = .error .bound := by
  rw [update, if_pos rfl, trainAll, if_pos (.inl hwrong)]
  show ((((s.adjustTheta C taken ptaken S).btb.updateOnly C.btb inst oracleID odd) >>= _) >>= _) = _
  rw [adjustTheta_btb, hbtb, ok_bind, updateTag_error hM hwrong]
  · rfl
  · unfold SaturatesAt Saturates at hsat ⊢
    simpa [trainTables] using hsat

/-! ## All predictions -/

variable {e : Branch}

lemma Bounded.safe (hs : s.Bounded C) (h : s.Meets C e) : s.Safe C e := by
  unfold Safe BPOgehl.predict
  split
  · exact BPBTB.failsOnly_predict.bind fun _ _ => failsOnly_ok
  · rename_i hinst
    obtain ⟨hsize, hadapts⟩ := h.resolve_left hinst
    obtain ⟨iID, S, T, hlookup, hiID⟩ := hs.lookup_spec hsize C.M_SIZ
    have hM : C.M_SIZ = C.mtables := rfl
    have hsix := C.six_le_mtables
    have hlast : iID (C.M_SIZ - 1) < 2 ^ C.logpred :=
      (hiID _ (by omega)).trans_le (Nat.pow_le_pow_right Nat.two_pos (C.logpredOf_le _))
    dsimp only
    rw [hlookup, ok_bind]
    refine FailsOnly.bind (failsOnly_update hlast ?_) fun t _ => ?_
    · exact hadapts.imp_right fun hnot btb hdo hwrong hbtb hsat =>
        hnot ⟨hdo, iID, S, T, btb, hlookup, hwrong, hbtb, hsat⟩
    · dsimp only
      split
      · exact failsOnly_ok
      · split
        · exact BPBTB.failsOnly_predict.bind fun _ _ => failsOnly_ok
        · exact failsOnly_ok

/-- The other predictions go wrong. -/
lemma meets_of_safe (h : s.Safe C e) : s.Meets C e := by
  by_cases hinst : e.inst.isBranchTaken = true
  · exact .inl hinst
  right
  unfold Safe predict at h
  rw [if_neg hinst] at h
  dsimp only at h
  have hsize : 4 ≤ C.logTsize := by
    by_contra hsize
    have hsix : 6 ≤ C.M_SIZ := C.six_le_mtables
    have hM : C.M_SIZ = C.M_SIZ - 4 + 4 := by omega
    have hnone : ∀ r, s.lookup C e.inst C.M_SIZ ≠ .ok r := by
      rw [hM]
      exact lookup_ne_ok hsize _
    obtain ⟨f, hf, hkind⟩ := (failsOnly_lookup C.M_SIZ).exists_error hnone
    rw [hf, error_bind, failsOnly_error] at h
    exact hkind h
  refine ⟨hsize, or_iff_not_imp_left.2 fun hM => ?_⟩
  rintro ⟨hdo, iID, S, T, btb, hlookup, hwrong, hbtb, hsat⟩
  rw [hlookup, ok_bind, hdo] at h
  have herror : update C { s with T := T } e.inst e.oracleID true e.odd e.taken (decide (0 ≤ S)) S iID =
      .error .bound := update_error hM hwrong hbtb hsat
  have hbound : FailsOnly (· = .assertion) (.error .bound : Except BPredFault (PredType × BPOgehl)) := by
    change FailsOnly _ (update C { s with T := T } e.inst e.oracleID true e.odd e.taken
      (decide (0 ≤ S)) S iID >>= _) at h
    rw [herror] at h
    exact h
  exact absurd (failsOnly_error.1 hbound) (by decide)

variable (C) in
/-- The predictor, over any sequence of branches. -/
def predictions (btb : BPBTB) (T : ℕ → ℕ) : Machine BPOgehl Branch BPredFault where
  init := new C btb T
  step s e := (s.predict C e.inst e.oracleID e.doUpdate e.odd).map Prod.snd

lemma bounded_new (btb : BPBTB) (T : ℕ → ℕ) : (new C btb T).Bounded C := by
  have hup : 0 < C.THETAUP := Int.pow_pos (by decide)
  have hpred : 0 < C.PREDUP := Int.pow_pos (by decide)
  refine ⟨fun i j => ?_, ?_, C.histLength_le⟩
  · show -C.PREDUP ≤ 0 ∧ 0 ≤ C.PREDUP - 1
    omega
  · show -C.THETAUP ≤ 0 ∧ 0 < C.THETAUP
    omega

lemma bounded_of_run {btb : BPBTB} {T : ℕ → ℕ} {es : List Branch}
    (h : (predictions C btb T).Run es s) : s.Bounded C := by
  refine h.invariant (bounded_new btb T) fun t e t' ht _ hstep => ?_
  obtain ⟨r, hr, rfl⟩ := map_eq_ok.1 hstep
  exact ht.predict r hr

/-- After any sequence of branches the counters are in their ranges, the predictions that are safe are
those of the branches that the predictor handles, and with 4 index bits the index function of each table
gives an index. -/
theorem safe_iff_meets {btb : BPBTB} {T : ℕ → ℕ} {es : List Branch}
    (h : (predictions C btb T).Run es s) :
    (∀ i j, -C.PREDUP ≤ (s.pred i j).toInt ∧ (s.pred i j).toInt ≤ C.PREDUP - 1) ∧
    (-C.THETAUP ≤ s.TC ∧ s.TC < C.THETAUP) ∧ (∀ e, s.Safe C e ↔ s.Meets C e) ∧
    (4 ≤ C.logTsize → ∀ i < C.M_SIZ, ∀ T Add phisto, ∃ r T', geoidx (nentry * C.logpred + 1) T
      (C.logpredOf i) Add s.ghist phisto (s.usedHistLength i) ((i &&& 3) + 1) = .ok (r, T') ∧
      r < 2 ^ C.logpredOf i) := by
  have hs := bounded_of_run h
  exact ⟨hs.pred, hs.TC, fun e => ⟨meets_of_safe, hs.safe⟩,
    fun hsize i _ T Add phisto => hs.geoidx_spec hsize i T Add phisto s.ghist⟩

/-- The lengths of the histories of 7 tables. -/
def sevenLengths : ℕ → ℕ
  | 0 => 0
  | 1 => 3
  | 2 => 5
  | 3 => 9
  | 4 => 14
  | 5 => 24
  | 6 => 41
  | 7 => 70
  | 8 => 118
  | _ => 200

lemma sevenLengths_le (i : ℕ) : sevenLengths i ≤ 200 := by
  unfold sevenLengths
  split <;> omega

/-- Seven tables of counters of 4 bits, without a target buffer. -/
def sevenTables (logTsize : ℕ) (h : 1 ≤ logTsize) (h' : logTsize ≤ 30) : OgehlConfig where
  btb := ⟨0, none⟩
  logTsize := logTsize
  mtables := 7
  tbits := 4
  tcbits := 6
  histLength := sevenLengths
  one_le_logTsize := h
  logTsize_le := h'
  six_le_mtables := by decide
  mtables_le := by decide
  one_le_tbits := by decide
  tbits_le := by decide
  one_le_tcbits := by decide
  tcbits_le := by decide
  histLength_le := sevenLengths_le

def noTargets : BPBTB := ⟨⟨[], [], 0⟩, fun _ => 0⟩

/-- With tables of 16 entries, a branch that is taken is predicted, and the next prediction is safe. -/
theorem safe_iff_meets_sixteen : ∃ s, (predictions (sevenTables 4 (by decide) (by decide)) noTargets
      fun _ => 0).Run [⟨⟨64, .other, false, 1⟩, 80, true, false⟩] s ∧
    s.Safe (sevenTables 4 (by decide) (by decide)) ⟨⟨80, .other, false, 1⟩, 81, true, false⟩ := by
  obtain ⟨s, hrun⟩ : ∃ s, (predictions (sevenTables 4 (by decide) (by decide)) noTargets
      fun _ => 0).Run [⟨⟨64, .other, false, 1⟩, 80, true, false⟩] s :=
    ⟨_, Machine.run_of_exec rfl⟩
  exact ⟨s, hrun, ((safe_iff_meets hrun).2.2.1 _).2 (.inr ⟨Nat.le_refl 4, .inl (Nat.le_refl 7)⟩)⟩

/-- With tables of 4 or 8 entries, the first branch is not predicted, as a part of the samples is moved by
a negative amount; with tables of 2 entries, the sampled positions for table 1 have no end in `T`. -/
theorem not_safe_eight :
    predict (sevenTables 1 (by decide) (by decide)) (new (sevenTables 1 (by decide) (by decide))
      noTargets fun _ => 0) ⟨64, .other, false, 1⟩ 80 true false = .error .bound ∧
    predict (sevenTables 2 (by decide) (by decide)) (new (sevenTables 2 (by decide) (by decide))
      noTargets fun _ => 0) ⟨64, .other, false, 1⟩ 80 true false = .error .shift ∧
    predict (sevenTables 3 (by decide) (by decide)) (new (sevenTables 3 (by decide) (by decide))
      noTargets fun _ => 0) ⟨64, .other, false, 1⟩ 80 true false = .error .shift :=
  ⟨rfl, rfl, rfl⟩

end BPOgehl

end Sesc.BPred
