import Mathlib.Data.Int.Order.Basic
import Mathlib.Order.Basic
import Sesc.BPred.BranchKey
import Sesc.BPred.Ogehl

/-!
# The index function of O-GEHL

With at least as many index bits as the first amount that a part of the samples is moved by, the index
function stays inside of its arrays, and its result is an index.
-/

namespace Sesc.BPred

open Lib

namespace Geoidx

lemma toNat_lowest : ∀ k < 31, (lowest k).toNat = 2 ^ k - 1 := by decide +kernel

lemma toNat_and_lowest {k : ℕ} (hk : k ≤ 30) (x : BitVec 64) : (x &&& lowest k).toNat < 2 ^ k := by
  have hpos : 0 < 2 ^ k := Nat.two_pow_pos k
  have hle : x.toNat &&& (lowest k).toNat ≤ (lowest k).toNat := Nat.and_le_right
  rw [BitVec.toNat_and]
  rw [toNat_lowest k (by omega)] at hle ⊢
  omega

lemma shiftRight_ok {x : BitVec 64} {k : ℤ} (hk : 0 ≤ k) : ∃ y, shiftRight x k = .ok y :=
  ⟨_, check_bind hk⟩

/-- A shift of a number that is not negative. -/
lemma shiftRight_low {x : BitVec 64} {n k : ℕ} (hn : n ≤ 30) (hx : x.toNat < 2 ^ n) :
    ∃ y, shiftRight x k = .ok y ∧ y.toNat < 2 ^ n := by
  have hpow : 2 ^ n ≤ 2 ^ 30 := Nat.pow_le_pow_right Nat.two_pos hn
  have hmsb : x.msb = false := by
    rw [BitVec.msb_eq_false_iff_two_mul_lt]
    omega
  refine ⟨x.sshiftRight k, check_bind (Int.natCast_nonneg k), ?_⟩
  rw [BitVec.sshiftRight_eq_of_msb_false hmsb, BitVec.toNat_ushiftRight]
  exact (Nat.shiftRight_le _ _).trans_lt hx

lemma shiftLeft_high {x : BitVec 64} {n k : ℕ} (hk : k ≤ n) (hx : x.toNat < 2 ^ k) :
    ∃ y, shiftLeft x (n - k) = .ok y ∧ y.toNat < 2 ^ n := by
  have hsub : ((n : ℤ) - k).toNat = n - k := by omega
  refine ⟨x <<< ((n : ℤ) - k).toNat, check_bind (by omega), ?_⟩
  rw [hsub, BitVec.toNat_shiftLeft, Nat.shiftLeft_eq]
  have hmul : x.toNat * 2 ^ (n - k) < 2 ^ k * 2 ^ (n - k) :=
    Nat.mul_lt_mul_of_pos_right hx (Nat.two_pow_pos _)
  rw [← Nat.pow_add, Nat.add_sub_cancel' hk] at hmul
  exact (Nat.mod_le _ _).trans_lt hmul

/-- Folding gives an index if the first part can be moved. -/
lemma fold_spec {logpred : ℕ} (hpos : 0 < logpred) (hle : logpred ≤ 30) (steps : ℕ) :
    ∀ inter FUNCT Res, FUNCT ≤ logpred → Res.toNat < 2 ^ logpred →
      ∃ r, fold logpred steps inter FUNCT Res = .ok r ∧ r.toNat < 2 ^ logpred := by
  induction steps with
  | zero => exact fun _ _ Res _ hRes => ⟨Res, rfl, hRes⟩
  | succ steps ih =>
    intro inter FUNCT Res hFUNCT hRes
    obtain ⟨low, hlow, hlow'⟩ := shiftRight_low (k := FUNCT) hle
      (toNat_and_lowest hle (inter.sshiftRight logpred))
    obtain ⟨high, hhigh, hhigh'⟩ := shiftLeft_high hFUNCT
      (toNat_and_lowest (hFUNCT.trans hle) (inter.sshiftRight logpred))
    rw [fold, hlow, ok_bind, hhigh, ok_bind, check_bind hpos.ne']
    refine ih _ _ _ (Nat.mod_lt _ hpos).le ?_
    rw [BitVec.toNat_xor, BitVec.toNat_xor]
    exact Nat.xor_lt_two_pow hRes (Nat.xor_lt_two_pow hlow' hhigh')

/-! ## Sampling -/

variable {sizeT n last : ℕ} {T : ℕ → ℕ} {histo : ℕ → BitVec 64} {m : ℕ}

/-- Positions in the order of the history, the address and the path; the last one is their end. -/
structure Positions (T : ℕ → ℕ) (n last : ℕ) : Prop where
  mono : ∀ i < n, T i ≤ T (i + 1)
  last : T n = last

/-- The number of the word of a position. -/
lemma and_mask : ∀ a < 256, a &&& 0xffc0 = a / 64 * 64 := by decide +kernel

variable (histo) in
/-- The loop over the history stays inside of the arrays. -/
lemma sampleHistory_spec (hT : Positions T n last) (hlast : last < 256) (hn : n < sizeT) (hm : m ≤ last)
    (hm' : m ≤ 200) (steps : ℕ) : ∀ i PT Hh inter, sizeT ≤ i + steps → 0 < i → i ≤ n →
      PT ≤ T (i - 1) / 64 + 1 →
      ∃ j inter', sampleHistory sizeT T histo m steps i PT Hh inter = .ok (j, inter') ∧ j ≤ n ∧
        m ≤ T j := by
  induction steps with
  | zero =>
    intro i PT Hh inter hsteps _ hi
    omega
  | succ steps ih =>
    intro i PT Hh inter hsteps hpos hi hPT
    rw [sampleHistory, check_bind (show i < sizeT by omega)]
    split
    · rename_i hlt
      have hne : i ≠ n := by
        rintro rfl
        rw [hT.last] at hlt
        omega
      have hprev := hT.mono (i - 1) (by omega)
      rw [Nat.sub_add_cancel hpos] at hprev
      have hword : T i &&& 0xffc0 = T (i - 1) &&& 0xffc0 ↔ T i / 64 = T (i - 1) / 64 := by
        rw [and_mask _ (by omega), and_mask _ (by omega)]
        omega
      have hnext : ∃ Hh' PT' shift, nextWord T histo i PT Hh = .ok (Hh', PT', shift) ∧
          PT' ≤ T i / 64 + 1 ∧ 0 ≤ shift := by
        rw [nextWord]
        split
        · rename_i hsame
          have heq := hword.1 hsame
          exact ⟨_, _, _, rfl, by omega, by omega⟩
        · rename_i hsame
          have hneq : T i / 64 ≠ T (i - 1) / 64 := fun heq => hsame (hword.2 heq)
          have hPT' : PT ≤ glength >>> 6 := by
            show PT ≤ 3
            omega
          exact ⟨_, _, _, check_bind hPT', by omega, Int.natCast_nonneg _⟩
      obtain ⟨Hh', PT', shift, hnext, hPT', hshift⟩ := hnext
      obtain ⟨bits, hbits⟩ := shiftRight_ok (x := Hh') hshift
      rw [hnext, ok_bind]
      show ∃ j inter', (shiftRight Hh' shift >>= _) = _ ∧ _
      rw [hbits, ok_bind]
      exact ih (i + 1) _ _ _ (by omega) (Nat.succ_pos i) (by omega) hPT'
    · rename_i hge
      exact ⟨i, inter, rfl, hi, by omega⟩

/-- The loops over the address and the path stay inside of the positions. -/
lemma sampleBits_spec (Hh : BitVec 64) {start stop : ℕ} (hT : Positions T n last) (hn : n < sizeT)
    (hstop : stop ≤ last) (steps : ℕ) : ∀ i inter, sizeT ≤ i + steps → i ≤ n → start ≤ T i →
      ∃ j inter', sampleBits sizeT T Hh start stop steps i inter = .ok (j, inter') ∧ j ≤ n ∧
        stop ≤ T j := by
  induction steps with
  | zero =>
    intro i inter hsteps hi
    omega
  | succ steps ih =>
    intro i inter hsteps hi hstart
    rw [sampleBits, check_bind (show i < sizeT by omega)]
    split
    · rename_i hlt
      have hne : i ≠ n := by
        rintro rfl
        rw [hT.last] at hlt
        omega
      obtain ⟨bits, hbits⟩ := shiftRight_ok (x := Hh) (k := (T i : ℤ) - start) (by omega)
      have hmono := hT.mono i (by omega)
      show ∃ j inter', (shiftRight Hh ((T i : ℤ) - start) >>= _) = _ ∧ _
      rw [hbits, ok_bind]
      exact ih (i + 1) _ (by omega) (by omega) (hstart.trans hmono)
    · rename_i hge
      exact ⟨i, inter, rfl, hi, by omega⟩

lemma positions_spread (T : ℕ → ℕ) (total : ℕ) (hn : 1 < n) : Positions (spread T n total) n total := by
  constructor
  · intro i hi
    unfold spread
    rw [if_pos hi]
    rcases Nat.lt_or_ge (i + 1) n with hlt | hge
    · rw [if_pos hlt]
      exact Nat.div_le_div_right (Nat.mul_le_mul_right _ (Nat.le_succ i))
    · have hlast : i + 1 = n := Nat.le_antisymm hi hge
      have hi : i = n - 1 := by omega
      rw [if_neg (by omega), if_pos hlast, hi, Nat.mul_div_cancel_left _ (by omega)]
      exact Nat.sub_le _ _
  · unfold spread
    rw [if_neg (Nat.lt_irrefl _), if_pos rfl]

lemma sample_spec (Add : BitVec 64) (histo : ℕ → BitVec 64) (phisto : BitVec 64) {plength : ℕ} (hT : Positions T n (addwidth + m + plength))
    (hn : n < sizeT) (hpos : 0 < n) (hm : m ≤ 200) (hplength : plength ≤ 16) :
    ∃ inter, sample sizeT T Add histo phisto m plength = .ok inter := by
  have haddwidth : addwidth = 8 := rfl
  obtain ⟨Hh, hHh⟩ := shiftRight_ok (x := histo 0) (Int.natCast_nonneg (T 0))
  obtain ⟨i, inter, hfirst, hi, hmi⟩ := sampleHistory_spec histo hT (by omega) hn (by omega)
    hm (sizeT - 1) 1 1 Hh (Hh &&& 1) (by omega) Nat.one_pos hpos (Nat.succ_le_succ (Nat.zero_le _))
  obtain ⟨j, inter', hsecond, hj, hmj⟩ := sampleBits_spec Add hT hn
    (show m + addwidth ≤ _ by omega) (sizeT - i + 1) i inter (by omega) hi hmi
  obtain ⟨k, inter'', hthird, -, -⟩ := sampleBits_spec phisto hT hn
    (show m + plength + addwidth ≤ _ by omega) (sizeT - j + 1) j inter' (by omega) hj hmj
  refine ⟨inter'', ?_⟩
  rw [sample, check_bind (by omega), hHh, ok_bind, hfirst, ok_bind]
  show (sampleBits sizeT T Add m (m + addwidth) (sizeT - i + 1) i inter >>= _) = _
  rw [hsecond, ok_bind]
  show (sampleBits sizeT T phisto _ _ (sizeT - j + 1) j inter' >>= _) = _
  rw [hthird]
  rfl

end Geoidx

/-- With enough index bits the index function succeeds with an index. -/
lemma geoidx_spec {sizeT logpred m funct : ℕ} (T : ℕ → ℕ) (Add : BitVec 64) (histo : ℕ → BitVec 64)
    (phisto : BitVec 64) (hpos : 0 < logpred) (hle : logpred ≤ 30) (hfunct : funct ≤ logpred)
    (hsizeT : nentry * logpred < sizeT) (hm : m ≤ 200) :
    ∃ r T', geoidx sizeT T logpred Add histo phisto m funct = .ok (r, T') ∧ r < 2 ^ logpred := by
  have hfinish : ∀ inter (T : ℕ → ℕ), ∃ r T', (do
      let Res ← Geoidx.fold logpred (nentry - 1) inter funct (inter &&& Geoidx.lowest logpred)
      return (Res.toNat, T) : Except BPredFault (ℕ × (ℕ → ℕ))) = .ok (r, T') ∧ r < 2 ^ logpred := by
    intro inter T
    obtain ⟨Res, hRes, hlt⟩ := Geoidx.fold_spec hpos hle (nentry - 1) inter funct _ hfunct
      (Geoidx.toNat_and_lowest hle inter)
    refine ⟨Res.toNat, T, ?_, hlt⟩
    rw [hRes]
    rfl
  have hplength : (if m < 16 then m else 16) ≤ 16 := by split <;> omega
  unfold geoidx
  generalize (if m < 16 then m else 16) = plength at hplength
  dsimp only
  split
  · exact hfinish _ _
  · have hthree : nentry * logpred = 3 * logpred := rfl
    have hpositions : Geoidx.positions sizeT T logpred m plength =
        .ok (Geoidx.spread T (nentry * logpred) (addwidth + m + plength)) := by
      rw [Geoidx.positions, check_bind hsizeT, check_bind (by omega)]
      rfl
    obtain ⟨inter, hinter⟩ := Geoidx.sample_spec Add histo phisto
      (Geoidx.positions_spread T (addwidth + m + plength) (show 1 < nentry * logpred by omega))
      hsizeT (by omega) hm hplength
    rw [hpositions, ok_bind, hinter, ok_bind]
    exact hfinish _ _

end Sesc.BPred
