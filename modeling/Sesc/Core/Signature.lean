import Mathlib.Algebra.BigOperators.Fin
import Mathlib.Algebra.Field.Rat
import Mathlib.Data.Finset.Prod
import Mathlib.Data.List.FinRange
import Mathlib.Data.List.Induction
import Mathlib.Logic.Function.Basic
import Sesc.Lib.Check
import Sesc.Lib.Machine

/-!
# Signatures of instruction windows

A signature has 512 bits in 16 words, one bit for each hash of a program counter.  The table keeps the
signatures of the windows that the pipeline selector has been trained on.

A difference is a `float`.  It is the quotient of two numbers up to 512, and different ones of these
are further apart than the precision of a `float`, so that the model has the rational number.
-/

namespace Sesc.Core

open Lib

/-- The way in which the use of the table fails: an access outside of the array of entries. -/
inductive SignatureFault
  | bound
  | assertion
deriving DecidableEq, Repr

/-- The words of a signature. -/
abbrev SignatureVector := Fin 16 → BitVec 32

namespace SignatureVector

def new : SignatureVector := fun _ => 0

def hashPC (pc : BitVec 32) : BitVec 32 := (((pc >>> 13) ^^^ pc) >>> 4) &&& 0x1FF

/-- The loop that finds the word of a bit: the number of the word, and the bits up to its end. -/
def findWord (index : ℕ) : ℕ → ℕ → ℕ → ℕ × ℕ
  | 0, arrayIndex, rangeCount => (arrayIndex, rangeCount)
  | steps + 1, arrayIndex, rangeCount =>
    if index < rangeCount then (arrayIndex, rangeCount)
    else findWord index steps (arrayIndex + 1) (rangeCount + 32)

variable (v : SignatureVector)

def setBit (index : ℕ) : Except SignatureFault SignatureVector := do
  check .assertion (index ≤ 511)
  let (arrayIndex, rangeCount) := findWord index 16 0 32
  let subIndex := if rangeCount = 32 then index else index % (rangeCount - 32)
  if h : arrayIndex < 16 then
    return Function.update v ⟨arrayIndex, h⟩ (v ⟨arrayIndex, h⟩ ||| 1#32 <<< subIndex)
  else .error .bound

def setPCBit (pc : BitVec 32) : Except SignatureFault SignatureVector := v.setBit (hashPC pc).toNat

/-- The loop makes `sizeof(uint32_t)` steps. -/
def getNumberOfBits (input : BitVec 32) : ℕ :=
  ((List.range 4).foldl (fun (r : ℕ × BitVec 32) _ => (r.1 + (r.2 &&& 1).toNat, r.2 >>> 1))
    (0, input)).1

def getSignatureDifference (compareSig : SignatureVector) : ℚ :=
  let bitCountCommon := ((List.finRange 16).map fun i => getNumberOfBits (v i &&& compareSig i)).sum
  let bitCountDiff := ((List.finRange 16).map fun i => getNumberOfBits (v i ^^^ compareSig i)).sum
  if bitCountCommon = 0 then 1 else (bitCountDiff : ℚ) / bitCountCommon

def matchBits (compareSig : SignatureVector) : ℤ :=
  if (List.finRange 16).any fun i => v i ^^^ compareSig i ≠ 0 then -1 else 1

end SignatureVector

open SignatureVector

structure SignatureEntry where
  sigVec : SignatureVector
  mode : ℤ
  taken : Bool

structure SignatureTable where
  sigEntries : Fin 128 → SignatureEntry
  nextUpdatePos : ℕ

namespace SignatureTable

def new : SignatureTable := ⟨fun _ => ⟨.new, -1, false⟩, 0⟩

variable (t : SignatureTable)

/-- The position of the first entry in use for which the result of `matchBits` is not zero, or -1. -/
def isSignatureInTable (vec : SignatureVector) : ℤ :=
  ((List.finRange 128).find? fun i =>
    (t.sigEntries i).taken && decide (matchBits (t.sigEntries i).sigVec vec ≠ 0)).elim (-1)
      fun i => i.val

def getSignatureMode (index : Fin 128) : ℤ :=
  if (t.sigEntries index).taken then (t.sigEntries index).mode else -1

def addSignatureVector (vec : SignatureVector) (mode : ℤ) : Except SignatureFault SignatureTable :=
  if h : t.nextUpdatePos < 128 then
    .ok ⟨Function.update t.sigEntries ⟨t.nextUpdatePos, h⟩ ⟨vec, mode, true⟩,
      (t.nextUpdatePos + 1) &&& 0xFF⟩
  else .error .bound

/-- A table that signatures are added to, with their modes. -/
def additions : Machine SignatureTable (SignatureVector × ℤ) SignatureFault where
  init := .new
  step t e := t.addSignatureVector e.1 e.2

/-- An entry in use has the signature. -/
def HasAt (vec : SignatureVector) (i : Fin 128) : Prop :=
  (t.sigEntries i).taken = true ∧ (t.sigEntries i).sigVec = vec

/-- The search for a signature gives a position exactly when some entry has it, and then such a one. -/
def Finds (vec : SignatureVector) : Prop :=
  (0 ≤ t.isSignatureInTable vec ↔ ∃ i, t.HasAt vec i) ∧
    ∀ i : Fin 128, t.isSignatureInTable vec = i.val → t.HasAt vec i

end SignatureTable

namespace SignatureVector

variable (v w : SignatureVector)

/-- The differing bits among the first `n` of each word. -/
def differing (n : ℕ) : Finset (Fin 16 × ℕ) :=
  (Finset.univ ×ˢ Finset.range n).filter fun p => (v p.1).getLsbD p.2 ≠ (w p.1).getLsbD p.2

/-- The common set bits among the first `n` of each word. -/
def common (n : ℕ) : Finset (Fin 16 × ℕ) :=
  (Finset.univ ×ˢ Finset.range n).filter fun p => (v p.1).getLsbD p.2 ∧ (w p.1).getLsbD p.2

/-- The number of differing bits for each common one among the first `n` bits of each word. -/
def ratio (n : ℕ) : ℚ :=
  if (common v w n).card = 0 then 1 else ((differing v w n).card : ℚ) / (common v w n).card

/-- The first four bits of the words have differing and common bits in the proportion of all bits. -/
def Proportional : Prop :=
  (common v w 32).card = 0 ∨
  (common v w 4).card = 0 ∧ (differing v w 32).card = (common v w 32).card ∨
  (common v w 4).card ≠ 0 ∧
    (differing v w 4).card * (common v w 32).card = (differing v w 32).card * (common v w 4).card

variable {v w}

/-! ## Setting bits -/

lemma findWord_eq {index steps a : ℕ} (hlow : 32 * a ≤ index) (hhigh : index < 32 * (a + steps)) :
    findWord index steps a (32 * (a + 1)) = (index / 32, 32 * (index / 32 + 1)) := by
  induction steps generalizing a with
  | zero =>
    rw [Nat.add_zero] at hhigh
    exact absurd hlow (Nat.not_le_of_lt hhigh)
  | succ steps ih =>
    rw [findWord]
    split
    · rename_i hword
      have ha : a = index / 32 := by omega
      rw [ha]
    · rename_i hword
      exact ih (Nat.le_of_not_lt hword) (by omega)

/-- `setBit` sets the given bit and no other. -/
lemma setBit_spec {index : ℕ} (hindex : index ≤ 511) : ∃ v', v.setBit index = .ok v' ∧
    ∀ (i : Fin 16) j, j < 32 →
      (v' i).getLsbD j = ((v i).getLsbD j || decide (32 * i.val + j = index)) := by
  have hword : findWord index 16 0 32 = (index / 32, 32 * (index / 32 + 1)) :=
    findWord_eq (Nat.zero_le _) (by omega)
  have harray : index / 32 < 16 := by omega
  have hsub : (if 32 * (index / 32 + 1) = 32 then index else index % (32 * (index / 32 + 1) - 32)) =
      index % 32 := by
    split
    · omega
    · have hstart : 32 * (index / 32 + 1) - 32 = 32 * (index / 32) := by omega
      rcases Nat.eq_zero_or_pos (index / 32) with hzero | hpos
      · omega
      · -- the start of the word fits into the position of the bit once
        rw [hstart, Nat.mod_eq_sub_mod (by omega), Nat.mod_eq_of_lt (by omega)]
        omega
  refine ⟨Function.update v ⟨index / 32, harray⟩ (v ⟨index / 32, harray⟩ ||| 1#32 <<< (index % 32)),
    ?_, fun i j hj => ?_⟩
  · rw [setBit, check_bind hindex, hword]
    simp only [hsub, harray, dite_true]
    rfl
  · by_cases hi : i = ⟨index / 32, harray⟩
    · have hbit : (1#32 <<< (index % 32)).getLsbD j = decide (j = index % 32) := by
        rw [BitVec.getLsbD_shiftLeft, BitVec.getLsbD_one]
        simp only [hj, decide_true, Bool.true_and, Nat.zero_lt_succ]
        rw [Bool.eq_iff_iff]
        simp
        omega
      subst hi
      rw [Function.update_self, BitVec.getLsbD_or, hbit]
      congr 1
      rw [decide_eq_decide]
      show j = index % 32 ↔ 32 * (index / 32) + j = index
      omega
    · have hne : 32 * i.val + j ≠ index := by
        intro h
        exact hi (Fin.ext (by show i.val = index / 32; omega))
      rw [Function.update_of_ne hi, decide_eq_false hne, Bool.or_false]

lemma hashPC_le (pc : BitVec 32) : (hashPC pc).toNat ≤ 511 := by
  rw [hashPC, BitVec.toNat_and]
  exact Nat.and_le_right

/-! ## Counting bits -/

lemma getNumberOfBits_loop (u : BitVec 32) (n : ℕ) :
    (List.range n).foldl (fun (r : ℕ × BitVec 32) _ => (r.1 + (r.2 &&& 1).toNat, r.2 >>> 1)) (0, u) =
      (((Finset.range n).filter fun j => u.getLsbD j).card, u >>> n) := by
  induction n with
  | zero => simp
  | succ n ih =>
    have hbit : ((u >>> n) &&& 1).toNat = (u.getLsbD n).toNat := by
      rw [BitVec.toNat_and, BitVec.toNat_ushiftRight, BitVec.getLsbD, Nat.toNat_testBit,
        Nat.shiftRight_eq_div_pow]
      exact Nat.and_one_is_mod _
    rw [List.range_succ, List.foldl_append, ih, List.foldl_cons, List.foldl_nil, hbit,
      Finset.range_add_one, Finset.filter_insert, ← BitVec.shiftRight_add]
    cases hn : u.getLsbD n
    · simp
    · simp [Finset.card_insert_of_notMem]

lemma getNumberOfBits_eq (u : BitVec 32) :
    getNumberOfBits u = ((Finset.range 4).filter fun j => u.getLsbD j).card := by
  rw [getNumberOfBits, getNumberOfBits_loop]

lemma sum_getNumberOfBits (u : SignatureVector) :
    ((List.finRange 16).map fun i => getNumberOfBits (u i)).sum =
      ((Finset.univ ×ˢ Finset.range 4).filter fun p => (u p.1).getLsbD p.2).card := by
  rw [← Fin.sum_univ_def, Finset.card_filter, Finset.sum_product]
  refine Finset.sum_congr rfl fun i _ => ?_
  rw [getNumberOfBits_eq, Finset.card_filter]

lemma bitCountCommon_eq :
    ((List.finRange 16).map fun i => getNumberOfBits (v i &&& w i)).sum = (common v w 4).card := by
  rw [sum_getNumberOfBits fun i => v i &&& w i, common]
  congr 2
  funext p
  rw [BitVec.getLsbD_and, Bool.and_eq_true]

lemma bitCountDiff_eq :
    ((List.finRange 16).map fun i => getNumberOfBits (v i ^^^ w i)).sum =
      (differing v w 4).card := by
  rw [sum_getNumberOfBits fun i => v i ^^^ w i, differing]
  congr 2
  funext p
  rw [BitVec.getLsbD_xor, bne_iff_ne]

/-- The code counts the first four bits of each word. -/
lemma getSignatureDifference_eq : v.getSignatureDifference w = ratio v w 4 := by
  rw [getSignatureDifference, bitCountCommon_eq, bitCountDiff_eq, ratio]

lemma ratio_eq_iff : ratio v w 4 = ratio v w 32 ↔ Proportional v w := by
  have hsub : (common v w 4).card ≤ (common v w 32).card := by
    refine Finset.card_le_card fun p hp => ?_
    simp only [common, Finset.mem_filter, Finset.mem_product, Finset.mem_univ, Finset.mem_range,
      true_and] at hp ⊢
    exact ⟨by omega, hp.2⟩
  rw [ratio, ratio, Proportional]
  rcases Nat.eq_zero_or_pos (common v w 32).card with hall | hall
  · have hlow : (common v w 4).card = 0 := by omega
    simp [hall, hlow]
  · have hallQ : ((common v w 32).card : ℚ) ≠ 0 := by exact_mod_cast hall.ne'
    rcases Nat.eq_zero_or_pos (common v w 4).card with hlow | hlow
    · rw [if_pos hlow, if_neg hall.ne', eq_comm, div_eq_one_iff_eq hallQ, Nat.cast_inj]
      simp [hlow, hall.ne']
    · have hlowQ : ((common v w 4).card : ℚ) ≠ 0 := by exact_mod_cast hlow.ne'
      rw [if_neg hlow.ne', if_neg hall.ne', div_eq_div_iff hlowQ hallQ]
      norm_cast
      simp [hlow.ne', hall.ne']

end SignatureVector

namespace SignatureTable

variable {t : SignatureTable} {es : List (SignatureVector × ℤ)}

lemma matchBits_ne_zero (v w : SignatureVector) : matchBits v w ≠ 0 := by
  unfold matchBits
  split <;> decide

/-- The entries after some additions: these in order, and unused ones. -/
lemma entries_of_run (h : additions.Run es t) :
    es.length ≤ 128 ∧ t.nextUpdatePos = es.length ∧
      ∀ i : Fin 128, t.sigEntries i = es[i.val]?.elim ⟨.new, -1, false⟩ fun e => ⟨e.1, e.2, true⟩ := by
  induction h with
  | nil => exact ⟨Nat.zero_le _, rfl, fun _ => rfl⟩
  | @snoc es t t' e _ _ hstep ih =>
    obtain ⟨-, hpos, hentries⟩ := ih
    have hadd : t.addSignatureVector e.1 e.2 = .ok t' := hstep
    unfold addSignatureVector at hadd
    split at hadd
    case isFalse => cases hadd
    case isTrue hlt =>
      cases hadd
      have hmask : ∀ n : ℕ, n < 256 → n &&& 0xFF = n := fun n hn =>
        Nat.and_two_pow_sub_one_of_lt_two_pow (n := 8) hn
      refine ⟨?_, ?_, fun i => ?_⟩
      · rw [List.length_append, List.length_singleton, ← hpos]
        exact hlt
      · show (t.nextUpdatePos + 1) &&& 0xFF = (es ++ [e]).length
        rw [hmask _ (by omega), hpos, List.length_append, List.length_singleton]
      · show Function.update t.sigEntries ⟨t.nextUpdatePos, hlt⟩ _ i = _
        by_cases hi : i = ⟨t.nextUpdatePos, hlt⟩
        · subst hi
          rw [Function.update_self]
          show _ = (es ++ [e])[t.nextUpdatePos]?.elim _ _
          rw [hpos, List.getElem?_concat_length]
          rfl
        · have hne : i.val ≠ es.length := fun h => hi (Fin.ext (h.trans hpos.symm))
          rw [Function.update_of_ne hi, hentries]
          rcases Nat.lt_or_gt_of_ne hne with hlt | hgt
          · rw [List.getElem?_append_left hlt]
          · rw [List.getElem?_eq_none hgt.le, List.getElem?_eq_none]
            rw [List.length_append, List.length_singleton]
            exact hgt

/-- Up to 128 signatures can be added. -/
lemma exists_run_iff : (∃ t, additions.Run es t) ↔ es.length ≤ 128 := by
  constructor
  · rintro ⟨t, h⟩
    exact (entries_of_run h).1
  · intro hlength
    induction es using List.reverseRecOn with
    | nil => exact ⟨_, .nil⟩
    | append_singleton es e ih =>
      rw [List.length_append, List.length_singleton] at hlength
      obtain ⟨t, ht⟩ := ih (Nat.le_of_succ_le hlength)
      have hpos : t.nextUpdatePos < 128 := by
        rw [(entries_of_run ht).2.1]
        exact hlength
      obtain ⟨t', ht'⟩ : ∃ t', t.addSignatureVector e.1 e.2 = .ok t' := ⟨_, dif_pos hpos⟩
      exact ⟨t', ht.snoc e trivial ht'⟩

/-- The search stops at the first entry in use, whatever its signature is. -/
lemma isSignatureInTable_eq (vec : SignatureVector) (h : additions.Run es t) :
    t.isSignatureInTable vec = if es = [] then -1 else 0 := by
  obtain ⟨-, -, hentries⟩ := entries_of_run h
  have htest : ∀ i : Fin 128, ((t.sigEntries i).taken &&
      decide (matchBits (t.sigEntries i).sigVec vec ≠ 0)) = (t.sigEntries i).taken := by
    intro i
    rw [decide_eq_true (matchBits_ne_zero _ _), Bool.and_true]
  rw [isSignatureInTable]
  simp only [htest]
  simp only [hentries]
  rcases es with _ | ⟨e, es⟩
  · rw [List.find?_eq_none.2 (fun i _ => by simp), if_pos rfl]
    rfl
  · rw [List.finRange_succ, List.find?_cons_of_pos rfl, if_neg (List.cons_ne_nil _ _)]
    rfl

lemma hasAt_iff (h : additions.Run es t) (vec : SignatureVector) (i : Fin 128) :
    t.HasAt vec i ↔ ∃ mode, es[i.val]? = some (vec, mode) := by
  rw [HasAt, (entries_of_run h).2.2 i]
  rcases es[i.val]? with _ | ⟨v, mode⟩
  · simp
  · simp

lemma finds_iff (vec : SignatureVector) (h : additions.Run es t) :
    t.Finds vec ↔ ∀ e ∈ es.head?, e.1 = vec := by
  rw [Finds, isSignatureInTable_eq vec h]
  simp only [hasAt_iff h]
  rcases es with _ | ⟨⟨v, mode⟩, es⟩
  · simp
  · rw [if_neg (List.cons_ne_nil _ _)]
    simp only [List.head?_cons, Option.mem_some_iff, forall_eq']
    constructor
    · rintro ⟨-, hat⟩
      obtain ⟨mode', heq⟩ := hat 0 rfl
      cases heq
      rfl
    · rintro rfl
      refine ⟨⟨fun _ => ⟨0, mode, rfl⟩, fun _ => le_refl 0⟩, fun i hi => ?_⟩
      have hzero : i.val = 0 := by exact_mod_cast hi.symm
      exact ⟨mode, by rw [hzero]; rfl⟩

end SignatureTable

/-- The additions stay inside the table up to 128 of them, the search is right for the signature of the
first entry and in an empty table, and the difference is right when the first four bits of the words
are representative. -/
theorem signatureTable_iff (es : List (SignatureVector × ℤ)) (vec v w : SignatureVector) :
    ((∃ t, SignatureTable.additions.Run es t) ↔ es.length ≤ 128) ∧
    (∀ t, SignatureTable.additions.Run es t → (t.Finds vec ↔ ∀ e ∈ es.head?, e.1 = vec)) ∧
    (v.getSignatureDifference w = ratio v w 32 ↔ Proportional v w) := by
  refine ⟨SignatureTable.exists_run_iff, fun t h => SignatureTable.finds_iff vec h, ?_⟩
  rw [getSignatureDifference_eq, ratio_eq_iff]

/-- A table with one signature, which has no bit, finds the signature with the bit 5; this bit is not
counted among the differing ones.  There is no entry for the signature number 129. -/
theorem not_signatureTable :
    (∃ t, SignatureTable.additions.Run [(.new, 0)] t ∧
      t.isSignatureInTable (fun _ => 32) = 0 ∧ ¬∃ i, t.HasAt (fun _ => 32) i) ∧
    getSignatureDifference (fun _ => 33) (fun _ => 1) = 0 ∧
    ratio (fun _ => 33) (fun _ => 1) 32 = 1 ∧
    ¬∃ t, SignatureTable.additions.Run (List.replicate 129 (.new, 0)) t := by
  refine ⟨?_, ?_, ?_, fun h => ?_⟩
  · obtain ⟨t, ht⟩ := SignatureTable.exists_run_iff.2
      (show [(SignatureVector.new, (0 : ℤ))].length ≤ 128 by decide)
    refine ⟨t, ht, SignatureTable.isSignatureInTable_eq _ ht, ?_⟩
    rintro ⟨i, hi⟩
    obtain ⟨mode, hmode⟩ := (SignatureTable.hasAt_iff ht _ i).1 hi
    have hvec : (fun _ => 32) = SignatureVector.new := by
      rcases List.getElem?_eq_some_iff.1 hmode with ⟨hlt, hget⟩
      have hzero : i.val = 0 := Nat.lt_one_iff.1 hlt
      simp only [hzero] at hget
      exact (congrArg Prod.fst hget).symm
    exact absurd (congrFun hvec 0) (by decide)
  · have hcommon : (common (fun _ => 33) (fun _ => 1) 4).card = 16 := by decide +kernel
    have hdiffering : (differing (fun _ => 33) (fun _ => 1) 4).card = 0 := by decide +kernel
    rw [getSignatureDifference_eq, ratio, hcommon, hdiffering]
    simp
  · have hcommon : (common (fun _ => 33) (fun _ => 1) 32).card = 16 := by decide +kernel
    have hdiffering : (differing (fun _ => 33) (fun _ => 1) 32).card = 16 := by decide +kernel
    rw [ratio, hcommon, hdiffering]
    simp
  · exact absurd (SignatureTable.exists_run_iff.1 h) (by rw [List.length_replicate]; decide)

end Sesc.Core
