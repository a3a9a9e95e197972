import Sesc.BPred.Basic

/-!
# The keys of branches

The key of an instruction is the number of its fetch group, with the upper bits folded into the lower
ones; but a small instruction of the first group has the number of the next instruction.
-/

namespace Sesc.BPred

variable {s : ℕ} {a b : InstID}

/-- The number of the fetch group of an instruction. -/
def fetchGroup (s : ℕ) (a : InstID) : ℕ := a.toNat >>> s

/-- An instruction for which `calcInstID` has its special case. -/
def IsSmall (s : ℕ) (a : InstID) : Prop := fetchGroup s a = 0 ∧ a.toNat < 10

/-- Two instructions whose keys tell whether they are in one group: they are the same, or neither is
small, or the group of the other one is neither the first one nor the key of the small one. -/
def Separated (s : ℕ) (a b : InstID) : Prop :=
  a = b ∨ ¬IsSmall s a ∧ ¬IsSmall s b ∨
  IsSmall s a ∧ ¬IsSmall s b ∧ fetchGroup s b ≠ 0 ∧ fetchGroup s b ≠ a.toNat + 1 ∨
  IsSmall s b ∧ ¬IsSmall s a ∧ fetchGroup s a ≠ 0 ∧ fetchGroup s a ≠ b.toNat + 1

/-- The shift for a power of two. -/
lemma log2i_two_pow : ∀ k < 32, log2i (BitVec.ofNat 32 (2 ^ k)) = k := by decide +kernel

lemma fetchGroup_eq_zero : fetchGroup s a = 0 ↔ a.toNat < 2 ^ s := by
  rw [fetchGroup, Nat.shiftRight_eq_div_pow, Nat.div_eq_zero_iff]
  have hpos : 0 < 2 ^ s := Nat.two_pow_pos s
  omega

lemma fetchGroup_le : fetchGroup s a ≤ a.toNat := Nat.shiftRight_le _ _

/-- Folding loses no group. -/
lemma fold_eq_zero {n : ℕ} : (n >>> 17) ^^^ n = 0 ↔ n = 0 := by
  constructor
  · intro h
    have heq : n >>> 17 = n := by
      rw [← Nat.xor_zero (n >>> 17), ← Nat.xor_self n, ← Nat.xor_assoc, h, Nat.zero_xor]
    rw [Nat.shiftRight_eq_div_pow] at heq
    omega
  · rintro rfl
    rfl

/-- The key before the special case. -/
lemma toNat_fold : ((a.zeroExtend 64 >>> s >>> 17) ^^^ (a.zeroExtend 64 >>> s)).toNat =
    (fetchGroup s a >>> 17) ^^^ fetchGroup s a := by
  have ha : (a.zeroExtend 64).toNat = a.toNat := by
    rw [BitVec.toNat_setWidth, Nat.mod_eq_of_lt (by omega)]
  rw [BitVec.toNat_xor, BitVec.toNat_ushiftRight, BitVec.toNat_ushiftRight, ha, fetchGroup]

lemma toNat_calcInstID_of_isSmall (h : IsSmall s a) : (calcInstID s a).toNat = a.toNat + 1 := by
  have hzero : (a.zeroExtend 64 >>> s >>> 17) ^^^ (a.zeroExtend 64 >>> s) = 0 := by
    apply BitVec.eq_of_toNat_eq
    rw [toNat_fold]
    exact fold_eq_zero.2 h.1
  have hlt := h.2
  have hone : (1 : InstID).toNat = 1 := rfl
  rw [calcInstID, if_pos ⟨hzero, h.2⟩, BitVec.toNat_setWidth, BitVec.toNat_add, hone]
  omega

lemma toNat_calcInstID_of_not (h : ¬IsSmall s a) :
    (calcInstID s a).toNat = (fetchGroup s a >>> 17) ^^^ fetchGroup s a := by
  rw [calcInstID, if_neg, toNat_fold]
  rintro ⟨hzero, hlt⟩
  refine h ⟨fold_eq_zero.1 ?_, hlt⟩
  rw [← toNat_fold, hzero]
  rfl

lemma calcInstID_eq_zero : calcInstID s a = 0 ↔ fetchGroup s a = 0 ∧ 10 ≤ a.toNat := by
  have hzero : (0 : HistoryType).toNat = 0 := rfl
  rw [← BitVec.toNat_inj, hzero]
  by_cases h : IsSmall s a
  · have hlt := h.2
    rw [toNat_calcInstID_of_isSmall h]
    omega
  · rw [toNat_calcInstID_of_not h, fold_eq_zero]
    have hten : fetchGroup s a = 0 → 10 ≤ a.toNat := fun hzero => by
      by_contra hlt
      exact h ⟨hzero, by omega⟩
    exact ⟨fun hzero => ⟨hzero, hten hzero⟩, And.left⟩

/-- Below `2 ^ 17` there is nothing to fold. -/
lemma toNat_calcInstID_of_lt (h : ¬IsSmall s a) (ha : a.toNat < 2 ^ 17) :
    (calcInstID s a).toNat = fetchGroup s a := by
  have hle : fetchGroup s a ≤ a.toNat := fetchGroup_le
  have hupper : fetchGroup s a >>> 17 = 0 := by
    rw [Nat.shiftRight_eq_div_pow]
    omega
  rw [toNat_calcInstID_of_not h, hupper, Nat.zero_xor]

/-- A small instruction and another one. -/
lemma separates_iff_of_isSmall (ha : IsSmall s a) (hb : ¬IsSmall s b) (hlt : b.toNat < 2 ^ 17) :
    (calcInstID s a = calcInstID s b ↔ fetchGroup s a = fetchGroup s b) ↔
      fetchGroup s b ≠ 0 ∧ fetchGroup s b ≠ a.toNat + 1 := by
  rw [← BitVec.toNat_inj, toNat_calcInstID_of_isSmall ha, toNat_calcInstID_of_lt hb hlt, ha.1]
  omega

lemma separates_iff (ha : a.toNat < 2 ^ 17) (hb : b.toNat < 2 ^ 17) :
    (calcInstID s a = calcInstID s b ↔ fetchGroup s a = fetchGroup s b) ↔ Separated s a b := by
  by_cases hsmall : IsSmall s a <;> by_cases hsmall' : IsSmall s b
  · have heq : calcInstID s a = calcInstID s b ↔ a = b := by
      rw [← BitVec.toNat_inj, toNat_calcInstID_of_isSmall hsmall,
        toNat_calcInstID_of_isSmall hsmall', Nat.add_right_cancel_iff, BitVec.toNat_inj]
    simp [heq, Separated, hsmall, hsmall', hsmall.1, hsmall'.1]
  · have hne : a ≠ b := by
      rintro rfl
      exact hsmall' hsmall
    rw [separates_iff_of_isSmall hsmall hsmall' hb]
    simp [Separated, hsmall, hsmall', hne]
  · have hne : a ≠ b := by
      rintro rfl
      exact hsmall hsmall'
    rw [eq_comm, eq_comm (a := fetchGroup s a), separates_iff_of_isSmall hsmall' hsmall ha]
    simp [Separated, hsmall, hsmall', hne]
  · rw [← BitVec.toNat_inj, toNat_calcInstID_of_lt hsmall ha, toNat_calcInstID_of_lt hsmall' hb]
    simp [Separated, hsmall, hsmall']

/-- The key is 0 for the instructions of the first group that are not small; below `2 ^ 17` it tells
apart the groups of instructions that are `Separated`. -/
theorem calcInstID_faithful_iff (fetchWidth : ℕ) (bpred4Cycle : Option ℕ) (a b : InstID) :
    (calcInstID (bpred4CycleAddrShift fetchWidth bpred4Cycle) a ≠ 0 ↔
      a.toNat < 10 ∨ 2 ^ bpred4CycleAddrShift fetchWidth bpred4Cycle ≤ a.toNat) ∧
    (a.toNat < 2 ^ 17 → b.toNat < 2 ^ 17 →
      ((calcInstID (bpred4CycleAddrShift fetchWidth bpred4Cycle) a =
          calcInstID (bpred4CycleAddrShift fetchWidth bpred4Cycle) b ↔
        a.toNat >>> bpred4CycleAddrShift fetchWidth bpred4Cycle =
          b.toNat >>> bpred4CycleAddrShift fetchWidth bpred4Cycle) ↔
        Separated (bpred4CycleAddrShift fetchWidth bpred4Cycle) a b)) := by
  refine ⟨?_, separates_iff⟩
  rw [Ne, calcInstID_eq_zero, fetchGroup_eq_zero]
  omega

/-- With a shift of 4 the key of the instruction 10 is 0, and the instructions 0 and 1, which are in one
group, have different keys.  Without a shift they have the same key and are in different groups. -/
theorem not_calcInstID_faithful :
    bpred4CycleAddrShift 16 (some 1) = 4 ∧ calcInstID 4 10 = 0 ∧
    calcInstID 4 0 = 1 ∧ calcInstID 4 1 = 2 ∧
    bpred4CycleAddrShift 16 none = 0 ∧ calcInstID 0 0 = 1 ∧ calcInstID 0 1 = 1 := by
  decide +kernel

end Sesc.BPred
