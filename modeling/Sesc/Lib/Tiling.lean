import Mathlib.Order.Lattice
import Mathlib.Data.List.Count
import Mathlib.Tactic.Common

/-!
# Tilings of an interval

Half-open intervals tile an interval when every point of it is in exactly one of them and no
other point is in any.  In this form the tiling that results when tiles are split, joined or
exchanged is a matter of counting.
-/

namespace Sesc.Lib

variable {α : Type*} [LinearOrder α]

/-- The point `x` is in the half-open interval `r`. -/
def isWithin (x : α) (r : α × α) : Bool := r.1 ≤ x && x < r.2

@[simp] lemma isWithin_iff {x : α} {r : α × α} : isWithin x r = true ↔ r.1 ≤ x ∧ x < r.2 := by
  simp only [isWithin, Bool.and_eq_true, decide_eq_true_eq]

lemma toNat_isWithin {x lo hi : α} :
    (isWithin x (lo, hi)).toNat = if lo ≤ x ∧ x < hi then 1 else 0 := by
  split
  · rename_i hx
    rw [isWithin_iff.2 hx]
    rfl
  · rename_i hx
    rw [Bool.eq_false_iff.2 fun hwithin => hx (isWithin_iff.1 hwithin)]
    rfl

/-- Nothing is within an empty interval. -/
@[simp] lemma toNat_isWithin_self {x lo : α} : (isWithin x (lo, lo)).toNat = 0 := by
  rw [toNat_isWithin, if_neg fun h => not_lt.2 h.1 h.2]

/-- The intervals of a list tile the interval from `lo` to `hi`. -/
def Tiles (lo hi : α) (l : List (α × α)) : Prop :=
  ∀ x, l.countP (isWithin x) = if lo ≤ x ∧ x < hi then 1 else 0

variable {lo hi : α} {l : List (α × α)}

/-- The tiles cover the interval and nothing else. -/
lemma Tiles.cover (h : Tiles lo hi l) (x : α) :
    (lo ≤ x ∧ x < hi) ↔ ∃ r ∈ l, r.1 ≤ x ∧ x < r.2 := by
  have hx := h x
  constructor
  · intro hin
    rw [if_pos hin] at hx
    obtain ⟨r, hr, hwithin⟩ := List.countP_pos_iff.1 (Nat.lt_of_lt_of_eq Nat.one_pos hx.symm)
    exact ⟨r, hr, isWithin_iff.1 hwithin⟩
  · rintro ⟨r, hr, hwithin⟩
    by_contra hout
    rw [if_neg hout] at hx
    exact List.countP_eq_zero.1 hx r hr (isWithin_iff.2 hwithin)

/-- No point is in two intervals of a list, so that any two of them are apart. -/
lemma pairwise_of_countP_le (hlt : ∀ r ∈ l, r.1 < r.2) (h : ∀ x, l.countP (isWithin x) ≤ 1) :
    l.Pairwise fun r r' => r.2 ≤ r'.1 ∨ r'.2 ≤ r.1 := by
  induction l with
  | nil => exact .nil
  | cons r l ih =>
    have hrest : ∀ x, l.countP (isWithin x) ≤ 1 := by
      intro x
      have hx := h x
      rw [List.countP_cons] at hx
      omega
    refine List.pairwise_cons.2 ⟨fun r' hr' => ?_, ih (fun r' hr' => hlt r' (.tail _ hr')) hrest⟩
    by_contra hmeet
    rw [not_or, not_le, not_le] at hmeet
    -- the greater one of the two ends on the left is in both
    have hx := h (max r.1 r'.1)
    have hself : isWithin (max r.1 r'.1) r = true :=
      isWithin_iff.2 ⟨le_max_left _ _, max_lt (hlt r (.head _)) hmeet.1⟩
    have hother : isWithin (max r.1 r'.1) r' = true :=
      isWithin_iff.2 ⟨le_max_right _ _, max_lt hmeet.2 (hlt r' (.tail _ hr'))⟩
    have hpos : 0 < l.countP (isWithin (max r.1 r'.1)) := List.countP_pos_iff.2 ⟨r', hr', hother⟩
    rw [List.countP_cons, if_pos hself] at hx
    omega

lemma Tiles.pairwise (h : Tiles lo hi l) (hlt : ∀ r ∈ l, r.1 < r.2) :
    l.Pairwise fun r r' => r.2 ≤ r'.1 ∨ r'.2 ≤ r.1 := by
  refine pairwise_of_countP_le hlt fun x => ?_
  rw [h x]
  split <;> omega

end Sesc.Lib
