import Mathlib.Data.List.Perm.Basic
import Mathlib.Logic.Function.Basic
import Mathlib.Tactic.Common

/-!
# Buckets

A table of `n` lists, the buckets, as a function.  What is in it is the same, in some order, when
elements are moved from bucket to bucket.
-/

namespace Sesc.Lib

variable {α : Type*} {n i : ℕ} {f : ℕ → List α} {a : α} {l : List α}

/-- The elements of the first `n` buckets. -/
def contents (n : ℕ) (f : ℕ → List α) : List α := (List.range n).flatMap f

@[simp] lemma contents_zero : contents 0 f = [] := rfl

@[simp] lemma contents_succ : contents (n + 1) f = contents n f ++ f n := by
  rw [contents, List.range_succ, List.flatMap_append, List.flatMap_singleton, ← contents]

lemma mem_contents : a ∈ contents n f ↔ ∃ i < n, a ∈ f i := by
  simp only [contents, List.mem_flatMap, List.mem_range]

lemma contents_update_of_le (h : n ≤ i) : contents n (Function.update f i l) = contents n f := by
  induction n with
  | zero => rfl
  | succ n ih =>
    have hne : n ≠ i := Nat.ne_of_lt h
    rw [contents_succ, contents_succ, ih (Nat.le_of_succ_le h), Function.update_of_ne hne]

/-- One bucket is exchanged for another with one element less. -/
lemma contents_perm_update (hi : i < n) (hl : (f i).Perm (a :: l)) :
    (contents n f).Perm (a :: contents n (Function.update f i l)) := by
  induction n with
  | zero => exact absurd hi (Nat.not_lt_zero i)
  | succ n ih =>
    rw [contents_succ, contents_succ]
    rcases Nat.lt_succ_iff_lt_or_eq.1 hi with hlt | rfl
    · rw [Function.update_of_ne (Nat.ne_of_gt hlt)]
      exact (ih hlt).append_right (f n)
    · rw [Function.update_self, contents_update_of_le (Nat.le_refl i)]
      exact (hl.append_left _).trans List.perm_middle

/-- An element is added to a bucket. -/
lemma contents_update_perm (hi : i < n) :
    (contents n (Function.update f i (f i ++ [a]))).Perm (a :: contents n f) := by
  have hperm : (Function.update f i (f i ++ [a]) i).Perm (a :: f i) := by
    rw [Function.update_self]
    exact List.perm_append_singleton a (f i)
  have h := contents_perm_update hi hperm
  rw [Function.update_idem, Function.update_eq_self] at h
  exact h

end Sesc.Lib
