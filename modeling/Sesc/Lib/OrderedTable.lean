import Mathlib.Data.List.MinMax
import Sesc.Lib.Table

/-!
# Ordered tables

The queries of an ordered set of records: the first one whose key is at least, or greater than,
a bound, and the last one whose key is not greater.  A record with a key that is there already
is not added.
-/

namespace Sesc.Lib.Table

variable {κ ρ : Type*} [LinearOrder κ] {key : ρ → κ}

/-- The record with the least key among those that pass a test. -/
def first (t : Table key) (p : ρ → Bool) : Option ρ := (t.toList.filter p).argmin key

/-- The record with the greatest key among those that pass a test. -/
def last (t : Table key) (p : ρ → Bool) : Option ρ := (t.toList.filter p).argmax key

/-- `lower_bound`. -/
def lowerBound (t : Table key) (k : κ) : Option ρ := t.first fun r => k ≤ key r

/-- `upper_bound`. -/
def upperBound (t : Table key) (k : κ) : Option ρ := t.first fun r => k < key r

/-- The record before the `upper_bound`. -/
def beforeUpperBound (t : Table key) (k : κ) : Option ρ := t.last fun r => key r ≤ k

/-- `insert` of an ordered set. -/
def add (t : Table key) (r : ρ) : Table key := if t.find (key r) = none then t.insert r else t

variable {t : Table key} {p : ρ → Bool} {k : κ} {r r' : ρ}

lemma first_eq_none : t.first p = none ↔ ∀ r ∈ t, p r = false := by
  rw [first, List.argmin_eq_none, List.filter_eq_nil_iff]
  simp only [mem_iff, Bool.not_eq_true]

lemma last_eq_none : t.last p = none ↔ ∀ r ∈ t, p r = false := by
  rw [last, List.argmax_eq_none, List.filter_eq_nil_iff]
  simp only [mem_iff, Bool.not_eq_true]

lemma of_first (h : t.first p = some r) :
    r ∈ t ∧ p r = true ∧ ∀ r' ∈ t, p r' = true → key r ≤ key r' := by
  obtain ⟨hmem, hp⟩ := List.mem_filter.1 (List.argmin_mem h)
  exact ⟨hmem, hp, fun r' hr' hp' => List.le_of_mem_argmin (List.mem_filter.2 ⟨hr', hp'⟩) h⟩

lemma of_last (h : t.last p = some r) :
    r ∈ t ∧ p r = true ∧ ∀ r' ∈ t, p r' = true → key r' ≤ key r := by
  obtain ⟨hmem, hp⟩ := List.mem_filter.1 (List.argmax_mem h)
  exact ⟨hmem, hp, fun r' hr' hp' => List.le_of_mem_argmax (List.mem_filter.2 ⟨hr', hp'⟩) h⟩

lemma lowerBound_eq_none : t.lowerBound k = none ↔ ∀ r ∈ t, key r < k := by
  simp only [lowerBound, first_eq_none, decide_eq_false_iff_not, not_le]

lemma of_lowerBound (h : t.lowerBound k = some r) : r ∈ t ∧ k ≤ key r :=
  ⟨(of_first h).1, of_decide_eq_true (of_first h).2.1⟩

/-- The first record from a bound on is found there. -/
lemma lowerBound_eq_some (hr : r ∈ t) (hk : k ≤ key r)
    (hmin : ∀ r' ∈ t, k ≤ key r' → key r ≤ key r') : t.lowerBound k = some r := by
  cases h : t.lowerBound k with
  | none => exact absurd (lowerBound_eq_none.1 h r hr) (not_lt.2 hk)
  | some r' =>
    obtain ⟨hr', hk', hle⟩ := of_first h
    have hkey : key r' = key r :=
      le_antisymm (hle r hr (decide_eq_true hk)) (hmin r' hr' (of_decide_eq_true hk'))
    rw [eq_of_mem hr' hr hkey]

lemma upperBound_eq_none : t.upperBound k = none ↔ ∀ r ∈ t, key r ≤ k := by
  simp only [upperBound, first_eq_none, decide_eq_false_iff_not, not_lt]

lemma of_upperBound (h : t.upperBound k = some r) :
    r ∈ t ∧ k < key r ∧ ∀ r' ∈ t, k < key r' → key r ≤ key r' := by
  obtain ⟨hmem, hlt, hle⟩ := of_first h
  exact ⟨hmem, of_decide_eq_true hlt, fun r' hr' hlt' => hle r' hr' (decide_eq_true hlt')⟩

lemma beforeUpperBound_eq_none : t.beforeUpperBound k = none ↔ ∀ r ∈ t, k < key r := by
  simp only [beforeUpperBound, last_eq_none, decide_eq_false_iff_not, not_le]

lemma of_beforeUpperBound (h : t.beforeUpperBound k = some r) :
    r ∈ t ∧ key r ≤ k ∧ ∀ r' ∈ t, key r' ≤ k → key r' ≤ key r := by
  obtain ⟨hmem, hle, hmax⟩ := of_last h
  exact ⟨hmem, of_decide_eq_true hle, fun r' hr' hle' => hmax r' hr' (decide_eq_true hle')⟩

/-- A record with a new key is added. -/
lemma add_eq_insert (hnew : t.find (key r) = none) : t.add r = t.insert r := if_pos hnew

end Sesc.Lib.Table
