import Mathlib.Data.List.Nodup
import Mathlib.Logic.Function.Basic
import Mathlib.Tactic.Common

/-!
# Finite maps

A hash map that is iterated over: a function to `Option` with the list of the keys that have
an entry.
-/

namespace Sesc.Lib

structure FinMap (κ ν : Type*) where
  find : κ → Option ν
  keys : List κ
  mem_keys : ∀ k, k ∈ keys ↔ (find k).isSome = true

namespace FinMap

variable {κ ν : Type*}

def empty : FinMap κ ν where
  find _ := none
  keys := []
  mem_keys k := by simp

instance : EmptyCollection (FinMap κ ν) := ⟨empty⟩

@[simp] lemma find_empty (k : κ) : (∅ : FinMap κ ν).find k = none := rfl

/-- All entries pass a test. -/
def all (m : FinMap κ ν) (p : κ → ν → Bool) : Bool :=
  m.keys.all fun k => (m.find k).elim true (p k)

/-- Every entry is changed as the entry of another map for the key says. -/
def mergeWith (m m' : FinMap κ ν) (f : κ → Option ν → ν → Option ν) : FinMap κ ν where
  find k := (m'.find k).elim (m.find k) (f k (m.find k))
  keys := (m.keys ++ m'.keys).filter fun k => ((m'.find k).elim (m.find k) (f k (m.find k))).isSome
  mem_keys k := by
    rw [List.mem_filter, List.mem_append, and_iff_right_iff_imp]
    intro hk
    cases hv : m'.find k with
    | none =>
      rw [hv] at hk
      exact .inl ((m.mem_keys k).2 hk)
    | some v => exact .inr ((m'.mem_keys k).2 (by rw [hv]; rfl))

variable [DecidableEq κ]

def insert (m : FinMap κ ν) (k : κ) (v : ν) : FinMap κ ν where
  find := Function.update m.find k (some v)
  keys := if k ∈ m.keys then m.keys else k :: m.keys
  mem_keys j := by
    by_cases hj : j = k
    · subst hj
      rw [Function.update_self]
      refine iff_of_true ?_ rfl
      split
      · assumption
      · exact List.mem_cons_self
    · rw [Function.update_of_ne hj, ← m.mem_keys]
      split
      · rfl
      · simp [hj]

@[simp] lemma find_insert (m : FinMap κ ν) (k : κ) (v : ν) :
    (m.insert k v).find = Function.update m.find k (some v) := rfl

def erase (m : FinMap κ ν) (k : κ) : FinMap κ ν where
  find := Function.update m.find k none
  keys := m.keys.filter (· ≠ k)
  mem_keys j := by
    rw [List.mem_filter, m.mem_keys]
    by_cases hj : j = k
    · simp [hj]
    · rw [Function.update_of_ne hj]
      simp [hj]

@[simp] lemma find_erase (m : FinMap κ ν) (k : κ) :
    (m.erase k).find = Function.update m.find k none := rfl

end FinMap

end Sesc.Lib
