import Mathlib.Data.List.Lattice
import Mathlib.Data.List.Nodup
import Mathlib.Tactic.Common

/-!
# Finite sets as lists

A hash set whose elements are iterated over: a list without repetitions.  Inserting a
present element and erasing an absent one change nothing, so the length of the list is
the size of the set and an iteration visits every element once.
-/

namespace Sesc.Lib

/-- A finite set, given by the list of its elements in the order of iteration. -/
structure ListSet (α : Type*) where
  toList : List α
  nodup : toList.Nodup
deriving DecidableEq

namespace ListSet

variable {α : Type*}

instance : Membership α (ListSet α) := ⟨fun s a => a ∈ s.toList⟩

lemma mem_iff {a : α} {s : ListSet α} : a ∈ s ↔ a ∈ s.toList := Iff.rfl

instance [DecidableEq α] (a : α) (s : ListSet α) : Decidable (a ∈ s) :=
  inferInstanceAs (Decidable (a ∈ s.toList))

def empty : ListSet α := ⟨[], List.nodup_nil⟩

instance : EmptyCollection (ListSet α) := ⟨empty⟩

/-- The number of elements. -/
def size (s : ListSet α) : ℕ := s.toList.length

@[simp] lemma toList_empty : (∅ : ListSet α).toList = [] := rfl

@[simp] lemma not_mem_empty (a : α) : a ∉ (∅ : ListSet α) := List.not_mem_nil

lemma size_eq_zero {s : ListSet α} : s.size = 0 ↔ ∀ a, a ∉ s := by
  rw [size, List.length_eq_zero_iff, List.eq_nil_iff_forall_not_mem]
  rfl

lemma eq_empty_of_size {s : ListSet α} (h : s.size = 0) : s = ∅ := by
  obtain ⟨l, hl⟩ := s
  cases List.length_eq_zero_iff.1 h
  rfl

variable [DecidableEq α]

def insert (s : ListSet α) (a : α) : ListSet α := ⟨s.toList.insert a, s.nodup.insert⟩

def erase (s : ListSet α) (a : α) : ListSet α := ⟨s.toList.erase a, s.nodup.erase a⟩

@[simp] lemma mem_insert {a b : α} {s : ListSet α} : a ∈ s.insert b ↔ a = b ∨ a ∈ s :=
  List.mem_insert_iff

@[simp] lemma mem_erase {a b : α} {s : ListSet α} : a ∈ s.erase b ↔ a ≠ b ∧ a ∈ s :=
  s.nodup.mem_erase_iff

end ListSet

end Sesc.Lib
