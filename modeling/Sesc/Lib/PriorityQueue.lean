import Mathlib.Data.List.MinMax
import Mathlib.Data.List.Perm.Basic
import Mathlib.Tactic.Common

/-!
# Priority queues

The interface of a priority queue whose first element is one with the least key.  Which of several
elements with that key is first is left to the implementation.
-/

namespace Sesc.Lib

/-- An implementation of priority queues of elements of `α`, which are compared by their keys. -/
structure PriorityQueue (α : Type) (key : α → ℕ) where
  /-- The representation of a queue. -/
  Heap : Type
  empty : Heap
  push : Heap → α → Heap
  front : Heap → Option α
  pop : Heap → Heap
  toList : Heap → List α
  toList_empty : toList empty = []
  toList_push : ∀ h a, (toList (push h a)).Perm (a :: toList h)
  toList_of_front : ∀ h, front h = none → toList h = []
  toList_pop : ∀ h a, front h = some a → (toList h).Perm (a :: toList (pop h))
  key_le : ∀ h a, front h = some a → ∀ b ∈ toList h, key a ≤ key b

namespace PriorityQueue

variable {α : Type} {key : α → ℕ}

section

variable (P : PriorityQueue α key) {h : P.Heap} {a : α}

/-- The number of elements. -/
def size (h : P.Heap) : ℕ := (P.toList h).length

variable {P}

lemma mem_of_front (hfront : P.front h = some a) : a ∈ P.toList h :=
  (P.toList_pop h a hfront).mem_iff.2 (.head _)

lemma mem_of_mem_pop (hfront : P.front h = some a) {b : α} (hb : b ∈ P.toList (P.pop h)) :
    b ∈ P.toList h :=
  (P.toList_pop h a hfront).mem_iff.2 (.tail _ hb)

end

/-- The elements in the order in which they have been added; the first one is the first of those
with the least key. -/
def unsorted [DecidableEq α] : PriorityQueue α key where
  Heap := List α
  empty := []
  push h a := h ++ [a]
  front h := h.argmin key
  pop h := (h.argmin key).elim h h.erase
  toList h := h
  toList_empty := rfl
  toList_push h a := List.perm_append_singleton a h
  toList_of_front _ h := List.argmin_eq_none.1 h
  toList_pop h a ha := by
    rw [ha]
    exact List.perm_cons_erase (List.argmin_mem ha)
  key_le _ _ ha _ hb := List.le_of_mem_argmin hb ha

end PriorityQueue

/-- An implementation that also takes out an element that need not be the first one. -/
structure ErasableQueue (α : Type) (key : α → ℕ) extends PriorityQueue α key where
  erase : Heap → α → Heap
  toList_erase : ∀ h a, a ∈ toList h → (toList h).Perm (a :: toList (erase h a))

/-- The elements in the order in which they have been added. -/
def ErasableQueue.unsorted {α : Type} {key : α → ℕ} [DecidableEq α] : ErasableQueue α key where
  toPriorityQueue := .unsorted
  erase h a := List.erase h a
  toList_erase _ _ := List.perm_cons_erase

end Sesc.Lib
