import Mathlib.Data.List.Perm.Basic
import Mathlib.Tactic.Common

/-!
# Segments of a list

A list that is used as an array of segments of one length, and the move of an element of a segment to
its front.
-/

namespace Sesc.Lib

variable {α : Type*}

/-- The `n` elements from the index `i` on. -/
def segment (l : List α) (i n : ℕ) : List α := (l.drop i).take n

/-- Writing a segment from the index `i` on. -/
def setSegment (l : List α) (i : ℕ) (seg : List α) : List α :=
  l.take i ++ seg ++ l.drop (i + seg.length)

/-- The element at the index `k` comes first, and those before it move up by one. -/
def moveToFront (l : List α) (k : ℕ) : List α :=
  (l[k]?).toList ++ l.eraseIdx k

variable {l seg : List α} {i j k n : ℕ}

lemma getElem?_segment (l : List α) (i n m : ℕ) :
    (segment l i n)[m]? = if m < n then l[i + m]? else none := by
  rw [segment, List.getElem?_take]
  split
  · rw [List.getElem?_drop]
  · rfl

lemma length_segment (h : i + n ≤ l.length) : (segment l i n).length = n := by
  rw [segment, List.length_take, List.length_drop]
  omega

lemma mem_of_mem_segment {a : α} (h : a ∈ segment l i n) : a ∈ l :=
  List.mem_of_mem_drop (List.mem_of_mem_take h)

lemma length_setSegment (h : i + seg.length ≤ l.length) :
    (setSegment l i seg).length = l.length := by
  rw [setSegment, List.length_append, List.length_append, List.length_take, List.length_drop]
  omega

/-- A segment that is written is read back. -/
lemma segment_setSegment_self (h : i + seg.length ≤ l.length) :
    segment (setSegment l i seg) i seg.length = seg := by
  have hlen : (l.take i).length = i := by
    rw [List.length_take]
    omega
  rw [segment, setSegment, List.append_assoc, List.drop_append_of_le_length (Nat.le_of_eq hlen.symm),
    List.drop_of_length_le (Nat.le_of_eq hlen), List.nil_append, List.take_append_of_le_length
      (Nat.le_refl _), List.take_length]

/-- Writing a segment leaves those alone that it has no index in common with. -/
lemma segment_setSegment_of_disjoint (h : i + seg.length ≤ l.length)
    (hij : i + seg.length ≤ j ∨ j + n ≤ i) :
    segment (setSegment l i seg) j n = segment l j n := by
  ext m : 1
  rw [getElem?_segment, getElem?_segment]
  split
  · rename_i hm
    rw [setSegment]
    rcases hij with hij | hij
    · rw [List.getElem?_append_right, List.getElem?_drop]
      · congr 1
        rw [List.length_append, List.length_take]
        omega
      · rw [List.length_append, List.length_take]
        omega
    · rw [List.append_assoc, List.getElem?_append_left, List.getElem?_take_of_lt (by omega)]
      rw [List.length_take]
      omega
  · rfl

lemma length_moveToFront (h : k < l.length) : (moveToFront l k).length = l.length := by
  rw [moveToFront, List.getElem?_eq_getElem h, Option.toList_some, List.singleton_append,
    List.length_cons, List.length_eraseIdx_of_lt h]
  omega

/-- A segment keeps its elements. -/
lemma moveToFront_perm (h : k < l.length) : (moveToFront l k).Perm l := by
  rw [moveToFront, List.getElem?_eq_getElem h, Option.toList_some, List.singleton_append]
  exact List.getElem_cons_eraseIdx_perm h

/-- Writing a permutation of a segment keeps the elements of the list. -/
lemma setSegment_perm (h : seg.Perm (segment l i seg.length)) : (setSegment l i seg).Perm l := by
  have hsplit : l = l.take i ++ (segment l i seg.length ++ l.drop (i + seg.length)) := by
    rw [segment, ← List.drop_drop, List.take_append_drop, List.take_append_drop]
  rw [setSegment, List.append_assoc]
  refine ((h.append_right _).append_left _).trans ?_
  rw [← hsplit]

end Sesc.Lib
