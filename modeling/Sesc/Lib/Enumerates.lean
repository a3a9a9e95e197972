import Mathlib.Data.List.Nodup
import Mathlib.Data.List.Perm.Basic
import Mathlib.Logic.Function.Basic
import Mathlib.Tactic.Common

/-!
# Lists that enumerate a property

A device keeps a table of the requests whose answers are outstanding, and the requests and
answers themselves are on their way somewhere else.  The table is right when the list of
those on their way enumerates its keys: every key occurs in the list exactly once and
nothing else does.
-/

namespace Sesc.Lib

variable {K V : Type*} {p q : K → Prop} {l l' : List K} {k : K}

/-- The list `l` has exactly the elements with the property `p`, each once. -/
structure Enumerates (p : K → Prop) (l : List K) : Prop where
  nodup : l.Nodup
  mem_iff : ∀ k, p k ↔ k ∈ l

namespace Enumerates

lemma congr (h : Enumerates p l) (hpq : ∀ k, q k ↔ p k) (hl : l'.Perm l) : Enumerates q l' where
  nodup := hl.nodup_iff.2 h.nodup
  mem_iff k := by rw [hpq, h.mem_iff, hl.mem_iff]

lemma nil (hp : ∀ k, ¬p k) : Enumerates p [] where
  nodup := List.nodup_nil
  mem_iff k := iff_of_false (hp k) List.not_mem_nil

/-- A new request enters the table and the list. -/
lemma cons (h : Enumerates p l) (hk : ¬p k) (hq : ∀ j, q j ↔ j = k ∨ p j) :
    Enumerates q (k :: l) where
  nodup := List.nodup_cons.2 ⟨fun hl => hk ((h.mem_iff k).2 hl), h.nodup⟩
  mem_iff j := by rw [hq, h.mem_iff, List.mem_cons]

/-- An answered request leaves the table and the list. -/
lemma tail (h : Enumerates p (k :: l)) (hq : ∀ j, q j ↔ j ≠ k ∧ p j) : Enumerates q l where
  nodup := h.nodup.of_cons
  mem_iff j := by
    rw [hq, h.mem_iff, List.mem_cons]
    constructor
    · rintro ⟨hj, rfl | hl⟩
      · exact absurd rfl hj
      · exact hl
    · intro hl
      refine ⟨?_, .inr hl⟩
      rintro rfl
      exact (List.nodup_cons.1 h.nodup).1 hl

end Enumerates

section

variable [DecidableEq K] {t : K → Option V} {j : K} {v : V}

lemma update_some_ne_none : Function.update t k (some v) j ≠ none ↔ j = k ∨ t j ≠ none := by
  by_cases h : j = k
  · subst h
    simp
  · simp [h]

lemma update_none_ne_none : Function.update t k none j ≠ none ↔ j ≠ k ∧ t j ≠ none := by
  by_cases h : j = k
  · subst h
    simp
  · simp [h]

end

end Sesc.Lib
