import Mathlib.Algebra.BigOperators.Group.Finset.Basic
import Sesc.Lib.Machine

/-!
# Runs that cannot go on for ever

A state of a machine has some work left.  Each step does some of it, and only some events bring new work;
so the steps that do work are bounded by the events that bring it, and a machine that can always do some
of its work can finish it.
-/

namespace Sesc.Lib

/-- The sum over the parties after one of them has changed. -/
lemma sum_update {α β : Type*} [DecidableEq α] {s : Finset α} (f : β → ℕ) (g : α → β) {a : α} (ha : a ∈ s)
    (v : β) : ∑ x ∈ s, f (Function.update g a v x) + f (g a) = ∑ x ∈ s, f (g x) + f v := by
  have hrest : ∑ x ∈ s.erase a, f (Function.update g a v x) = ∑ x ∈ s.erase a, f (g x) := by
    refine Finset.sum_congr rfl fun x hx => ?_
    rw [Function.update_of_ne (Finset.ne_of_mem_erase hx)]
  have hnew := Finset.add_sum_erase s (fun x => f (Function.update g a v x)) ha
  have hold := Finset.add_sum_erase s (fun x => f (g x)) ha
  rw [hrest, Function.update_self] at hnew
  omega

namespace Machine

variable {σ ε φ : Type*} {M : Machine σ ε φ} {es : List ε} {s : σ}

/-- The machine that counts what its steps cost. -/
def counting (M : Machine σ ε φ) (cost : σ → ε → ℕ) : Machine (σ × ℕ) ε φ where
  init := (M.init, 0)
  step p e := (M.step p.1 e).map fun s' => (s', p.2 + cost p.1 e)

variable {cost : σ → ε → ℕ} {p : σ × ℕ}

lemma counting_step {p' : σ × ℕ} {e : ε} (h : (M.counting cost).step p e = .ok p') :
    M.step p.1 e = .ok p'.1 ∧ p'.2 = p.2 + cost p.1 e := by
  have hmap : (M.step p.1 e).map (fun s' => (s', p.2 + cost p.1 e)) = .ok p' := h
  rcases hs : M.step p.1 e with f | s'
  · rw [hs] at hmap
    cases hmap
  · rw [hs] at hmap
    cases hmap
    exact ⟨rfl, rfl⟩

lemma Run.of_counting (h : (M.counting cost).Run es p) : M.Run es p.1 := by
  induction h with
  | nil => exact .nil
  | snoc e _ _ hs ih => exact .snoc e ih trivial (counting_step hs).1

/-- The steps of a run cost no more than the events have paid for. -/
theorem Run.cost_le (work : σ → ℕ) (pays : ε → Bool) (k : ℕ) (h : (M.counting cost).Run es p)
    (h0 : work M.init = 0)
    (hstep : ∀ es' s e s', es' ++ [e] <+: es → M.Run es' s → M.step s e = .ok s' →
      work s' + cost s e ≤ work s + if pays e then k else 0) :
    p.2 + work p.1 ≤ k * es.countP pays := by
  induction h with
  | nil => simp [counting, h0]
  | @snoc es p p' e hrun _ hs ih =>
    obtain ⟨hs, hcost⟩ := counting_step hs
    have hle := ih fun es' s e' s' hes => hstep es' s e' s' (hes.trans (List.prefix_append _ _))
    have hlast := hstep es p.1 e p'.1 (List.prefix_refl _) (Run.of_counting hrun) hs
    rw [List.countP_append, Nat.mul_add, hcost]
    have hone : (if pays e then k else 0) ≤ k * List.countP pays [e] := by
      by_cases he : pays e = true <;> simp [he]
    omega

end Machine

end Sesc.Lib
