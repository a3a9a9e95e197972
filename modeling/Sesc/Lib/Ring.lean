import Mathlib.Data.Nat.ModEq
import Mathlib.Logic.Function.Basic
import Mathlib.Tactic.Common

/-!
# Rings of cells

A ring of `cap` cells holds a list in the cells from a start on, with wrap-around.  An element that is
appended goes to the cell after the last one, and the first one is removed by moving the start.
-/

namespace Sesc.Lib.Ring

variable {α : Type*} {cells : ℕ → α} {cap start n : ℕ}

/-- What the `n` cells from `start` on hold. -/
def window (cells : ℕ → α) (cap start n : ℕ) : List α :=
  (List.range n).map fun i => cells ((start + i) % cap)

@[simp] lemma window_zero : window cells cap start 0 = [] := rfl

@[simp] lemma length_window : (window cells cap start n).length = n := by simp [window]

variable (start) in
/-- Two cells of one turn are different. -/
lemma add_mod_ne {i : ℕ} (hi : i < n) (hn : n < cap) : (start + i) % cap ≠ (start + n) % cap := by
  intro h
  have hmod : i % cap = n % cap := Nat.ModEq.add_left_cancel' start h
  rw [Nat.mod_eq_of_lt (hi.trans hn), Nat.mod_eq_of_lt hn] at hmod
  omega

/-- The cell after the last one is free, unless the ring is full. -/
lemma window_succ_update (d : α) (hn : n < cap) :
    window (Function.update cells ((start + n) % cap) d) cap start (n + 1) =
      window cells cap start n ++ [d] := by
  rw [window, List.range_succ, List.map_append, List.map_singleton, Function.update_self]
  congr 1
  refine List.map_congr_left fun i hi => ?_
  exact Function.update_of_ne (add_mod_ne start (List.mem_range.1 hi) hn) _ _

lemma window_succ : window cells cap start (n + 1) =
    cells (start % cap) :: window cells cap ((start + 1) % cap) n := by
  rw [window, List.range_succ_eq_map, List.map_cons, List.map_map, Nat.add_zero, window]
  congr 1
  refine List.map_congr_left fun i _ => ?_
  rw [Function.comp_apply, Nat.mod_add_mod]
  congr 2
  omega

end Sesc.Lib.Ring
