import Mathlib.Tactic.Common

/-!
# Numbered slots

A resource with a number of units hands out slots in the order of their numbers: slot `k` is at the
time `k / units`.  A request that comes later than the next slot skips to the first slot of its
time.  A request takes the slot and the `step - 1` slots after it.

The same is done by a list with the time until which each unit is busy, from which a request takes
the unit that is free first, for one unit or steps of one slot.
-/

namespace Sesc.Lib.Slots

variable {units step : ℕ}

/-- The slot that a request at a time gets, when `k` is the next one. -/
def slot (units now k : ℕ) : ℕ := max k (units * now)

/-- The times that a sequence of requests is answered. -/
def answers (units step : ℕ) : List ℕ → ℕ → List ℕ
  | [], _ => []
  | now :: rest, k => slot units now k / units :: answers units step rest (slot units now k + step)

/-- Requests at one time, when its slots have been reached. -/
lemma answers_replicate {now k : ℕ} (hk : units * now ≤ k) (n : ℕ) :
    answers units step (List.replicate n now) k =
      (List.range n).map fun i => (k + i * step) / units := by
  induction n generalizing k with
  | zero => rfl
  | succ n ih =>
    have hslot : slot units now k = k := Nat.max_eq_left hk
    rw [List.replicate_succ, answers, hslot, ih (Nat.le_trans hk (Nat.le_add_right k step)),
      List.range_succ_eq_map, List.map_cons, List.map_map, Nat.zero_mul, Nat.add_zero]
    refine congrArg _ (List.map_congr_left fun i _ => ?_)
    rw [Function.comp_apply, Nat.succ_mul]
    congr 1
    omega

/-- Different slots are told apart by requests at one time. -/
lemma eq_of_answers (hunits : 0 < units) (hstep : units = 1 ∨ step = 1) {now k k' : ℕ}
    (hk : units * now ≤ k) (hk' : units * now ≤ k')
    (h : ∀ n, answers units step (List.replicate n now) k =
      answers units step (List.replicate n now) k') : k = k' := by
  have hall : ∀ i, (k + i * step) / units = (k' + i * step) / units := by
    intro i
    have hi := h (i + 1)
    rw [answers_replicate hk, answers_replicate hk'] at hi
    exact List.map_inj_left.1 hi i (List.mem_range.2 (Nat.lt_succ_self i))
  rcases hstep with rfl | rfl
  · have hzero := hall 0
    rwa [Nat.zero_mul, Nat.add_zero, Nat.add_zero, Nat.div_one, Nat.div_one] at hzero
  · -- the greater of the two comes to a new time before the other one does
    have hlt : ∀ {a b : ℕ}, a < b → (∀ i, (a + i * 1) / units = (b + i * 1) / units) → False := by
      intro a b hab heq
      have hmod := Nat.mod_lt b hunits
      have hdiv := Nat.div_add_mod b units
      obtain ⟨i, hi⟩ : ∃ i, b + i = units * (b / units + 1) := by
        refine ⟨units - b % units, ?_⟩
        rw [Nat.mul_succ]
        omega
      have hb : (b + i * 1) / units = b / units + 1 := by
        rw [Nat.mul_one, hi, Nat.mul_div_cancel_left _ hunits]
      have ha : (a + i * 1) / units < b / units + 1 := by
        rw [Nat.mul_one, Nat.div_lt_iff_lt_mul hunits, Nat.mul_comm, ← hi]
        omega
      have := heq i
      omega
    rcases Nat.lt_trichotomy k k' with hkk | hkk | hkk
    · exact (hlt hkk hall).elim
    · exact hkk
    · exact (hlt hkk fun i => (hall i).symm).elim

/-! ## The units and their busy times -/

/-- The times until which the units are busy when `k` is the next slot and the last request came at
the time `now`. -/
structure Busy (units now k : ℕ) (busy : List ℕ) : Prop where
  length_eq : busy.length = units
  le_of_mem : ∀ t ∈ busy, t ≤ k / units + 1
  countP_eq : (busy.countP fun t => t ≤ k / units) = units - k % units
  le_of_lt : now < k / units → ∀ t ∈ busy, k / units ≤ t

variable {now k : ℕ} {busy : List ℕ}

lemma Busy.new (hunits : 0 < units) (now : ℕ) :
    Busy units now (units * now) (List.replicate units now) := by
  have hdiv : units * now / units = now := Nat.mul_div_cancel_left now hunits
  refine ⟨List.length_replicate, ?_, ?_, ?_⟩
  · intro t ht
    rw [List.eq_of_mem_replicate ht, hdiv]
    exact Nat.le_succ now
  · rw [List.countP_replicate, hdiv, Nat.mul_mod_right, if_pos (decide_eq_true (Nat.le_refl now)),
      Nat.sub_zero]
  · intro hlt
    rw [hdiv] at hlt
    exact absurd hlt (Nat.lt_irrefl now)

/-- A request skips the slots of the times before it. -/
lemma Busy.skip (h : Busy units now k busy) (hunits : 0 < units) {later : ℕ} (hle : now ≤ later) :
    Busy units later (slot units later k) busy := by
  rcases Nat.le_total (units * later) k with hk | hk
  · rw [slot, Nat.max_eq_left hk]
    exact ⟨h.length_eq, h.le_of_mem, h.countP_eq, fun hlt => h.le_of_lt (Nat.lt_of_le_of_lt hle hlt)⟩
  rcases Nat.eq_or_lt_of_le hk with rfl | hk
  · rw [slot, Nat.max_self]
    exact ⟨h.length_eq, h.le_of_mem, h.countP_eq, fun hlt => h.le_of_lt (Nat.lt_of_le_of_lt hle hlt)⟩
  -- all units are free by the new time
  have hdiv : units * later / units = later := Nat.mul_div_cancel_left later hunits
  have hfree : ∀ t ∈ busy, t ≤ later := by
    intro t ht
    have hlt : k / units < later := (Nat.div_lt_iff_lt_mul hunits).2 (by rwa [Nat.mul_comm] at hk)
    have := h.le_of_mem t ht
    omega
  rw [slot, Nat.max_eq_right (Nat.le_of_lt hk)]
  refine ⟨h.length_eq, ?_, ?_, ?_⟩
  · intro t ht
    rw [hdiv]
    exact Nat.le_succ_of_le (hfree t ht)
  · rw [hdiv, Nat.mul_mod_right, Nat.sub_zero, ← h.length_eq, List.countP_eq_length]
    exact fun t ht => decide_eq_true (hfree t ht)
  · intro hlt
    rw [hdiv] at hlt
    exact absurd hlt (Nat.lt_irrefl later)

/-- The unit that is free first is free at the time of the next slot. -/
lemma Busy.earliest (h : Busy units now k busy) (hunits : 0 < units) (hk : units * now ≤ k)
    {i : ℕ} (hi : i < busy.length) (hmin : ∀ t ∈ busy, max now busy[i] ≤ max now t) :
    max now busy[i] = k / units ∧ busy[i] ≤ k / units := by
  have hnow : now ≤ k / units := (Nat.le_div_iff_mul_le hunits).2 (by rwa [Nat.mul_comm])
  have hmod := Nat.mod_lt k hunits
  have hpos : 0 < busy.countP fun t => t ≤ k / units := by
    rw [h.countP_eq]
    omega
  obtain ⟨t, ht, htle⟩ := List.countP_pos_iff.1 hpos
  have htle : t ≤ k / units := of_decide_eq_true htle
  have hle := hmin t ht
  refine ⟨?_, by omega⟩
  rcases Nat.eq_or_lt_of_le hnow with hnow | hnow
  · omega
  · have := h.le_of_lt hnow _ (List.getElem_mem hi)
    omega

/-- The only unit is busy until the next slot. -/
lemma Busy.set_of_units (h : Busy 1 now k busy) :
    Busy 1 now (k + step) (busy.set 0 (k + step)) := by
  obtain ⟨t, rfl⟩ := List.length_eq_one_iff.1 h.length_eq
  refine ⟨rfl, ?_, ?_, ?_⟩
  · intro t ht
    obtain rfl : t = k + step := List.mem_singleton.1 ht
    have hdiv := Nat.div_one (k + step)
    omega
  · rw [Nat.mod_one, Nat.sub_zero]
    refine List.countP_eq_length.2 fun t ht => ?_
    obtain rfl : t = k + step := List.mem_singleton.1 ht
    exact decide_eq_true (Nat.le_of_eq (Nat.div_one (k + step)).symm)
  · intro _ t ht
    obtain rfl : t = k + step := List.mem_singleton.1 ht
    exact Nat.le_of_eq (Nat.div_one (k + step))

/-- A unit that takes one slot is free at the next time. -/
lemma Busy.set_of_step (h : Busy units now k busy) (hunits : 0 < units) {i : ℕ}
    (hi : i < busy.length) (hle : busy[i] ≤ k / units) :
    Busy units now (k + 1) (busy.set i (k / units + 1)) := by
  have hmod := Nat.mod_lt k hunits
  have hk := Nat.div_add_mod k units
  have hmem : ∀ t ∈ busy.set i (k / units + 1), t ≤ k / units + 1 := by
    intro t ht
    rcases List.mem_or_eq_of_mem_set ht with ht | rfl
    · exact h.le_of_mem t ht
    · exact Nat.le_refl _
  have hcount : ((busy.set i (k / units + 1)).countP fun t => decide (t ≤ k / units)) =
      units - k % units - 1 := by
    rw [List.countP_set hi, h.countP_eq, if_pos (decide_eq_true hle),
      if_neg fun hlt => Nat.not_succ_le_self _ (of_decide_eq_true hlt), Nat.add_zero]
  have hnext : k + 1 = units * (k / units) + (k % units + 1) := by omega
  by_cases hlast : k % units + 1 < units
  · have hdiv : (k + 1) / units = k / units := by
      rw [hnext, Nat.mul_add_div hunits, Nat.div_eq_of_lt hlast, Nat.add_zero]
    have hmod' : (k + 1) % units = k % units + 1 := by
      rw [hnext, Nat.mul_add_mod, Nat.mod_eq_of_lt hlast]
    refine ⟨by rw [List.length_set, h.length_eq], ?_, ?_, ?_⟩
    · rwa [hdiv]
    · rw [hdiv, hcount, hmod']
      omega
    · intro hlt t ht
      rw [hdiv] at hlt ⊢
      rcases List.mem_or_eq_of_mem_set ht with ht | rfl
      · exact h.le_of_lt hlt t ht
      · exact Nat.le_succ _
  · -- it was the last unit of this time
    have hunits' : k % units + 1 = units := by omega
    have hdiv : (k + 1) / units = k / units + 1 := by
      rw [hnext, hunits', ← Nat.mul_succ, Nat.mul_div_cancel_left _ hunits]
    have hmod' : (k + 1) % units = 0 := by
      rw [hnext, hunits', ← Nat.mul_succ, Nat.mul_mod_right]
    have hnone : ∀ t ∈ busy.set i (k / units + 1), ¬t ≤ k / units := by
      have hzero : units - k % units - 1 = 0 := by omega
      rw [hzero, List.countP_eq_zero] at hcount
      exact fun t ht hle => hcount t ht (decide_eq_true hle)
    refine ⟨by rw [List.length_set, h.length_eq], ?_, ?_, ?_⟩
    · intro t ht
      rw [hdiv]
      exact Nat.le_succ_of_le (hmem t ht)
    · rw [hdiv, hmod', Nat.sub_zero]
      have hlength : (busy.set i (k / units + 1)).length = units := by
        rw [List.length_set, h.length_eq]
      rw [List.countP_eq_length.2 fun t ht => decide_eq_true (hmem t ht), hlength]
    · intro _ t ht
      rw [hdiv]
      exact Nat.lt_of_not_le (hnone t ht)

/-- The unit that is free first is then busy for the slots that are taken. -/
lemma Busy.set (h : Busy units now k busy) (hunits : 0 < units) (hstep : units = 1 ∨ step = 1)
    {i : ℕ} (hi : i < busy.length) (hle : busy[i] ≤ k / units) :
    Busy units now (k + step) (busy.set i (k / units + step)) := by
  rcases hstep with rfl | rfl
  · rw [h.length_eq] at hi
    cases Nat.lt_one_iff.1 hi
    rw [Nat.div_one]
    exact h.set_of_units
  · exact h.set_of_step hunits hi hle

end Sesc.Lib.Slots
