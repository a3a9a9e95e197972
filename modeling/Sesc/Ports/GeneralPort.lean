import Sesc.Ports.Agreement

/-!
# The general port as numbered slots

`PortNPipe` takes the unit that is free first.  With one unit or occupancy 1 its busy times are those
of numbered slots, and it returns the times of the slots.
-/

namespace Sesc.Ports

open Lib

/-- The occupancy is added to a time as it is when it is the same as an `int32_t`. -/
lemma addInt_toInt32 {t occ : ℕ} (hocc : 2 * occ < wordRange) :
    addInt t (toInt32 occ) = t + occ := by
  have hnonneg : ¬(t : ℤ) + occ < 0 := by omega
  rw [toInt32, if_pos hocc, addInt, if_neg hnonneg]
  show ((t : ℤ) + occ).toNat = t + occ
  omega

namespace PortNPipe

variable {globalClock : ℕ} {p : PortNPipe}

/-- The loop keeps the unit that is free first among those it has seen. -/
lemma select_spec (globalClock : ℕ) (ts : List ℕ) (i bufPort bufTime : ℕ)
    (hbuf : globalClock ≤ bufTime) :
    (select globalClock ts i bufPort bufTime = (bufPort, bufTime) ∨
      ∃ (m x : ℕ), ts[m]? = some x ∧
        select globalClock ts i bufPort bufTime = (i + m, max globalClock x)) ∧
    (select globalClock ts i bufPort bufTime).2 ≤ bufTime ∧
    ∀ x ∈ ts, (select globalClock ts i bufPort bufTime).2 ≤ max globalClock x := by
  induction ts generalizing i bufPort bufTime with
  | nil =>
    exact ⟨.inl rfl, Nat.le_refl _, fun x hx => absurd hx List.not_mem_nil⟩
  | cons t rest ih =>
    rw [select]
    by_cases hfree : t < globalClock
    · rw [if_pos hfree]
      refine ⟨.inr ⟨0, t, rfl, ?_⟩, hbuf, fun x _ => Nat.le_max_left _ _⟩
      rw [Nat.add_zero, Nat.max_eq_left (Nat.le_of_lt hfree)]
    rw [if_neg hfree]
    have ht : max globalClock t = t := Nat.max_eq_right (Nat.le_of_not_lt hfree)
    by_cases hlt : t < bufTime
    · rw [if_pos hlt]
      obtain ⟨hfound, hle, hall⟩ := ih (i + 1) i t (Nat.le_of_not_lt hfree)
      refine ⟨.inr ?_, Nat.le_trans hle (Nat.le_of_lt hlt), ?_⟩
      · rcases hfound with hfound | ⟨m, x, hm, hfound⟩
        · refine ⟨0, t, rfl, ?_⟩
          rw [hfound, ht, Nat.add_zero]
        · refine ⟨m + 1, x, hm, ?_⟩
          rw [hfound, Nat.add_right_comm, Nat.add_assoc]
      · intro x hx
        rcases List.mem_cons.1 hx with rfl | hx
        · rwa [ht]
        · exact hall x hx
    · rw [if_neg hlt]
      obtain ⟨hfound, hle, hall⟩ := ih (i + 1) bufPort bufTime hbuf
      refine ⟨?_, hle, ?_⟩
      · rcases hfound with hfound | ⟨m, x, hm, hfound⟩
        · exact .inl hfound
        · refine .inr ⟨m + 1, x, hm, ?_⟩
          rw [hfound, Nat.add_right_comm, Nat.add_assoc]
      · intro x hx
        rcases List.mem_cons.1 hx with rfl | hx
        · rw [ht]
          exact Nat.le_trans hle (Nat.le_of_not_lt hlt)
        · exact hall x hx

/-- `nextSlot` takes the unit that is free first. -/
lemma taken_spec (globalClock : ℕ) (hp : p.portBusyUntil ≠ []) :
    (∃ t, p.portBusyUntil[(p.taken globalClock).1]? = some t ∧
      (p.taken globalClock).2 = max globalClock t) ∧
    ∀ t ∈ p.portBusyUntil, (p.taken globalClock).2 ≤ max globalClock t := by
  obtain ⟨ocp, busy⟩ := p
  cases busy with
  | nil => exact absurd rfl hp
  | cons bufTime rest =>
    rw [taken]
    simp only
    by_cases hfree : bufTime < globalClock
    · rw [if_pos hfree]
      refine ⟨⟨bufTime, rfl, (Nat.max_eq_left (Nat.le_of_lt hfree)).symm⟩, ?_⟩
      exact fun t _ => Nat.le_max_left _ _
    rw [if_neg hfree]
    have hbuf : max globalClock bufTime = bufTime := Nat.max_eq_right (Nat.le_of_not_lt hfree)
    obtain ⟨hfound, hle, hall⟩ :=
      select_spec globalClock rest 1 0 bufTime (Nat.le_of_not_lt hfree)
    constructor
    · rcases hfound with hfound | ⟨m, x, hm, hfound⟩
      · rw [hfound]
        exact ⟨bufTime, rfl, hbuf.symm⟩
      · rw [hfound]
        refine ⟨x, ?_, rfl⟩
        rw [Nat.add_comm, List.getElem?_cons_succ, hm]
    · intro t ht
      rcases List.mem_cons.1 ht with rfl | ht
      · rwa [hbuf]
      · exact hall t ht

/-- The loop of `calcNextSlot` finds the least of the busy times. -/
lemma foldl_min_spec (t : ℕ) (rest : List ℕ) :
    rest.foldl (fun firsttime t => if t < firsttime then t else firsttime) t ∈ t :: rest ∧
      ∀ x ∈ t :: rest,
        rest.foldl (fun firsttime t => if t < firsttime then t else firsttime) t ≤ x := by
  induction rest generalizing t with
  | nil =>
    refine ⟨List.mem_singleton.2 rfl, fun x hx => ?_⟩
    rw [List.mem_singleton.1 hx]
    exact Nat.le_refl _
  | cons t' rest ih =>
    rw [List.foldl_cons]
    obtain ⟨hmem, hle⟩ := ih (if t' < t then t' else t)
    have hfirst := hle _ List.mem_cons_self
    refine ⟨?_, ?_⟩
    · rcases List.mem_cons.1 hmem with heq | hmem
      · rw [heq]
        split
        · exact List.mem_cons_of_mem _ List.mem_cons_self
        · exact List.mem_cons_self
      · exact List.mem_cons_of_mem _ (List.mem_cons_of_mem _ hmem)
    · intro x hx
      rcases List.mem_cons.1 hx with rfl | hx
      · refine Nat.le_trans hfirst ?_
        split <;> omega
      · rcases List.mem_cons.1 hx with rfl | hx
        · refine Nat.le_trans hfirst ?_
          split <;> omega
        · exact hle x (List.mem_cons_of_mem _ hx)

/-- The least time from now on is found from the least busy time. -/
lemma least_eq {t time firsttime : ℕ} (htime : time = max globalClock t)
    (hle : time ≤ max globalClock firsttime) (hfirst : firsttime ≤ t) :
    (if firsttime < globalClock then globalClock else firsttime) = time := by
  split <;> omega

/-- `calcNextSlot` tells what `nextSlot` returns. -/
lemma calcNextSlot_eq (globalClock : ℕ) (hp : p.portBusyUntil ≠ []) :
    p.calcNextSlot globalClock = (p.nextSlot globalClock).1 := by
  show p.calcNextSlot globalClock = (p.taken globalClock).2
  obtain ⟨⟨t, ht, htime⟩, hmin⟩ := taken_spec globalClock hp
  obtain ⟨ocp, busy⟩ := p
  cases busy with
  | nil => exact absurd rfl hp
  | cons bufTime rest =>
    obtain ⟨hmem, hle⟩ := foldl_min_spec bufTime rest
    rw [calcNextSlot]
    simp only
    exact least_eq htime (hmin _ hmem) (hle t (List.mem_of_getElem? ht))

lemma ne_nil_of_busy {units next : ℕ} (hp : Slots.Busy units globalClock next p.portBusyUntil)
    (hunits : 0 < units) : p.portBusyUntil ≠ [] := by
  intro h
  have hlength := hp.length_eq
  rw [h] at hlength
  exact absurd hlength (Nat.ne_of_lt hunits)

/-- The unit that is taken is free at the time of the next slot, and is taken then. -/
lemma taken_of_busy {units next : ℕ} (hp : Slots.Busy units globalClock next p.portBusyUntil)
    (hunits : 0 < units) (hnext : units * globalClock ≤ next) :
    (p.taken globalClock).2 = next / units ∧
      ∃ hi : (p.taken globalClock).1 < p.portBusyUntil.length,
        p.portBusyUntil[(p.taken globalClock).1] ≤ next / units := by
  obtain ⟨⟨t, ht, htime⟩, hmin⟩ := taken_spec globalClock (ne_nil_of_busy hp hunits)
  obtain ⟨hi, hget⟩ := List.getElem?_eq_some_iff.1 ht
  rw [← hget] at htime
  obtain ⟨hearliest, hle⟩ := hp.earliest hunits hnext hi (fun t ht => htime ▸ hmin t ht)
  exact ⟨htime.trans hearliest, hi, hle⟩

/-- A call of `nextSlot` keeps the busy times those of the slots. -/
lemma nextSlot_of_busy {units next : ℕ} (hp : Slots.Busy units globalClock next p.portBusyUntil)
    (hunits : 0 < units) (hnext : units * globalClock ≤ next)
    (hkind : units = 1 ∨ p.ocp = 1) (hocp : 2 * p.ocp < wordRange) :
    Slots.Busy units globalClock (next + p.ocp) (p.nextSlot globalClock).2.portBusyUntil := by
  obtain ⟨htime, hi, hle⟩ := taken_of_busy hp hunits hnext
  show Slots.Busy _ _ _ (p.portBusyUntil.set (p.taken globalClock).1
    (addInt (p.taken globalClock).2 (toInt32 p.ocp)))
  rw [addInt_toInt32 hocp, htime]
  exact hp.set hunits hkind hi hle

end PortNPipe

end Sesc.Ports
