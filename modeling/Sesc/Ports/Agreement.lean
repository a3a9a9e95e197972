import Sesc.Lib.Slots
import Sesc.Ports.Port

/-!
# The specialised ports and the general one

A port of one unit, or of occupancy 1, hands out numbered slots.  The specialised ports keep the
number of the next one; the general port keeps the times that go with it.
-/

namespace Sesc.Ports

open Lib

/-! ## The special ports -/

/-- The classes of special ports, with their configuration. -/
inductive Special
  | fullyPipe
  | fullyNPipe (nFU : ℕ)
  | pipe (occ : TimeDelta)
deriving DecidableEq, Repr

namespace Special

/-- The number of units. -/
def units : Special → ℕ
  | fullyPipe => 1
  | fullyNPipe nFU => nFU
  | pipe _ => 1

/-- The occupancy. -/
def occupancy : Special → TimeDelta
  | fullyPipe => 1
  | fullyNPipe _ => 1
  | pipe occ => occ

/-- A new port of the class. -/
def port : Special → Time → PortGeneric
  | fullyPipe, globalClock => .fullyPipe (.new globalClock)
  | fullyNPipe nFU, globalClock => .fullyNPipe (.new nFU globalClock)
  | pipe occ, globalClock => .pipe (.new occ globalClock)

/-- A new general port with the same units and the same occupancy. -/
def generalPort (k : Special) (globalClock : Time) : PortGeneric :=
  .nPipe (.new k.units k.occupancy globalClock)

end Special

namespace PortGeneric

/-- The times that calls of `nextSlot` return. -/
def nextSlotTimes : List Time → PortGeneric → List Time
  | [], _ => []
  | globalClock :: rest, p =>
    (p.nextSlot globalClock).1 :: nextSlotTimes rest (p.nextSlot globalClock).2

/-- `occupySlots` does what its comment says: it returns the same time, and all later calls of
`nextSlot` return the same times. -/
def BatchAgrees (globalClock : Time) (nSlots : ℕ) (p : PortGeneric) : Prop :=
  ∃ t p', p.occupySlots globalClock nSlots = .ok (t, p') ∧
    t = (p.documentedSlots globalClock nSlots).1 ∧
    ∀ times, (globalClock :: times).Pairwise (· ≤ ·) → p'.nextSlotTimes times =
      (p.documentedSlots globalClock nSlots).2.nextSlotTimes times

/-- When `occupySlots` of a special port does what its comment says. -/
def Batches (globalClock : Time) (nSlots : ℕ) : PortGeneric → Prop
  | fullyPipe _ => 0 < nSlots
  | fullyNPipe p =>
    (p.nUnitsMinusOne + 1) * (nSlots / (p.nUnitsMinusOne + 1)) +
        (if p.lTime < globalClock then p.nUnitsMinusOne + 1 - p.freeUnits else 0) =
      max nSlots 1 ∧ (p.lTime < globalClock ∨ 0 < p.freeUnits)
  | pipe p => 1 < p.ocp ∧ 0 < nSlots ∧ p.ocp * nSlots < wordRange
  | nPipe _ => True

instance (globalClock : Time) (nSlots : ℕ) : ∀ p : PortGeneric,
    Decidable (p.Batches globalClock nSlots)
  | fullyPipe _ => inferInstanceAs (Decidable (_ < _))
  | fullyNPipe _ => inferInstanceAs (Decidable (_ ∧ _))
  | pipe _ => inferInstanceAs (Decidable (_ ∧ _ ∧ _))
  | nPipe _ => inferInstanceAs (Decidable True)

/-- The occupancy of a `PortPipe` is the same as an `int32_t`. -/
def OccupancyFits : PortGeneric → Prop
  | pipe p => 2 * p.ocp < wordRange
  | _ => True

instance : ∀ p : PortGeneric, Decidable p.OccupancyFits
  | fullyPipe _ => inferInstanceAs (Decidable True)
  | fullyNPipe _ => inferInstanceAs (Decidable True)
  | pipe _ => inferInstanceAs (Decidable (_ < _))
  | nPipe _ => inferInstanceAs (Decidable True)

/-- A special port is one of a class, in a state that it can be in. -/
def IsSpecial (k : Special) : PortGeneric → Prop
  | fullyPipe _ => k = .fullyPipe
  | fullyNPipe p => k = .fullyNPipe (p.nUnitsMinusOne + 1) ∧ p.freeUnits ≤ p.nUnitsMinusOne + 1
  | pipe p => k = .pipe p.ocp
  | nPipe _ => False

/-- The number of the next slot of a special port. -/
def next : PortGeneric → ℕ
  | fullyPipe p => p.lTime
  | fullyNPipe p =>
    (p.nUnitsMinusOne + 1) * p.lTime + (p.nUnitsMinusOne + 1 - p.freeUnits)
  | pipe p => p.lTime
  | nPipe _ => 0

end PortGeneric

variable {k : Special} {p : PortGeneric} {globalClock : Time}

namespace PortGeneric

lemma units_pos (hp : p.IsSpecial k) : 0 < k.units := by
  cases p with
  | fullyPipe p =>
    cases hp
    exact Nat.one_pos
  | fullyNPipe p =>
    obtain ⟨rfl, -⟩ := hp
    exact Nat.succ_pos _
  | pipe p =>
    cases hp
    exact Nat.one_pos
  | nPipe p => exact hp.elim

lemma units_or_occupancy (k : Special) : k.units = 1 ∨ k.occupancy = 1 := by
  cases k with
  | fullyPipe => exact .inl rfl
  | fullyNPipe nFU => exact .inr rfl
  | pipe occ => exact .inl rfl

/-- The number of a slot of one unit is its time. -/
lemma slot_one (globalClock lTime : ℕ) :
    Slots.slot 1 globalClock lTime = if lTime < globalClock then globalClock else lTime := by
  rw [Slots.slot, Nat.one_mul]
  split <;> omega

/-- `nextSlot` hands out the next slot. -/
lemma nextSlot_of_isSpecial (globalClock : Time) (hp : p.IsSpecial k) :
    (p.nextSlot globalClock).1 = Slots.slot k.units globalClock p.next / k.units ∧
      (p.nextSlot globalClock).2.next =
        Slots.slot k.units globalClock p.next + k.occupancy ∧
      (p.nextSlot globalClock).2.IsSpecial k := by
  cases p with
  | fullyPipe p =>
    cases hp
    show (if p.lTime < globalClock then globalClock else p.lTime) = _ / 1 ∧
      (if p.lTime < globalClock then globalClock else p.lTime) + 1 = _ + 1 ∧ _
    rw [Nat.div_one]
    show _ = Slots.slot 1 globalClock p.lTime ∧ _ = Slots.slot 1 globalClock p.lTime + 1 ∧ _
    rw [slot_one]
    exact ⟨rfl, rfl, rfl⟩
  | fullyNPipe p =>
    obtain ⟨rfl, hfree⟩ := hp
    obtain ⟨n, free, lTime⟩ := p
    have hfree : free ≤ n + 1 := hfree
    show _ = Slots.slot (n + 1) globalClock ((n + 1) * lTime + (n + 1 - free)) / (n + 1) ∧
      _ = Slots.slot (n + 1) globalClock ((n + 1) * lTime + (n + 1 - free)) + 1 ∧ _
    simp only [PortGeneric.nextSlot, PortFullyNPipe.nextSlot]
    split
    · -- the slots of this time are all free
      rename_i hlt
      have hmul : (n + 1) * lTime + (n + 1) ≤ (n + 1) * globalClock := by
        rw [← Nat.mul_succ]
        exact Nat.mul_le_mul_left _ hlt
      have hslot : Slots.slot (n + 1) globalClock ((n + 1) * lTime + (n + 1 - free)) =
          (n + 1) * globalClock := Nat.max_eq_right (by omega)
      rw [hslot, Nat.mul_div_cancel_left _ (Nat.succ_pos n)]
      refine ⟨rfl, ?_, rfl, Nat.le_succ n⟩
      show (n + 1) * globalClock + (n + 1 - n) = _
      omega
    · rename_i hle
      have hmul : (n + 1) * globalClock ≤ (n + 1) * lTime :=
        Nat.mul_le_mul_left _ (Nat.le_of_not_lt hle)
      have hslot : Slots.slot (n + 1) globalClock ((n + 1) * lTime + (n + 1 - free)) =
          (n + 1) * lTime + (n + 1 - free) := Nat.max_eq_left (by omega)
      rw [hslot]
      split
      · rename_i hpos
        refine ⟨?_, ?_, rfl, ?_⟩
        · show lTime = _
          rw [Nat.mul_add_div (Nat.succ_pos n), Nat.div_eq_of_lt (by omega), Nat.add_zero]
        · show (n + 1) * lTime + (n + 1 - (free - 1)) = _
          omega
        · show free - 1 ≤ n + 1
          omega
      · rename_i hzero
        have hzero : free = 0 := Nat.eq_zero_of_not_pos hzero
        subst hzero
        refine ⟨?_, ?_, rfl, Nat.le_succ n⟩
        · show lTime + 1 = _
          rw [Nat.sub_zero, ← Nat.mul_succ, Nat.mul_div_cancel_left _ (Nat.succ_pos n)]
        · show (n + 1) * (lTime + 1) + (n + 1 - n) = _
          rw [Nat.mul_succ]
          omega
  | pipe p =>
    cases hp
    show (if p.lTime < globalClock then globalClock else p.lTime) = _ / 1 ∧
      (if p.lTime < globalClock then globalClock else p.lTime) + p.ocp = _ + p.ocp ∧ _
    rw [Nat.div_one]
    show _ = Slots.slot 1 globalClock p.lTime ∧ _ = Slots.slot 1 globalClock p.lTime + p.ocp ∧ _
    rw [slot_one]
    exact ⟨rfl, rfl, rfl⟩
  | nPipe p => exact hp.elim

/-- `calcNextSlot` of a special port tells what `nextSlot` returns. -/
lemma calcNextSlot_of_isSpecial (globalClock : Time) (hp : p.IsSpecial k) :
    p.calcNextSlot globalClock = (p.nextSlot globalClock).1 := by
  cases p with
  | fullyPipe p => rfl
  | fullyNPipe p =>
    simp only [PortGeneric.calcNextSlot, PortFullyNPipe.calcNextSlot, PortGeneric.nextSlot,
      PortFullyNPipe.nextSlot]
    by_cases hlt : p.lTime < globalClock
    · rw [if_pos hlt, if_pos hlt]
      rfl
    · rw [if_neg hlt, if_neg hlt]
      by_cases hfree : p.freeUnits = 0
      · rw [if_pos hfree, if_neg (by omega)]
        rfl
      · rw [if_neg hfree, if_pos (Nat.pos_of_ne_zero hfree)]
        rfl
  | pipe p => rfl
  | nPipe p => exact hp.elim

/-- The calls of `nextSlot` return the times of the slots in their order. -/
lemma nextSlotTimes_of_isSpecial (times : List Time) (hp : p.IsSpecial k) :
    p.nextSlotTimes times = Slots.answers k.units k.occupancy times p.next := by
  induction times generalizing p with
  | nil => rfl
  | cons globalClock rest ih =>
    obtain ⟨htime, hnext, hp'⟩ := nextSlot_of_isSpecial globalClock hp
    rw [nextSlotTimes, Slots.answers, htime, ih hp', hnext]

/-- A number of calls of `nextSlot` at a time whose slots have been reached. -/
lemma nextSlots_of_isSpecial (n : ℕ) (hp : p.IsSpecial k) (hk : k.units * globalClock ≤ p.next) :
    (nextSlots globalClock n p).next = p.next + k.occupancy * n ∧
      (nextSlots globalClock n p).IsSpecial k := by
  induction n generalizing p with
  | zero => exact ⟨rfl, hp⟩
  | succ n ih =>
    obtain ⟨-, hnext, hp'⟩ := nextSlot_of_isSpecial globalClock hp
    rw [Slots.slot, Nat.max_eq_left hk] at hnext
    obtain ⟨hnext', hp''⟩ := ih hp' (by omega)
    refine ⟨?_, hp''⟩
    rw [nextSlots, hnext', hnext, Nat.mul_succ]
    omega

/-- What the comment on `occupySlots` says, in slots. -/
lemma documentedSlots_of_isSpecial (globalClock : Time) (nSlots : ℕ) (hp : p.IsSpecial k) :
    (p.documentedSlots globalClock nSlots).1 =
        Slots.slot k.units globalClock p.next / k.units ∧
      (p.documentedSlots globalClock nSlots).2.next =
        Slots.slot k.units globalClock p.next + k.occupancy * max nSlots 1 ∧
      (p.documentedSlots globalClock nSlots).2.IsSpecial k := by
  obtain ⟨htime, hnext, hp'⟩ := nextSlot_of_isSpecial globalClock hp
  have hreached : k.units * globalClock ≤ (p.nextSlot globalClock).2.next := by
    rw [hnext]
    exact Nat.le_trans (Nat.le_max_right _ _) (Nat.le_add_right _ _)
  obtain ⟨hnext', hp''⟩ := nextSlots_of_isSpecial (nSlots - 1) hp' hreached
  refine ⟨htime, ?_, hp''⟩
  show (nextSlots globalClock (nSlots - 1) (p.nextSlot globalClock).2).next = _
  have hn : max nSlots 1 = 1 + (nSlots - 1) := by omega
  rw [hnext', hnext, hn, Nat.mul_add, Nat.mul_one, Nat.add_assoc]

/-- Special ports of one class return the same times from a time on exactly when their next slots
are the same. -/
lemma nextSlotTimes_eq_iff {p' : PortGeneric} (hp : p.IsSpecial k) (hp' : p'.IsSpecial k)
    (hk : k.units * globalClock ≤ p.next) (hk' : k.units * globalClock ≤ p'.next) :
    (∀ times, (globalClock :: times).Pairwise (· ≤ ·) →
      p.nextSlotTimes times = p'.nextSlotTimes times) ↔ p.next = p'.next := by
  constructor
  · intro h
    refine Slots.eq_of_answers (units_pos hp) (units_or_occupancy k) hk hk' fun n => ?_
    rw [← nextSlotTimes_of_isSpecial _ hp, ← nextSlotTimes_of_isSpecial _ hp']
    refine h _ ?_
    rw [← List.replicate_succ]
    exact List.pairwise_replicate.2 (.inr (Nat.le_refl globalClock))
  · intro h times _
    rw [nextSlotTimes_of_isSpecial _ hp, nextSlotTimes_of_isSpecial _ hp', h]

/-- `occupySlots` of a special port does what its comment says when its answer and the next slot
after it do. -/
lemma batchAgrees_iff_next {nSlots : ℕ} {t : Time} {p' : PortGeneric} (hp : p.IsSpecial k)
    (hp' : p'.IsSpecial k) (hk : k.units * globalClock ≤ p'.next)
    (hcall : p.occupySlots globalClock nSlots = .ok (t, p')) :
    p.BatchAgrees globalClock nSlots ↔ t = Slots.slot k.units globalClock p.next / k.units ∧
      p'.next = Slots.slot k.units globalClock p.next + k.occupancy * max nSlots 1 := by
  obtain ⟨htime, hnext, hdoc⟩ := documentedSlots_of_isSpecial globalClock nSlots hp
  have hreached : k.units * globalClock ≤ (p.documentedSlots globalClock nSlots).2.next := by
    rw [hnext]
    exact Nat.le_trans (Nat.le_max_right _ _) (Nat.le_add_right _ _)
  rw [BatchAgrees, ← htime, ← hnext, ← nextSlotTimes_eq_iff hp' hdoc hk hreached]
  constructor
  · rintro ⟨t', p'', hcall', ht, htimes⟩
    cases hcall.symm.trans hcall'
    exact ⟨ht, htimes⟩
  · rintro ⟨ht, htimes⟩
    exact ⟨t, p', hcall, ht, htimes⟩

/-- `occupySlots` leaves the class as it is and takes no slot of a time before. -/
lemma isSpecial_of_occupySlots {nSlots : ℕ} {t : Time} {p' : PortGeneric} (hp : p.IsSpecial k)
    (hcall : p.occupySlots globalClock nSlots = .ok (t, p')) :
    p'.IsSpecial k ∧ k.units * globalClock ≤ p'.next := by
  cases p with
  | fullyPipe p =>
    cases hp
    cases hcall
    refine ⟨rfl, ?_⟩
    show 1 * globalClock ≤ (if p.lTime < globalClock then globalClock else p.lTime) + nSlots
    rw [← slot_one]
    exact Nat.le_trans (Nat.le_max_right _ _) (Nat.le_add_right _ _)
  | fullyNPipe p =>
    obtain ⟨rfl, hfree⟩ := hp
    cases hcall
    refine ⟨⟨rfl, hfree⟩, ?_⟩
    show (p.nUnitsMinusOne + 1) * globalClock ≤ (p.nUnitsMinusOne + 1) *
      ((if p.lTime < globalClock then globalClock else p.lTime) +
        nSlots / (p.nUnitsMinusOne + 1)) + (p.nUnitsMinusOne + 1 - p.freeUnits)
    have hle : globalClock ≤ if p.lTime < globalClock then globalClock else p.lTime := by
      rw [← slot_one]
      exact Nat.le_trans (Nat.le_of_eq (Nat.one_mul _).symm) (Nat.le_max_right _ _)
    exact Nat.le_trans (Nat.mul_le_mul_left _ (Nat.le_add_right_of_le hle)) (Nat.le_add_right _ _)
  | pipe p =>
    cases hp
    obtain ⟨r, hr, hret⟩ := bind_eq_ok.1 hcall
    obtain ⟨-, hr⟩ := check_bind_eq_ok.1 hr
    cases hr
    cases hret
    refine ⟨rfl, ?_⟩
    show 1 * globalClock ≤ (if p.lTime < globalClock then globalClock else p.lTime) +
      p.ocp * nSlots % wordRange
    rw [← slot_one]
    exact Nat.le_trans (Nat.le_max_right _ _) (Nat.le_add_right _ _)
  | nPipe p => exact hp.elim

lemma batches_fullyPipe (globalClock : Time) (nSlots : ℕ) (p : PortFullyPipe) :
    (fullyPipe p).BatchAgrees globalClock nSlots ↔ (fullyPipe p).Batches globalClock nSlots := by
  have hp : (fullyPipe p).IsSpecial .fullyPipe := rfl
  have hp' : (fullyPipe ⟨Slots.slot 1 globalClock p.lTime + nSlots⟩).IsSpecial .fullyPipe := rfl
  have hreached : 1 * globalClock ≤ Slots.slot 1 globalClock p.lTime + nSlots :=
    Nat.le_trans (Nat.le_max_right _ _) (Nat.le_add_right _ _)
  have hcall : (fullyPipe p).occupySlots globalClock nSlots = .ok (Slots.slot 1 globalClock p.lTime,
      .fullyPipe ⟨Slots.slot 1 globalClock p.lTime + nSlots⟩) := by
    rw [slot_one]
    rfl
  rw [batchAgrees_iff_next hp hp' hreached hcall]
  show _ = Slots.slot 1 globalClock p.lTime / 1 ∧ Slots.slot 1 globalClock p.lTime + nSlots =
    Slots.slot 1 globalClock p.lTime + 1 * max nSlots 1 ↔ 0 < nSlots
  rw [Nat.div_one]
  omega

lemma batches_fullyNPipe (globalClock nSlots n free lTime : ℕ)
    (hfree : free ≤ n + 1) :
    (fullyNPipe ⟨n, free, lTime⟩).BatchAgrees globalClock nSlots ↔
      (fullyNPipe ⟨n, free, lTime⟩).Batches globalClock nSlots := by
  generalize hT : (if lTime < globalClock then globalClock else lTime) = T
  have hp : (fullyNPipe ⟨n, free, lTime⟩).IsSpecial (.fullyNPipe (n + 1)) := ⟨rfl, hfree⟩
  have hp' : (fullyNPipe ⟨n, free, T + nSlots / (n + 1)⟩).IsSpecial (.fullyNPipe (n + 1)) :=
    ⟨rfl, hfree⟩
  have hreached : (n + 1) * globalClock ≤ (n + 1) * (T + nSlots / (n + 1)) + (n + 1 - free) := by
    have hle : globalClock ≤ T := by
      rw [← hT]
      split <;> omega
    exact Nat.le_trans (Nat.mul_le_mul_left _ (Nat.le_add_right_of_le hle)) (Nat.le_add_right _ _)
  have hcall : (fullyNPipe ⟨n, free, lTime⟩).occupySlots globalClock nSlots =
      .ok (T, .fullyNPipe ⟨n, free, T + nSlots / (n + 1)⟩) := by
    rw [← hT]
    rfl
  rw [batchAgrees_iff_next hp hp' hreached hcall]
  show T = Slots.slot (n + 1) globalClock ((n + 1) * lTime + (n + 1 - free)) / (n + 1) ∧
      (n + 1) * (T + nSlots / (n + 1)) + (n + 1 - free) =
        Slots.slot (n + 1) globalClock ((n + 1) * lTime + (n + 1 - free)) + 1 * max nSlots 1 ↔
    (n + 1) * (nSlots / (n + 1)) + (if lTime < globalClock then n + 1 - free else 0) =
      max nSlots 1 ∧ (lTime < globalClock ∨ 0 < free)
  rw [Nat.mul_add]
  by_cases hlt : lTime < globalClock
  · have hmul : (n + 1) * lTime + (n + 1) ≤ (n + 1) * globalClock := by
      rw [← Nat.mul_succ]
      exact Nat.mul_le_mul_left _ hlt
    have hslot : Slots.slot (n + 1) globalClock ((n + 1) * lTime + (n + 1 - free)) =
        (n + 1) * globalClock := Nat.max_eq_right (by omega)
    rw [hslot, Nat.mul_div_cancel_left _ (Nat.succ_pos n), ← hT, if_pos hlt, if_pos hlt]
    omega
  · have hmul : (n + 1) * globalClock ≤ (n + 1) * lTime :=
      Nat.mul_le_mul_left _ (Nat.le_of_not_lt hlt)
    have hslot : Slots.slot (n + 1) globalClock ((n + 1) * lTime + (n + 1 - free)) =
        (n + 1) * lTime + (n + 1 - free) := Nat.max_eq_left (by omega)
    -- the first slot is at `lTime` unless no unit is free there
    have hdiv : lTime = ((n + 1) * lTime + (n + 1 - free)) / (n + 1) ↔ 0 < free := by
      rw [Nat.mul_add_div (Nat.succ_pos n)]
      rcases Nat.eq_zero_or_pos free with rfl | hpos
      · rw [Nat.sub_zero, Nat.div_self (Nat.succ_pos n)]
        omega
      · rw [Nat.div_eq_of_lt (by omega)]
        omega
    rw [hslot, ← hT, if_neg hlt, if_neg hlt, hdiv]
    omega

lemma batches_pipe (globalClock nSlots ocp lTime : ℕ) :
    (pipe ⟨ocp, lTime⟩).BatchAgrees globalClock nSlots ↔
      (pipe ⟨ocp, lTime⟩).Batches globalClock nSlots := by
  generalize hT : Slots.slot 1 globalClock lTime = T
  have hcall : (pipe ⟨ocp, lTime⟩).occupySlots globalClock nSlots =
      check Fault.assertion (ocp > 1) >>= fun _ =>
        .ok (T, .pipe ⟨ocp, T + ocp * nSlots % wordRange⟩) := by
    rw [← hT, slot_one]
    show (check Fault.assertion (ocp > 1) >>= fun _ => _) >>= _ = _
    rw [bind_assoc]
    rfl
  by_cases hocp : 1 < ocp
  · have hp : (pipe ⟨ocp, lTime⟩).IsSpecial (.pipe ocp) := rfl
    have hp' : (pipe ⟨ocp, T + ocp * nSlots % wordRange⟩).IsSpecial (.pipe ocp) := rfl
    have hreached : 1 * globalClock ≤ T + ocp * nSlots % wordRange := by
      rw [← hT]
      exact Nat.le_trans (Nat.le_max_right _ _) (Nat.le_add_right _ _)
    have hcheck : check Fault.assertion (ocp > 1) = .ok () := by
      rw [decide_eq_true hocp]
      rfl
    rw [hcheck] at hcall
    rw [batchAgrees_iff_next hp hp' hreached hcall]
    show T = Slots.slot 1 globalClock lTime / 1 ∧ T + ocp * nSlots % wordRange =
        Slots.slot 1 globalClock lTime + ocp * max nSlots 1 ↔
      1 < ocp ∧ 0 < nSlots ∧ ocp * nSlots < wordRange
    rw [hT, Nat.div_one]
    rcases Nat.eq_zero_or_pos nSlots with rfl | hpos
    · rw [Nat.mul_zero, Nat.zero_mod, Nat.max_eq_right (Nat.zero_le 1)]
      omega
    · have hmod := Nat.mod_lt (ocp * nSlots) (show 0 < wordRange by decide)
      rw [Nat.max_eq_left hpos]
      constructor
      · rintro ⟨-, h⟩
        exact ⟨hocp, hpos, by omega⟩
      · rintro ⟨-, -, h⟩
        rw [Nat.mod_eq_of_lt h]
        exact ⟨rfl, rfl⟩
  · -- the assertion fails
    have hcheck : check Fault.assertion (ocp > 1) = .error .assertion := by
      rw [decide_eq_false hocp]
      rfl
    rw [hcheck] at hcall
    constructor
    · rintro ⟨t, p', hcall', -⟩
      exact absurd (hcall.symm.trans hcall') (by intro h; cases h)
    · rintro ⟨hocp', -⟩
      exact absurd hocp' hocp

/-- `Batches` says exactly when `occupySlots` of a special port does what its comment says. -/
lemma batchAgrees_iff_batches (globalClock : Time) (nSlots : ℕ) (hp : p.IsSpecial k) :
    p.BatchAgrees globalClock nSlots ↔ p.Batches globalClock nSlots := by
  cases p with
  | fullyPipe p => exact batches_fullyPipe globalClock nSlots p
  | fullyNPipe p => exact batches_fullyNPipe globalClock nSlots _ _ _ hp.2
  | pipe p => exact batches_pipe globalClock nSlots p.ocp p.lTime
  | nPipe p => exact hp.elim

end PortGeneric

end Sesc.Ports
