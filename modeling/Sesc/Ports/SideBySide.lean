import Sesc.Ports.GeneralPort

/-!
# The specialised ports agree with the general one

A special port and a general port of the same units and occupancy that get the same calls return the
same times, as long as each `occupySlots` of the special port does what its comment says.
-/

namespace Sesc.Ports

open Lib

variable {k : Special} {globalClock later : ℕ} {p : PortGeneric} {q : PortNPipe}

/-- A special port and a general one are at the same slot since a call at the time `globalClock`. -/
structure Simulates (k : Special) (globalClock : ℕ) (p : PortGeneric) (q : PortNPipe) : Prop where
  special : p.IsSpecial k
  ocp_eq : q.ocp = k.occupancy
  busy : Slots.Busy k.units globalClock (Slots.slot k.units globalClock p.next) q.portBusyUntil

namespace Simulates

lemma new (hunits : 0 < k.units) (start : ℕ) :
    Simulates k start (k.port start) (.new k.units k.occupancy start) := by
  have hbusy := Slots.Busy.new hunits start
  cases k with
  | fullyPipe =>
    refine ⟨rfl, rfl, ?_⟩
    show Slots.Busy 1 start (max start (1 * start)) (List.replicate 1 start)
    have hmax : max start (1 * start) = 1 * start := by omega
    rw [hmax]
    exact hbusy
  | fullyNPipe nFU =>
    have hunits : 0 < nFU := hunits
    refine ⟨⟨?_, ?_⟩, rfl, ?_⟩
    · show Special.fullyNPipe nFU = .fullyNPipe (nFU - 1 + 1)
      rw [Nat.sub_add_cancel hunits]
    · show nFU ≤ nFU - 1 + 1
      omega
    · show Slots.Busy nFU start
        (max ((nFU - 1 + 1) * start + (nFU - 1 + 1 - nFU)) (nFU * start)) (List.replicate nFU start)
      rw [Nat.sub_add_cancel hunits, Nat.sub_self, Nat.add_zero, Nat.max_self]
      exact hbusy
  | pipe occ =>
    refine ⟨rfl, rfl, ?_⟩
    show Slots.Busy 1 start (max (if start > occ then start - occ else 0) (1 * start))
      (List.replicate 1 start)
    have hmax : max (if start > occ then start - occ else 0) (1 * start) = 1 * start := by
      refine Nat.max_eq_right ?_
      split <;> omega
    rw [hmax]
    exact hbusy

lemma units_pos (h : Simulates k globalClock p q) : 0 < k.units := PortGeneric.units_pos h.special

/-- Nothing changes when the clock goes on. -/
lemma skip (h : Simulates k globalClock p q) (hle : globalClock ≤ later) :
    Simulates k later p q := by
  refine ⟨h.special, h.ocp_eq, ?_⟩
  have hslot : Slots.slot k.units later (Slots.slot k.units globalClock p.next) =
      Slots.slot k.units later p.next := by
    have hmul := Nat.mul_le_mul_left k.units hle
    rw [Slots.slot, Slots.slot, Slots.slot]
    omega
  rw [← hslot]
  exact h.busy.skip h.units_pos hle

/-- Only the class and the next slot of the special port matter. -/
lemma congr {p' : PortGeneric} (h : Simulates k globalClock p q) (hp' : p'.IsSpecial k)
    (hnext : p'.next = p.next) : Simulates k globalClock p' q :=
  ⟨hp', h.ocp_eq, hnext ▸ h.busy⟩

/-- Both ports hand out the next slot at its time. -/
lemma nextSlot_time (h : Simulates k globalClock p q) :
    (p.nextSlot globalClock).1 = (q.nextSlot globalClock).1 := by
  obtain ⟨htime, -, -⟩ := PortGeneric.nextSlot_of_isSpecial globalClock h.special
  obtain ⟨htime', -⟩ := PortNPipe.taken_of_busy h.busy h.units_pos (Nat.le_max_right _ _)
  exact htime.trans htime'.symm

lemma nextSlot (h : Simulates k globalClock p q) (hocc : 2 * k.occupancy < wordRange) :
    Simulates k globalClock (p.nextSlot globalClock).2 (q.nextSlot globalClock).2 := by
  have hreached : k.units * globalClock ≤ Slots.slot k.units globalClock p.next :=
    Nat.le_max_right _ _
  have hkind : k.units = 1 ∨ q.ocp = 1 := h.ocp_eq ▸ PortGeneric.units_or_occupancy k
  have hbusy := PortNPipe.nextSlot_of_busy h.busy h.units_pos hreached hkind (h.ocp_eq ▸ hocc)
  obtain ⟨-, hnext, hp'⟩ := PortGeneric.nextSlot_of_isSpecial globalClock h.special
  refine ⟨hp', h.ocp_eq, ?_⟩
  have hslot : Slots.slot k.units globalClock (p.nextSlot globalClock).2.next =
      Slots.slot k.units globalClock p.next + q.ocp := by
    rw [hnext, h.ocp_eq]
    exact Nat.max_eq_left (Nat.le_trans hreached (Nat.le_add_right _ _))
  rw [hslot]
  exact hbusy

lemma nextSlots (hocc : 2 * k.occupancy < wordRange) (n : ℕ)
    (h : Simulates k globalClock p q) :
    Simulates k globalClock (PortGeneric.nextSlots globalClock n p)
      (PortNPipe.nextSlots globalClock n q) := by
  induction n generalizing p q with
  | zero => exact h
  | succ n ih => exact ih (h.nextSlot hocc)

/-- Both ports take the same slots when the batch of the special one is that of its comment. -/
lemma occupySlots {nSlots : ℕ} {t : Time} {p' : PortGeneric} (h : Simulates k globalClock p q)
    (hocc : 2 * k.occupancy < wordRange) (hbatch : p.Batches globalClock nSlots)
    (hcall : p.occupySlots globalClock nSlots = .ok (t, p')) :
    t = (q.occupySlots globalClock nSlots).1 ∧
      Simulates k globalClock p' (q.occupySlots globalClock nSlots).2 := by
  have hsim := (h.nextSlot hocc).nextSlots hocc (nSlots - 1)
  obtain ⟨hp', hreached⟩ := PortGeneric.isSpecial_of_occupySlots h.special hcall
  have hagrees := (PortGeneric.batchAgrees_iff_batches globalClock nSlots h.special).2 hbatch
  obtain ⟨ht, hnext⟩ :=
    (PortGeneric.batchAgrees_iff_next h.special hp' hreached hcall).1 hagrees
  obtain ⟨htime', hnext', -⟩ :=
    PortGeneric.documentedSlots_of_isSpecial globalClock nSlots h.special
  exact ⟨(ht.trans htime'.symm).trans h.nextSlot_time, hsim.congr hp' (hnext.trans hnext'.symm)⟩

/-- `calcNextSlot` of both ports tells what their `nextSlot` returns, which is the same time. -/
lemma calcNextSlot (h : Simulates k globalClock p q) :
    p.calcNextSlot globalClock = (p.nextSlot globalClock).1 ∧
      q.calcNextSlot globalClock = (q.nextSlot globalClock).1 ∧
      p.calcNextSlot globalClock = q.calcNextSlot globalClock := by
  have hp := PortGeneric.calcNextSlot_of_isSpecial globalClock h.special
  have hq := PortNPipe.calcNextSlot_eq globalClock
    (PortNPipe.ne_nil_of_busy h.busy h.units_pos)
  refine ⟨hp, hq, ?_⟩
  rw [hp, hq, h.nextSlot_time]

end Simulates

/-- `occupySlots` of the general port is what its comment says. -/
lemma batchAgrees_nPipe (globalClock nSlots : ℕ) (q : PortNPipe) :
    (PortGeneric.nPipe q).BatchAgrees globalClock nSlots := by
  have hslots : ∀ (n : ℕ) (q : PortNPipe), PortGeneric.nextSlots globalClock n (.nPipe q) =
      .nPipe (q.nextSlots globalClock n) := by
    intro n
    induction n with
    | zero => exact fun q => rfl
    | succ n ih => exact fun q => ih _
  refine ⟨_, _, rfl, rfl, fun times _ => ?_⟩
  show _ = (PortGeneric.nextSlots globalClock (nSlots - 1)
    (.nPipe (q.nextSlot globalClock).2)).nextSlotTimes times
  rw [hslots]
  rfl


/-- An `occupySlots` of the port does what its comment says. -/
def Call.Agrees (globalClock : Time) (p : PortGeneric) : Call → Prop
  | nextSlot => True
  | occupySlots nSlots => p.Batches globalClock nSlots
  | calcNextSlot => True

instance (globalClock : Time) (p : PortGeneric) : ∀ c : Call, Decidable (c.Agrees globalClock p)
  | .nextSlot => inferInstanceAs (Decidable True)
  | .occupySlots nSlots => inferInstanceAs (Decidable (p.Batches globalClock nSlots))
  | .calcNextSlot => inferInstanceAs (Decidable True)

/-- The calls of a run that agree: the occupancy is the same as an `int32_t`, and each `occupySlots`
of the special port does what its comment says. -/
def Agreeing (s : SideBySide) (e : Time × Call) : Prop :=
  s.special.OccupancyFits ∧ e.2.Agrees e.1 s.special

instance (s : SideBySide) (e : Time × Call) : Decidable (Agreeing s e) :=
  inferInstanceAs (Decidable (_ ∧ _))

/-- What holds of two ports side by side when all calls agree. -/
structure InStep (k : Special) (s : SideBySide) : Prop where
  simulates : ∃ q, s.general = .nPipe q ∧ Simulates k s.globalClock s.special q
  returned : ∀ r ∈ s.returned, r.1 = r.2

lemma occupancy_of_fits (hp : p.IsSpecial k) (hfits : p.OccupancyFits) :
    2 * k.occupancy < wordRange := by
  cases p with
  | fullyPipe p =>
    cases hp
    decide
  | fullyNPipe p =>
    obtain ⟨rfl, -⟩ := hp
    show 2 * 1 < wordRange
    decide
  | pipe p =>
    cases hp
    exact hfits
  | nPipe p => exact hp.elim

/-- One call keeps two ports in step. -/
lemma InStep.step {special general : Time → PortGeneric} {start : Time} {s s' : SideBySide}
    {e : Time × Call} (h : InStep k s) (hagree : Agreeing s e)
    (hstep : (sideBySide special general start).step s e = .ok s') : InStep k s' := by
  obtain ⟨special, general, clock, returned⟩ := s
  obtain ⟨⟨q, rfl, hsim⟩, hreturned⟩ := h
  obtain ⟨now, call⟩ := e
  obtain ⟨hfits, hbatch⟩ := hagree
  obtain ⟨hle, hstep⟩ := check_bind_eq_ok.1 hstep
  obtain ⟨⟨t, special'⟩, hspecial, hstep⟩ := bind_eq_ok.1 hstep
  obtain ⟨⟨t', general'⟩, hgeneral, hstep⟩ := bind_eq_ok.1 hstep
  cases hstep
  have hocc := occupancy_of_fits hsim.special hfits
  have hsim := hsim.skip hle
  have hpair : t = t' ∧ ∃ q', general' = .nPipe q' ∧ Simulates k now special' q' := by
    cases call with
    | nextSlot =>
      have hspecial : special.nextSlot now = (t, special') := Except.ok.inj hspecial
      have htime := hsim.nextSlot_time
      have hsim' := hsim.nextSlot hocc
      cases hgeneral
      rw [hspecial] at htime hsim'
      exact ⟨htime, _, rfl, hsim'⟩
    | occupySlots nSlots =>
      cases hgeneral
      obtain ⟨ht, hsim'⟩ := hsim.occupySlots hocc hbatch hspecial
      exact ⟨ht, _, rfl, hsim'⟩
    | calcNextSlot =>
      cases hspecial
      cases hgeneral
      exact ⟨hsim.calcNextSlot.2.2, q, rfl, hsim⟩
  obtain ⟨ht, hsim'⟩ := hpair
  refine ⟨hsim', fun r hr => ?_⟩
  rcases List.mem_append.1 hr with hr | hr
  · exact hreturned r hr
  · rw [List.mem_singleton.1 hr]
    exact ht

/-- In a run whose calls agree, a special port and a general one with the same units and occupancy
have returned the same times, `calcNextSlot` of either tells what its `nextSlot` returns,
`occupySlots` of the general port does what its comment says, and `occupySlots` of the special one
does so exactly when `Batches` says it. -/
theorem ports_agree_of_runWhere (k : Special) (hunits : 0 < k.units) (start : Time)
    {es : List (Time × Call)} {s : SideBySide}
    (h : (sideBySide k.port k.generalPort start).RunWhere Agreeing es s) :
    (∀ r ∈ s.returned, r.1 = r.2) ∧
      ∀ now, s.globalClock ≤ now →
        s.special.calcNextSlot now = (s.special.nextSlot now).1 ∧
        s.general.calcNextSlot now = (s.general.nextSlot now).1 ∧
        ∀ nSlots, s.general.BatchAgrees now nSlots ∧
          (s.special.BatchAgrees now nSlots ↔ s.special.Batches now nSlots) := by
  have hinv : InStep k s := h.invariant
    ⟨⟨_, rfl, Simulates.new hunits start⟩, fun r hr => absurd hr List.not_mem_nil⟩
    fun s e s' hs hagree hstep => hs.step hagree hstep
  obtain ⟨⟨q, hq, hsim⟩, hreturned⟩ := hinv
  refine ⟨hreturned, fun now hnow => ?_⟩
  obtain ⟨hspecial, hgeneral, -⟩ := (hsim.skip hnow).calcNextSlot
  rw [hq]
  exact ⟨hspecial, hgeneral, fun nSlots => ⟨batchAgrees_nPipe now nSlots q,
    PortGeneric.batchAgrees_iff_batches now nSlots hsim.special⟩⟩

/-! ### Two units of occupancy 1 -/

/-- The slots of a time are taken after a slot of a time before. -/
def fillingCalls : List (Time × Call) :=
  [(0, .nextSlot), (3, .occupySlots 1), (3, .nextSlot), (3, .calcNextSlot), (3, .nextSlot),
    (3, .nextSlot)]

/-- As many units are left free as at the time before. -/
theorem ports_agree_fillingCalls : ∃ s : SideBySide,
    (sideBySide (Special.fullyNPipe 3).port (Special.fullyNPipe 3).generalPort 0).Run
      fillingCalls s ∧ s.returned = [(0, 0), (3, 3), (3, 3), (3, 3), (3, 3), (4, 4)] ∧
    (∀ r ∈ s.returned, r.1 = r.2) ∧
    ∀ now, s.globalClock ≤ now →
      s.special.calcNextSlot now = (s.special.nextSlot now).1 ∧
      s.general.calcNextSlot now = (s.general.nextSlot now).1 ∧
      ∀ nSlots, s.general.BatchAgrees now nSlots ∧
        (s.special.BatchAgrees now nSlots ↔ s.special.Batches now nSlots) := by
  have hrun : succeeds (((sideBySide (Special.fullyNPipe 3).port
      (Special.fullyNPipe 3).generalPort 0).guarded (fun s e => decide (Agreeing s e))
        .noSuchEvent).exec
      ⟨(Special.fullyNPipe 3).port 0, (Special.fullyNPipe 3).generalPort 0, 0, []⟩ fillingCalls)
      (fun s => decide (s.returned = [(0, 0), (3, 3), (3, 3), (3, 3), (3, 3), (4, 4)])) = true := by
    decide +kernel
  obtain ⟨s, hs, htest⟩ := succeeds_iff.1 hrun
  have hwhere := (Machine.run_of_exec hs).of_guarded.mono fun _ _ => of_decide_eq_true
  exact ⟨s, hwhere.run, of_decide_eq_true htest,
    ports_agree_of_runWhere (.fullyNPipe 3) (by decide) 0 hwhere⟩

/-- After one slot of two is taken by `occupySlots`, the special port hands out two more at the same
time, and the general port one. -/
theorem not_ports_agree_occupyOne : ∃ s : SideBySide,
    (sideBySide (Special.fullyNPipe 2).port (Special.fullyNPipe 2).generalPort 0).Run
      [(0, .occupySlots 1), (0, .nextSlot), (0, .nextSlot)] s ∧
    s.returned = [(0, 0), (0, 0), (0, 1)] ∧ ¬∀ r ∈ s.returned, r.1 = r.2 := by
  have hrun : succeeds ((sideBySide (Special.fullyNPipe 2).port
      (Special.fullyNPipe 2).generalPort 0).exec
      ⟨(Special.fullyNPipe 2).port 0, (Special.fullyNPipe 2).generalPort 0, 0, []⟩
        [(0, .occupySlots 1), (0, .nextSlot), (0, .nextSlot)])
      (fun s => decide (s.returned = [(0, 0), (0, 0), (0, 1)])) = true := by
    decide +kernel
  obtain ⟨s, hs, htest⟩ := succeeds_iff.1 hrun
  have hreturned := of_decide_eq_true htest
  refine ⟨s, Machine.run_of_exec hs, hreturned, fun h => ?_⟩
  rw [hreturned] at h
  exact absurd (h (0, 1) (by decide)) (by decide)

end Sesc.Ports
