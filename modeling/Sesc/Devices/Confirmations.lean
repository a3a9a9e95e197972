import Mathlib.Data.List.Perm.Basic
import Mathlib.Tactic.Common
import Sesc.Devices.DeviceTransfers

/-!
# The confirmations of the transfers

The record of the transfers in progress has one entry for an address.  The accepted transfers are confirmed
to the devices that have asked for them, in every order of their completions, exactly when no transfer is
accepted while another one of its address is outstanding.
-/

namespace Sesc.Devices

open Lib

namespace TMInterface

variable {σ : Device → Type} {D : ∀ d, TransferDevice (σ d)} {s s' : TMInterface σ}
  {e : TransferEvent σ}

/-- No outstanding transfer has the address of a transfer that is accepted. -/
def Fresh (s : TMInterface σ) : TransferEvent σ → Prop
  | .accept => ∀ t ∈ s.handed, ∀ u ∈ s.outstanding, u.address ≠ t.address
  | _ => True

instance : ∀ e, Decidable (s.Fresh e)
  | .request _ => .isTrue trivial
  | .accept => inferInstanceAs (Decidable
      (∀ t ∈ s.handed, ∀ u ∈ s.outstanding, u.address ≠ t.address))
  | .deny => .isTrue trivial
  | .complete _ => .isTrue trivial
  | .observe _ _ => .isTrue trivial

/-- Completed in this order, each of the transfers is found with the device that has asked for it. -/
def Confirms : (VAddr → Option Device) → List Transfer → Prop
  | _, [] => True
  | m, t :: l => m t.address = some t.device ∧ Confirms (Function.update m t.address none) l

/-- The accepted transfers have been confirmed or are outstanding, each once and with its device and
processor; in whatever order the outstanding ones complete, each of them is found with its device. -/
def ConfirmedOnce (s : TMInterface σ) : Prop :=
  s.accepted.Perm (s.confirmed ++ s.outstanding) ∧
    ∀ l, l.Perm s.outstanding → Confirms s.inProgressTransfer l

structure Inv (s : TMInterface σ) : Prop where
  handed : ∀ t ∈ s.handed, s.deviceTransfering = some t.device ∧ s.activeAddr = t.address
  found : ∀ t ∈ s.outstanding, s.inProgressTransfer t.address = some t.device
  known : ∀ a d, s.inProgressTransfer a = some d → ∃ t ∈ s.outstanding, t.address = a
  distinct : (s.outstanding.map (·.address)).Nodup
  books : s.accepted.Perm (s.confirmed ++ s.outstanding)

/-! ### What the events change -/

/-- The records of the transfers are the same. -/
structure SameRecords (s s' : TMInterface σ) : Prop where
  inProgressTransfer : s'.inProgressTransfer = s.inProgressTransfer
  accepted : s'.accepted = s.accepted
  outstanding : s'.outstanding = s.outstanding
  confirmed : s'.confirmed = s.confirmed

lemma SameRecords.trans {s₁ : TMInterface σ} (h : s.SameRecords s₁) (h' : s₁.SameRecords s') :
    s.SameRecords s' :=
  ⟨h'.1.trans h.1, h'.2.trans h.2, h'.3.trans h.3, h'.4.trans h.4⟩

lemma askDevice_same {d : Device} {cpuID : Cpu} {r : Bool × TMInterface σ}
    (h : s.askDevice D d cpuID = .ok r) : s.SameRecords r.2 ∧ r.2.handed = s.handed := by
  obtain ⟨⟨has, x⟩, -, heq⟩ := bind_eq_ok.1 h
  cases heq
  cases has
  · exact ⟨⟨rfl, rfl, rfl, rfl⟩, rfl⟩
  · exact ⟨⟨rfl, rfl, rfl, rfl⟩, rfl⟩

lemma hasTransfers_same {cpuID : Cpu} {r : Bool × TMInterface σ}
    (h : s.hasTransfers D cpuID = .ok r) : s.SameRecords r.2 ∧ r.2.handed = s.handed := by
  obtain ⟨⟨has₁, s₁⟩, h₁, heq₁⟩ := bind_eq_ok.1 h
  obtain ⟨hsame₁, hhanded₁⟩ := askDevice_same h₁
  cases has₁ with
  | true =>
    cases heq₁
    exact ⟨hsame₁, hhanded₁⟩
  | false =>
    obtain ⟨⟨has₂, s₂⟩, h₂, heq₂⟩ := bind_eq_ok.1 heq₁
    obtain ⟨hsame₂, hhanded₂⟩ := askDevice_same h₂
    cases has₂ with
    | true =>
      cases heq₂
      exact ⟨hsame₁.trans hsame₂, hhanded₂.trans hhanded₁⟩
    | false =>
      obtain ⟨hsame₃, hhanded₃⟩ := askDevice_same heq₂
      exact ⟨(hsame₁.trans hsame₂).trans hsame₃, (hhanded₃.trans hhanded₂).trans hhanded₁⟩

lemma getTransferInfo_spec {r : TransferInfo × TMInterface σ} (h : s.getTransferInfo D = .ok r) :
    s.SameRecords r.2 ∧ r.2.deviceTransfering = s.deviceTransfering ∧
      r.2.activeAddr = r.1.address := by
  obtain ⟨d, -, h⟩ := bind_eq_ok.1 h
  obtain ⟨⟨info, x⟩, -, heq⟩ := bind_eq_ok.1 h
  cases heq
  exact ⟨⟨rfl, rfl, rfl, rfl⟩, rfl, rfl⟩

/-- A request hands over a transfer of the device that the interface has noted. -/
lemma act_request {cpuID : Cpu} (h : s.act D (.request cpuID) = .ok s') :
    s.SameRecords s' ∧
      ∀ t ∈ s'.handed, s'.deviceTransfering = some t.device ∧ s'.activeAddr = t.address := by
  obtain ⟨hnone, h⟩ := check_bind_eq_ok.1 h
  obtain ⟨⟨has, s₁⟩, h₁, h⟩ := bind_eq_ok.1 h
  obtain ⟨hsame₁, hhanded₁⟩ := hasTransfers_same h₁
  cases has with
  | false =>
    cases h
    refine ⟨hsame₁, fun t ht => ?_⟩
    rw [hhanded₁, hnone] at ht
    cases ht
  | true =>
    obtain ⟨⟨info, s₂⟩, h₂, heq⟩ := bind_eq_ok.1 h
    obtain ⟨hsame₂, hdevice, haddr⟩ := getTransferInfo_spec h₂
    cases heq
    refine ⟨hsame₁.trans ⟨hsame₂.1, hsame₂.2, hsame₂.3, hsame₂.4⟩, fun t ht => ?_⟩
    obtain ⟨d, hd, rfl⟩ := Option.map_eq_some_iff.1 ht
    exact ⟨hdevice.trans hd, haddr⟩

lemma act_accept (h : s.act D .accept = .ok s') : ∃ t d, s.handed = some t ∧
    s.deviceTransfering = some d ∧ s'.handed = none ∧
    s'.inProgressTransfer = insertInProgress s.inProgressTransfer s.activeAddr d ∧
    s'.accepted = s.accepted ++ [t] ∧ s'.outstanding = s.outstanding ++ [t] ∧
    s'.confirmed = s.confirmed := by
  obtain ⟨t, ht, h⟩ := bind_eq_ok.1 h
  obtain ⟨s₁, h₁, heq⟩ := bind_eq_ok.1 h
  obtain ⟨d, hd, h₁⟩ := bind_eq_ok.1 h₁
  obtain ⟨x, -, heq₁⟩ := bind_eq_ok.1 h₁
  cases heq₁
  cases heq
  exact ⟨t, d, elim_error_eq_ok.1 ht, elim_error_eq_ok.1 hd, rfl, rfl, rfl, rfl, rfl⟩

lemma act_deny (h : s.act D .deny = .ok s') : s.SameRecords s' ∧ s'.handed = none := by
  obtain ⟨t, -, h⟩ := bind_eq_ok.1 h
  obtain ⟨s₁, h₁, heq⟩ := bind_eq_ok.1 h
  obtain ⟨d, -, h₁⟩ := bind_eq_ok.1 h₁
  obtain ⟨x, -, heq₁⟩ := bind_eq_ok.1 h₁
  cases heq₁
  cases heq
  exact ⟨⟨rfl, rfl, rfl, rfl⟩, rfl⟩

lemma act_complete {k : ℕ} (h : s.act D (.complete k) = .ok s') : ∃ t d,
    s.outstanding[k]? = some t ∧ s.inProgressTransfer t.address = some d ∧
    s'.inProgressTransfer = Function.update s.inProgressTransfer t.address none ∧
    s'.confirmed = s.confirmed ++ [{ t with device := d }] ∧
    s'.outstanding = s.outstanding.eraseIdx k ∧ s'.accepted = s.accepted ∧
    s'.handed = s.handed ∧ s'.deviceTransfering = s.deviceTransfering ∧
    s'.activeAddr = s.activeAddr := by
  obtain ⟨t, ht, h⟩ := bind_eq_ok.1 h
  obtain ⟨s₁, h₁, heq⟩ := bind_eq_ok.1 h
  obtain ⟨d, hd, h₁⟩ := bind_eq_ok.1 h₁
  obtain ⟨x, -, heq₁⟩ := bind_eq_ok.1 h₁
  cases heq₁
  cases heq
  exact ⟨t, d, elim_error_eq_ok.1 ht, elim_error_eq_ok.1 hd, rfl, rfl, rfl, rfl, rfl, rfl, rfl⟩

/-! ### The invariant -/

lemma Inv.of_same (hs : s.Inv) (h : s.SameRecords s')
    (hhanded : ∀ t ∈ s'.handed, s'.deviceTransfering = some t.device ∧ s'.activeAddr = t.address) :
    s'.Inv := by
  obtain ⟨hprogress, haccepted, houtstanding, hconfirmed⟩ := h
  refine ⟨hhanded, ?_, ?_, ?_, ?_⟩
  · rw [houtstanding, hprogress]
    exact hs.found
  · rw [houtstanding, hprogress]
    exact hs.known
  · rw [houtstanding]
    exact hs.distinct
  · rw [houtstanding, haccepted, hconfirmed]
    exact hs.books

/-- A transfer with an address of its own enters the record. -/
lemma Inv.accept (hs : s.Inv) (hfresh : s.Fresh .accept) (h : s.act D .accept = .ok s') :
    s'.Inv := by
  obtain ⟨t, d, ht, hd, hnone, hprogress, haccepted, houtstanding, hconfirmed⟩ := act_accept h
  obtain ⟨hdevice, haddr⟩ := hs.handed t ht
  cases hd.symm.trans hdevice
  have hne : ∀ u ∈ s.outstanding, u.address ≠ t.address := hfresh t ht
  have hfree : s.inProgressTransfer t.address = none := by
    cases hlookup : s.inProgressTransfer t.address with
    | none => rfl
    | some d =>
      obtain ⟨u, hu, hut⟩ := hs.known _ d hlookup
      exact absurd hut (hne u hu)
  rw [haddr, insertInProgress, if_neg (by rw [hfree]; exact Bool.false_ne_true)] at hprogress
  refine ⟨fun u hu => ?_, fun u hu => ?_, fun a d hlookup => ?_, ?_, ?_⟩
  · rw [hnone] at hu
    cases hu
  · rw [houtstanding, List.mem_append, List.mem_singleton] at hu
    rw [hprogress]
    rcases hu with hu | rfl
    · rw [Function.update_of_ne (hne u hu)]
      exact hs.found u hu
    · exact Function.update_self ..
  · rw [houtstanding]
    rw [hprogress] at hlookup
    by_cases ha : a = t.address
    · exact ⟨t, List.mem_append_right _ List.mem_cons_self, ha.symm⟩
    · rw [Function.update_of_ne ha] at hlookup
      obtain ⟨u, hu, hua⟩ := hs.known a d hlookup
      exact ⟨u, List.mem_append_left _ hu, hua⟩
  · rw [houtstanding, List.map_append, List.nodup_append]
    refine ⟨hs.distinct, List.nodup_singleton _, ?_⟩
    rintro a ha b hb rfl
    obtain ⟨u, hu, rfl⟩ := List.mem_map.1 ha
    exact hne u hu (List.mem_singleton.1 hb)
  · rw [houtstanding, haccepted, hconfirmed, ← List.append_assoc]
    exact hs.books.append_right [t]

/-- A completed transfer is found with its device, and leaves the record. -/
lemma Inv.complete (hs : s.Inv) {k : ℕ} (h : s.act D (.complete k) = .ok s') : s'.Inv := by
  obtain ⟨t, d, hk, hd, hprogress, hconfirmed, houtstanding, haccepted, hhanded, htransfering,
    haddr⟩ := act_complete h
  have htmem : t ∈ s.outstanding := List.mem_of_getElem? hk
  cases hd.symm.trans (hs.found t htmem)
  obtain ⟨hlt, hget⟩ := List.getElem?_eq_some_iff.1 hk
  have hperm : (t :: s.outstanding.eraseIdx k).Perm s.outstanding := by
    rw [← hget]
    exact List.getElem_cons_eraseIdx_perm hlt
  have hdistinct : (t.address :: (s.outstanding.eraseIdx k).map (·.address)).Nodup :=
    (hperm.map Transfer.address).nodup_iff.2 hs.distinct
  have hne : ∀ u ∈ s.outstanding.eraseIdx k, u.address ≠ t.address := by
    intro u hu heq
    exact (List.nodup_cons.1 hdistinct).1 (heq ▸ List.mem_map_of_mem hu)
  refine ⟨?_, fun u hu => ?_, fun a d hlookup => ?_, ?_, ?_⟩
  · rw [hhanded, htransfering, haddr]
    exact hs.handed
  · rw [houtstanding] at hu
    rw [hprogress, Function.update_of_ne (hne u hu)]
    exact hs.found u (hperm.mem_iff.1 (List.mem_cons_of_mem t hu))
  · rw [houtstanding]
    rw [hprogress] at hlookup
    by_cases ha : a = t.address
    · rw [ha, Function.update_self] at hlookup
      cases hlookup
    · rw [Function.update_of_ne ha] at hlookup
      obtain ⟨u, hu, hua⟩ := hs.known a d hlookup
      rcases List.mem_cons.1 (hperm.mem_iff.2 hu) with rfl | hu
      · exact absurd hua.symm ha
      · exact ⟨u, hu, hua⟩
  · rw [houtstanding]
    exact (List.nodup_cons.1 hdistinct).2
  · rw [houtstanding, haccepted, hconfirmed, List.append_assoc]
    exact hs.books.trans (hperm.symm.append_left s.confirmed)

lemma Inv.act (hs : s.Inv) (hfresh : s.Fresh e) (h : s.act D e = .ok s') : s'.Inv := by
  cases e with
  | request cpuID =>
    obtain ⟨hsame, hhanded⟩ := act_request h
    exact hs.of_same hsame hhanded
  | accept => exact hs.accept hfresh h
  | deny =>
    obtain ⟨hsame, hnone⟩ := act_deny h
    refine hs.of_same hsame fun t ht => ?_
    rw [hnone] at ht
    cases ht
  | complete k => exact hs.complete h
  | observe d x =>
    cases h
    exact hs.of_same ⟨rfl, rfl, rfl, rfl⟩ hs.handed

/-! ### The confirmations -/

/-- Transfers of different addresses can be completed in any order. -/
lemma confirms_of_distinct {m : VAddr → Option Device} {l : List Transfer}
    (hdistinct : (l.map (·.address)).Nodup) (hfound : ∀ t ∈ l, m t.address = some t.device) :
    Confirms m l := by
  induction l generalizing m with
  | nil => trivial
  | cons t l ih =>
    rw [List.map_cons, List.nodup_cons] at hdistinct
    refine ⟨hfound t List.mem_cons_self, ih hdistinct.2 fun u hu => ?_⟩
    have hne : u.address ≠ t.address := fun heq =>
      hdistinct.1 (heq ▸ List.mem_map_of_mem hu)
    rw [Function.update_of_ne hne]
    exact hfound u (List.mem_cons_of_mem t hu)

lemma Inv.confirmedOnce (hs : s.Inv) : s.ConfirmedOnce := by
  refine ⟨hs.books, fun l hl => confirms_of_distinct ?_ fun t ht => hs.found t (hl.mem_iff.1 ht)⟩
  exact (hl.map (·.address)).nodup_iff.2 hs.distinct

/-- Of two outstanding transfers of one address, the one that completes last is not found. -/
lemma not_confirmedOnce_of_accept (hfresh : ¬s.Fresh e) (h : s.act D e = .ok s') :
    ¬s'.ConfirmedOnce := by
  cases e with
  | accept =>
    obtain ⟨t, d, ht, -, -, -, -, houtstanding, -⟩ := act_accept h
    rintro ⟨-, hall⟩
    refine hfresh fun t' ht' u hu heq => ?_
    cases ht.symm.trans ht'
    obtain ⟨l₁, l₂, hl⟩ := List.append_of_mem hu
    have hperm : (u :: t :: (l₁ ++ l₂)).Perm s'.outstanding := by
      rw [houtstanding, hl]
      refine ((List.Perm.swap t u (l₁ ++ l₂)).trans ?_).trans List.perm_append_comm
      exact (List.perm_middle.symm).cons t
    obtain ⟨-, hsecond, -⟩ := hall _ hperm
    rw [heq, Function.update_self] at hsecond
    cases hsecond
  | request cpuID => exact absurd trivial hfresh
  | deny => exact absurd trivial hfresh
  | complete k => exact absurd trivial hfresh
  | observe d x => exact absurd trivial hfresh

end TMInterface

open TMInterface

/-- All along a run, the accepted transfers are confirmed once, to the devices that have asked for them,
if and only if none of them is accepted while another one of its address is outstanding. -/
theorem confirmedOnce_iff {σ : Device → Type} (D : ∀ d, TransferDevice (σ d)) (x : ∀ d, σ d)
    (es : List (TransferEvent σ)) (s : TMInterface σ) (hrun : (transfers D x).Run es s) :
    (∀ es' s', es' <+: es → (transfers D x).Run es' s' → s'.ConfirmedOnce) ↔
      (transfers D x).RunWhere Fresh es s := by
  refine hrun.always_iff_runWhere (I := Inv) ⟨?_, ?_, ?_, ?_, ?_⟩ (fun s hs => hs.confirmedOnce)
    (fun s e s' hs hfresh hstep => hs.act hfresh hstep)
    fun s e s' hs hfresh hstep => not_confirmedOnce_of_accept hfresh hstep
  · exact fun t ht => absurd ht (Option.not_mem_none t)
  · exact fun t ht => absurd ht List.not_mem_nil
  · exact fun a d h => absurd h.symm (Option.some_ne_none d)
  · exact List.nodup_nil
  · exact List.Perm.nil

/-- The parameters of the tests. -/
def transferLines : VersioningParams := ⟨16, by decide, true, 32⟩

/-- A device with transfers for the processors 0 and 1. -/
def offering (q₀ q₁ : List TransferEntry) : PerfectVersioning :=
  { (versioning transferLines).init.toPerfectVersioning with
    necessaryTransfers := fun cpu => if cpu = 0 then q₀ else if cpu = 1 then q₁ else [] }

def differentLines : Device → PerfectVersioning
  | .collisionDetection => offering [] [⟨true, 96⟩]
  | .collisionManager => offering [] []
  | .versioning => offering [⟨false, 64⟩] [⟨true, 80⟩]

/-- Two devices offer a transfer of line 64. -/
def sameLine : Device → PerfectVersioning
  | .collisionDetection => offering [⟨false, 64⟩] []
  | .collisionManager => offering [] []
  | .versioning => offering [] [⟨false, 64⟩]

/-- The interface with three devices of the same kind. -/
def threeDevices (x : Device → PerfectVersioning) :
    Machine (TMInterface fun _ => PerfectVersioning) (TransferEvent fun _ => PerfectVersioning) Fault :=
  transfers (fun _ => versioningDevice transferLines) x

def outOfOrder : List (TransferEvent fun _ => PerfectVersioning) :=
  [.request 0, .accept, .request 1, .accept, .request 1, .deny, .complete 1, .complete 0,
    .request 1, .accept]

theorem confirmedOnce_iff_outOfOrder : ∃ s, (threeDevices differentLines).Run outOfOrder s ∧
    s.confirmed = [⟨.collisionDetection, 1, true, 96⟩, ⟨.versioning, 0, false, 64⟩] ∧
    s.outstanding = [⟨.versioning, 1, true, 80⟩] ∧
    ∀ es' s', es' <+: outOfOrder → (threeDevices differentLines).Run es' s' → s'.ConfirmedOnce := by
  have hrun : succeeds (((threeDevices differentLines).guarded
      (fun s e => decide (s.Fresh e)) .noSuchEvent).exec (threeDevices differentLines).init outOfOrder)
      (fun s => decide (s.confirmed =
          [⟨.collisionDetection, 1, true, 96⟩, ⟨.versioning, 0, false, 64⟩] ∧
        s.outstanding = [⟨.versioning, 1, true, 80⟩])) = true := by
    decide +kernel
  obtain ⟨s, hs, htest⟩ := succeeds_iff.1 hrun
  obtain ⟨hconfirmed, houtstanding⟩ := of_decide_eq_true htest
  have hwhere := (Machine.run_of_exec hs).of_guarded.mono (D := Fresh) fun _ _ => of_decide_eq_true
  exact ⟨s, hwhere.run, hconfirmed, houtstanding,
    (confirmedOnce_iff _ _ outOfOrder s hwhere.run).2 hwhere⟩

/-- The transfer of the second device is confirmed to the first one, and then that of the first one is
not found. -/
theorem not_confirmedOnce : ∃ s, (threeDevices sameLine).Run
      [.request 0, .accept, .request 1, .accept, .complete 1] s ∧
    s.accepted = [⟨.collisionDetection, 0, false, 64⟩, ⟨.versioning, 1, false, 64⟩] ∧
    s.confirmed = [⟨.collisionDetection, 1, false, 64⟩] ∧
    (threeDevices sameLine).step s (.complete 0) = .error .assertion ∧ ¬s.ConfirmedOnce := by
  have hrun : succeeds ((threeDevices sameLine).exec (threeDevices sameLine).init
      [.request 0, .accept, .request 1, .accept, .complete 1])
      (fun s => decide (s.accepted =
          [⟨.collisionDetection, 0, false, 64⟩, ⟨.versioning, 1, false, 64⟩] ∧
        s.confirmed = [⟨.collisionDetection, 1, false, 64⟩] ∧
        s.outstanding = [⟨.collisionDetection, 0, false, 64⟩] ∧
        failsWith ((threeDevices sameLine).step s (.complete 0)) .assertion = true)) = true := by
    decide +kernel
  obtain ⟨s, hs, htest⟩ := succeeds_iff.1 hrun
  obtain ⟨haccepted, hconfirmed, houtstanding, hfails⟩ := of_decide_eq_true htest
  refine ⟨s, Machine.run_of_exec hs, haccepted, hconfirmed, failsWith_iff.1 hfails, fun h => ?_⟩
  have hperm := h.1
  rw [haccepted, hconfirmed, houtstanding] at hperm
  exact absurd (hperm.mem_iff (a := ⟨.versioning, 1, false, 64⟩)) (by decide)

end Sesc.Devices
