import Mathlib.Algebra.BigOperators.Fin
import Mathlib.Algebra.Order.BigOperators.Group.Finset
import Sesc.Lib.Ranking
import Sesc.Smp.Assertions

/-!
# The work that is left for a line

An access brings all the work that it may cause: its own steps, the answers of the other caches, and the
invalidations in their upper levels.  No step makes work but a new access, and the eviction of the line,
for which the access of another line has paid.
-/

namespace Sesc.Smp

open Lib Mshr

variable {n : ℕ}

def Snoop.work (upperCaches : ℕ) : Snoop → ℕ
  | .idle => 0
  | .received => upperCaches + 3
  | .invalidating | .acking => 1

/-- The work of a request before the bus has taken it. -/
def busWork (n upperCaches : ℕ) : ℕ := 7 + n * (upperCaches + 3)

def Stage.work (upperCaches : ℕ) : Stage n → ℕ
  | .scheduled => busWork n upperCaches + upperCaches + 5
  | .queued | .granted => busWork n upperCaches + upperCaches + 4
  | .allocating none => busWork n upperCaches + upperCaches + 3
  | .allocating (some _) => busWork n upperCaches + 1
  | .sent .toBus r => if r.needSnoop then busWork n upperCaches else 3
  | .sent .snooping _ => 6
  | .sent .inMemory _ => 2
  | .sent .toRequestor r => if r.needSnoop then 5 else 1

/-- The work of an access. -/
def accessWork (n upperCaches : ℕ) : ℕ := busWork n upperCaches + upperCaches + 5

namespace Line

variable (upperCaches : ℕ) (L : Line n)

/-- The work of what may be there. -/
def optionWork {α : Type} (f : α → ℕ) : Option α → ℕ
  | none => 0
  | some a => f a

def stageWork : Option (Access n) → ℕ := optionWork fun a => a.stage.work upperCaches

def entryWork : Option (Entry n) → ℕ := optionWork fun e => e.outsResps.toNat + 1

def replacingWork : Option Addr → ℕ := optionWork fun _ => 1

def snoopWork (row : Fin n → Snoop) : ℕ := ∑ d, (row d).work upperCaches

/-- The work that is left for the line. -/
def work : ℕ :=
  ∑ c, stageWork upperCaches (L.access c) + ∑ c, (L.waiting c).length * accessWork n upperCaches +
    ∑ c, snoopWork upperCaches (L.snoop c) + ∑ d, entryWork (L.pendInvTable d) +
      ∑ d, replacingWork (L.replacing d)

lemma work_new : (Line.new : Line n).work upperCaches = 0 := by
  simp [work, Line.new, stageWork, entryWork, replacingWork, snoopWork, optionWork, Snoop.work]

variable {L} {L' : Line n} {c d : Fin n} {memOp : MemOperation} {a : Access n}
  {r r' : SMPMemRequest n} {location : Location} {st : MESIState}

lemma work_setStage (ha : L.access c = some a) (memOp : MemOperation) (stage : Stage n) :
    (L.setStage c memOp stage).work upperCaches + a.stage.work upperCaches =
      L.work upperCaches + stage.work upperCaches := by
  have := sum_update (stageWork upperCaches) L.access (Finset.mem_univ c) (some ⟨memOp, stage⟩)
  rw [ha] at this
  simp only [work, Line.setStage]
  simp only [stageWork, optionWork] at this ⊢
  omega

lemma work_changeStateTo : (L.changeStateTo d st).work upperCaches = L.work upperCaches := rfl

lemma work_setSnoop {s : Snoop} : (L.setSnoop c d s).work upperCaches + (L.snoop c d).work upperCaches =
    L.work upperCaches + s.work upperCaches := by
  have hrow := sum_update (Snoop.work upperCaches) (L.snoop c) (Finset.mem_univ d) s
  have hall := sum_update (snoopWork upperCaches) L.snoop (Finset.mem_univ c) (Function.update (L.snoop c) d s)
  simp only [work, Line.setSnoop]
  simp only [snoopWork] at hrow hall ⊢
  omega

lemma work_setPendInv {o : Option (Entry n)} :
    (L.setPendInv d o).work upperCaches + entryWork (L.pendInvTable d) = L.work upperCaches + entryWork o := by
  have := sum_update entryWork L.pendInvTable (Finset.mem_univ d) o
  simp only [work, Line.setPendInv]
  omega

lemma work_setReplacing {o : Option Addr} :
    (L.setReplacing d o).work upperCaches + replacingWork (L.replacing d) = L.work upperCaches + replacingWork o := by
  have := sum_update replacingWork L.replacing (Finset.mem_univ d) o
  simp only [work, Line.setReplacing]
  omega

/-- The access of a cache is over; the next one has paid for itself. -/
lemma work_retireOutsReq (ha : L.access c = some a) :
    (L.retireOutsReq c).work upperCaches + a.stage.work upperCaches = L.work upperCaches := by
  unfold Line.retireOutsReq
  split
  · have := sum_update (stageWork upperCaches) L.access (Finset.mem_univ c) none
    rw [ha] at this
    simp only [work]
    simp only [stageWork, optionWork] at this ⊢
    omega
  next memOp rest hwaiting =>
    have haccess := sum_update (stageWork upperCaches) L.access (Finset.mem_univ c) (some ⟨memOp, .scheduled⟩)
    have hwait := sum_update (fun l => l.length * accessWork n upperCaches) L.waiting (Finset.mem_univ c) rest
    have hlength : (memOp :: rest).length * accessWork n upperCaches =
        rest.length * accessWork n upperCaches + accessWork n upperCaches := by
      rw [List.length_cons, Nat.succ_mul]
    have hstage : (Stage.scheduled : Stage n).work upperCaches = accessWork n upperCaches := rfl
    rw [ha] at haccess
    rw [hwaiting, hlength] at hwait
    simp only [work]
    simp only [stageWork, optionWork] at haccess ⊢
    omega

/-- The other registers are of no concern. -/
lemma work_congr (haccess : L'.access = L.access) (hwaiting : L'.waiting = L.waiting) (hsnoop : L'.snoop = L.snoop)
    (hpend : L'.pendInvTable = L.pendInvTable) (hreplacing : L'.replacing = L.replacing) :
    L'.work upperCaches = L.work upperCaches := by
  rw [work, work, haccess, hwaiting, hsnoop, hpend, hreplacing]

lemma work_issueMutExcl (hc : L.access c = some ⟨memOp, .scheduled⟩) (memOp' : MemOperation) :
    (L.issueMutExcl c memOp').work upperCaches + 1 = L.work upperCaches := by
  have hstage : ∀ stage : Stage n, stage = .queued ∨ stage = .granted →
      (L.setStage c memOp' stage).work upperCaches + 1 = L.work upperCaches := by
    intro stage hstage
    have := work_setStage upperCaches hc memOp' stage
    rcases hstage with rfl | rfl <;> simp only [Stage.work] at this <;> omega
  unfold Line.issueMutExcl
  split
  · exact (congrArg (· + 1) (work_congr upperCaches rfl rfl rfl rfl rfl)).trans (hstage _ (.inr rfl))
  · exact (congrArg (· + 1) (work_congr upperCaches rfl rfl rfl rfl rfl)).trans (hstage _ (.inl rfl))

/-- An access that is granted has the work that it had in the queue. -/
lemma work_retireMutExcl (h : L.Registers) : L.retireMutExcl.work upperCaches = L.work upperCaches := by
  unfold Line.retireMutExcl
  split
  · exact work_congr upperCaches rfl rfl rfl rfl rfl
  next d rest hqueue =>
    obtain ⟨memOp, hd⟩ := h.queued d (by simp [hqueue])
    have := sum_update (stageWork upperCaches) L.access (Finset.mem_univ d) (some ⟨memOp, .granted⟩)
    rw [hd] at this ⊢
    simp only [work, Option.map_some]
    simp only [stageWork, optionWork, Stage.work] at this ⊢
    omega

lemma work_move (hc : L.sent c = some (location, r)) (location' : Location) (r' : SMPMemRequest n) :
    (L.setStage c r'.memOp (.sent location' r')).work upperCaches +
        (Stage.sent location r).work upperCaches =
      L.work upperCaches + (Stage.sent location' r').work upperCaches := by
  obtain ⟨memOp, ha⟩ := sent_eq_some.1 hc
  exact work_setStage upperCaches ha r'.memOp _

lemma work_supply : (L.supply d r).work upperCaches = L.work upperCaches := by
  unfold supply
  split_ifs <;> rfl

/-- Each answer is work that is done. -/
lemma work_respond (hc : L.sent c = some (.snooping, r)) (hd : L.snoop c d ≠ .idle) :
    (L.respond c d r').work upperCaches + 1 ≤ L.work upperCaches := by
  have hsnoop := work_setSnoop upperCaches (L := L.supply d r') (c := c) (d := d) (s := .idle)
  have hpos : 0 < (L.snoop c d).work upperCaches := by
    cases hs : L.snoop c d with
    | idle => exact absurd hs hd
    | received => simp [Snoop.work]
    | invalidating => simp [Snoop.work]
    | acking => simp [Snoop.work]
  rw [work_supply, snoop_supply] at hsnoop
  have hc' : ((L.supply d r').setSnoop c d .idle).sent c = some (.snooping, r) := by
    refine Eq.trans ?_ hc
    unfold supply
    split_ifs <;> rfl
  have hup := work_move upperCaches hc' .toRequestor r'
  have hstay := work_move upperCaches hc' .snooping r'
  have hidle : Snoop.idle.work upperCaches = 0 := rfl
  have hsix : ∀ r : SMPMemRequest n, (Stage.sent .snooping r).work upperCaches = 6 := fun _ => rfl
  have hfive : (Stage.sent .toRequestor r').work upperCaches ≤ 5 := by
    simp only [Stage.work]
    split_ifs <;> omega
  rw [hsix] at hup hstay
  rw [hsix] at hstay
  unfold respond collect
  split_ifs
  · have : (((L.supply d r').setSnoop c d .idle).finalizeAccess c r').work upperCaches =
        (((L.supply d r').setSnoop c d .idle).setStage c r'.memOp (.sent .toRequestor r')).work upperCaches :=
      work_congr upperCaches rfl rfl rfl rfl rfl
    omega
  · refine le_of_eq_of_le (congrArg (· + 1) (work_congr upperCaches (L := ((L.supply d r').setSnoop c d .idle).setStage c r'.memOp
      (.sent .snooping r')) rfl rfl rfl rfl rfl)) ?_
    omega

lemma work_writeBackDirty : (L.writeBackDirty d).work upperCaches = L.work upperCaches := by
  unfold Line.writeBackDirty
  split_ifs <;> rfl

lemma work_sendRequest (ha : L.access c = some a) (st : MESIState) (memOp : MemOperation) (sendData : Bool) :
    ((L.changeStateTo c st).sendRequest c memOp sendData).work upperCaches + a.stage.work upperCaches ≤
      L.work upperCaches + busWork n upperCaches := by
  have hset := work_setStage upperCaches (L := L.changeStateTo c st) ha memOp (.sent .toBus
    ⟨memOp, .INVALID, none, false, memOp ≠ .MemPush, sendData, false⟩)
  have hle : (Stage.sent .toBus (n := n) ⟨memOp, .INVALID, none, false, memOp ≠ .MemPush, sendData, false⟩).work
      upperCaches ≤ busWork n upperCaches := by
    simp only [Stage.work]
    split_ifs
    · exact le_refl _
    · unfold busWork
      omega
  rw [work_changeStateTo] at hset
  unfold Line.sendRequest
  omega

lemma snoopWork_received (c : Fin n) :
    snoopWork upperCaches (fun d => if d = c then .idle else .received) ≤ n * (upperCaches + 3) := by
  refine (Finset.sum_le_card_nsmul _ _ (upperCaches + 3) fun d _ => ?_).trans ?_
  · by_cases hd : d = c <;> simp [hd, Snoop.work]
  · simp

end Line

/-! ## One step -/

namespace LineEvent

variable (upperCaches : ℕ)

/-- The work that an event does. -/
def cost (L : Line n) : LineEvent n → ℕ
  | .access _ _ | .evict _ | .startEviction _ _ | .retryAllocate _ .retry => 0
  | .run c => if (L.state c).isLocked then 0 else 1
  | .send _ (.waiting _) => upperCaches + 3
  | .retryAllocate _ (.waiting _) => upperCaches + 2
  | _ => 1

/-- The work that an event brings. -/
def gain : LineEvent n → ℕ
  | .access _ _ => accessWork n upperCaches
  | .startEviction _ _ => upperCaches + 1
  | _ => 0

end LineEvent

namespace Line

variable {upperCaches : ℕ} {L L' : Line n} {c d : Fin n}

/-- A step that does one piece of work. -/
def Works (upperCaches : ℕ) (L L' : Line n) : Prop := L'.work upperCaches + 1 ≤ L.work upperCaches

lemma Works.run (hw : Works upperCaches L L') : L'.work upperCaches + (LineEvent.run c).cost upperCaches L ≤
    L.work upperCaches + (LineEvent.run c).gain upperCaches := by
  have : (LineEvent.run c).cost upperCaches L ≤ 1 := by
    simp only [LineEvent.cost]
    split_ifs <;> omega
  unfold Works at hw
  omega

/-- The request for a line takes the place of an access that has come less far. -/
lemma works_sendRequest {a : Access n} (ha : L.access c = some a)
    (hlt : busWork n upperCaches < a.stage.work upperCaches) (st : MESIState) (memOp : MemOperation)
    (sendData : Bool) : Works upperCaches L ((L.changeStateTo c st).sendRequest c memOp sendData) := by
  have := work_sendRequest upperCaches ha st memOp sendData
  unfold Works
  omega

lemma work_start {memOp : MemOperation} (hc : L.access c = none) : (L.setStage c memOp .scheduled).work upperCaches =
    L.work upperCaches + accessWork n upperCaches := by
  have := sum_update (stageWork upperCaches) L.access (Finset.mem_univ c) (some ⟨memOp, .scheduled⟩)
  have hstage : stageWork upperCaches (some ⟨memOp, .scheduled⟩ : Option (Access n)) = accessWork n upperCaches := rfl
  rw [hc, hstage] at this
  simp only [work, Line.setStage]
  simp only [stageWork, optionWork] at this ⊢
  omega

lemma work_wait {memOp : MemOperation} :
    { L with waiting := Function.update L.waiting c (L.waiting c ++ [memOp]) }.work upperCaches =
      L.work upperCaches + accessWork n upperCaches := by
  have := sum_update (fun l => l.length * accessWork n upperCaches) L.waiting (Finset.mem_univ c)
    (L.waiting c ++ [memOp])
  have hlength : (L.waiting c ++ [memOp]).length * accessWork n upperCaches =
      (L.waiting c).length * accessWork n upperCaches + accessWork n upperCaches := by
    rw [List.length_append, Nat.add_mul]
    simp
  simp only [work]
  rw [hlength] at this
  omega

lemma Transition.work_le (h : L.Inv) {e : LineEvent n} (ht : L.Transition upperCaches e L') :
    L'.work upperCaches + e.cost upperCaches L ≤ L.work upperCaches + e.gain upperCaches := by
  cases ht with
  | special => simp [LineEvent.cost]
  | start hpush hspecial hc =>
    rw [work_start hc]
    exact le_refl _
  | wait hpush hspecial hc =>
    rw [work_wait]
    exact le_refl _
  | readHit hc hread =>
    have := work_retireOutsReq upperCaches hc
    refine Works.run ?_
    simp only [Works, Stage.work] at this ⊢
    omega
  | @writeHit c memOp hc hmemOp hwrite =>
    have := work_retireOutsReq upperCaches (L := L.changeStateTo c .MODIFIED) hc
    refine Works.run ?_
    simp only [Works, Stage.work, work_changeStateTo] at this ⊢
    omega
  | @locked c memOp hc hlocked =>
    have := Nat.add_right_cancel (work_setStage upperCaches hc (mutateWriteToRead memOp) .scheduled)
    simp only [LineEvent.cost, hlocked, if_true]
    omega
  | @miss c memOp hc hstate => exact Works.run (work_issueMutExcl upperCaches hc (mutateWriteToRead memOp)).le
  | @missShared c memOp hc hmemOp hstate => exact Works.run (work_issueMutExcl upperCaches hc memOp).le
  | @upgrade c memOp allocated hc hmemOp hstate =>
    have := work_sendRequest upperCaches hc .TRANS_WR memOp false
    simp only [Stage.work] at this
    cases allocated <;> simp only [LineEvent.cost] <;> omega
  | send hc hstate => exact works_sendRequest hc (by simp only [Stage.work]; omega) _ _ _
  | @sendRetry c memOp hc hstate =>
    have := work_setStage upperCaches hc (mutateWriteToRead memOp) (.allocating none)
    simp only [Stage.work, LineEvent.cost] at this ⊢
    omega
  | @sendWaiting c memOp rpl hc hstate =>
    have := work_setStage upperCaches hc (mutateWriteToRead memOp) (.allocating (some rpl))
    simp only [Stage.work, LineEvent.cost] at this ⊢
    omega
  | allocate hc => exact works_sendRequest hc (by simp only [Stage.work]; omega) _ _ _
  | @retry c memOp hc =>
    have := Nat.add_right_cancel (work_setStage upperCaches hc memOp (.allocating none))
    simp only [LineEvent.cost]
    omega
  | @retryWaiting c memOp rpl hc =>
    have := work_setStage upperCaches hc memOp (.allocating (some rpl))
    simp only [Stage.work, LineEvent.cost] at this ⊢
    omega
  | reserve hc => exact works_sendRequest hc (by simp only [Stage.work]; omega) _ _ _
  | evict hupper hread =>
    rw [work_changeStateTo, work_writeBackDirty]
    exact le_refl _
  | @startEviction c addr hupper hread =>
    have := work_setPendInv upperCaches (L := L) (d := c) (o := some ⟨upperCaches, false, true, .allocate addr⟩)
    rw [work_changeStateTo]
    simp only [entryWork, optionWork, Int.toNat_natCast, LineEvent.cost, LineEvent.gain] at this ⊢
    omega
  | @finishEviction c hc =>
    have := work_setReplacing upperCaches (L := (L.writeBackDirty c).changeStateTo c .INVALID) (d := c) (o := none)
    obtain ⟨addr, hc⟩ := Option.ne_none_iff_exists'.1 hc
    have hold : ((L.writeBackDirty c).changeStateTo c .INVALID).replacing c = some addr :=
      (congrFun replacing_writeBackDirty c).trans hc
    rw [hold, work_changeStateTo, work_writeBackDirty] at this
    simp only [replacingWork, optionWork, LineEvent.cost] at this ⊢
    omega
  | @toMemory c r hc hsnoop =>
    have := work_move upperCaches hc .inMemory r
    simp only [Stage.work, hsnoop, LineEvent.cost] at this ⊢
    simp at this
    omega
  | @single c r hc hsnoop hn =>
    have := work_move upperCaches hc .toRequestor r
    have hfinal : (L.finalizeAccess c r).work upperCaches =
        (L.setStage c r.memOp (.sent .toRequestor r)).work upperCaches := work_congr upperCaches rfl rfl rfl rfl rfl
    simp only [Stage.work, hsnoop, if_true, busWork, LineEvent.cost] at this ⊢
    omega
  | @broadcast c r hc hsnoop hn =>
    have hmove := work_move upperCaches hc .snooping r
    have hsum := sum_update (snoopWork upperCaches) L.snoop (Finset.mem_univ c)
      fun d => if d = c then .idle else .received
    have hrow := snoopWork_received upperCaches c
    simp only [Stage.work, hsnoop, if_true, busWork, LineEvent.cost, work, Line.setStage] at hmove ⊢
    omega
  | unaffected hc hd hread => exact work_respond upperCaches hc (by simp [hd])
  | @share c d r r' hc hd hread hmemOp hr' =>
    exact work_respond upperCaches (L := L.changeStateTo d .SHARED) hc (by simp [hd])
  | @yield c d r r' hc hd hread hmemOp hr' hupper =>
    have hmove := work_move upperCaches hc .snooping r'
    have hsnoop := work_setSnoop upperCaches (L := L.setStage c r'.memOp (.sent .snooping r')) (c := c) (d := d)
      (s := .invalidating)
    have hentry := work_setPendInv upperCaches (L := (L.setStage c r'.memOp (.sent .snooping r')).setSnoop c d .invalidating)
      (d := d) (o := some ⟨upperCaches, true, false, .ack c⟩)
    have hd' : (L.setStage c r'.memOp (.sent .snooping r')).snoop c d = .received := hd
    rw [hd'] at hsnoop
    rw [work_changeStateTo]
    simp only [Stage.work, Snoop.work, entryWork, optionWork, Int.toNat_natCast, LineEvent.cost] at hmove hsnoop hentry ⊢
    omega
  | @yieldNow c d r r' hc hd hread hmemOp hr' hupper =>
    have hmove := work_move upperCaches hc .snooping r'
    have hsnoop := work_setSnoop upperCaches (L := L.setStage c r'.memOp (.sent .snooping r')) (c := c) (d := d)
      (s := .acking)
    have hd' : (L.setStage c r'.memOp (.sent .snooping r')).snoop c d = .received := hd
    rw [hd'] at hsnoop
    rw [work_changeStateTo]
    simp only [Stage.work, Snoop.work, LineEvent.cost] at hmove hsnoop ⊢
    omega
  | @oneInvalidated d e hd hlast =>
    have := work_setPendInv upperCaches (L := L) (d := d) (o := some { e with outsResps := e.outsResps - 1 })
    rw [hd] at this
    simp only [entryWork, optionWork, LineEvent.cost] at this ⊢
    omega
  | @allInvalidated c d e hd hlast hcb =>
    have hentry := work_setPendInv upperCaches (L := L) (d := d) (o := none)
    have hsnoop := work_setSnoop upperCaches (L := (L.setPendInv d none).changeStateTo d .INVALID) (c := c) (d := d)
      (s := .acking)
    rw [hd] at hentry
    simp only [entryWork, optionWork, hlast, Snoop.work, LineEvent.cost, work_changeStateTo] at hentry hsnoop ⊢
    omega
  | @gaveWay d e addr hd hlast hcb =>
    have hentry := work_setPendInv upperCaches (L := L) (d := d) (o := none)
    have hreplacing := work_setReplacing upperCaches (L := L.setPendInv d none) (d := d) (o := some addr)
    rw [hd] at hentry
    simp only [entryWork, replacingWork, optionWork, hlast, LineEvent.cost] at hentry hreplacing ⊢
    omega
  | ack hc hd => exact work_respond upperCaches hc (by simp [hd])
  | @memory c r hc =>
    have := work_move upperCaches hc .toRequestor r
    have hsnoop := (h.onItsWay c _ r hc).inMemory rfl
    simp only [Stage.work, hsnoop, LineEvent.cost] at this ⊢
    simp at this
    omega
  | @goToMemory c r hc hmiss hsnoop hdata =>
    have hc' : (L.changeStateTo c (if r.memOp = .MemRead then .TRANS_RD_MEM else .TRANS_WR_MEM)).sent c =
      some (.toRequestor, r) := hc
    have := work_move upperCaches hc' .toBus { r with needSnoop := false }
    rw [work_changeStateTo] at this
    simp only [Stage.work, hsnoop, LineEvent.cost] at this ⊢
    simp at this
    omega
  | @conclude c r st hc hanswer =>
    obtain ⟨memOp, ha⟩ := sent_eq_some.1 hc
    have hregisters : ((L.changeStateTo c st).retireOutsReq c).Registers :=
      h.registers.changeStateTo.retireOutsReq ha (by simp)
    have hretire : ((L.changeStateTo c st).retireOutsReq c).work upperCaches +
        (Stage.sent .toRequestor r).work upperCaches = L.work upperCaches :=
      work_retireOutsReq upperCaches (L := L.changeStateTo c st) ha
    have hpos : 0 < (Stage.sent .toRequestor r).work upperCaches := by
      simp only [Stage.work]
      split_ifs <;> omega
    rw [concludeAccess, work_retireMutExcl upperCaches hregisters]
    simp only [LineEvent.cost]
    omega

end Line

end Sesc.Smp
