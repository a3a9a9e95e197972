import Sesc.Trans.Flatten
import Sesc.Trans.NoBlend
import Sesc.Trans.TableDetection

/-!
# Transactions that overlap

A process may begin its next outermost transaction while the previous one has not yet ended.  The
sequences of instructions with such begins are given to a `CollisionDetectionFlatten` around a
`CollisionDetectionNoBlend` around a detection with tables, which is what `LogTMCollisionDetection`
and `LogTMSECollisionDetection` are.
-/

namespace Sesc.Trans

open Lib

/-- The instruction is executed, and the manager or the versioning asks for a delay. -/
def Request.delayed (r : Request) : Bool := !r.forced && decide (r.delay ≠ 0)

/-- The open transactions of each process: the outermost ones in the order of their begins, each
with those inside it, the innermost first.  `begun` are all that a process has begun, and `late` the
outermost ones that have begun beside another one of their process. -/
structure Overlapping where
  towers : Pid → List (List Level)
  begun : Pid → List Level
  late : List Level

namespace Overlapping

def new : Overlapping where
  towers := fun _ => []
  begun := fun _ => []
  late := []

variable (o : Overlapping)

/-- An instruction that may come next: an access of an open transaction of its process, or of none,
the begin of a new transaction, outermost or inside an innermost one, and the end of an innermost
one.  The identifiers of a process increase. -/
def Allows (procCount : ℕ) : Instruction → Prop
  | .access _ pid transactionEntry _ _ =>
    transactionEntry = 0 ∨ ∃ t ∈ o.towers pid, transactionEntry ∈ t
  | .transaction pid oldLevel newLevel .transBegin =>
    newLevel ≠ 0 ∧ (∀ l ∈ o.begun pid, l < newLevel) ∧ (∀ q < procCount, newLevel ∉ o.begun q) ∧
      (oldLevel = 0 ∨ ∃ t ∈ o.towers pid, t.head? = some oldLevel)
  | .transaction pid oldLevel newLevel _ =>
    ∃ t ∈ o.towers pid, t.head? = some oldLevel ∧ newLevel = t.tail.headD 0

instance (procCount : ℕ) : ∀ i, Decidable (o.Allows procCount i)
  | .access .. => inferInstanceAs (Decidable (_ ∨ _))
  | .transaction _ _ _ .transBegin => inferInstanceAs (Decidable (_ ∧ _ ∧ _ ∧ _))
  | .transaction _ _ _ .transEnd => inferInstanceAs (Decidable (∃ t ∈ _, _))
  | .transaction _ _ _ .transAbort => inferInstanceAs (Decidable (∃ t ∈ _, _))

/-- A transaction has begun. -/
def afterBegin (pid : Pid) (oldLevel newLevel : Level) : Overlapping where
  towers := Function.update o.towers pid
    (if oldLevel = 0 then o.towers pid ++ [[newLevel]]
      else (o.towers pid).map fun t => if t.head? = some oldLevel then newLevel :: t else t)
  begun := Function.update o.begun pid (newLevel :: o.begun pid)
  late := if oldLevel = 0 ∧ o.towers pid ≠ [] then newLevel :: o.late else o.late

/-- A transaction has ended. -/
def afterEnd (pid : Pid) (oldLevel : Level) : Overlapping :=
  { o with
    towers := Function.update o.towers pid (((o.towers pid).map fun t =>
      if t.head? = some oldLevel then t.tail else t).filter (· ≠ [])) }

/-- The open transactions after an instruction. -/
def after : Instruction → Overlapping
  | .access .. => o
  | .transaction pid oldLevel newLevel .transBegin => o.afterBegin pid oldLevel newLevel
  | .transaction pid oldLevel _ _ => o.afterEnd pid oldLevel

/-- The requests on which no assertion fails: a begin is an outermost one, and it is delayed if the
oldest open transaction of the process is a late one; an access or an end is not that of a late
transaction; and an end is delayed if two late transactions are open. -/
def Holds (r : Request) : Prop :=
  match r.instruction with
  | .access _ _ transactionEntry _ _ => transactionEntry ∉ o.late
  | .transaction pid oldLevel _ .transBegin =>
    oldLevel = 0 ∧ (r.delayed = true ∨ ∀ t ∈ (o.towers pid).head?, ∀ l ∈ t, l ∉ o.late)
  | .transaction pid oldLevel _ _ =>
    oldLevel ∉ o.late ∧ (r.delayed = true ∨ (o.towers pid).length ≤ 2)

end Overlapping

/-- The wrapped detection with the open transactions of the processes. -/
structure Overlapped (τ : Type) where
  detector : Flatten (NoBlend (TableState τ))
  transactions : Overlapping

section

variable {τ : Type} (d : TableDetection τ)

/-- A `CollisionDetectionNoBlend` around a detection with tables. -/
def TableDetection.blended : Detector (NoBlend (TableState τ)) :=
  NoBlend.detector d.detection.detector

/-- `LogTMCollisionDetection` and `LogTMSECollisionDetection`, compiled for debugging. -/
def TableDetection.wrapped : Detector (Flatten (NoBlend (TableState τ))) :=
  Flatten.detector d.blended true

/-- The machine that executes the instructions of well-nested transactions that may overlap. -/
def overlappingMachine : Machine (Overlapped τ) Request Fault where
  init := ⟨.new (.new d.new), .new⟩
  step s r := do
    check .noSuchEvent (r.instruction.pid < d.procCount ∧
      s.transactions.Allows d.procCount r.instruction)
    let (outcome, detector) ← d.wrapped.execute r s.detector
    return ⟨detector, if outcome.retried then s.transactions else s.transactions.after r.instruction⟩

end

end Sesc.Trans
