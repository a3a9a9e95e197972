import Mathlib.Logic.Function.Basic
import Sesc.Lib.Check
import Sesc.Lib.Machine
import Sesc.Messages

/-!
# Instructions of a transactional processor

The accesses and the transaction instructions that `TMInterface` gives to a collision
detection, and the order in which it calls the detection: the instruction is observed, its
collisions are counted and fetched, and the instruction is finalized, or rolled back if it is
to be tried again.

Processes and levels (transaction identifiers) are numbers; the level 0 is no transaction.
-/

namespace Sesc.Trans

open Lib

abbrev Pid := ℕ
abbrev Level := ℕ

/-- The values of `TMOpCodes`. -/
inductive TMOpCode
  | transBegin
  | transEnd
  | transAbort
deriving DecidableEq, Repr

/-- An instruction as `ObserveAccess` or `ObserveTransactionInst` gets it. -/
inductive Instruction
  | access (isRead : Bool) (pid : Pid) (transactionEntry : Level) (address : Address) (size : ℕ)
  | transaction (pid : Pid) (oldLevel newLevel : Level) (opCode : TMOpCode)
deriving DecidableEq, Repr

/-- The process that executes an instruction. -/
def Instruction.pid : Instruction → Pid
  | access _ pid _ _ _ => pid
  | transaction pid _ _ _ => pid

/-- What `FetchCollision` returns. -/
structure Collision where
  localPid : Pid
  localLevel : Level
  localIsDetermined : Bool
  localIsRead : Bool
  enemyPid : Pid
  enemyLevel : Level
  enemyIsDetermined : Bool
  enemyIsRead : Bool
deriving DecidableEq, Repr

/-- The part of `ITMCollisionDetection` that decides on collisions. -/
structure ITMCollisionDetection (σ : Type*) where
  observe : Instruction → σ → σ
  collisionCount : σ → Except Fault (ℕ × σ)
  fetchCollision : σ → Except Fault (Collision × σ)
  finalizeInstruction : σ → Except Fault σ
  rollbackInstruction : σ → σ

namespace ITMCollisionDetection

variable {σ : Type*} (d : ITMCollisionDetection σ)

/-- The calls of `FetchCollision` in `TMInterface::CheckCollisions`. -/
def fetchCollisions : ℕ → σ → Except Fault (List Collision × σ)
  | 0, s => .ok ([], s)
  | n + 1, s => do
    let (c, s) ← d.fetchCollision s
    let (cs, s) ← fetchCollisions n s
    return (c :: cs, s)

/-- `TMInterface::CheckCollisions`: the collisions that are reported to the manager. -/
def checkCollisions (s : σ) : Except Fault (List Collision × σ) := do
  let (n, s) ← d.collisionCount s
  d.fetchCollisions n s

/-- `TMInterface::ExecuteAccess` and `ExecuteTransactionInst`, without the manager and the
versioning: whether the instruction is to be tried again is for these to say. -/
def execute (i : Instruction) (retry : Bool) (s : σ) : Except Fault σ := do
  let (_, s) ← d.checkCollisions (d.observe i s)
  if retry then return d.rollbackInstruction s else d.finalizeInstruction s

end ITMCollisionDetection

/-! ## What the active transactions have accessed -/

/-- An instruction with whether it is to be tried again. -/
structure Execution where
  instruction : Instruction
  retry : Bool
deriving DecidableEq, Repr

/-- The accesses of the active transaction of each process, reads with `true`, after one more
instruction. -/
def recordAccess (h : Pid → List (Bool × Address)) (e : Execution) :
    Pid → List (Bool × Address) :=
  if e.retry then h
  else
    match e.instruction with
    | .access isRead pid transactionEntry address _ =>
      if transactionEntry ≠ 0 then Function.update h pid (h pid ++ [(isRead, address)]) else h
    | .transaction pid _ _ _ => Function.update h pid []

/-- The accesses of the active transaction of each process at the end of a run. -/
def accesses (es : List Execution) : Pid → List (Bool × Address) :=
  es.foldl recordAccess fun _ => []

/-- The instruction is to be tried again or is not part of a transaction. -/
def Execution.IsIdle (e : Execution) : Prop :=
  e.retry = true ∨ ∃ isRead pid address size, e.instruction = .access isRead pid 0 address size

lemma recordAccess_of_isIdle {h : Pid → List (Bool × Address)} {e : Execution} (he : e.IsIdle) :
    recordAccess h e = h := by
  rcases e with ⟨i, retry⟩
  rcases he with hretry | ⟨isRead, pid, address, size, hi⟩
  · exact if_pos hretry
  · cases hi
    cases retry <;> rfl

lemma recordAccess_access {h : Pid → List (Bool × Address)} {isRead : Bool} {pid : Pid}
    {transactionEntry : Level} {address : Address} {size : ℕ} (htrans : transactionEntry ≠ 0) :
    recordAccess h ⟨.access isRead pid transactionEntry address size, false⟩ =
      Function.update h pid (h pid ++ [(isRead, address)]) := if_pos htrans

lemma recordAccess_transaction {h : Pid → List (Bool × Address)} {pid : Pid} {old new : Level}
    {op : TMOpCode} :
    recordAccess h ⟨.transaction pid old new op, false⟩ = Function.update h pid [] := rfl

lemma accesses_append (es : List Execution) (e : Execution) :
    accesses (es ++ [e]) = recordAccess (accesses es) e := by
  rw [accesses, List.foldl_append]
  rfl

/-- The active transaction of the process has read (or written) the line of the address. -/
def HasAccessed (lineSize : ℕ) (es : List Execution) (pid : Pid) (read : Bool) (addr : Address) :
    Prop :=
  ∃ a, (read, a) ∈ accesses es pid ∧ a / lineSize = addr / lineSize

namespace ITMCollisionDetection

variable {σ : Type*} (d : ITMCollisionDetection σ)

/-- The machine of a collision detection for a number of processes. -/
def machine (procCount : ℕ) (init : σ) : Machine σ Execution Fault where
  init := init
  step s e := do
    check .noSuchEvent (e.instruction.pid < procCount)
    d.execute e.instruction e.retry s

end ITMCollisionDetection

end Sesc.Trans
