import Sesc.Lib.ListSet
import Sesc.Trans.Detector

/-!
# `CollisionDetectionNoBlend`

The transactions of a process are kept apart: the begin of a transaction that is not inside the
innermost active one is delayed, and if it may not be delayed it is queued.  The queued begins
are given to the detection that is wrapped when no transaction of the process is active any more.

The assertions are those of a build for debugging.
-/

namespace Sesc.Trans

open Lib

/-- A transaction instruction, without its arguments. -/
structure StoredTransOp where
  oldTrans : Level
  newTrans : Level
  opcode : TMOpCode
deriving DecidableEq, Repr

/-- The instruction that is stored. -/
def StoredTransOp.instruction (st : StoredTransOp) (pid : Pid) : Instruction :=
  .transaction pid st.oldTrans st.newTrans st.opcode

/-- The registers of a `CollisionDetectionNoBlend`, its stack and its queue for each process, and
the detection that is wrapped.  The first of a stack is its top and the first of a queue its
front. -/
structure NoBlend (σ : Type) where
  stallCommand : Bool
  lastWasAccess : Bool
  forced : Bool
  currentPid : Pid
  currentActiveTrans : ListSet Level
  currentOp : StoredTransOp
  currentTrans : Pid → List Level
  forcedOps : Pid → List StoredTransOp
  wrapped : σ

namespace NoBlend

variable {σ : Type}

/-- A new object; the source leaves the registers unset until an instruction is observed. -/
def new (wrapped : σ) : NoBlend σ where
  stallCommand := false
  lastWasAccess := false
  forced := false
  currentPid := 0
  currentActiveTrans := ∅
  currentOp := ⟨0, 0, .transBegin⟩
  currentTrans := fun _ => []
  forcedOps := fun _ => []
  wrapped := wrapped

/-- A transaction becomes the innermost active one. -/
def push (level : Level) (s : NoBlend σ) : NoBlend σ :=
  { s with
    currentTrans :=
      Function.update s.currentTrans s.currentPid (level :: s.currentTrans s.currentPid)
    currentActiveTrans := s.currentActiveTrans.insert level }

variable (T : Detector σ)

/-- `ObserveAccess`. -/
def observeAccess (isRead : Bool) (pid : Pid) (transactionEntry : Level) (address : Address)
    (size : ℕ) (s : NoBlend σ) : Except Fault (NoBlend σ) := do
  check .assertion (transactionEntry = 0 ∨ transactionEntry ∈ s.currentActiveTrans)
  let wrapped ← T.observe (.access isRead pid transactionEntry address size) s.wrapped
  return { s with
    currentPid := pid
    lastWasAccess := true
    forced := false
    stallCommand := false
    wrapped := wrapped }

/-- Whether `ObserveTransactionInst` stalls the instruction. -/
def stalls (oldLevel newLevel : Level) (opCode : TMOpCode) (pid : Pid) (s : NoBlend σ) :
    Except Fault Bool :=
  match opCode with
  | .transBegin =>
    match s.currentTrans pid with
    | [] => .ok false
    | top :: _ =>
      if top = oldLevel then .ok false
      else do
        check .assertion (newLevel > top)
        return true
  | _ => do
    check .assertion (oldLevel ∈ s.currentActiveTrans)
    -- the top of an empty stack is looked at if another process runs the transaction
    check .assertion ((s.currentTrans pid).head? = some oldLevel)
    return false

/-- `ObserveTransactionInst`. -/
def observeTransactionInst (pid : Pid) (oldLevel newLevel : Level) (opCode : TMOpCode)
    (s : NoBlend σ) : Except Fault (NoBlend σ) := do
  let stall ← stalls oldLevel newLevel opCode pid s
  let s := { s with
    lastWasAccess := false
    forced := false
    currentPid := pid
    stallCommand := stall
    currentOp := ⟨oldLevel, newLevel, opCode⟩ }
  if stall then return s
  else
    let wrapped ← T.observe (.transaction pid oldLevel newLevel opCode) s.wrapped
    return { s with wrapped := wrapped }

/-- `ObserveAccess` and `ObserveTransactionInst`. -/
def observe (i : Instruction) (s : NoBlend σ) : Except Fault (NoBlend σ) :=
  match i with
  | .access isRead pid transactionEntry address size =>
    observeAccess T isRead pid transactionEntry address size s
  | .transaction pid oldLevel newLevel opCode =>
    observeTransactionInst T pid oldLevel newLevel opCode s

/-- The loop of `FinalizeInstruction` over the queue of the process. -/
def release : List StoredTransOp → NoBlend σ → Except Fault (NoBlend σ)
  | [], s => .ok s
  | st :: rest, s => do
    check .assertion (st.opcode = .transBegin)
    let stack := s.currentTrans s.currentPid
    if stack ≠ [] ∧ stack.head? ≠ some st.oldTrans then return s
    else
      -- the level is that of the current instruction, not the stored one
      let s := s.push s.currentOp.newTrans
      let wrapped ← T.observe (st.instruction s.currentPid) s.wrapped
      let wrapped ← T.mayNotDelay wrapped
      let wrapped ← T.finalizeInstruction wrapped
      release rest { s with
        wrapped := wrapped
        forcedOps := Function.update s.forcedOps s.currentPid rest }

/-- `FinalizeInstruction`, for a transaction instruction that is not stalled. -/
def finalizeTransaction (s : NoBlend σ) : Except Fault (NoBlend σ) :=
  let stack := s.currentTrans s.currentPid
  match s.currentOp.opcode with
  | .transBegin => do
    check .assertion (s.currentOp.oldTrans = stack.headD 0)
    return s.push s.currentOp.newTrans
  | _ => do
    check .assertion (stack.head? = some s.currentOp.oldTrans)
    check .assertion (s.currentOp.oldTrans ∈ s.currentActiveTrans)
    let s := { s with
      currentActiveTrans := s.currentActiveTrans.erase s.currentOp.oldTrans
      currentTrans := Function.update s.currentTrans s.currentPid stack.tail }
    if stack.tail = [] then release T (s.forcedOps s.currentPid) s else return s

def finalizeInstruction (s : NoBlend σ) : Except Fault (NoBlend σ) :=
  if s.stallCommand then do
    check .assertion (s.lastWasAccess = false)
    return { s with
      forcedOps :=
        Function.update s.forcedOps s.currentPid (s.forcedOps s.currentPid ++ [s.currentOp]) }
  else do
    let wrapped ← T.finalizeInstruction s.wrapped
    let s := { s with wrapped := wrapped }
    if s.lastWasAccess then return s else finalizeTransaction T s

/-- `CollisionCount` and `FetchCollision` are inherited. -/
def checkCollisions (s : NoBlend σ) : Except Fault (List Collision × NoBlend σ) := do
  let (collisions, wrapped) ← T.checkCollisions s.wrapped
  return (collisions, { s with wrapped := wrapped })

def rollbackInstruction (s : NoBlend σ) : Except Fault (NoBlend σ) :=
  if s.stallCommand then .ok s
  else do
    let wrapped ← T.rollbackInstruction s.wrapped
    return { s with wrapped := wrapped }

def getDelay (s : NoBlend σ) : Except Fault ℕ :=
  if s.stallCommand then do
    check .assertion (s.forced = false)
    return 10
  else T.getDelay s.wrapped

def mayNotDelay (s : NoBlend σ) : Except Fault (NoBlend σ) := do
  check .assertion (s.lastWasAccess = false)
  let s := { s with forced := true }
  if s.stallCommand then return s
  else
    let wrapped ← T.mayNotDelay s.wrapped
    return { s with wrapped := wrapped }

/-- `CollisionDetectionNoBlend<T>`. -/
def detector : Detector (NoBlend σ) where
  observe := observe T
  checkCollisions := checkCollisions T
  getDelay := getDelay T
  mayNotDelay := mayNotDelay T
  finalizeInstruction := finalizeInstruction T
  rollbackInstruction := rollbackInstruction T

end NoBlend

end Sesc.Trans
