import Sesc.Tm.Slices

/-!
# The state of `TMInterface`

The records of the transactions and of the accesses that are not finished, what every process
is doing, and the private memory.  A transaction is 0 where the source has none.

Functions of `TMInterface` call each other and themselves; what remains to be done of the
calls in progress is a stack of frames, so that every step of the simulator is a function of
the state.
-/

namespace Sesc.Tm

open Lib Sesc.Trans

/-- `TransOperation`; its arguments are read by the devices only. -/
structure TransOperation where
  opCode : TMOpCode
  oldTransactionEntry : Level
  newTransactionEntry : Level
deriving DecidableEq, Repr

structure TransRecord where
  transEndOp : Option TransOperation
  accessCounter : ℤ
  dependantAccessCounter : ℤ
  progressObserved : Bool
  transactionID : Level
  parentTransactionID : Level
  dependantTransaction : Level
  pid : Pid
  resolved : Bool
  committed : Bool
deriving DecidableEq, Repr

/-- The constructor of `TransRecord`. -/
def TransRecord.new (pid : Pid) (id parent dependant : Level) : TransRecord where
  transEndOp := none
  accessCounter := 0
  dependantAccessCounter := 0
  progressObserved := false
  transactionID := id
  parentTransactionID := parent
  dependantTransaction := dependant
  pid := pid
  resolved := false
  committed := false

/-- `MayEndTransaction`. -/
def TransRecord.mayEnd (tr : TransRecord) : Bool :=
  tr.progressObserved && tr.transEndOp.isSome && tr.accessCounter = 0 && !tr.resolved

/-- The number of an instruction. -/
abbrev Stamp := ℕ

/-- `StoredAccess`; the address and the size are read by the devices only. -/
structure StoredAccess where
  pid : Pid
  stamp : Stamp
  transactionEntry : Level
  dependantTransaction : Level
  retired : Bool
deriving DecidableEq, Repr

/-- The counter of a record is changed. -/
def countIn (t : Table TransRecord.transactionID) (id : Level) (n : ℤ) :
    Table TransRecord.transactionID :=
  t.modify id (fun tr => { tr with accessCounter := tr.accessCounter + n }) fun _ => rfl

def resolveIn (t : Table TransRecord.transactionID) (id : Level) (committed : Bool) :
    Table TransRecord.transactionID :=
  t.modify id (fun tr => { tr with resolved := true, committed := committed }) fun _ => rfl

def retireIn (t : Table StoredAccess.stamp) (stamp : Stamp) : Table StoredAccess.stamp :=
  t.modify stamp (fun a => { a with retired := true }) fun _ => rfl

/-- What remains to be done of a call. -/
inductive Frame
  /-- The call of `BeginTransaction`, and the rest of it after the dependant transaction and
  after the parent have begun. -/
  | begin (id : Level) (force : Bool)
  | beginParent (id : Level) (force : Bool)
  | beginSelf (id : Level) (force : Bool)
  /-- The call of `EndTransaction`, and the test whether the parent may end too. -/
  | ending (id : Level) (force : Bool)
  | endParent (id : Level) (force : Bool)
  /-- The call of `CommitPrivateMemory`, a turn of its loop, what follows `ApplyChanges`, a turn
  of the loop that aborts the transactions stacked on one that is to be rerun, and the rerun. -/
  | commit (pid : Pid)
  | commitLoop (pid : Pid)
  | commitApplied (pid : Pid) (id : Level)
  | correct (pid : Pid)
  | rerun (pid : Pid) (id : Level)
  | raceAhead (pid : Pid)
  /-- The call of `AbortTransaction`, the loop of `AbortTransactionTree` over the transactions
  that are left, and the rest after the tree has been aborted. -/
  | abort (id : Level)
  | abortTree (garbageList : List Level)
  | abortSelf (id : Level)
  | tryRetire (id : Level)
  /-- The call of `HandleEmittedInstructions`, a turn of its loop, and the delay that is restored
  after it. -/
  | handleEmitted
  | handleLoop
  | restoreRetryTime (n : ℕ)
  /-- The call of `ObserveAccess` and what follows `BeginTransaction`, `ExecuteAccess` and the
  end of the transaction. -/
  | observe (stamp : Stamp)
  | observeBegun (stamp : Stamp)
  | observeExecute (stamp : Stamp)
  | observeExecuted (stamp : Stamp)
  | observeEnded (stamp : Stamp)
  | observeDependant (stamp : Stamp)
  /-- The end of `ProcessAction`. -/
  | setCurrentTransID (pid : Pid) (id : Level)
deriving DecidableEq, Repr

/-- The frames of `BeginTransaction`, which are left together when it returns false. -/
def Frame.isBegin : Frame → Bool
  | begin _ _ | beginParent _ _ | beginSelf _ _ => true
  | _ => false

/-- The static members of `TMInterface`, without those that only `ProcessAction` and the devices
use. -/
structure TMInterface where
  accessSet : Table StoredAccess.stamp
  transRecordSet : Table TransRecord.transactionID
  lastTransactionSeen : Pid → Level
  currentTransID : Pid → Level
  globalTransactionID : Level
  memories : Memories
  raceAheadStarted : Pid → Bool
  raceAheadFinished : Pid → Bool
  raceAheadMode : Pid → Bool
  goingRabbit : Bool
  retryTime : ℕ
  pendingAborts : List Level
  handlingEmittedInstr : Bool
  deadInstruction : Bool
  /-- The calls in progress, the innermost first. -/
  frames : List Frame
  /-- The children that have been counted for their parents so far, and those that have been
  counted down again; no function reads these. -/
  countedUp : List Level
  countedDown : List Level

/-- `forceInOrderTrans`, which nothing changes. -/
def forceInOrderTrans : Bool := true

namespace TMInterface

def new : TMInterface where
  accessSet := ∅
  transRecordSet := ∅
  lastTransactionSeen := fun _ => 0
  currentTransID := fun _ => 0
  globalTransactionID := 1
  memories := .new
  raceAheadStarted := fun _ => false
  raceAheadFinished := fun _ => false
  raceAheadMode := fun _ => false
  goingRabbit := false
  retryTime := 0
  pendingAborts := []
  handlingEmittedInstr := false
  deadInstruction := false
  frames := []
  countedUp := []
  countedDown := []

variable (s : TMInterface)

/-- The record of a transaction, which must be there. -/
def record (id : Level) : Except Fault TransRecord :=
  (s.transRecordSet.find id).elim (.error .assertion) .ok

/-- The access of an instruction, which must be there. -/
def access (stamp : Stamp) : Except Fault StoredAccess :=
  (s.accessSet.find stamp).elim (.error .assertion) .ok

def setRecords (t : Table TransRecord.transactionID) : TMInterface := { s with transRecordSet := t }

def setAccesses (t : Table StoredAccess.stamp) : TMInterface := { s with accessSet := t }

def setMemories (m : Memories) : TMInterface := { s with memories := m }

def setLastTransactionSeen (pid : Pid) (id : Level) : TMInterface :=
  { s with lastTransactionSeen := Function.update s.lastTransactionSeen pid id }

def setCurrentTransID (pid : Pid) (id : Level) : TMInterface :=
  { s with currentTransID := Function.update s.currentTransID pid id }

def setRetryTime (n : ℕ) : TMInterface := { s with retryTime := n }

def setFrames (fs : List Frame) : TMInterface := { s with frames := fs }

/-- Calls are made, the first one first. -/
def push (fs : List Frame) : TMInterface := s.setFrames (fs ++ s.frames)

def addAccesses (id : Level) (n : ℤ) : TMInterface := s.setRecords (countIn s.transRecordSet id n)

def addDependantAccesses (id : Level) (n : ℤ) : TMInterface :=
  s.setRecords (s.transRecordSet.modify id (fun tr =>
    { tr with dependantAccessCounter := tr.dependantAccessCounter + n }) fun _ => rfl)

def setProgressObserved (id : Level) : TMInterface :=
  s.setRecords (s.transRecordSet.modify id (fun tr =>
    { tr with progressObserved := true }) fun _ => rfl)

def setTransEndOp (id : Level) (op : TransOperation) : TMInterface :=
  s.setRecords (s.transRecordSet.modify id (fun tr => { tr with transEndOp := some op }) fun _ => rfl)

def setResolved (id : Level) (committed : Bool) : TMInterface :=
  s.setRecords (resolveIn s.transRecordSet id committed)

def setRetired (stamp : Stamp) : TMInterface := s.setAccesses (retireIn s.accessSet stamp)

/-- The counter of the parent is incremented for a child that begins. -/
def countUp (parent child : Level) : Except Fault TMInterface := do
  let _ ← s.record parent
  return { s.addAccesses parent 1 with countedUp := s.countedUp ++ [child] }

/-- The counter of the parent is decremented for a child that is resolved.  A parent without a
record would be one with uninitialised counters. -/
def countDown (parent child : Level) : Except Fault TMInterface := do
  let _ ← s.record parent
  return { s.addAccesses parent (-1) with countedDown := s.countedDown ++ [child] }

end TMInterface

end Sesc.Tm
