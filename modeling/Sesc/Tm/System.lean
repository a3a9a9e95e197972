import Sesc.Lib.Machine
import Sesc.Tm.Interface

/-!
# The simulator around `TMInterface`

The processors call the interface in any order, between two of its steps or, while a committed
transaction is rerun, from within one.  Also the functions that the interface calls itself may
be called from outside, at any time and for any transaction or access.
-/

namespace Sesc.Tm

open Lib Sesc.Trans

inductive Call
  /-- `RedirectAddr` and the bytes that are then read or written. -/
  | load (pid : Pid) (addr : Address) (data : List UInt8)
  | store (pid : Pid) (addr : Address) (data : List UInt8)
  /-- `ProcessAction`. -/
  | processAccess (pid : Pid) (stamp : Stamp) (addr : Address)
  | processBegin (pid : Pid)
  | processEnd (pid : Pid) (aborts : Bool)
  /-- `MarkInstructionExecution`. -/
  | markInstructionExecution (pid : Pid)
  | observeAccess (stamp : Stamp)
  /-- The delay is read and reset. -/
  | retryTime
  /-- `ClockTick`, at which the devices may ask for aborts. -/
  | clockTick (aborts : List Level)
  | beginRabbit
  | endRabbit
  | beginTransaction (id : Level) (force : Bool)
  | endTransaction (id : Level) (force : Bool)
  | abortTransaction (id : Level)
  | abortTransactionTree (id : Level)
  | retireAccess (stamp : Stamp)
  | tryRetireTransaction (id : Level)
deriving DecidableEq, Repr

inductive Event
  | call (c : Call) (o : Outcome)
  /-- The next frame is run. -/
  | next (o : Outcome)
  /-- `MayRaceAhead` ends the rerun. -/
  | raceAheadDone
deriving DecidableEq, Repr

namespace TMInterface

variable (s : TMInterface)

/-- No call is in progress, or a transaction is being rerun. -/
def mayCall : Bool :=
  match s.frames with
  | [] => true
  | .raceAhead _ :: _ => true
  | _ => false

/-- `MarkInstructionExecution`; the residual instructions only bound the rerun. -/
def markInstructionExecution (pid : Pid) : TMInterface :=
  if s.raceAheadMode pid && s.raceAheadStarted pid && s.currentTransID pid = 0 then
    { s with raceAheadFinished := Function.update s.raceAheadFinished pid true }
  else s

/-- A load of the bytes `data`. -/
def load (pid : Pid) (addr : Address) (data : List UInt8) : Except Fault TMInterface := do
  let r ← s.memories.load pid addr data.length
  check .noSuchEvent (r.1 = data)
  return s.setMemories r.2

def store (pid : Pid) (addr : Address) (data : List UInt8) : Except Fault TMInterface := do
  let m ← s.memories.store pid addr data
  return s.setMemories m

def perform (o : Outcome) : Call → Except Fault TMInterface
  | .load pid addr data => s.load pid addr data
  | .store pid addr data => s.store pid addr data
  | .processAccess pid stamp addr => s.processAccess pid stamp addr
  | .processBegin pid => s.processBegin pid
  | .processEnd pid aborts => s.processEnd pid aborts
  | .markInstructionExecution pid => .ok (s.markInstructionExecution pid)
  | .observeAccess stamp => s.observeAccess stamp o
  | .retryTime => .ok (s.setRetryTime 0)
  | .clockTick aborts =>
    .ok { s with pendingAborts := s.pendingAborts ++ aborts }.handleEmittedInstructions
  | .beginRabbit => .ok { s with goingRabbit := true }
  | .endRabbit => .ok { s with goingRabbit := false }
  | .beginTransaction id force => s.beginTransaction id force
  | .endTransaction id force => s.endTransaction id force o
  | .abortTransaction id => s.abortTransaction id o
  | .abortTransactionTree id => s.abortTransactionTree id o
  | .retireAccess stamp => s.retireAccess stamp
  | .tryRetireTransaction id => s.tryRetireTransaction id

/-- What a frame does. -/
def run (o : Outcome) : Frame → Except Fault TMInterface
  | .begin id force => s.beginTransaction id force
  | .beginParent id force => s.beginParent id force
  | .beginSelf id force => s.beginSelf id force o
  | .ending id force => s.endTransaction id force o
  | .endParent id force => s.endParent id force
  | .commit pid => s.commitPrivateMemory pid
  | .commitLoop pid => s.commitLoop pid
  | .commitApplied pid id => s.commitApplied pid id
  | .correct pid => s.correct pid
  | .rerun pid id => s.rerun pid id
  | .raceAhead _ => .error .noSuchEvent
  | .abort id => s.abortTransaction id o
  | .abortTree garbageList => .ok (s.abortTree garbageList)
  | .abortSelf id => s.abortSelf id
  | .tryRetire id => s.tryRetireTransaction id
  | .handleEmitted => .ok s.handleEmittedInstructions
  | .handleLoop => .ok s.handleLoop
  | .restoreRetryTime n => .ok (s.setRetryTime n)
  | .observe stamp => s.observeAccess stamp o
  | .observeBegun stamp => .ok (s.observeBegun stamp)
  | .observeExecute stamp => s.observeExecute stamp o
  | .observeExecuted stamp => s.observeExecuted stamp
  | .observeEnded stamp => s.observeEnded stamp
  | .observeDependant stamp => s.observeDependant stamp
  | .setCurrentTransID pid id => .ok (s.setCurrentTransID pid id)

/-- The frames are run from the innermost on. -/
def next (o : Outcome) : Except Fault TMInterface :=
  match s.frames with
  | [] => .error .noSuchEvent
  | f :: fs => (s.setFrames fs).run o f

def raceAheadDone : Except Fault TMInterface :=
  match s.frames with
  | .raceAhead pid :: fs => (s.setFrames fs).finishRaceAhead pid
  | _ => .error .noSuchEvent

def step : Event → Except Fault TMInterface
  | .call c o => do
    check .noSuchEvent s.mayCall
    s.perform o c
  | .next o => s.next o
  | .raceAheadDone => s.raceAheadDone

end TMInterface

/-- The interface as a machine. -/
def tmInterface : Machine TMInterface Event Fault where
  init := .new
  step := TMInterface.step

end Sesc.Tm
