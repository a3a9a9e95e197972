import Mathlib.Data.Int.Notation
import Mathlib.Data.Nat.Notation
import Mathlib.Logic.Function.Basic
import Sesc.Lib.Check
import Sesc.Messages

/-!
# The process queue

The queue of the runnable processes, with the best priority first.  It is a linked list, and each
process has an iterator to its own node.  A process is promoted or demoted by walking from its node
toward the front or the end of the queue; on the way the walk remembers a process to preempt.
-/

namespace Sesc.Core

open Lib

/-- A pointer to a process. -/
abbrev Pid := ℕ

abbrev CPU := ℤ

inductive ProcessIdState
  | invalid
  | running
  | ready
  | suspended
  | waiting
deriving DecidableEq, Repr

structure ProcessId where
  state : ProcessIdState
  /-- Lower is better. -/
  priority : ℤ
  /-- The iterator to the node of the process, or none for the end of the queue. -/
  queuePosition : Option ℕ
  cpu : CPU
  migrable : Bool
  pinned : Bool
deriving DecidableEq, Repr

namespace ProcessId

/-- A process that has been created. -/
def create (cpu : CPU) (migrable pinned : Bool) : ProcessId :=
  ⟨.invalid, 0, none, cpu, migrable, pinned⟩

variable (p : ProcessId)

/-- The process may run on a processor. -/
def mayRunOn (cpu : CPU) : Bool := !p.pinned || p.cpu = cpu

/-- The process is in one of the runnable states. -/
def runnable : Bool := p.state = .ready || p.state = .running

end ProcessId

/-- A node of the queue. -/
structure Node where
  addr : ℕ
  proc : Pid
deriving DecidableEq, Repr

structure Processes where
  procs : Pid → ProcessId
  processQueue : List Node
  /-- The address of the next node. -/
  nextNode : ℕ

/-- A position in the queue, with the nodes before it, the nearest first, and the nodes from it on. -/
structure Cursor where
  before : List Node
  after : List Node
  retVal : Option Pid
deriving DecidableEq, Repr

namespace Processes

variable (s : Processes) (p : Pid)

def modify (f : ProcessId → ProcessId) : Processes :=
  { s with procs := Function.update s.procs p (f (s.procs p)) }

/-- The position of a node, without the node. -/
def cursor (pos : ℕ) : Cursor where
  before := (s.processQueue.takeWhile (·.addr ≠ pos)).reverse
  after := (s.processQueue.dropWhile (·.addr ≠ pos)).tail
  retVal := none

/-- The process gets a new node at a position. -/
def insertAt (whereIt : Cursor) : Processes :=
  { s.modify p fun proc => { proc with queuePosition := some s.nextNode } with
    processQueue := whereIt.before.reverse ++ ⟨s.nextNode, p⟩ :: whereIt.after
    nextNode := s.nextNode + 1 }

/-- The candidate for `queuePromote` to return. -/
def candidate (retVal : Option Pid) (q : Pid) : Option Pid :=
  if retVal = none && (s.procs q).state = .running && (s.procs p).mayRunOn (s.procs q).cpu then some q
  else retVal

/-- The loop of `queuePromote`, over the nodes before the position. -/
def promoteWalk : List Node → List Node → Option Pid → Cursor
  | [], after, retVal => ⟨[], after, retVal⟩
  | n :: before, after, retVal =>
    if (s.procs n.proc).priority ≤ (s.procs p).priority then ⟨n :: before, after, retVal⟩
    else promoteWalk before (n :: after) (s.candidate p retVal n.proc)

def queuePromote : Except Fault (Option Pid × Processes) :=
  match (s.procs p).queuePosition with
  | none => .error .assertion
  | some pos =>
    let start := s.cursor pos
    let whereIt := s.promoteWalk p start.before start.after none
    if whereIt.before = start.before then .ok (whereIt.retVal, s)
    else .ok (whereIt.retVal, s.insertAt p whereIt)

/-- The candidate for `queueDemote` to return. -/
def demoteCandidate (retVal : Option Pid) (q : Pid) : Option Pid :=
  if retVal = none && (s.procs q).state = .ready && (s.procs q).mayRunOn (s.procs p).cpu then some q
  else retVal

/-- The loop of `queueDemote`, over the nodes from the position on. -/
def demoteWalk : List Node → List Node → Option Pid → Cursor
  | before, [], retVal => ⟨before, [], retVal⟩
  | before, n :: after, retVal =>
    if (s.procs p).priority < (s.procs n.proc).priority then ⟨before, n :: after, retVal⟩
    else demoteWalk (n :: before) after (s.demoteCandidate p retVal n.proc)

/-- The process always gets a new node. -/
def queueDemote : Except Fault (Option Pid × Processes) :=
  match (s.procs p).queuePosition with
  | none => .error .assertion
  | some pos =>
    let start := s.cursor pos
    let whereIt := s.demoteWalk p start.before start.after none
    .ok (whereIt.retVal, s.insertAt p whereIt)

def queueInsert : Except Fault (Option Pid × Processes) := do
  check .assertion ((s.procs p).queuePosition = none)
  (s.insertAt p ⟨s.processQueue.reverse, [], none⟩).queuePromote p

def queueRemove : Except Fault Processes :=
  match (s.procs p).queuePosition with
  | none => .error .assertion
  | some pos =>
    let s := { s with processQueue := s.processQueue.filter (·.addr ≠ pos) }
    .ok (s.modify p fun proc => { proc with queuePosition := none })

/-- The loop of `queueGet`. -/
def getLoop (cpu : CPU) : List Node → Except Fault (Option Pid)
  | [] => .ok none
  | n :: rest =>
    let proc := s.procs n.proc
    if proc.state = .ready && proc.mayRunOn cpu then .ok (some n.proc)
    else do
      check .assertion
        ((proc.state = .ready ∧ proc.pinned = true ∧ proc.cpu ≠ cpu) ∨ proc.state = .running)
      getLoop cpu rest

def queueGet (cpu : CPU) : Except Fault (Option Pid) := s.getLoop cpu s.processQueue

def becomeReady : Except Fault (Option Pid × Processes) := do
  check .assertion ((s.procs p).state = .invalid)
  (s.modify p fun proc => { proc with state := .ready }).queueInsert p

def becomeNonReady : Except Fault Processes := do
  check .assertion ((s.procs p).state = .ready)
  (s.modify p fun proc => { proc with state := .invalid }).queueRemove p

def switchIn (nCPU : CPU) : Except Fault Processes := do
  let proc := s.procs p
  check .assertion (proc.state = .ready)
  check .assertion (proc.migrable = false → proc.pinned = true → proc.cpu = nCPU)
  return s.modify p fun proc =>
    { proc with cpu := nCPU, pinned := proc.pinned || !proc.migrable, state := .running }

def switchOut : Except Fault Processes := do
  check .assertion ((s.procs p).state = .running)
  return s.modify p fun proc => { proc with state := .ready }

def setPriority (newPriority : ℤ) : Except Fault (Option Pid × Processes) :=
  let oldPriority := (s.procs p).priority
  let s := s.modify p fun proc => { proc with priority := newPriority }
  if (s.procs p).queuePosition ≠ none then
    if newPriority < oldPriority then s.queuePromote p else s.queueDemote p
  else .ok (none, s)

end Processes

end Sesc.Core
