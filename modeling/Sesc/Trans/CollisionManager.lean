import Sesc.Lib.Chains
import Sesc.Lib.ListSet
import Sesc.Trans.Instruction

/-!
# `PerfectCollisionManager`

A process whose access collides waits for the first enemy reported, unless it dominates that
enemy or the enemy waits for it already; then one of the two is chosen by timestamp to be
aborted.  `TMInterface` finalizes the access when no device asks for a delay, and after that
executes the aborts.
-/

namespace Sesc.Trans

open Lib

/-- The registers and tables of a `PerfectCollisionManager`.  `pidDependancy` is none where the
source has -1; of a `TransactionResult` only the process is kept. -/
structure PerfectCollisionManager where
  transInstr : Bool
  isAccess : Bool
  oldLevel : Level
  newLevel : Level
  pid : Pid
  opCode : TMOpCode
  delay : ℕ
  pidDominance : Pid → ListSet Pid
  outerTransactions : Pid → List Level
  parentSet : Level → Option Level
  childSet : Level → Option Level
  timeStamp : Level → Option ℕ
  activeTransResultSet : Level → Option Pid
  collisionSet : List Collision
  abortSet : List Level
  abortIndex : ℕ
  pidDependancy : Pid → Option Pid
  levelDependancy : Pid → ListSet Level
  backoff : Pid → ℕ

namespace PerfectCollisionManager

def minBackoffTime : ℕ := 1

def maxBackoffTime : ℕ := 4

/-- After `Initialize`; the source leaves the registers of the instruction unset. -/
def new : PerfectCollisionManager where
  transInstr := false
  isAccess := false
  oldLevel := 0
  newLevel := 0
  pid := 0
  opCode := .transBegin
  delay := 0
  pidDominance := fun _ => ∅
  outerTransactions := fun _ => []
  parentSet := fun _ => none
  childSet := fun _ => none
  timeStamp := fun _ => none
  activeTransResultSet := fun _ => none
  collisionSet := []
  abortSet := []
  abortIndex := 0
  pidDependancy := fun _ => none
  levelDependancy := fun _ => ∅
  backoff := fun _ => 0

variable (s : PerfectCollisionManager)

/-! ## Observing an instruction -/

/-- A process that waits is delayed, the next time for twice as long. -/
def delayWaiting (pid : Pid) : PerfectCollisionManager :=
  if s.pidDependancy pid ≠ none then
    { s with
      delay := s.backoff pid
      backoff := Function.update s.backoff pid (min maxBackoffTime (s.backoff pid * 2)) }
  else { s with delay := 0 }

def observeAccess (pid : Pid) (transactionEntry : Level) : Except Fault PerfectCollisionManager := do
  check .assertion (s.pidDependancy pid ≠ none → transactionEntry ≠ 0 →
    s.activeTransResultSet transactionEntry ≠ none)
  return { s.delayWaiting pid with
    transInstr := false
    isAccess := true
    oldLevel := transactionEntry }

def observeTransactionInst (pid : Pid) (oldLevel newLevel : Level) (opCode : TMOpCode) :
    PerfectCollisionManager :=
  { s.delayWaiting pid with
    transInstr := true
    opCode := opCode
    pid := pid
    newLevel := newLevel
    oldLevel := oldLevel }

def getDelay : ℕ × PerfectCollisionManager := (s.delay, { s with delay := 0 })

/-! ## Collisions -/

/-- `ReportCollisionCount`, then `ReportCollision` for each collision. -/
def reportCollisions (collisions : List Collision) : PerfectCollisionManager :=
  { s with collisionSet := collisions }

/-- What `AbortCount` collects about the enemy that a process is going to depend on. -/
structure Dependance where
  localTimeStamp : ℕ
  enemyTimeStamp : ℕ
  levels : ListSet Level

/-- A timestamp that must be there. -/
def getTimeStamp (level : Level) : Except Fault ℕ :=
  (s.timeStamp level).elim (.error .assertion) .ok

/-- The body of the loop of `AbortCount` over the collisions. -/
def noteCollision (pid enemy : Pid) (d : Dependance) (c : Collision) : Except Fault Dependance := do
  check .assertion (pid = c.localPid)
  if c.enemyPid = enemy then
    let localTime ← s.getTimeStamp c.localLevel
    let enemyTime ← s.getTimeStamp c.enemyLevel
    check .assertion (c.enemyLevel ∈ d.levels ∨ c.enemyLevel ≠ 0)
    return {
      localTimeStamp := min d.localTimeStamp localTime
      enemyTimeStamp := min d.enemyTimeStamp enemyTime
      levels := d.levels.insert c.enemyLevel }
  else return d

/-- The process is aborted and not the enemy that it depends on. -/
def Dependance.abortsSelf (d : Dependance) (pid enemy : Pid) : Prop :=
  d.enemyTimeStamp < d.localTimeStamp ∨ d.enemyTimeStamp = d.localTimeStamp ∧ pid > enemy

instance (d : Dependance) (pid enemy : Pid) : Decidable (d.abortsSelf pid enemy) :=
  inferInstanceAs (Decidable (_ ∨ _))

/-- An abort has been triggered; for the abort of the process itself the source takes the levels
on which the enemy depends. -/
def chooseAborts (pid enemy : Pid) (d : Dependance) : PerfectCollisionManager :=
  if d.abortsSelf pid enemy then
    { s with
      abortSet := (s.levelDependancy enemy).toList
      pidDominance := Function.update s.pidDominance enemy ((s.pidDominance enemy).insert pid) }
  else
    { s with
      abortSet := (s.levelDependancy pid).toList
      pidDominance := Function.update s.pidDominance pid ((s.pidDominance pid).insert enemy) }

/-- No abort has been triggered: the process waits. -/
def stall (pid : Pid) : PerfectCollisionManager :=
  { s with
    delay := minBackoffTime
    backoff := Function.update s.backoff pid minBackoffTime }

/-- `AbortCount`, for a process that comes to depend on an enemy. -/
def dependOn (procCount : ℕ) (pid enemy : Pid) : Except Fault PerfectCollisionManager := do
  let d ← s.collisionSet.foldlM (s.noteCollision pid enemy)
    ⟨0xFFFFFFFFFFFFFFFF, 0xFFFFFFFFFFFFFFFF, s.levelDependancy pid⟩
  let s := { s with
    pidDependancy := Function.update s.pidDependancy pid (some enemy)
    levelDependancy := Function.update s.levelDependancy pid d.levels }
  if enemy ∈ s.pidDominance pid then return s.chooseAborts pid enemy d
  else
    -- the loop stops at the latest when it has visited every process
    let back ← (comesBack s.pidDependancy (procCount + 1) [pid] (some enemy)).elim
      (.error .noSuchEvent) .ok
    return if back then s.chooseAborts pid enemy d else s.stall pid

/-- `AbortCount`, with its first collision. -/
def dependOnFirst (procCount : ℕ) (c : Collision) : Except Fault PerfectCollisionManager :=
  if s.pidDependancy c.localPid = none then s.dependOn procCount c.localPid c.enemyPid
  else .ok s

/-- `AbortCount`. -/
def abortCount (procCount : ℕ) : Except Fault (ℕ × PerfectCollisionManager) := do
  let c ← (s.collisionSet.head?).elim (.error .noSuchEvent) .ok
  let s ← dependOnFirst { s with abortSet := [], pid := c.localPid } procCount c
  return (s.abortSet.length, { s with abortIndex := 0 })

/-- `AbortID`. -/
def abortID : Except Fault (Level × PerfectCollisionManager) := do
  let transID ← (s.abortSet[s.abortIndex]?).elim (.error .noSuchEvent) .ok
  return (transID, { s with abortIndex := s.abortIndex + 1 })

/-- The calls of `AbortID` in `TMInterface::CheckCollisions`. -/
def abortIDs : ℕ → PerfectCollisionManager → Except Fault (List Level × PerfectCollisionManager)
  | 0, s => .ok ([], s)
  | n + 1, s => do
    let (transID, s) ← s.abortID
    let (transIDs, s) ← abortIDs n s
    return (transID :: transIDs, s)

/-- `TMInterface::CheckCollisions`: the transactions to abort. -/
def checkCollisions (procCount : ℕ) (collisions : List Collision) :
    Except Fault (List Level × PerfectCollisionManager) := do
  let s := s.reportCollisions collisions
  if collisions = [] then return ([], s)
  else
    let (n, s) ← s.abortCount procCount
    abortIDs n s

/-! ## Finalizing an instruction -/

/-- The start of a transaction of a process. -/
def beginTransaction (procTime : ℕ) : PerfectCollisionManager :=
  { s with
    outerTransactions := if s.oldLevel = 0 then
        Function.update s.outerTransactions s.pid (s.outerTransactions s.pid ++ [s.newLevel])
      else s.outerTransactions
    parentSet := Function.update s.parentSet s.newLevel (some s.oldLevel)
    childSet := Function.update s.childSet s.oldLevel (some s.newLevel)
    timeStamp := Function.update s.timeStamp s.newLevel
      (some ((s.timeStamp s.oldLevel).getD procTime))
    activeTransResultSet := Function.update s.activeTransResultSet s.newLevel (some s.pid) }

/-- The levels on which a process depends after the end of a level of a process. -/
def levelsAfter (pid : Pid) (level : Level) (i : Pid) : ListSet Level :=
  if i = pid then ∅
  else if s.pidDependancy i = some pid then (s.levelDependancy i).erase level
  else s.levelDependancy i

/-- A process no longer waits when the last level on which it depends has ended. -/
def isReleased (pid : Pid) (level : Level) (i : Pid) : Prop :=
  i = pid ∨ s.pidDependancy i = some pid ∧ level ∈ s.levelDependancy i ∧
    ((s.levelDependancy i).erase level).toList = []

instance (pid : Pid) (level : Level) (i : Pid) : Decidable (s.isReleased pid level i) :=
  inferInstanceAs (Decidable (_ ∨ _))

/-- The end of a transaction, committed or aborted. -/
def endTransaction : Except Fault PerfectCollisionManager := do
  -- the source dereferences the result of the transaction
  check .assertion (s.activeTransResultSet s.oldLevel ≠ none)
  let parentSet := Function.update s.parentSet s.oldLevel none
  return { s with
    parentSet := parentSet
    childSet := Function.update s.childSet s.newLevel none
    timeStamp := Function.update s.timeStamp s.oldLevel none
    outerTransactions := if s.newLevel = 0 then
        Function.update s.outerTransactions s.pid
          ((s.outerTransactions s.pid).dropWhile fun l => parentSet l = none)
      else s.outerTransactions
    pidDependancy := fun i =>
      if s.isReleased s.pid s.oldLevel i then none else s.pidDependancy i
    levelDependancy := s.levelsAfter s.pid s.oldLevel
    backoff := fun i => if s.isReleased s.pid s.oldLevel i then 0 else s.backoff i
    pidDominance := Function.update s.pidDominance s.pid ∅
    activeTransResultSet := Function.update s.activeTransResultSet s.oldLevel none }

/-- What `FinalizeInstruction` does for the instruction that has been observed. -/
def finalizeObserved (procTime : ℕ) : Except Fault PerfectCollisionManager :=
  if s.transInstr then
    match s.opCode with
    | .transBegin => .ok (s.beginTransaction procTime)
    | _ => s.endTransaction
  else do
    check .assertion (s.isAccess = true → s.oldLevel ≠ 0 →
      s.activeTransResultSet s.oldLevel ≠ none)
    return s

/-- `FinalizeInstruction`. -/
def finalizeInstruction (procTime : ℕ) : Except Fault PerfectCollisionManager := do
  let s ← s.finalizeObserved procTime
  return { s with transInstr := false }

/-- `RollbackInstruction`. -/
def rollbackInstruction : PerfectCollisionManager := { s with transInstr := false }

/-! ## Executing an instruction -/

/-- `TMInterface::ExecuteAccess` up to the delay that the manager asks for: this delay and the
transactions to abort. -/
def resolve (procCount : ℕ) (pid : Pid) (transactionEntry : Level) (collisions : List Collision) :
    Except Fault (ℕ × List Level × PerfectCollisionManager) := do
  let s ← s.observeAccess pid transactionEntry
  let (transIDs, s) ← s.checkCollisions procCount collisions
  return (s.getDelay.1, transIDs, s.getDelay.2)

/-- Finalizing an instruction, or rolling it back if it is to be tried again. -/
def conclude (retry : Bool) (procTime : ℕ) : Except Fault PerfectCollisionManager :=
  if retry then .ok s.rollbackInstruction else s.finalizeInstruction procTime

/-- `TMInterface::ExecuteTransactionInst`; a transaction instruction has no collisions. -/
def executeTransactionInst (pid : Pid) (oldLevel newLevel : Level) (opCode : TMOpCode)
    (forceNoDelay delayed : Bool) (procTime : ℕ) : Except Fault PerfectCollisionManager :=
  let s := (s.observeTransactionInst pid oldLevel newLevel opCode).reportCollisions []
  if forceNoDelay then s.finalizeInstruction procTime
  else s.getDelay.2.conclude (decide (s.getDelay.1 ≠ 0) || delayed) procTime

/-- An instruction by which `TMInterface::AbortTransaction` aborts a transaction. -/
structure Abort where
  pid : Pid
  transID : Level
  parentID : Level
deriving DecidableEq, Repr

/-- The abort of a transaction that has begun and has not ended, at the time 0: the end of a
transaction does not depend on the time. -/
def executeAbort (a : Abort) : Except Fault PerfectCollisionManager := do
  check .noSuchEvent (s.activeTransResultSet a.transID = some a.pid)
  s.executeTransactionInst a.pid a.transID a.parentID .transAbort true false 0

/-- The collisions that a detection reports for an access of a process: with active
transactions of other processes. -/
def Admits (pid : Pid) (collisions : List Collision) : Prop :=
  ∀ c ∈ collisions, c.localPid = pid ∧ s.activeTransResultSet c.localLevel = some pid ∧
    c.enemyPid ≠ pid ∧ s.activeTransResultSet c.enemyLevel = some c.enemyPid

instance (pid : Pid) (collisions : List Collision) : Decidable (s.Admits pid collisions) :=
  inferInstanceAs (Decidable (∀ c ∈ collisions, _))

/-- What `TMInterface` gives to the manager: the accesses with their collisions and the aborts
that follow, and the transaction instructions.  `delayed` tells whether another device asks for
a delay. -/
inductive Event
  | access (pid : Pid) (transactionEntry : Level) (collisions : List Collision) (delayed : Bool)
      (aborts : List Abort)
  | transaction (pid : Pid) (oldLevel newLevel : Level) (opCode : TMOpCode)
      (forceNoDelay delayed : Bool) (procTime : ℕ)
deriving DecidableEq, Repr

/-- An access and the aborts that it reports: these may come in any order and abort further
transactions, as long as they abort all those reported. -/
def stepAccess (procCount : ℕ) (pid : Pid) (transactionEntry : Level) (collisions : List Collision)
    (delayed : Bool) (aborts : List Abort) : Except Fault PerfectCollisionManager := do
  check .noSuchEvent (pid < procCount)
  check .noSuchEvent (transactionEntry ≠ 0 → s.activeTransResultSet transactionEntry = some pid)
  check .noSuchEvent (s.Admits pid collisions)
  let (delay, transIDs, s) ← s.resolve procCount pid transactionEntry collisions
  let s ← s.conclude (decide (delay ≠ 0) || delayed) 0
  let s ← aborts.foldlM executeAbort s
  check .noSuchEvent (∀ transID ∈ transIDs, s.activeTransResultSet transID = none)
  return s

/-- A transaction instruction: a level that begins is new, one that ends is active. -/
def stepTransaction (procCount : ℕ) (pid : Pid) (oldLevel newLevel : Level) (opCode : TMOpCode)
    (forceNoDelay delayed : Bool) (procTime : ℕ) : Except Fault PerfectCollisionManager := do
  check .noSuchEvent (pid < procCount)
  check .noSuchEvent
    (opCode = .transBegin → newLevel ≠ 0 ∧ s.activeTransResultSet newLevel = none)
  check .noSuchEvent (opCode ≠ .transBegin → s.activeTransResultSet oldLevel = some pid)
  s.executeTransactionInst pid oldLevel newLevel opCode forceNoDelay delayed procTime

/-- The manager of a number of processes. -/
def machine (procCount : ℕ) : Machine PerfectCollisionManager Event Fault where
  init := new
  step s e := match e with
    | .access pid transactionEntry collisions delayed aborts =>
      s.stepAccess procCount pid transactionEntry collisions delayed aborts
    | .transaction pid oldLevel newLevel opCode forceNoDelay delayed procTime =>
      s.stepTransaction procCount pid oldLevel newLevel opCode forceNoDelay delayed procTime

end PerfectCollisionManager

end Sesc.Trans
