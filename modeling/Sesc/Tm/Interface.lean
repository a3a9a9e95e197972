import Sesc.Tm.Basic

/-!
# The functions of `TMInterface`

Each function is written up to the first call that may lead to further calls; what the source
does after that call is the function of a frame.

What the collision detection, the collision manager and the versioning answer is left open.
The detections report collisions for accesses only, so a transaction instruction is at most
delayed, and it emits no aborts.
-/

namespace Sesc.Tm

open Lib Sesc.Trans

/-- What is left open about a step: the delay and the aborts that the devices ask for, and the
order in which the hash map of the transactions is iterated over. -/
structure Outcome where
  retryTime : ℕ
  aborts : List Level
  garbageList : List Level
deriving DecidableEq, Repr

/-- Nothing is delayed and nothing is asked for. -/
def Outcome.none : Outcome := ⟨0, [], []⟩

namespace TMInterface

/-! ## Retiring -/

/-- `TryRetireTransaction`. -/
def tryRetireTransaction (id : Level) (s : TMInterface) : Except Fault TMInterface := do
  let tr ← s.record id
  if tr.accessCounter ≠ 0 ∨ tr.dependantAccessCounter ≠ 0 ∨ !tr.resolved ∨
      s.memories.isStacked id then
    return s
  else
    let m ← s.memories.tryDelete id
    return (s.setMemories m).setRecords (s.transRecordSet.erase id)

/-- The part of `RetireAccess` about the transaction of the access. -/
def retireFromEntry (a : StoredAccess) (s : TMInterface) : Except Fault TMInterface :=
  if a.transactionEntry = 0 then .ok s
  else do
    let tr ← s.record a.transactionEntry
    check .assertion (tr.accessCounter ≠ 0)
    (s.addAccesses a.transactionEntry (-1)).tryRetireTransaction a.transactionEntry

/-- The part of `RetireAccess` about the transaction on which the access depends. -/
def retireFromDependant (a : StoredAccess) (s : TMInterface) : Except Fault TMInterface :=
  if a.dependantTransaction = 0 then .ok s
  else do
    let tr ← s.record a.dependantTransaction
    check .assertion (tr.dependantAccessCounter ≠ 0)
    (s.addDependantAccesses a.dependantTransaction (-1)).tryRetireTransaction a.dependantTransaction

/-- `RetireAccess`. -/
def retireAccess (stamp : Stamp) (s : TMInterface) : Except Fault TMInterface := do
  let a ← s.access stamp
  if a.retired then return s
  else
    check .assertion (a.transactionEntry ≠ 0 → s.transRecordSet.find a.transactionEntry ≠ none)
    check .assertion (a.dependantTransaction ≠ 0 →
      s.transRecordSet.find a.dependantTransaction ≠ none)
    let s ← s.retireFromEntry a
    let s ← s.retireFromDependant a
    return s.setRetired stamp

/-- `DestroyAccess`. -/
def destroyAccess (stamp : Stamp) (s : TMInterface) : Except Fault TMInterface := do
  let a ← s.access stamp
  check .assertion (a.retired = true)
  return s.setAccesses (s.accessSet.erase stamp)

/-- `RetireAccess`, then `DestroyAccess`. -/
def retireAndDestroy (stamp : Stamp) (s : TMInterface) : Except Fault TMInterface := do
  let s ← s.retireAccess stamp
  s.destroyAccess stamp

/-- `IsDeadAccess`. -/
def isDeadAccess (a : StoredAccess) (s : TMInterface) : Bool :=
  a.dependantTransaction ≠ 0 ∧
    (s.transRecordSet.find a.dependantTransaction).elim true fun tr => tr.resolved && !tr.committed

/-! ## The devices -/

/-- `ExecuteAccess`. -/
def executeAccess (o : Outcome) (s : TMInterface) : TMInterface :=
  { s with
    retryTime := o.retryTime
    pendingAborts := s.pendingAborts ++ o.aborts }.push
      [.handleEmitted, .restoreRetryTime o.retryTime]

/-- `ExecuteTransactionInst`. -/
def executeTransactionInst (forceNoDelay : Bool) (o : Outcome) (s : TMInterface) : TMInterface :=
  s.setRetryTime (if forceNoDelay then 0 else o.retryTime)

/-- `HandleEmittedInstructions`. -/
def handleEmittedInstructions (s : TMInterface) : TMInterface :=
  if s.handlingEmittedInstr then s
  else { s with handlingEmittedInstr := true }.push [.handleLoop]

def handleLoop (s : TMInterface) : TMInterface :=
  match s.pendingAborts with
  | [] => { s with handlingEmittedInstr := false }
  | id :: rest =>
    if (s.transRecordSet.find id).elim false (!·.resolved) then
      { s with pendingAborts := rest }.push [.abort id, .handleLoop]
    else { s with pendingAborts := rest }.push [.handleLoop]

/-! ## `BeginTransaction` -/

/-- The call of `BeginTransaction`. -/
def beginTransaction (id : Level) (force : Bool) (s : TMInterface) : Except Fault TMInterface := do
  let tr ← s.record id
  check .assertion (tr.resolved = false)
  let _ ← s.memories.slice id
  if tr.progressObserved then return s
  else if forceInOrderTrans ∧ tr.dependantTransaction ≠ 0 ∧
      (s.transRecordSet.find tr.dependantTransaction).elim false (!·.resolved) then
    return s.push [.begin tr.dependantTransaction force, .beginParent id force]
  else return s.push [.beginParent id force]

/-- After the dependant transaction has begun. -/
def beginParent (id : Level) (force : Bool) (s : TMInterface) : Except Fault TMInterface := do
  let tr ← s.record id
  if tr.parentTransactionID = 0 then return s.push [.beginSelf id force]
  else
    let _ ← s.record tr.parentTransactionID
    return s.push [.begin tr.parentTransactionID force, .beginSelf id force]

/-- The instruction is executed, unless the process races ahead into the transaction. -/
def executesBegin (tr : TransRecord) (s : TMInterface) : Bool :=
  !s.raceAheadMode tr.pid || s.raceAheadFinished tr.pid

/-- The end of `BeginTransaction`.  When the instruction is delayed all calls of
`BeginTransaction` in progress return false. -/
def finishBegin (tr : TransRecord) (force : Bool) (s : TMInterface) : Except Fault TMInterface :=
  if s.executesBegin tr ∧ s.retryTime ≠ 0 then do
    check .assertion (force = false)
    return s.setFrames (s.frames.dropWhile Frame.isBegin)
  else
    .ok ({ s with
      raceAheadStarted := if s.raceAheadMode tr.pid then
        Function.update s.raceAheadStarted tr.pid true else s.raceAheadStarted
      }.setProgressObserved tr.transactionID)

/-- After the parent has begun. -/
def beginSelf (id : Level) (force : Bool) (o : Outcome) (s : TMInterface) :
    Except Fault TMInterface := do
  let tr ← s.record id
  if s.executesBegin tr then
    (s.executeTransactionInst (force || s.raceAheadMode tr.pid) o).finishBegin tr force
  else s.finishBegin tr force

/-! ## `EndTransaction` -/

/-- A nested transaction that ends is merged into the slice below. -/
def mergeDown (pid : Pid) (id parent : Level) (s : TMInterface) : Except Fault TMInterface := do
  let sl ← s.memories.slice id
  check .assertion (s.memories.latestMemorySlice pid = id →
    sl.previous = none ∨ sl.previous = some parent)
  let m := if s.memories.latestMemorySlice pid = id ∧ sl.previous ≠ none then
    s.memories.setLatest pid parent else s.memories
  let m ← m.mergeDown id
  return s.setMemories m

/-- The counter of the parent, if there is one, is decremented. -/
def leaveParent (parent child : Level) (s : TMInterface) : Except Fault TMInterface :=
  if parent = 0 then .ok s else s.countDown parent child

/-- A process that last saw the transaction `old` has now last seen `new`. -/
def leaveSeen (pid : Pid) (old new : Level) (s : TMInterface) : TMInterface :=
  if s.lastTransactionSeen pid = old then s.setLastTransactionSeen pid new else s

/-- `EndTransaction` after the instruction has been executed. -/
def resolveEnded (tr : TransRecord) (op : TransOperation) (force : Bool) (s : TMInterface) :
    Except Fault TMInterface := do
  let s := s.leaveSeen tr.pid op.oldTransactionEntry op.newTransactionEntry
  let s ← s.leaveParent op.newTransactionEntry tr.transactionID
  let s := s.setResolved tr.transactionID true
  let s := s.setMemories (s.memories.setCommitted tr.transactionID)
  if tr.parentTransactionID = 0 then return s.push [.commit tr.pid]
  else
    let s ← s.mergeDown tr.pid tr.transactionID tr.parentTransactionID
    return s.push [.endParent tr.parentTransactionID force, .commit tr.pid]

/-- `EndTransaction`. -/
def endTransaction (id : Level) (force : Bool) (o : Outcome) (s : TMInterface) :
    Except Fault TMInterface := do
  let tr ← s.record id
  let _ ← s.memories.slice id
  check .assertion (tr.mayEnd = true)
  let op ← tr.transEndOp.elim (.error .assertion) .ok
  check .assertion (op.opCode = .transEnd)
  if s.raceAheadMode tr.pid then s.resolveEnded tr op force
  else if (s.executeTransactionInst force o).retryTime ≠ 0 then
    return s.executeTransactionInst force o
  else (s.executeTransactionInst force o).resolveEnded tr op force

/-- The parent ends too if it waited for its last child. -/
def endParent (id : Level) (force : Bool) (s : TMInterface) : Except Fault TMInterface := do
  let tr ← s.record id
  return if tr.mayEnd then s.push [.ending id force] else s

/-! ## `AbortTransaction` -/

/-- The younger transactions of the process of a transaction. -/
def younger (tr : TransRecord) (s : TMInterface) : List Level :=
  (s.transRecordSet.toList.filter fun t =>
    t.pid = tr.pid && tr.transactionID < t.transactionID).map TransRecord.transactionID

/-- `AbortTransactionTree`. -/
def abortTransactionTree (id : Level) (o : Outcome) (s : TMInterface) :
    Except Fault TMInterface := do
  let tr ← s.record id
  check .noSuchEvent (o.garbageList.Perm (s.younger tr))
  return s.push [.abortTree o.garbageList]

/-- The call of `AbortTransaction`. -/
def abortTransaction (id : Level) (o : Outcome) (s : TMInterface) : Except Fault TMInterface := do
  let tr ← s.record id
  check .noSuchEvent (o.garbageList.Perm (s.younger tr))
  return s.push [.abortTree o.garbageList, .abortSelf id]

/-- The loop of `AbortTransactionTree`. -/
def abortTree (garbageList : List Level) (s : TMInterface) : TMInterface :=
  match garbageList with
  | [] => s
  | id :: rest =>
    if s.transRecordSet.find id = none then s.push [.abortTree rest]
    else s.push [.abort id, .abortTree rest]

/-- `FixPrivateMemory`: the slices of the aborted transactions of the queue are removed. -/
def fixPrivateMemory (pid : Pid) (s : TMInterface) : Except Fault TMInterface :=
  (s.memories.privateMemoryQueue pid).foldlM (fun s id => do
    let tr ← s.record id
    let _ ← s.memories.slice id
    if tr.resolved && !tr.committed then
      let m ← s.memories.removeAborted pid id
      return s.setMemories m
    else return s.setMemories (s.memories.setQueue pid (s.memories.privateMemoryQueue pid ++ [id])))
    (s.setMemories (s.memories.setQueue pid []))

/-- The `TransAbort` instruction is executed without delay, unless the process races ahead. -/
def executeAbort (pid : Pid) (s : TMInterface) : TMInterface :=
  if s.raceAheadMode pid then s else s.setRetryTime 0

/-- The parent of an aborted transaction is told: of one that was not observed always, of an
observed one if it is not resolved yet. -/
def leaveAborted (tr : TransRecord) (s : TMInterface) : Except Fault TMInterface :=
  if !tr.progressObserved then
    if tr.parentTransactionID = 0 then .ok s
    else do
      let p ← s.record tr.parentTransactionID
      check .assertion (0 < p.accessCounter)
      s.countDown tr.parentTransactionID tr.transactionID
  else if tr.resolved then .ok s
  else
    ((s.executeAbort tr.pid).leaveSeen tr.pid tr.transactionID tr.parentTransactionID).leaveParent
      tr.parentTransactionID tr.transactionID

/-- A process whose current transaction is aborted goes back to the parent. -/
def leaveCurrent (tr : TransRecord) (s : TMInterface) : TMInterface :=
  if s.currentTransID tr.pid = tr.transactionID then
    s.setCurrentTransID tr.pid tr.parentTransactionID
  else s

/-- The rest of `AbortTransaction`, after the tree has been aborted. -/
def abortSelf (id : Level) (s : TMInterface) : Except Fault TMInterface := do
  let tr ← s.record id
  check .assertion (tr.parentTransactionID ≠ 0 →
    (s.transRecordSet.find tr.parentTransactionID).elim false (!·.resolved) = true)
  let s ← s.leaveAborted tr
  let s ← ((s.leaveCurrent tr).setResolved id false).fixPrivateMemory tr.pid
  s.tryRetireTransaction id

/-! ## `CommitPrivateMemory` -/

/-- The call of `CommitPrivateMemory`. -/
def commitPrivateMemory (pid : Pid) (s : TMInterface) : Except Fault TMInterface := do
  check .assertion (s.memories.privateMemoryQueue pid ≠ [])
  return s.push [.commitLoop pid]

/-- The changes of the oldest transaction of the queue are applied if its integrity is given;
otherwise it is rerun. -/
def commitFront (pid : Pid) (id : Level) (sl : PrivateMemory) (s : TMInterface) :
    Except Fault TMInterface := do
  check .assertion (sl.committed = true)
  let intact ← sl.testIntegrity s.memories.shared
  if intact then
    let shared ← sl.applyChanges s.memories.shared
    return (s.setMemories { s.memories with shared := shared }).push
      [.commitApplied pid id, .tryRetire id, .commitLoop pid]
  else
    check .assertion (s.raceAheadMode pid = false)
    return s.push [.correct pid, .handleEmitted, .rerun pid id, .tryRetire id, .commitLoop pid]

/-- A turn of the loop of `CommitPrivateMemory`. -/
def commitLoop (pid : Pid) (s : TMInterface) : Except Fault TMInterface :=
  match s.memories.privateMemoryQueue pid with
  | [] => .ok s
  | id :: rest => do
    let tr ← s.record id
    let sl ← s.memories.slice id
    check .assertion (sl.previous = none)
    check .assertion (tr.pid = pid)
    if tr.resolved then (s.setMemories (s.memories.setQueue pid rest)).commitFront pid id sl
    else return s

/-- After `ApplyChanges`. -/
def commitApplied (pid : Pid) (id : Level) (s : TMInterface) : Except Fault TMInterface := do
  let m ← s.memories.retireCommitted pid id
  return s.setMemories m

/-- A turn of the loop that aborts the transactions stacked on one that is to be rerun. -/
def correct (pid : Pid) (s : TMInterface) : Except Fault TMInterface :=
  match s.memories.privateMemoryQueue pid with
  | [] => .ok s
  | id :: rest => do
    let tr ← s.record id
    if tr.progressObserved && tr.resolved then
      check .assertion (tr.committed = true)
      let m ← s.memories.extract id
      let s ← (s.setMemories (m.delete id)).tryRetireTransaction id
      return (s.setMemories (s.memories.setQueue pid rest)).push [.correct pid]
    else return s.push [.abort id, .correct pid]

/-- `RerunCommittingTransaction` up to the rerun, and what precedes it. -/
def rerun (pid : Pid) (id : Level) (s : TMInterface) : Except Fault TMInterface := do
  let s := s.setMemories (s.memories.setLatest pid 0)
  let s := (s.setLastTransactionSeen pid 0).setCurrentTransID pid 0
  let tr ← s.record id
  let _ ← s.memories.slice id
  check .assertion (tr.parentTransactionID = 0)
  return { s with raceAheadMode := Function.update s.raceAheadMode pid true }.push [.raceAhead pid]

/-- The rest of `RerunCommittingTransaction`. -/
def finishRaceAhead (pid : Pid) (s : TMInterface) : Except Fault TMInterface := do
  check .assertion (s.raceAheadStarted pid = true)
  check .assertion (s.raceAheadFinished pid = true)
  return { s with
    raceAheadMode := Function.update s.raceAheadMode pid false
    raceAheadStarted := Function.update s.raceAheadStarted pid false
    raceAheadFinished := Function.update s.raceAheadFinished pid false }

/-! ## `ObserveAccess` -/

/-- The call of `ObserveAccess` for an access of a transaction. -/
def observeTransactional (a : StoredAccess) (s : TMInterface) : Except Fault TMInterface :=
  if s.isDeadAccess a then
    ({ s with deadInstruction := true }.setRetryTime 0).retireAndDestroy a.stamp
  else do
    let s := { s with deadInstruction := false }
    let tr ← s.record a.transactionEntry
    return if tr.progressObserved then s.push [.observeExecute a.stamp]
      else s.push [.begin tr.transactionID false, .observeBegun a.stamp]

/-- The call of `ObserveAccess` for an access that follows a transaction. -/
def observeFollowing (a : StoredAccess) (o : Outcome) (s : TMInterface) : Except Fault TMInterface :=
  if s.isDeadAccess a then { s with deadInstruction := true }.retireAndDestroy a.stamp
  else .ok (({ s with deadInstruction := false }.push [.observeDependant a.stamp]).executeAccess o)

/-- `ObserveAccess`. -/
def observeAccess (stamp : Stamp) (o : Outcome) (s : TMInterface) : Except Fault TMInterface :=
  match s.accessSet.find stamp with
  | none => .ok (s.setRetryTime 0)
  | some a =>
    if a.transactionEntry ≠ 0 then s.observeTransactional a
    else if a.dependantTransaction ≠ 0 then s.observeFollowing a o
    else .ok s

/-- After `BeginTransaction`. -/
def observeBegun (stamp : Stamp) (s : TMInterface) : TMInterface :=
  if s.retryTime ≠ 0 then s else s.push [.observeExecute stamp]

/-- The end of `ObserveAccess`: the last access of a transaction that waits for its end ends
it. -/
def observeEnd (stamp : Stamp) (tr : TransRecord) (s : TMInterface) : Except Fault TMInterface :=
  if tr.mayEnd then do
    let op ← tr.transEndOp.elim (.error .assertion) .ok
    check .assertion (op.opCode = .transEnd ∨ op.opCode = .transAbort)
    return s.push
      [if op.opCode = .transEnd then .ending tr.transactionID false else .abort tr.transactionID,
        .observeEnded stamp]
  else s.destroyAccess stamp

/-- After the access has been executed, or need not be. -/
def observeRetire (stamp : Stamp) (s : TMInterface) : Except Fault TMInterface := do
  let a ← s.access stamp
  let s ← s.retireAccess stamp
  match s.transRecordSet.find a.transactionEntry with
  | none => s.destroyAccess stamp
  | some tr => s.observeEnd stamp tr

/-- `ObserveAccess` once the transaction has begun. -/
def observeExecute (stamp : Stamp) (o : Outcome) (s : TMInterface) : Except Fault TMInterface := do
  let a ← s.access stamp
  let tr ← s.record a.transactionEntry
  if 0 < tr.accessCounter then
    if s.raceAheadMode tr.pid then s.observeRetire stamp
    else return (s.push [.observeExecuted stamp]).executeAccess o
  else s.observeEnd stamp tr

/-- After `ExecuteAccess`. -/
def observeExecuted (stamp : Stamp) (s : TMInterface) : Except Fault TMInterface :=
  if s.retryTime ≠ 0 then .ok s else s.observeRetire stamp

/-- After `EndTransaction` or `AbortTransaction`. -/
def observeEnded (stamp : Stamp) (s : TMInterface) : Except Fault TMInterface :=
  if s.retryTime ≠ 0 then .ok s else s.destroyAccess stamp

/-- After `ExecuteAccess` for an access that follows a transaction. -/
def observeDependant (stamp : Stamp) (s : TMInterface) : Except Fault TMInterface :=
  if s.retryTime ≠ 0 then .ok s else s.retireAndDestroy stamp

/-! ## `ProcessAction` -/

/-- The transaction on which a new access depends. -/
def newDependant (pid : Pid) (s : TMInterface) : Level :=
  (s.transRecordSet.find (s.lastTransactionSeen pid)).elim 0 fun tr =>
    if tr.resolved then s.currentTransID pid else s.lastTransactionSeen pid

/-- A transaction that has been forgotten is not seen any more. -/
def forgetSeen (pid : Pid) (s : TMInterface) : TMInterface :=
  if s.transRecordSet.find (s.lastTransactionSeen pid) = none then s.setLastTransactionSeen pid 0
  else s

/-- The access is counted for the current transaction.  One without a record would be one with
uninitialised counters, here and below. -/
def countForCurrent (pid : Pid) (s : TMInterface) : Except Fault TMInterface :=
  if s.currentTransID pid = 0 then .ok s
  else do
    let _ ← s.record (s.currentTransID pid)
    return s.addAccesses (s.currentTransID pid) 1

/-- The access is counted for the transaction on which it depends. -/
def countForDependant (pid : Pid) (dependant : Level) (s : TMInterface) :
    Except Fault TMInterface :=
  if s.lastTransactionSeen pid = 0 then .ok s
  else do
    check .assertion (dependant ≠ 0)
    let _ ← s.record dependant
    return s.addDependantAccesses dependant 1

/-- `MarkLoad` or `MarkStore` with `TRANSACTIONAL_ONLY`, then `ProcessAction`. -/
def processAccess (pid : Pid) (stamp : Stamp) (addr : Address) (s : TMInterface) :
    Except Fault TMInterface :=
  if s.lastTransactionSeen pid = 0 then .ok s
  else do
    check .assertion (s.accessSet.find stamp = none)
    let dependant := s.newDependant pid
    let s := s.forgetSeen pid
    let s := s.setAccesses (s.accessSet.insert
      { pid := pid
        stamp := stamp
        transactionEntry := s.currentTransID pid
        dependantTransaction := dependant
        retired := false })
    let s ← s.countForCurrent pid
    let s ← s.countForDependant pid dependant
    let sl ← s.memories.slice (s.memories.latestMemorySlice pid)
    check .assertion (sl.checkMemory addr = true)
    return if s.goingRabbit || s.raceAheadMode pid then s.push [.observe stamp] else s

/-- A new transaction is a child of the current one, or else enters the queue. -/
def joinParent (pid : Pid) (newTrans : Level) (s : TMInterface) : Except Fault TMInterface :=
  if s.currentTransID pid = 0 then
    .ok (s.setMemories (s.memories.setQueue pid (s.memories.privateMemoryQueue pid ++ [newTrans])))
  else s.countUp (s.currentTransID pid) newTrans

/-- `MarkTransOp` and `ProcessAction` for `TransBegin`. -/
def processBegin (pid : Pid) (s : TMInterface) : Except Fault TMInterface := do
  let newTrans := s.globalTransactionID
  check .assertion (newTrans ≠ 0)
  let s := { s with globalTransactionID := (newTrans + 1) % 4294967296 }
  let s := s.setRecords (s.transRecordSet.insert
    (.new pid newTrans (s.currentTransID pid) (s.lastTransactionSeen pid)))
  let m ← s.memories.pushSlice pid newTrans
  let s := (s.setMemories m).setLastTransactionSeen pid newTrans
  let s ← s.joinParent pid newTrans
  let s := s.setCurrentTransID pid newTrans
  return if s.goingRabbit || s.raceAheadMode pid then s.push [.begin newTrans false] else s

/-- `MarkTransOp` and `ProcessAction` for `TransEnd` and `TransAbort`. -/
def processEnd (pid : Pid) (aborts : Bool) (s : TMInterface) : Except Fault TMInterface := do
  let current := s.currentTransID pid
  let tr ← s.record current
  check .assertion (current ≠ 0)
  check .assertion (tr.transEndOp = none)
  let s := (s.setLastTransactionSeen pid current).setTransEndOp current
    { opCode := if aborts then .transAbort else .transEnd
      oldTransactionEntry := current
      newTransactionEntry := tr.parentTransactionID }
  let tr' ← s.record current
  return if tr'.mayEnd then
      s.push [if aborts then .abort current else .ending current false,
        .setCurrentTransID pid tr.parentTransactionID]
    else s.setCurrentTransID pid tr.parentTransactionID

end TMInterface

end Sesc.Tm
