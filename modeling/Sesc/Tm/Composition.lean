import Mathlib.Algebra.Group.Int.Defs
import Sesc.Heap.HeapManager
import Sesc.Tm.System

/-!
# The composition records

With `TRANSACTIONAL_COMPOSITION_TRACKING` and a file to write to, `TMInterface` keeps for every
transaction a record of its accesses, its calls of the heap and the transactions nested in it,
with the times at which it began and ended.  The record is written to the file when the
transaction is retired.

The functions of the interface are those of `TMInterface.step`; the calls that they make of
`TransCompositionRecord` are added here, step by step.
-/

namespace Sesc.Tm

open Lib Sesc.Trans Sesc.Heap

/-- The actions of `Record`. -/
inductive RecordAction
  | isRead
  | isWrite
  | isAlloc
  | isFree
  | isSubTrans
deriving DecidableEq, Repr

structure RecordEntry where
  action : RecordAction
  arg1 : UInt32
  arg2 : UInt32
deriving DecidableEq, Repr

/-- `TransCompositionRecord::Record`. -/
structure Record where
  pid : Pid
  committed : Bool
  parentTransID : Level
  instrID : UInt32
  transID : Level
  timeStart : ℕ
  timeEnd : ℕ
  entrySet : List RecordEntry
deriving DecidableEq, Repr

/-- The record that `InitiateTransaction` makes. -/
def Record.new (pid : Pid) (transID parent : Level) (instrID : ℕ) : Record where
  pid := pid
  committed := true
  parentTransID := parent
  instrID := .ofNat instrID
  transID := transID
  timeStart := 0
  timeEnd := 0
  entrySet := []

def Record.recordElement (r : Record) (action : RecordAction) (arg1 arg2 : ℕ) : Record :=
  { r with entrySet := r.entrySet ++ [⟨action, .ofNat arg1, .ofNat arg2⟩] }

/-- The records, and those that have been written to the stream. -/
structure TransCompositionRecord where
  entrySet : Table Record.transID
  written : List Record

namespace TransCompositionRecord

def new : TransCompositionRecord := ⟨∅, []⟩

variable (c : TransCompositionRecord)

/-- A record is changed. -/
def modify (id : Level) (f : Record → Record) (g : ∀ r, (f r).transID = r.transID) :
    TransCompositionRecord :=
  { c with entrySet := c.entrySet.modify id f g }

def recordElement (id : Level) (action : RecordAction) (arg1 arg2 : ℕ) :
    TransCompositionRecord :=
  c.modify id (·.recordElement action arg1 arg2) fun _ => rfl

/-- The entry in the record of the parent. -/
def recordSubTrans (transID parent : Level) : Except Fault TransCompositionRecord :=
  if parent = 0 then .ok c
  else do
    check .assertion (c.entrySet.find parent).isSome
    return c.recordElement parent .isSubTrans transID 0

/-- `InitiateTransaction`. -/
def initiateTransaction (pid : Pid) (transID parent : Level) (instrID : ℕ) :
    Except Fault TransCompositionRecord := do
  check .assertion (c.entrySet.find transID).isNone
  let c ← c.recordSubTrans transID parent
  return { c with entrySet := c.entrySet.insert (.new pid transID parent instrID) }

/-- `FinalizeTransaction`. -/
def finalizeTransaction (transID : Level) : Except Fault TransCompositionRecord := do
  let r ← (c.entrySet.find transID).elim (.error .assertion) .ok
  return { entrySet := c.entrySet.erase transID, written := c.written ++ [r] }

/-- `RecordRead`. -/
def recordRead (transID : Level) (instrAddr dataAddr : ℕ) :
    Except Fault TransCompositionRecord := do
  check .assertion (c.entrySet.find transID).isSome
  return c.recordElement transID .isRead instrAddr dataAddr

/-- `RecordWrite`. -/
def recordWrite (transID : Level) (instrAddr dataAddr : ℕ) :
    Except Fault TransCompositionRecord := do
  check .assertion (c.entrySet.find transID).isSome
  return c.recordElement transID .isWrite instrAddr dataAddr

/-- `RecordAccess`. -/
def recordAccess (transID : Level) (instrAddr dataAddr : ℕ) (isRead : Bool) :
    Except Fault TransCompositionRecord :=
  if isRead then c.recordRead transID instrAddr dataAddr
  else c.recordWrite transID instrAddr dataAddr

/-- `RecordAllocate`. -/
def recordAllocate (transID : Level) (addr size : ℕ) : Except Fault TransCompositionRecord := do
  check .assertion (c.entrySet.find transID).isSome
  return c.recordElement transID .isAlloc addr size

/-- `RecordFree`, which is called nowhere. -/
def recordFree (transID : Level) (addr size : ℕ) : Except Fault TransCompositionRecord := do
  check .assertion (c.entrySet.find transID).isSome
  return c.recordElement transID .isFree addr size

/-- `RecordTransactionBegin`. -/
def recordTransactionBegin (transID : Level) (timeStamp : ℕ) :
    Except Fault TransCompositionRecord := do
  check .assertion (c.entrySet.find transID).isSome
  return c.modify transID (fun r => { r with timeStart := timeStamp }) fun _ => rfl

/-- `RecordTransactionCommit`. -/
def recordTransactionCommit (transID : Level) (timeStamp : ℕ) :
    Except Fault TransCompositionRecord := do
  check .assertion (c.entrySet.find transID).isSome
  return c.modify transID (fun r => { r with timeEnd := timeStamp }) fun _ => rfl

/-- `RecordTransactionAbort`. -/
def recordTransactionAbort (transID : Level) (timeStamp : ℕ) :
    Except Fault TransCompositionRecord := do
  check .assertion (c.entrySet.find transID).isSome
  return c.modify transID (fun r => { r with timeStart := timeStamp, committed := false })
    fun _ => rfl

end TransCompositionRecord

/-- The members of `ThreadContext` by which addresses are translated. -/
structure Addressing where
  virtToRealOffset : ℕ
  dataVAddrLb : ℕ
  dataVAddrUb : ℕ

namespace Addressing

variable (a : Addressing) (w : Widths)

/-- `raddr-virtToRealOffset`. -/
def virtual (raddr : Address) : ℕ :=
  (((raddr : ℤ) - a.virtToRealOffset) % 2 ^ w.vaddrBits).toNat

/-- `real2virt`. -/
def real2virt (raddr : Address) : Except Fault ℕ := do
  check .assertion (a.dataVAddrLb ≤ a.virtual w raddr ∧ a.virtual w raddr < a.dataVAddrUb)
  return a.virtual w raddr

end Addressing

/-! ## What the transactions do -/

/-- An action of a transaction. -/
inductive Action
  | read (instrAddr dataAddr : ℕ)
  | write (instrAddr dataAddr : ℕ)
  | allocated (addr size : ℕ)
  | freed (addr size : ℕ)
  | began (transID : Level)
deriving DecidableEq, Repr

/-- The entry that an action should have. -/
def Action.entry : Action → RecordEntry
  | read instrAddr dataAddr => ⟨.isRead, .ofNat instrAddr, .ofNat dataAddr⟩
  | write instrAddr dataAddr => ⟨.isWrite, .ofNat instrAddr, .ofNat dataAddr⟩
  | allocated addr size => ⟨.isAlloc, .ofNat addr, .ofNat size⟩
  | freed addr size => ⟨.isFree, .ofNat addr, .ofNat size⟩
  | began transID => ⟨.isSubTrans, .ofNat transID, 0⟩

/-- What a transaction has done since it was started or restarted, and when it began to be
observed. -/
structure History where
  actions : List Action
  start : Option ℕ
deriving DecidableEq, Repr

/-- A restarted transaction has done nothing yet. -/
def History.new : History := ⟨[], none⟩

def History.act (h : History) (a : Action) : History := { h with actions := h.actions ++ [a] }

/-- The interface, the heap, the records and the clock.  No function reads the rest: the
histories of the transactions that have records, and of those whose records have been written, in
the same order. -/
structure CompositionSystem where
  tm : TMInterface
  heap : HeapManager
  compositionRecordSet : TransCompositionRecord
  globalClock : ℕ
  history : Level → History
  histories : List History

/-- An event of the interface, for a call with the address of the instruction of the process, a
call of the heap, or a tick of the clock. -/
inductive CompositionEvent
  | tm (e : Event) (instrAddr : ℕ)
  | doAllocate (pid : Pid) (size : ℕ)
  | doFree (pid : Pid) (addr : ℕ)
  | tick
deriving DecidableEq, Repr

namespace CompositionSystem

variable (w : Widths) (a : Addressing) (s : CompositionSystem)

/-! ## The calls that the interface makes -/

/-- The access that `RedirectAddr` records. -/
def redirectAddr (pid : Pid) (addr : Address) (isRead : Bool) (instrAddr : ℕ) :
    Except Fault TransCompositionRecord :=
  if s.tm.currentTransID pid = 0 then .ok s.compositionRecordSet
  else do
    let vaddr ← a.real2virt w addr
    s.compositionRecordSet.recordAccess (s.tm.currentTransID pid) instrAddr vaddr isRead

/-- `EndTransaction` records the commit once the instruction has been executed. -/
def endTransaction (id : Level) (force : Bool) (o : Outcome) :
    Except Fault TransCompositionRecord := do
  let tr ← s.tm.record id
  if s.tm.raceAheadMode tr.pid ∨ (s.tm.executeTransactionInst force o).retryTime ≠ 0 then
    return s.compositionRecordSet
  else s.compositionRecordSet.recordTransactionCommit tr.transactionID s.globalClock

/-- `AbortTransaction` records the abort of a transaction that has been observed and is not
resolved. -/
def abortSelf (id : Level) : Except Fault TransCompositionRecord := do
  let tr ← s.tm.record id
  if tr.progressObserved && !tr.resolved then
    s.compositionRecordSet.recordTransactionAbort tr.transactionID s.globalClock
  else return s.compositionRecordSet

/-- `ObserveAccess` records the begin after `BeginTransaction`. -/
def observeBegun (stamp : Stamp) : Except Fault TransCompositionRecord :=
  if s.tm.retryTime ≠ 0 then .ok s.compositionRecordSet
  else do
    let m ← s.tm.access stamp
    s.compositionRecordSet.recordTransactionBegin m.transactionEntry s.globalClock

def recordCall (o : Outcome) (instrAddr : ℕ) : Call → Except Fault TransCompositionRecord
  | .load pid addr _ => s.redirectAddr w a pid addr true instrAddr
  | .store pid addr _ => s.redirectAddr w a pid addr false instrAddr
  | .processBegin pid => s.compositionRecordSet.initiateTransaction pid s.tm.globalTransactionID
      (s.tm.currentTransID pid) instrAddr
  | .endTransaction id force => s.endTransaction id force o
  | _ => .ok s.compositionRecordSet

def recordFrame (o : Outcome) : Frame → Except Fault TransCompositionRecord
  | .ending id force => s.endTransaction id force o
  | .abortSelf id => s.abortSelf id
  | .observeBegun stamp => s.observeBegun stamp
  | _ => .ok s.compositionRecordSet

/-- The calls of a step other than those of `FinalizeTransaction`. -/
def recordStep (instrAddr : ℕ) : Event → Except Fault TransCompositionRecord
  | .call c o => s.recordCall w a o instrAddr c
  | .next o => s.tm.frames.head?.elim (.ok s.compositionRecordSet) (s.recordFrame o)
  | .raceAheadDone => .ok s.compositionRecordSet

/-- The transactions that are retired when the state of the interface becomes `tm`; only
`TryRetireTransaction` does so, and it calls `FinalizeTransaction` for each. -/
def retired (tm : TMInterface) : List Level :=
  (s.tm.transRecordSet.toList.map TransRecord.transactionID).filter fun id =>
    (tm.transRecordSet.find id).isNone

/-! ## The steps -/

/-- The process does something in its current transaction. -/
def act (pid : Pid) (x : Action) : Level → History :=
  if s.tm.currentTransID pid = 0 then s.history
  else Function.update s.history (s.tm.currentTransID pid)
    ((s.history (s.tm.currentTransID pid)).act x)

/-- The histories after the actions of a step. -/
def actStep (instrAddr : ℕ) : Event → Level → History
  | .call (.load pid addr _) _ => s.act pid (.read instrAddr (a.virtual w addr))
  | .call (.store pid addr _) _ => s.act pid (.write instrAddr (a.virtual w addr))
  | .call (.processBegin pid) _ =>
    Function.update (s.act pid (.began s.tm.globalTransactionID)) s.tm.globalTransactionID .new
  | _ => s.history

/-- The progress of a transaction has been observed. -/
def observed (tm : TMInterface) (id : Level) : Bool :=
  (tm.transRecordSet.find id).elim false TransRecord.progressObserved

/-- A transaction starts when its progress is first observed. -/
def startStep (tm : TMInterface) (history : Level → History) : Level → History := fun id =>
  if observed tm id && !observed s.tm id then { history id with start := some s.globalClock }
  else history id

/-- The state after a step of the interface. -/
def advance (tm : TMInterface) (c : TransCompositionRecord) (history : Level → History) :
    CompositionSystem :=
  { s with
    tm := tm
    compositionRecordSet := c
    history := history
    histories := s.histories ++ (s.retired tm).map history }

def stepTM (e : Event) (instrAddr : ℕ) : Except Fault CompositionSystem := do
  let tm ← s.tm.step e
  let c ← s.recordStep w a instrAddr e
  let c ← (s.retired tm).foldlM (fun c id => c.finalizeTransaction id) c
  return s.advance tm c (s.startStep tm (s.actStep w a instrAddr e))

/-- The call of `RecordAllocate` in `DoAllocate`, and also in `DoFree`. -/
def recordHeapCall (pid : Pid) (addr size : ℕ) : Except Fault TransCompositionRecord :=
  if s.tm.currentTransID pid = 0 then .ok s.compositionRecordSet
  else s.compositionRecordSet.recordAllocate (s.tm.currentTransID pid) addr size

/-- `DoAllocate`. -/
def doAllocate (pid : Pid) (size : ℕ) : Except Fault CompositionSystem := do
  check .noSuchEvent s.tm.mayCall
  let r ← s.heap.allocate w size
  let c ← s.recordHeapCall pid r.1 size
  return { s with
    heap := r.2
    compositionRecordSet := c
    history := s.act pid (.allocated r.1 size) }

/-- `DoFree`. -/
def doFree (pid : Pid) (addr : ℕ) : Except Fault CompositionSystem := do
  check .noSuchEvent s.tm.mayCall
  let r ← s.heap.deallocate w addr
  let c ← s.recordHeapCall pid addr r.1
  return { s with
    heap := r.2
    compositionRecordSet := c
    history := s.act pid (.freed addr r.1) }

/-- Time does not pass while a call is in progress. -/
def tick : Except Fault CompositionSystem := do
  check .noSuchEvent (s.tm.frames = [])
  return { s with globalClock := s.globalClock + 1 }

def step : CompositionEvent → Except Fault CompositionSystem
  | .tm e instrAddr => s.stepTM w a e instrAddr
  | .doAllocate pid size => s.doAllocate w pid size
  | .doFree pid addr => s.doFree w pid addr
  | .tick => s.tick

end CompositionSystem

/-- The interface with a heap and composition records as a machine. -/
def compositionSystem (w : Widths) (a : Addressing) (heap : HeapManager) :
    Machine CompositionSystem CompositionEvent Fault where
  init :=
    { tm := .new
      heap := heap
      compositionRecordSet := .new
      globalClock := 0
      history := fun _ => .new
      histories := [] }
  step := CompositionSystem.step w a

end Sesc.Tm
