import Mathlib.Logic.Function.Basic
import Sesc.Tm.PrivateMemory

/-!
# The stacks of private memory

Shared memory, the slices of all processes, for every process the slice its accesses go to
(none if it runs on shared memory) and the queue of its outermost transactions that are not
committed yet, the oldest first.
-/

namespace Sesc.Tm

open Lib Sesc.Trans

structure Memories where
  shared : Memory
  privateMemorySet : Table PrivateMemory.transID
  privateMemoryQueue : Pid → List Level
  /-- 0 if the process has no slice. -/
  latestMemorySlice : Pid → Level

def Memories.new : Memories where
  shared := fun _ => 0
  privateMemorySet := ∅
  privateMemoryQueue := fun _ => []
  latestMemorySlice := fun _ => 0

namespace Memories

variable (m : Memories)

/-- The slice that a pointer points to. -/
def slice (id : Level) : Except Fault PrivateMemory :=
  (m.privateMemorySet.find id).elim (.error .assertion) .ok

def setSlices (t : Table PrivateMemory.transID) : Memories := { m with privateMemorySet := t }

def setLatest (pid : Pid) (id : Level) : Memories :=
  { m with latestMemorySlice := Function.update m.latestMemorySlice pid id }

def setQueue (pid : Pid) (q : List Level) : Memories :=
  { m with privateMemoryQueue := Function.update m.privateMemoryQueue pid q }

/-- The contents of a slice after an operation on it; its links stay. -/
def setContents (id : Level) (s : PrivateMemory) : Memories :=
  m.setSlices (m.privateMemorySet.modify id (fun t =>
    { t with memMap := s.memMap, pidReliance := s.pidReliance }) fun _ => rfl)

def setCommitted (id : Level) : Memories :=
  m.setSlices (m.privateMemorySet.modify id (fun t => { t with committed := true }) fun _ => rfl)

def setNext (id : Level) (next : Option Level) : Memories :=
  m.setSlices (m.privateMemorySet.modify id (fun t => { t with next := next }) fun _ => rfl)

def setPrevious (id : Level) (previous : Option Level) : Memories :=
  m.setSlices (m.privateMemorySet.modify id (fun t => { t with previous := previous }) fun _ => rfl)

/-- The slice is deleted. -/
def delete (id : Level) : Memories := m.setSlices (m.privateMemorySet.erase id)

/-- `p->next = next`, if the pointer `p` is not null. -/
def linkNext (p next : Option Level) : Except Fault Memories :=
  p.elim (.ok m) fun id => do
    let _ ← m.slice id
    return m.setNext id next

/-- `p->previous = previous`, if the pointer `p` is not null. -/
def linkPrevious (p previous : Option Level) : Except Fault Memories :=
  p.elim (.ok m) fun id => do
    let _ ← m.slice id
    return m.setPrevious id previous

/-- `PrivateMemory::Extract`: the slice is taken out of its stack. -/
def extract (id : Level) : Except Fault Memories := do
  let s ← m.slice id
  let m ← m.linkNext s.previous s.next
  let m ← m.linkPrevious s.next s.previous
  return (m.setNext id none).setPrevious id none

/-- `PrivateMemory::MergeDown`. -/
def mergeDown (id : Level) : Except Fault Memories := do
  let s ← m.slice id
  let p ← s.previous.elim (.error .assertion) .ok
  let below ← m.slice p
  check .assertion (below.next = some id)
  (m.setContents p s).extract id

/-- A new slice is stacked on the latest one of its process. -/
def pushSlice (pid : Pid) (newTrans : Level) : Except Fault Memories := do
  check .assertion (m.privateMemorySet.find newTrans = none)
  if m.latestMemorySlice pid = 0 then
    return (m.setSlices (m.privateMemorySet.insert (.new pid none newTrans))).setLatest pid newTrans
  else
    let parent ← m.slice (m.latestMemorySlice pid)
    check .assertion (parent.next = none)
    let m' := m.setNext (m.latestMemorySlice pid) (some newTrans)
    return (m'.setSlices
      (m'.privateMemorySet.insert (.new pid (some parent) newTrans))).setLatest pid newTrans

/-! ## Accesses -/

/-- `RedirectAddr` of a process with a slice: the latest slice. -/
def redirectToSlice (pid : Pid) (isRead : Bool) (addr : Address) (size : ℕ) :
    Except Fault Memories := do
  let s ← m.slice (m.latestMemorySlice pid)
  check .assertion (s.mayRegister addr size)
  let s ← (s.registerOldValue m.shared addr size).translateAddress addr size isRead
  return m.setContents (m.latestMemorySlice pid) s

/-- `RedirectAddr` of a store to shared memory: the slices that keep the old values of the
process. -/
def registerOldValues (pid : Pid) (addr : Address) (size : ℕ) : Except Fault Memories := do
  check .assertion (m.privateMemorySet.all fun s =>
    s.keepingOldValuesOf pid → s.mayRegister addr size)
  return m.setSlices (m.privateMemorySet.map (fun s =>
    if s.keepingOldValuesOf pid then s.registerOldValue m.shared addr size else s) fun s => by
      split <;> rfl)

/-- A load: `RedirectAddr` and what is read there. -/
def load (pid : Pid) (addr : Address) (size : ℕ) : Except Fault (List UInt8 × Memories) :=
  if m.latestMemorySlice pid = 0 then
    .ok ((List.range size).map fun k => m.shared (addr + k), m)
  else do
    let m ← m.redirectToSlice pid true addr size
    let s ← m.slice (m.latestMemorySlice pid)
    return (s.readThrough addr size, m)

/-- A store: `RedirectAddr` and what is written there. -/
def store (pid : Pid) (addr : Address) (data : List UInt8) : Except Fault Memories :=
  if m.latestMemorySlice pid = 0 then do
    let m ← m.registerOldValues pid addr data.length
    return { m with shared := fun a =>
      if addr ≤ a ∧ a < addr + data.length then data.getD (a - addr) 0 else m.shared a }
  else do
    let m ← m.redirectToSlice pid false addr data.length
    let s ← m.slice (m.latestMemorySlice pid)
    return m.setContents (m.latestMemorySlice pid) (s.writeThrough addr data)

/-! ## Committing -/

/-- The slices that are reached by following `next`, at most `n` of them. -/
def slicesAbove : ℕ → Option Level → Except Fault (List Level)
  | _, none => .ok []
  | 0, some _ => .error .assertion
  | n + 1, some id => do
    let s ← m.slice id
    let ids ← slicesAbove n s.next
    return id :: ids

/-- `RemoveFromUnder` for a slice of the stack. -/
def removeFromUnder (s : PrivateMemory) (m : Memories) (id : Level) : Except Fault Memories := do
  let pm ← m.slice id
  check .assertion (s.mayRemoveFromUnder m.shared pm)
  return m.setContents id (s.removeFromUnder pm)

/-- The committed slice is taken from under the one stacked on it. -/
def unlinkCommitted (pid : Pid) (id next : Level) : Except Fault Memories := do
  let s ← m.slice id
  check .assertion (m.latestMemorySlice pid ≠ id)
  check .assertion ((m.privateMemoryQueue pid).head? = some next)
  let above ← m.slice next
  check .assertion (above.previous = some id)
  let ids ← m.slicesAbove m.privateMemorySet.toList.length (some next)
  let m ← ids.foldlM (removeFromUnder s) m
  return (m.setPrevious next none).setNext id none

/-- What `CommitPrivateMemory` does after `ApplyChanges`. -/
def retireCommitted (pid : Pid) (id : Level) : Except Fault Memories := do
  let s ← m.slice id
  let m ← s.next.elim (.ok m) (m.unlinkCommitted pid id)
  check .assertion (m.privateMemorySet.all fun t =>
    t.pid ≠ pid → s.mayIncorporate m.shared)
  let m := m.setSlices (m.privateMemorySet.map (fun t =>
    if t.pid ≠ pid then t.incorporateCommitted s else t) fun t => by split <;> rfl)
  let m := if m.latestMemorySlice pid = id then m.setLatest pid 0 else m
  return m.delete id

/-- The slice of an aborted outermost transaction is removed, as in `FixPrivateMemory`. -/
def removeAborted (pid : Pid) (id : Level) : Except Fault Memories := do
  let s ← m.slice id
  let m := if m.latestMemorySlice pid = id then m.setLatest pid (s.previous.getD 0) else m
  let m ← m.linkNext s.previous s.next
  check .assertion (s.next = none)
  return m.delete id

/-- What `TryRetireTransaction` does with the slice of the transaction, if it has one. -/
def tryDelete (id : Level) : Except Fault Memories :=
  (m.privateMemorySet.find id).elim (.ok m) fun s => do
    let m ← s.next.elim (.ok m) fun next => do
      check .assertion (m.latestMemorySlice s.pid ≠ id)
      let above ← m.slice next
      check .assertion (above.previous = some id)
      return m.setPrevious next none
    return m.delete id

/-- `TryRetireTransaction` leaves a transaction whose slice is stacked on another one. -/
def isStacked (id : Level) : Bool :=
  (m.privateMemorySet.find id).elim false fun s => s.previous ≠ none

end Memories

end Sesc.Tm
