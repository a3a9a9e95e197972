import Sesc.Lib.Machine
import Sesc.Timing.TQueue

/-!
# `TQueue::remove` and `reschedule`

A callback can be taken out of the queue before it is due.  This is where the last links of the
slots matter: a callback is added to a slot behind the one that `accessTail` has for it, and `remove`
may leave none there.  A function fails when an assertion of the source fails or a null pointer is
followed.
-/

namespace Sesc.Timing

open Lib

/-- The heap of the callbacks that are too far, of which `find` and `make_heap` also take out one
that is not the first. -/
abbrev ErasableTooFar := ErasableQueue Node Node.time

/-- The queue with the pointers to the last links of its slots. -/
structure LinkedQueue (P : ErasableTooFar) where
  queue : TQueue P.toPriorityQueue
  accessTail : ℕ → Option Node

/-- `setTQNext` of the last link, whose own link is the new one's: what a slot is then. -/
def link (slot : List Node) (tail : Option Node) (n : Node) : Except Fault (List Node) :=
  match slot, tail with
  | [], _ => .ok [n]
  | _ :: _, none => .error .assertion
  | slot, some tail => .ok (slot.takeWhile (· ≠ tail) ++ [tail, n])

namespace LinkedQueue

variable {P : ErasableTooFar}

/-- The constructor. -/
def new (maxTimeDiff : ℕ) : Except Fault (LinkedQueue P) := do
  let queue ← TQueue.new maxTimeDiff
  return ⟨queue, fun _ => none⟩

variable (q : LinkedQueue P)

/-- `isInQueue`. -/
def isInQueue (n : Node) : Bool := q.queue.qType n.callback ≠ .inNoQueue

/-- `addNode`. -/
def addNode (n : Node) : Except Fault (LinkedQueue P) := do
  check .assertion (n.time ≥ q.queue.minTime)
  check .assertion (magnitude (ticksBetween n.time q.queue.minTime) < q.queue.accessSize)
  let pos := q.queue.posOf n.time
  let slot ← link (q.queue.access pos) (q.accessTail pos) n
  return {
    queue := { q.queue with
      access := Function.update q.queue.access pos slot
      nNodes := q.queue.nNodes + 1
      qType := Function.update q.queue.qType n.callback .inFastQueue }
    accessTail := Function.update q.accessTail pos (some n) }

/-- The loop of `adjustTooFar`; its bound is the number of callbacks in the heap. -/
def adjustLoop : ℕ → LinkedQueue P → Except Fault (LinkedQueue P)
  | 0, q => .ok { q with queue := q.queue.setMinTooFar maxTime }
  | k + 1, q => match P.front q.queue.tooFar with
    | none => .ok { q with queue := q.queue.setMinTooFar maxTime }
    | some n =>
      if ticksBetween n.time q.queue.minTime < q.queue.accessSize then do
        let q ← q.addNode n
        adjustLoop k { q with queue := q.queue.popTooFar }
      else .ok { q with queue := q.queue.setMinTooFar n.time }

/-- `adjustTooFar`. -/
def adjustTooFar : Except Fault (LinkedQueue P) := do
  check .assertion (P.size q.queue.tooFar ≠ 0)
  adjustLoop (P.size q.queue.tooFar) q

/-- `insert`. -/
def insert (n : Node) : Except Fault (LinkedQueue P) := do
  check .assertion (q.queue.qType n.callback = .inNoQueue)
  check .assertion (n.time ≥ q.queue.minTime)
  if ticksBetween n.time q.queue.minTime < q.queue.accessSize then q.addNode n
  else .ok { q with queue := q.queue.pushTooFar n }

/-- The callbacks that are too far are adjusted if one may be due. -/
def adjusted (cTime : ℕ) : Except Fault (LinkedQueue P) :=
  if q.queue.minTooFar ≤ cTime then q.adjustTooFar else .ok q

/-- `nextJob`; the loop over the slots and what is taken from the one that it reaches do not touch
the last links. -/
def nextJob (cTime : ℕ) : Except Fault (Option Node × LinkedQueue P) :=
  if q.queue.access q.queue.minPos ≠ [] ∧ q.queue.minTime = cTime then
    .ok (q.queue.take.1, { q with queue := q.queue.take.2 })
  else do
    let q ← q.adjusted cTime
    let (answer, queue) ← q.queue.search cTime
    return (answer, { q with queue := queue })

/-- `remove` of a callback in the heap. -/
def removeTooFar (n : Node) : Except Fault (LinkedQueue P) :=
  if P.front q.queue.tooFar = some n then
    let tooFar := P.pop q.queue.tooFar
    .ok { q with queue := { q.queue with
      tooFar := tooFar
      minTooFar := ((P.front tooFar).map Node.time).getD maxTime } }
  else do
    check .assertion (n ∈ P.toList q.queue.tooFar)
    return { q with queue := { q.queue with tooFar := P.erase q.queue.tooFar n } }

/-- `remove` of a callback in the ring that is not the first one of the slot of `minTime`.  The loop
that looks for a new last link ends at the null pointer. -/
def removeLink (n : Node) : Except Fault (LinkedQueue P) := do
  let pos := q.queue.posOf n.time
  check .assertion (n ∈ q.queue.access pos)
  return {
    queue := { q.queue with
      access := Function.update q.queue.access pos ((q.queue.access pos).erase n)
      nNodes := q.queue.nNodes - 1 }
    accessTail :=
      if q.accessTail pos = some n then Function.update q.accessTail pos none else q.accessTail }

/-- `remove`. -/
def remove (n : Node) : Except Fault (LinkedQueue P) :=
  match q.queue.qType n.callback with
  | .inTooFarQueue => q.removeTooFar n
  | .inFastQueue =>
    if (q.queue.access q.queue.minPos).head? = some n then
      .ok { q with queue := q.queue.take.2 }
    else q.removeLink n
  | .inNoQueue => .ok q

/-- `reschedule`. -/
def reschedule (n : Node) (rTime : ℕ) : Except Fault (LinkedQueue P) := do
  let q ← q.remove n
  check .assertion (q.queue.qType n.callback = .inNoQueue)
  q.insert ⟨n.callback, rTime⟩

end LinkedQueue

/-- The calls of the functions of a queue. -/
inductive QueueCall
  | insert (callback : ℕ) (time : UInt64)
  | nextJob (cTime : UInt64)
  | remove (n : Node)
deriving DecidableEq, Repr

/-- What a call does to the queue. -/
def LinkedQueue.step {P : ErasableTooFar} (q : LinkedQueue P) :
    QueueCall → Except Fault (LinkedQueue P)
  | .insert callback time => q.insert ⟨callback, time.toNat⟩
  | .nextJob cTime => do
    let (_, q) ← q.nextJob cTime.toNat
    return q
  | .remove n => q.remove n

/-- A queue that has just been made, and the calls that follow. -/
def queueMachine {P : ErasableTooFar} (q : LinkedQueue P) :
    Machine (LinkedQueue P) QueueCall Fault where
  init := q
  step := LinkedQueue.step

end Sesc.Timing
