import Sesc.Lib.Buckets
import Sesc.Lib.Check
import Sesc.Lib.PriorityQueue
import Sesc.Messages

/-!
# `TQueue`

A queue of callbacks by time: a ring of lists for the ticks that are near, whose position `minPos`
is for the tick `minTime`, and a heap for those that are too far.  The heap is that of the standard
library, of which it is only known that its front is a callback for the earliest time.
-/

namespace Sesc.Timing

open Lib

/-- The number of values of a `Time_t`. -/
def timeRange : ℕ := 0x10000000000000000

/-- The number of values of a `uint32_t`. -/
def wordRange : ℕ := 0x100000000

/-- `MaxTime`, which stands for the time of no callback. -/
def maxTime : ℕ := timeRange - 1 - 1024

/-- A callback that is in the queue, with its time. -/
structure Node where
  callback : ℕ
  time : ℕ
deriving DecidableEq, Repr

/-- In which part of the queue a callback is. -/
inductive QueueType
  | inNoQueue
  | inFastQueue
  | inTooFarQueue
deriving DecidableEq, Repr

/-- The heap of the callbacks that are too far. -/
abbrev TooFar := PriorityQueue Node Node.time

/-- The queue, and in which part of it each callback is.  A slot of the ring is a list in the order
of its links. -/
structure TQueue (P : TooFar) where
  minTime : ℕ
  minPos : ℕ
  nNodes : ℕ
  accessSize : ℕ
  access : ℕ → List Node
  tooFar : P.Heap
  minTooFar : ℕ
  qType : ℕ → QueueType

/-- The difference of two times as a `uint32_t`. -/
def ticksBetween (time minTime : ℕ) : ℕ := (time + timeRange - minTime) % wordRange

/-- `abs` of a `uint32_t` as an `int`. -/
def magnitude (word : ℕ) : ℕ := if 2 * word < wordRange then word else wordRange - word

namespace TQueue

variable {P : TooFar}

/-- The constructor. -/
def new (maxTimeDiff : ℕ) : Except Fault (TQueue P) := do
  check .assertion (maxTimeDiff > 7)
  check .assertion (maxTimeDiff &&& (maxTimeDiff - 1) = 0)
  return {
    minTime := 0
    minPos := 0
    nNodes := 0
    accessSize := maxTimeDiff
    access := fun _ => []
    tooFar := P.empty
    minTooFar := maxTime
    qType := fun _ => .inNoQueue }

variable (q : TQueue P)

/-- `AccessMask`. -/
def accessMask : ℕ := q.accessSize - 1

/-- The slot of a time. -/
def posOf (time : ℕ) : ℕ :=
  (q.minPos + time + timeRange - q.minTime) % wordRange &&& q.accessMask

/-- The callback is the last one of a slot. -/
def append (n : Node) : TQueue P :=
  { q with
    access := Function.update q.access (q.posOf n.time) (q.access (q.posOf n.time) ++ [n])
    nNodes := q.nNodes + 1
    qType := Function.update q.qType n.callback .inFastQueue }

/-- `addNode`. -/
def addNode (n : Node) : Except Fault (TQueue P) := do
  check .assertion (n.time ≥ q.minTime)
  check .assertion (magnitude (ticksBetween n.time q.minTime) < q.accessSize)
  return q.append n

/-- `pop_heap` and `pop_back`. -/
def popTooFar : TQueue P := { q with tooFar := P.pop q.tooFar }

def setMinTooFar (time : ℕ) : TQueue P := { q with minTooFar := time }

/-- The loop of `adjustTooFar`; its bound is the number of callbacks in the heap. -/
def adjustLoop : ℕ → TQueue P → Except Fault (TQueue P)
  | 0, q => .ok (q.setMinTooFar maxTime)
  | k + 1, q => match P.front q.tooFar with
    | none => .ok (q.setMinTooFar maxTime)
    | some n =>
      if ticksBetween n.time q.minTime < q.accessSize then do
        let q ← q.addNode n
        adjustLoop k q.popTooFar
      else .ok (q.setMinTooFar n.time)

/-- `adjustTooFar`. -/
def adjustTooFar : Except Fault (TQueue P) := do
  check .assertion (P.size q.tooFar ≠ 0)
  adjustLoop (P.size q.tooFar) q

/-- The callback is in the heap. -/
def pushTooFar (n : Node) : TQueue P :=
  { q with
    tooFar := P.push q.tooFar n
    minTooFar := min q.minTooFar n.time
    qType := Function.update q.qType n.callback .inTooFarQueue }

/-- `insert`. -/
def insert (n : Node) : Except Fault (TQueue P) := do
  check .assertion (q.qType n.callback = .inNoQueue)
  check .assertion (n.time ≥ q.minTime)
  if ticksBetween n.time q.minTime < q.accessSize then q.addNode n else .ok (q.pushTooFar n)

/-- The first callback of the slot of `minTime` leaves the queue. -/
def take : Option Node × TQueue P :=
  match q.access q.minPos with
  | [] => (none, q)
  | n :: rest => (some n, { q with
      nNodes := q.nNodes - 1
      access := Function.update q.access q.minPos rest
      qType := Function.update q.qType n.callback .inNoQueue })

/-- `minTime` is the next tick. -/
def advance : TQueue P :=
  { q with minPos := (q.minPos + 1) &&& q.accessMask, minTime := q.minTime + 1 }

/-- The loop of `nextJob` over the slots; its bound is the number of ticks until `cTime`. -/
def walk : ℕ → TQueue P → TQueue P
  | 0, q => q
  | k + 1, q => if q.access q.minPos = [] then walk k q.advance else q

/-- The first callback of the slot that has been reached. -/
def serve (cTime : ℕ) : Except Fault (Option Node × TQueue P) :=
  if q.access q.minPos = [] then .ok (none, q)
  else do
    check .assertion (q.minTime ≤ cTime)
    check .assertion (q.nNodes ≠ 0)
    return q.take

/-- `nextJob` after the callbacks that are too far have been adjusted. -/
def search (cTime : ℕ) : Except Fault (Option Node × TQueue P) :=
  if q.nNodes = 0 then .ok (none, { q with minTime := cTime, minPos := 0 })
  else (walk (cTime - q.minTime) q).serve cTime

/-- The callbacks that are too far are adjusted if one may be due. -/
def adjusted (cTime : ℕ) : Except Fault (TQueue P) :=
  if q.minTooFar ≤ cTime then q.adjustTooFar else .ok q

/-- `nextJob`. -/
def nextJob (cTime : ℕ) : Except Fault (Option Node × TQueue P) :=
  if q.access q.minPos ≠ [] ∧ q.minTime = cTime then .ok q.take
  else do
    let q ← q.adjusted cTime
    q.search cTime

/-- `size`. -/
def size : ℕ := q.nNodes + P.size q.tooFar

/-- `empty`. -/
def empty : Bool := q.nNodes = 0 && P.size q.tooFar = 0

end TQueue

end Sesc.Timing
