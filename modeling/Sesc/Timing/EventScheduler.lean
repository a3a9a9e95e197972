import Sesc.Lib.Machine
import Sesc.Timing.TQueue

/-!
# `EventScheduler`

The callbacks of the simulated cores.  A callback may schedule others, so `advanceClock` is not one
step: it takes the next callback and calls it, what the callback schedules is scheduled, and then
it goes on with the next one; when there is none it advances the clock.
-/

namespace Sesc.Timing

open Lib

def maxDeltaTime : ℕ := 65535 - 1024

/-- The queue and the clock, with the callbacks that have been scheduled, and for when, and those
that have been called, and when. -/
structure EventScheduler (P : TooFar) where
  cbQ : TQueue P
  globalClock : ℕ
  scheduled : List Node
  called : List Node

/-- What happens: a callback is scheduled, from outside or by a callback that is being called, or
`advanceClock` takes its next turn. -/
inductive Event
  | schedule (delta : UInt32) (callback : ℕ)
  | scheduleAbs (tim : UInt64) (callback : ℕ)
  | advanceClock
deriving DecidableEq, Repr

namespace EventScheduler

variable {P : TooFar} (s : EventScheduler P)

/-- `insert`, with a note of the callback. -/
def insert (n : Node) : Except Fault (EventScheduler P) := do
  let cbQ ← s.cbQ.insert n
  return { s with cbQ := cbQ, scheduled := s.scheduled ++ [n] }

/-- `schedule`. -/
def schedule (delta callback : ℕ) : Except Fault (EventScheduler P) := do
  check .assertion (delta ≠ 0)
  check .assertion (delta ≤ maxDeltaTime)
  s.insert ⟨callback, (s.globalClock + delta) % timeRange⟩

/-- `scheduleAbs`. -/
def scheduleAbs (tim callback : ℕ) : Except Fault (EventScheduler P) := do
  check .assertion (tim > s.globalClock)
  s.insert ⟨callback, tim⟩

/-- What `advanceClock` does with the answer of `nextJob`. -/
def proceed : Option Node × TQueue P → EventScheduler P
  | (some n, cbQ) => { s with cbQ := cbQ, called := s.called ++ [⟨n.callback, s.globalClock⟩] }
  | (none, cbQ) => { s with cbQ := cbQ, globalClock := (s.globalClock + 1) % timeRange }

/-- A turn of the loop of `advanceClock`. -/
def advanceClock : Except Fault (EventScheduler P) := do
  let answer ← s.cbQ.nextJob s.globalClock
  return s.proceed answer

def step : Event → Except Fault (EventScheduler P)
  | .schedule delta callback => s.schedule delta.toNat callback
  | .scheduleAbs tim callback => s.scheduleAbs tim.toNat callback
  | .advanceClock => s.advanceClock

end EventScheduler

/-- The scheduler on a queue that has just been made. -/
def schedulerMachine {P : TooFar} (cbQ : TQueue P) : Machine (EventScheduler P) Event Fault where
  init := ⟨cbQ, 0, [], []⟩
  step := EventScheduler.step

end Sesc.Timing
