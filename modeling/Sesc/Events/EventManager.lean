import Sesc.Lib.Machine
import Sesc.Lib.Pool
import Sesc.Messages

/-!
# `EventManager`

The queue of the function objects that are to be called at each tick.  The function objects
come from the pool of their generator, to which they return themselves after they have been
executed; the containers that hold the function objects of a tick come from a pool, too.

A callback may do anything, so `ProcessTick` is not one function: it calls a function object,
the callback then schedules what it wants, and when it returns the loop goes on.
-/

namespace Sesc.Events

open Lib

/-- The number of values of a `TickTime`. -/
def tickRange : ℕ := 0x10000000000000000

/-- A function object: its `PooledFunctionGenerator` and its address. -/
structure StoredFunction where
  generator : ℕ
  address : ℕ
deriving DecidableEq, Repr

/-- Where `ProcessTick` is: not running, before the call at an index of the container, or in
that call. -/
inductive Loop
  | idle
  | next (i : ℕ)
  | calling (i : ℕ) (f : StoredFunction)
deriving DecidableEq, Repr

/-- The number of calls that the loop has begun. -/
def Loop.done : Loop → ℕ
  | idle => 0
  | next i => i
  | calling i _ => i + 1

/-- The queue, the pools, and the contents of the containers and of the function objects.  The
arguments stand for all that a function object stores: the host, the function and what it is
called with. -/
structure EventManager (γ : Type) where
  currentTick : TickTime
  scheduleSet : TickTime → Option ℕ
  containerPool : Pool ℕ
  container : ℕ → List StoredFunction
  functionPool : ℕ → Pool ℕ
  arguments : StoredFunction → Option γ
  loop : Loop

namespace EventManager

variable {γ : Type}

/-- The constructor; `reserve` and `maxReserve` are those of each generator. -/
def new (startTick : TickTime) (reserve maxReserve : ℕ → ℕ) : EventManager γ where
  currentTick := startTick
  scheduleSet := fun _ => none
  containerPool := .new [] List.nodup_nil 1000000
  container := fun _ => []
  functionPool := fun g => .new (List.range (reserve g)) List.nodup_range (maxReserve g)
  arguments := fun _ => none
  loop := .idle

variable (m : EventManager γ)

/-! ## Scheduling -/

/-- `PooledFunctionGenerator::Create`; the address is that of a new object. -/
def create (generator fresh : ℕ) : Except Fault (StoredFunction × EventManager γ) := do
  let (address, pool) ← (m.functionPool generator).take .noSuchEvent fresh
  return (⟨generator, address⟩,
    { m with functionPool := Function.update m.functionPool generator pool })

/-- `Initialize` of a function object. -/
def setArguments (f : StoredFunction) (arguments : γ) : EventManager γ :=
  { m with arguments := Function.update m.arguments f (some arguments) }

/-- A container for a tick; a new one is empty. -/
def takeContainer (time : TickTime) (fresh : ℕ) : Except Fault (EventManager γ) := do
  let (v, pool) ← m.containerPool.take .noSuchEvent fresh
  return { m with
    containerPool := pool
    container := if m.containerPool.bank = [] then Function.update m.container v [] else m.container
    scheduleSet := Function.update m.scheduleSet time (some v) }

/-- The container of a tick is there. -/
def requireContainer (time : TickTime) (fresh : ℕ) : Except Fault (EventManager γ) :=
  if m.scheduleSet time = none then m.takeContainer time fresh else .ok m

/-- `push_back` on the container of a tick. -/
def pushBack (f : StoredFunction) (time : TickTime) : Except Fault (EventManager γ) := do
  let v ← (m.scheduleSet time).elim (.error .assertion) .ok
  return { m with container := Function.update m.container v (m.container v ++ [f]) }

/-- `ScheduleEventAbsolute`. -/
def scheduleEventAbsolute (f : StoredFunction) (time : TickTime) (fresh : ℕ) :
    Except Fault (EventManager γ) := do
  check .assertion (time ≥ m.currentTick)
  let m ← m.requireContainer time fresh
  m.pushBack f time

/-- When a callback is to run: after a delay, by `ScheduleEvent`, or at a time. -/
inductive Request
  | after (dT : ℕ)
  | at (time : TickTime)
deriving DecidableEq, Repr

/-- The time to which a request refers; `ScheduleEvent` adds to the current tick. -/
def timeOf : Request → TickTime
  | .after dT => (m.currentTick + dT) % tickRange
  | .at time => time

/-- A function object is created, initialized and scheduled. -/
def schedule (generator : ℕ) (arguments : γ) (time : TickTime) (freshFunction freshContainer : ℕ) :
    Except Fault (EventManager γ) := do
  let (f, m) ← m.create generator freshFunction
  (m.setArguments f arguments).scheduleEventAbsolute f time freshContainer

/-! ## `ProcessTick` -/

/-- The last line of `ProcessTick`. -/
def advance : EventManager γ := { m with currentTick := (m.currentTick + 1) % tickRange, loop := .idle }

/-- `ProcessTick` up to its loop. -/
def processTick : Except Fault (EventManager γ) := do
  check .noSuchEvent (m.loop = .idle)
  return if m.scheduleSet m.currentTick ≠ none then { m with loop := .next 0 } else m.advance

/-- `Call` of the function object at an index: the arguments of the callback. -/
def call (i : ℕ) (f : StoredFunction) : Except Fault (γ × EventManager γ) := do
  let arguments ← (m.arguments f).elim (.error .assertion) .ok
  return (arguments, { m with loop := .calling i f })

/-- The callback of a function object has returned, and the object goes back to its pool. -/
def returnFrom (i : ℕ) (f : StoredFunction) : Except Fault (EventManager γ) := do
  let pool ← (m.functionPool f.generator).give .assertion f.address
  return { m with
    functionPool := Function.update m.functionPool f.generator pool
    loop := .next (i + 1) }

/-- `ProcessTick` after its loop. -/
def finish (v : ℕ) : Except Fault (EventManager γ) := do
  let pool ← m.containerPool.give .assertion v
  return advance { m with
    container := Function.update m.container v []
    containerPool := pool
    scheduleSet := Function.update m.scheduleSet m.currentTick none }

end EventManager

/-! ## Runs -/

/-- An event manager, with the callbacks that have been scheduled and for when, and those that
have been run and when. -/
structure System (γ : Type) where
  manager : EventManager γ
  scheduled : List (TickTime × γ)
  executed : List (TickTime × γ)

namespace System

variable {γ : Type} (s : System γ)

/-- What happens to an event manager: a callback is scheduled, from outside or by the callback
that is running; `ProcessTick` is called; `ProcessTick` goes on, after a call has returned. -/
inductive Event (γ : Type)
  | schedule (generator : ℕ) (arguments : γ) (request : EventManager.Request)
      (freshFunction freshContainer : ℕ)
  | processTick
  | resume
deriving DecidableEq, Repr

def schedule (generator : ℕ) (arguments : γ) (request : EventManager.Request)
    (freshFunction freshContainer : ℕ) : Except Fault (System γ) := do
  let time := s.manager.timeOf request
  check .noSuchEvent (time < tickRange)
  let m ← s.manager.schedule generator arguments time freshFunction freshContainer
  return { s with manager := m, scheduled := s.scheduled ++ [(time, arguments)] }

/-- The call at an index of a container, or the end of the loop. -/
def callIn (v i : ℕ) : Except Fault (System γ) :=
  match (s.manager.container v)[i]? with
  | some f => do
    let (arguments, m) ← s.manager.call i f
    return { s with
      manager := m
      executed := s.executed ++ [(s.manager.currentTick, arguments)] }
  | none => do
    let m ← s.manager.finish v
    return { s with manager := m }

/-- The next round of the loop, in the container of the current tick. -/
def callNext (i : ℕ) : Except Fault (System γ) := do
  let v ← (s.manager.scheduleSet s.manager.currentTick).elim (.error .assertion) .ok
  s.callIn v i

/-- The next step of `ProcessTick`. -/
def resume : Except Fault (System γ) :=
  match s.manager.loop with
  | .idle => .error .noSuchEvent
  | .next i => s.callNext i
  | .calling i f => do
    let m ← s.manager.returnFrom i f
    return { s with manager := m }

/-- The event manager of a configuration. -/
def machine (startTick : TickTime) (reserve maxReserve : ℕ → ℕ) :
    Machine (System γ) (Event γ) Fault where
  init := ⟨.new startTick reserve maxReserve, [], []⟩
  step s e := match e with
    | .schedule generator arguments request freshFunction freshContainer =>
      s.schedule generator arguments request freshFunction freshContainer
    | .processTick => do
      let m ← s.manager.processTick
      return { s with manager := m }
    | .resume => s.resume

end System

end Sesc.Events
