import Mathlib.Data.Nat.Notation
import Mathlib.Logic.Function.Basic
import Sesc.Lib.Check
import Sesc.Lib.Machine
import Sesc.Messages

/-!
# The working list

`RunningProcs` has the list of the cores that have work.  In each iteration of its inner loop, two
loops over the indices of the list advance the clocks of the cores, from the index `startProc` on and
then up to it; a core without work is removed from the list on the way.

While a core advances its clock, the processes that it runs may add cores to the list, remove cores
from it, give work to cores and take it from them.
-/

namespace Sesc.Core

open Lib

/-- A pointer to a core. -/
abbrev GProcessor := ℕ

structure RunningProcs where
  stayInLoop : Bool
  startProc : ℕ
  workingList : List GProcessor
  /-- The multiset of the available processors. -/
  availableProcessors : List GProcessor
  currentCPU : Option GProcessor
  hasWork : GProcessor → Bool

namespace RunningProcs

variable (s : RunningProcs) (core : GProcessor)

def finishWorkNow : RunningProcs :=
  { s with stayInLoop := false, workingList := [], startProc := 0 }

/-- An iteration of the loop of `workingListRemove`, on the list and the flag `found`. -/
def shiftAt (r : List GProcessor × Bool) (i : ℕ) : List GProcessor × Bool :=
  if r.1[i]? = some core then (r.1, true)
  else if r.2 then (r.1.set (i - 1) (r.1.getD i 0), r.2)
  else r

/-- The loop of `workingListRemove`. -/
def shift : List GProcessor :=
  ((List.range s.workingList.length).foldl (shiftAt core) (s.workingList, false)).1

/-- A core gets an entry among the available processors unless it has one. -/
def makeAvailable : RunningProcs :=
  { s with availableProcessors :=
      if core ∈ s.availableProcessors then s.availableProcessors
      else core :: s.availableProcessors }

def workingListRemove : Except Fault RunningProcs :=
  let s := s.makeAvailable core
  if s.hasWork core then .ok s
  else do
    -- there is nothing to pop from an empty list
    check .noSuchEvent (s.workingList ≠ [])
    let workingList := (s.shift core).dropLast
    return { s with workingList, startProc := 0, stayInLoop := workingList ≠ [] }

def workingListAdd : RunningProcs :=
  let s := { s with availableProcessors := s.availableProcessors.erase core }
  if core ∈ s.workingList then s else { s with workingList := s.workingList ++ [core] }

end RunningProcs

/-- Between two iterations, the list has no core twice, and `startProc` is an index of it. -/
structure BetweenTicks extends RunningProcs where
  nodup : workingList.Nodup
  startProc_lt : startProc = 0 ∨ startProc < workingList.length

/-- The loops of an iteration. -/
inductive Loop
  | first
  | second
  | ended
deriving DecidableEq, Repr

/-- The state of an iteration of the inner loop of `run`. -/
structure Tick extends RunningProcs where
  loop : Loop
  i : ℕ
  /-- How often each core has advanced its clock. -/
  advanced : GProcessor → ℕ

/-- A step of one of the loops, or what happens while a core advances its clock. -/
inductive TickEvent
  | iterate
  | workingListAdd (core : GProcessor)
  | workingListRemove (core : GProcessor)
  | setWork (core : GProcessor) (work : Bool)
  | finishWorkNow
deriving DecidableEq, Repr

namespace Tick

variable (s : Tick) (core : GProcessor)

/-- The core that a loop has come to. -/
def current : Option GProcessor :=
  match s.loop with
  | .first => s.workingList[s.i]?
  | .second => if s.i < s.startProc then s.workingList[s.i]? else none
  | .ended => none

/-- The body of the loops. -/
def body : Except Fault Tick :=
  if s.hasWork core then
    .ok { s with
      currentCPU := some core
      advanced := Function.update s.advanced core (s.advanced core + 1)
      i := s.i + 1 }
  else do
    let r ← s.workingListRemove core
    return { s with toRunningProcs := r, i := s.i + 1 }

/-- The next step of a loop, or the end of it. -/
def iterate : Except Fault Tick :=
  match s.current with
  | some core => s.body core
  | none =>
    match s.loop with
    | .first => .ok { s with loop := .second, i := 0 }
    | .second => do
      check .noSuchEvent (s.startProc ≤ s.i)
      return { s with
        loop := .ended
        startProc := if s.workingList.length ≤ s.startProc + 1 then 0 else s.startProc + 1 }
    | .ended => .error .noSuchEvent

/-- What an event does during the iteration. -/
def act : TickEvent → Except Fault Tick
  | .iterate => s.iterate
  | .workingListAdd core =>
    .ok { s with toRunningProcs := s.toRunningProcs.workingListAdd core }
  | .workingListRemove core => do
    let r ← s.toRunningProcs.workingListRemove core
    return { s with toRunningProcs := r }
  | .setWork core work => .ok { s with hasWork := Function.update s.hasWork core work }
  | .finishWorkNow => .ok { s with toRunningProcs := s.toRunningProcs.finishWorkNow }

def perform (e : TickEvent) : Except Fault Tick := do
  check .noSuchEvent (s.loop ≠ .ended)
  s.act e

end Tick

/-- An iteration that begins in a state. -/
def tick (r : BetweenTicks) : Machine Tick TickEvent Fault where
  init := { toRunningProcs := r.toRunningProcs, loop := .first, i := r.startProc, advanced := fun _ => 0 }
  step := Tick.perform

end Sesc.Core
