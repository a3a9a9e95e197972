import Sesc.Lib.Check
import Sesc.Lib.Machine
import Sesc.Messages

/-!
# Ports

A port is asked at which time the next request can start, and is then occupied for some time.
`PortNPipe` keeps for each of its units how long that is busy; the other ports keep one time, and
one of them a number of free units.

Times are natural numbers.  An occupancy is a `uint32_t`, and so is the product of one and a number
of slots.  The assertions of `nextSlot` on `calcNextSlot` are left out.
-/

namespace Sesc.Ports

open Lib

abbrev Time := ℕ
abbrev TimeDelta := ℕ

/-- The number of values of a `uint32_t`. -/
def wordRange : ℕ := 0x100000000

/-- The number of values of a `Time_t`. -/
def timeRange : ℕ := 0x10000000000000000

/-- A `uint32_t` as an `int32_t`. -/
def toInt32 (word : ℕ) : ℤ := if 2 * word < wordRange then word else (word : ℤ) - wordRange

/-- An `int32_t` is added to a time. -/
def addInt (t : Time) (i : ℤ) : Time :=
  if (t : ℤ) + i < 0 then ((t : ℤ) + i + timeRange).toNat else ((t : ℤ) + i).toNat

/-! ## `PortFullyPipe` -/

structure PortFullyPipe where
  lTime : Time
deriving DecidableEq, Repr

namespace PortFullyPipe

def new (globalClock : Time) : PortFullyPipe := ⟨globalClock⟩

variable (globalClock : Time) (p : PortFullyPipe)

def nextSlot : Time × PortFullyPipe :=
  let lTime := if p.lTime < globalClock then globalClock else p.lTime
  (lTime, ⟨lTime + 1⟩)

def occupySlots (nSlots : ℕ) : Time × PortFullyPipe :=
  let lTime := if p.lTime < globalClock then globalClock else p.lTime
  (lTime, ⟨lTime + nSlots⟩)

def calcNextSlot : Time := if p.lTime < globalClock then globalClock else p.lTime

end PortFullyPipe

/-! ## `PortFullyNPipe` -/

structure PortFullyNPipe where
  nUnitsMinusOne : ℕ
  freeUnits : ℕ
  lTime : Time
deriving DecidableEq, Repr

namespace PortFullyNPipe

def new (nFU : ℕ) (globalClock : Time) : PortFullyNPipe where
  nUnitsMinusOne := nFU - 1
  freeUnits := nFU
  lTime := globalClock

variable (globalClock : Time) (p : PortFullyNPipe)

def nextSlot : Time × PortFullyNPipe :=
  if p.lTime < globalClock then
    (globalClock, { p with lTime := globalClock, freeUnits := p.nUnitsMinusOne })
  else if p.freeUnits > 0 then
    (p.lTime, { p with freeUnits := p.freeUnits - 1 })
  else
    (p.lTime + 1, { p with lTime := p.lTime + 1, freeUnits := p.nUnitsMinusOne })

def occupySlots (nSlots : ℕ) : Time × PortFullyNPipe :=
  let lTime := if p.lTime < globalClock then globalClock else p.lTime
  -- the free units stay as they are
  (lTime, { p with lTime := lTime + nSlots / (p.nUnitsMinusOne + 1) })

def calcNextSlot : Time :=
  if p.lTime < globalClock then globalClock else p.lTime + if p.freeUnits = 0 then 1 else 0

end PortFullyNPipe

/-! ## `PortPipe` -/

structure PortPipe where
  ocp : TimeDelta
  lTime : Time
deriving DecidableEq, Repr

namespace PortPipe

def new (occ : TimeDelta) (globalClock : Time) : PortPipe where
  ocp := occ
  lTime := if globalClock > occ then globalClock - occ else 0

variable (globalClock : Time) (p : PortPipe)

def nextSlot : Time × PortPipe :=
  let st := if p.lTime < globalClock then globalClock else p.lTime
  (st, { p with lTime := st + p.ocp })

def occupySlots (nSlots : ℕ) : Except Fault (Time × PortPipe) := do
  let t := if p.lTime < globalClock then globalClock else p.lTime
  check .assertion (p.ocp > 1)
  return (t, { p with lTime := t + p.ocp * nSlots % wordRange })

def calcNextSlot : Time := if p.lTime < globalClock then globalClock else p.lTime

end PortPipe

/-! ## `PortNPipe` -/

structure PortNPipe where
  ocp : TimeDelta
  portBusyUntil : List Time
deriving DecidableEq, Repr

namespace PortNPipe

def new (nFU : ℕ) (occ : TimeDelta) (globalClock : Time) : PortNPipe where
  ocp := occ
  portBusyUntil := List.replicate nFU globalClock

/-- The loop of `nextSlot` over the units from `i` on: the unit that is taken and the time at which
it is, which is the first unit that is not busy any more, or else the first of those that are busy
for the least time. -/
def select (globalClock : Time) : List Time → ℕ → ℕ → Time → ℕ × Time
  | [], _, bufPort, bufTime => (bufPort, bufTime)
  | t :: rest, i, bufPort, bufTime =>
    if t < globalClock then (i, globalClock)
    else if t < bufTime then select globalClock rest (i + 1) i t
    else select globalClock rest (i + 1) bufPort bufTime

variable (globalClock : Time) (p : PortNPipe)

/-- The unit that `nextSlot` takes and the time at which it does. -/
def taken : ℕ × Time :=
  match p.portBusyUntil with
  | [] => (0, globalClock)
  | bufTime :: rest =>
    if bufTime < globalClock then (0, globalClock) else select globalClock rest 1 0 bufTime

def nextSlot : Time × PortNPipe :=
  let (port, t) := p.taken globalClock
  (t, { p with portBusyUntil := p.portBusyUntil.set port (addInt t (toInt32 p.ocp)) })

/-- A number of calls of `nextSlot`. -/
def nextSlots : ℕ → PortNPipe → PortNPipe
  | 0, p => p
  | n + 1, p => nextSlots n (p.nextSlot globalClock).2

def occupySlots (nSlots : ℕ) : Time × PortNPipe :=
  let (t, p) := p.nextSlot globalClock
  (t, nextSlots globalClock (nSlots - 1) p)

def calcNextSlot : Time :=
  match p.portBusyUntil with
  | [] => globalClock
  | t :: rest =>
    let firsttime := rest.foldl (fun firsttime t => if t < firsttime then t else firsttime) t
    if firsttime < globalClock then globalClock else firsttime

end PortNPipe

/-! ## `PortGeneric` -/

/-- A port of any class but `PortUnlimited`. -/
inductive PortGeneric
  | fullyPipe (p : PortFullyPipe)
  | fullyNPipe (p : PortFullyNPipe)
  | pipe (p : PortPipe)
  | nPipe (p : PortNPipe)
deriving DecidableEq, Repr

namespace PortGeneric

/-- `create`, for a number of units and an occupancy other than 0. -/
def create (nUnits : ℕ) (occ : TimeDelta) (globalClock : Time) : PortGeneric :=
  if occ = 1 then
    if nUnits = 1 then .fullyPipe (.new globalClock) else .fullyNPipe (.new nUnits globalClock)
  else
    if nUnits = 1 then .pipe (.new occ globalClock) else .nPipe (.new nUnits occ globalClock)

variable (globalClock : Time)

def nextSlot : PortGeneric → Time × PortGeneric
  | fullyPipe p => (p.nextSlot globalClock).map id fullyPipe
  | fullyNPipe p => (p.nextSlot globalClock).map id fullyNPipe
  | pipe p => (p.nextSlot globalClock).map id pipe
  | nPipe p => (p.nextSlot globalClock).map id nPipe

def occupySlots (nSlots : ℕ) : PortGeneric → Except Fault (Time × PortGeneric)
  | fullyPipe p => .ok ((p.occupySlots globalClock nSlots).map id fullyPipe)
  | fullyNPipe p => .ok ((p.occupySlots globalClock nSlots).map id fullyNPipe)
  | pipe p => do
    let r ← p.occupySlots globalClock nSlots
    return r.map id pipe
  | nPipe p => .ok ((p.occupySlots globalClock nSlots).map id nPipe)

def calcNextSlot : PortGeneric → Time
  | fullyPipe p => p.calcNextSlot globalClock
  | fullyNPipe p => p.calcNextSlot globalClock
  | pipe p => p.calcNextSlot globalClock
  | nPipe p => p.calcNextSlot globalClock

/-- A number of calls of `nextSlot`. -/
def nextSlots : ℕ → PortGeneric → PortGeneric
  | 0, p => p
  | n + 1, p => nextSlots n (p.nextSlot globalClock).2

/-- What the comment on `occupySlots` says it is equivalent to. -/
def documentedSlots (nSlots : ℕ) (p : PortGeneric) : Time × PortGeneric :=
  let (t, p) := p.nextSlot globalClock
  (t, nextSlots globalClock (nSlots - 1) p)

end PortGeneric

/-! ## Two ports side by side -/

/-- A call of a port. -/
inductive Call
  | nextSlot
  | occupySlots (nSlots : ℕ)
  | calcNextSlot
deriving DecidableEq, Repr

namespace Call

/-- The time that a call returns, and the port after it. -/
def run (globalClock : Time) (p : PortGeneric) : Call → Except Fault (Time × PortGeneric)
  | nextSlot => .ok (p.nextSlot globalClock)
  | occupySlots nSlots => p.occupySlots globalClock nSlots
  | calcNextSlot => .ok (p.calcNextSlot globalClock, p)

end Call

/-- Two ports that get the same calls, the time of the last one, and what they have returned. -/
structure SideBySide where
  special : PortGeneric
  general : PortGeneric
  globalClock : Time
  returned : List (Time × Time)

/-- The machine of two ports; an event is the time of a call and the call. -/
def sideBySide (special general : Time → PortGeneric) (start : Time) :
    Machine SideBySide (Time × Call) Fault where
  init := ⟨special start, general start, start, []⟩
  step s e := do
    check .noSuchEvent (s.globalClock ≤ e.1)
    let (t, special) ← e.2.run e.1 s.special
    let (t', general) ← e.2.run e.1 s.general
    return ⟨special, general, e.1, s.returned ++ [(t, t')]⟩

end Sesc.Ports
