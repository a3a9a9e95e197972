import Sesc.Lib.Table
import Sesc.Mshr.FullMSHR

/-!
# Miss-status holding registers with subentries

There is an entry for each line that is outstanding, with a limited number of subentries for the reads and
for the writes of the line, or for both together.  A request that is not accepted goes to the overflow
queue, which is checked again whenever a request is retired.  Callbacks may make requests and retire others.
-/

namespace Sesc.Mshr

open Lib

@[ext] structure MSHRentry where
  nReads : ℤ
  nFreeReads : ℤ
  nWrites : ℤ
  rdWrSharing : Bool
  nFreeWrites : ℤ
  nFreeSEntries : ℤ
  cc : List Callback
  reqLineAddr : Addr
deriving DecidableEq, Repr

namespace MSHRentry

variable (e : MSHRentry)

/-- The entry of a line for its first request. -/
def firstRequest (lineAddr : Addr) (nrd nwr : ℤ) (mo : MemOperation) : Except MSHRFault MSHRentry :=
  let e : MSHRentry :=
    { nReads := nrd
      nFreeReads := nrd
      nWrites := if nwr = 0 then nrd else nwr
      rdWrSharing := nwr = 0
      nFreeWrites := if nwr = 0 then nrd else nwr
      nFreeSEntries := if nwr = 0 then nrd - 1 else nrd + nwr - 1
      cc := []
      reqLineAddr := lineAddr }
  if mo = .MemWrite then
    .ok { e with nFreeWrites := e.nFreeWrites - 1 }
  else do
    check .assertion (mo = .MemRead)
    .ok { e with nFreeReads := e.nFreeReads - 1 }

/-- Another request of the line; the result is whether it was accepted. -/
def addRequest (r : Request) : Except MSHRFault (Bool × MSHRentry) := do
  check .assertion (0 ≤ e.nFreeReads)
  check .assertion (e.nFreeReads ≤ e.nReads)
  check .assertion (0 ≤ e.nFreeWrites)
  check .assertion (e.nFreeWrites ≤ e.nWrites)
  check .assertion (0 ≤ e.nFreeSEntries)
  if e.nFreeSEntries = 0 ∨ (r.mo = .MemRead ∧ e.nFreeReads = 0) ∨
      (r.mo = .MemWrite ∧ e.nFreeWrites = 0) then
    .ok (false, e)
  else if r.mo = .MemRead then
    .ok (true, { e with
      nFreeReads := e.nFreeReads - 1
      nFreeSEntries := e.nFreeSEntries - 1
      cc := e.cc ++ [.cb r] })
  else do
    check .assertion (r.mo = .MemWrite)
    .ok (true, { e with
      nFreeWrites := e.nFreeWrites - 1
      nFreeSEntries := e.nFreeSEntries - 1
      cc := e.cc ++ [.cb r] })

def getUsedReads : ℤ := e.nReads - e.nFreeReads
def getUsedWrites : ℤ := e.nWrites - e.nFreeWrites
def hasFreeReads : Bool := 0 < e.nFreeSEntries ∧ 0 < e.nFreeReads
def hasFreeWrites : Bool := 0 < e.nFreeSEntries ∧ 0 < e.nFreeWrites
def getPendingReqs : ℤ := e.nReads + e.nWrites - e.nFreeSEntries

/-- The entry is moved to registers with other numbers of subentries; it ends the program when the new
entry shares its subentries. -/
def adjustParameters (nrd nwr : ℤ) : Except MSHRFault MSHRentry :=
  if e.rdWrSharing = false ∧ nwr ≠ 0 then
    .ok { e with
      nFreeSEntries := e.nFreeSEntries + ((nrd - e.nReads) + (nwr - e.nWrites))
      nFreeReads := e.nFreeReads + (nrd - e.nReads)
      nReads := nrd
      nFreeWrites := e.nFreeWrites + (nwr - e.nWrites)
      nWrites := nwr }
  else if e.rdWrSharing = true ∧ nwr ≠ 0 then
    let nUsedWrites := e.nWrites - e.nFreeWrites
    let nUsedReads := e.nReads - e.nFreeReads
    .ok { e with
      nFreeSEntries := (nrd - nUsedReads) + (nwr - nUsedWrites)
      nFreeReads := nrd - nUsedReads
      nReads := nrd
      nFreeWrites := nwr - nUsedWrites
      nWrites := nwr
      rdWrSharing := false }
  else
    .error .exit

end MSHRentry

structure SingleMSHR where
  nEntries : ℤ
  nFreeEntries : ℤ
  Log2LineSize : ℕ
  nReads : ℤ
  nWrites : ℤ
  nOutsReqs : ℤ
  checkingOverflow : Bool
  nFullReadEntries : ℤ
  nFullWriteEntries : ℤ
  overflow : List Request
  ms : Table MSHRentry.reqLineAddr

namespace SingleMSHR

variable (m : SingleMSHR)

def calcLineAddr (paddr : Addr) : Addr := paddr >>> m.Log2LineSize

/-- A new object, for a number of entries, a length of the lines and numbers of subentries. -/
def new (size : ℤ) (lineSize : ℕ) (nrd nwr : ℤ) : Except MSHRFault SingleMSHR := do
  check .assertion (0 < size ∧ size < 1024 * 32)
  .ok {
    nEntries := size
    nFreeEntries := size
    Log2LineSize := BPred.log2i (BitVec.ofNat 32 lineSize)
    nReads := nrd
    nWrites := nwr
    nOutsReqs := 0
    checkingOverflow := false
    nFullReadEntries := 0
    nFullWriteEntries := 0
    overflow := []
    ms := ∅ }

/-- Counts the entry of an address when its last free subentry was taken. -/
def checkSubEntries (paddr : Addr) (mo : MemOperation) : Except MSHRFault SingleMSHR :=
  match m.ms.find (m.calcLineAddr paddr) with
  | none => .error .assertion
  | some e =>
    if e.rdWrSharing then
      if !e.hasFreeReads || !e.hasFreeWrites then
        .ok { m with
          nFullReadEntries := m.nFullReadEntries + 1
          nFullWriteEntries := m.nFullWriteEntries + 1 }
      else
        .ok m
    else
      let m := if !e.hasFreeReads ∧ mo = .MemRead then
        { m with nFullReadEntries := m.nFullReadEntries + 1 } else m
      .ok (if !e.hasFreeWrites ∧ mo = .MemWrite then
        { m with nFullWriteEntries := m.nFullWriteEntries + 1 } else m)

/-- A free entry is taken for the line of an address. -/
def allocate (paddr : Addr) (mo : MemOperation) : Except MSHRFault SingleMSHR := do
  let e ← MSHRentry.firstRequest (m.calcLineAddr paddr) m.nReads m.nWrites mo
  checkSubEntries { m with
    ms := m.ms.insert e
    nFreeEntries := m.nFreeEntries - 1
    nOutsReqs := m.nOutsReqs + 1 } paddr mo

/-- Whether the request is issued. -/
def issue (paddr : Addr) (mo : MemOperation) : Except MSHRFault (Bool × SingleMSHR) :=
  if m.overflow ≠ [] then
    .ok (false, m)
  else do
    check .assertion (0 ≤ m.nFreeEntries ∧ m.nFreeEntries ≤ m.nEntries)
    if m.ms.find (m.calcLineAddr paddr) = none ∧ 0 < m.nFreeEntries then do
      let m ← m.allocate paddr mo
      .ok (true, m)
    else
      .ok (false, m)

def toOverflow (r : Request) : SingleMSHR := { m with overflow := m.overflow ++ [r] }

/-- The request is put into the entry of its line when there is room; the result is whether it was. -/
def addToEntry (e : MSHRentry) (r : Request) : Except MSHRFault (Bool × SingleMSHR) := do
  let (accepted, e) ← e.addRequest r
  if accepted then do
    let m ← checkSubEntries { m with
      ms := m.ms.insert e
      nOutsReqs := m.nOutsReqs + 1 } r.paddr r.mo
    .ok (true, m)
  else
    .ok (false, m)

/-- A request that was not issued is put away; the list is of the callbacks that are destroyed. -/
def addEntry (r : Request) : Except MSHRFault (SingleMSHR × List Callback) := do
  check .assertion (r.ovflw = true)
  if m.overflow ≠ [] then
    .ok (m.toOverflow r, [])
  else
    match m.ms.find (m.calcLineAddr r.paddr) with
    | none => .ok (m.toOverflow r, [])
    | some e => do
      let (accepted, m) ← m.addToEntry e r
      if accepted then
        .ok (m, [.ovflwcb r])
      else
        .ok (m.toOverflow r, [])

/-- The loop of `checkOverflow` over the overflow queue: it ends, or stops for the overflow callback of the
first request of the queue, which stays there meanwhile.  The list is of the callbacks that are destroyed. -/
def checkOverflowLoop : List Request → SingleMSHR → List Callback →
    Except MSHRFault (SingleMSHR × Option Request × List Callback)
  | [], m, destroyed => .ok ({ m with overflow := [], checkingOverflow := false }, none, destroyed)
  | f :: rest, m, destroyed =>
    match m.ms.find (m.calcLineAddr f.paddr) with
    | none =>
      if 0 < m.nFreeEntries then do
        let m ← m.allocate f.paddr f.mo
        .ok ({ m with overflow := f :: rest }, some f, destroyed)
      else
        .ok ({ m with overflow := f :: rest, checkingOverflow := false }, none, destroyed)
    | some e => do
      let (accepted, m) ← m.addToEntry e f
      if accepted then
        checkOverflowLoop rest m (.ovflwcb f :: destroyed)
      else
        .ok ({ m with overflow := f :: rest, checkingOverflow := false }, none, destroyed)

def checkOverflow : Except MSHRFault (SingleMSHR × Option Request × List Callback) :=
  if m.overflow = [] ∨ m.checkingOverflow = true then
    .ok (m, none, [])
  else
    checkOverflowLoop m.overflow { m with checkingOverflow := true } []

/-- What an entry that is given back or moved away leaves of the counters. -/
def uncount (e : MSHRentry) : SingleMSHR :=
  { m with
    nFullReadEntries := m.nFullReadEntries - if e.hasFreeReads then 0 else 1
    nFullWriteEntries := m.nFullWriteEntries - if e.hasFreeWrites then 0 else 1
    nFreeEntries := m.nFreeEntries + 1
    ms := m.ms.erase e.reqLineAddr }

/-- The first part of `retire`, up to `checkOverflow`: the callback of the next request of the entry is
called, or the entry is given back. -/
def retireEntry (paddr : Addr) : Except MSHRFault (SingleMSHR × Option Callback) :=
  match m.ms.find (m.calcLineAddr paddr) with
  | none => .error .assertion
  | some e =>
    let m := { m with nOutsReqs := m.nOutsReqs - 1 }
    match e.cc with
    | c :: cc => .ok ({ m with ms := m.ms.insert { e with cc := cc } }, some c)
    | [] => do
      let m := m.uncount e
      check .assertion (0 ≤ m.nFullReadEntries)
      check .assertion (0 ≤ m.nFullWriteEntries)
      .ok (m, none)

/-! ### Moving entries -/

def getEntry (paddr : Addr) : Option MSHRentry := m.ms.find (m.calcLineAddr paddr)

/-- The entry of a line is taken away. -/
def dropEntry (lineAddr : Addr) : Except MSHRFault SingleMSHR :=
  match m.ms.find lineAddr with
  | none => .error .assertion
  | some e =>
    let m := m.uncount e
    .ok { m with nOutsReqs := m.nOutsReqs - e.getPendingReqs }

/-- An entry of other registers is put in. -/
def putEntry (me : MSHRentry) : Except MSHRFault SingleMSHR := do
  check .assertion (m.ms.find me.reqLineAddr = none)
  check .assertion (0 < m.nFreeEntries)
  let pme ← me.adjustParameters m.nReads m.nWrites
  let m := { m with
    ms := m.ms.insert pme
    nOutsReqs := m.nOutsReqs + pme.getPendingReqs
    nFreeEntries := m.nFreeEntries - 1
    nFullReadEntries := m.nFullReadEntries + if pme.hasFreeReads then 0 else 1
    nFullWriteEntries := m.nFullWriteEntries + if pme.hasFreeWrites then 0 else 1 }
  check .assertion (0 ≤ m.nFreeEntries)
  .ok m

end SingleMSHR

/-! ## The users of the registers -/

/-- A request is granted. -/
inductive Grant
  | issued (r : Request)
  | called (c : Callback)
deriving DecidableEq, Repr

def Grant.request : Grant → Request
  | .issued r => r
  | .called c => c.request

/-- What a function does after the callback that it has called. -/
inductive SingleFrame
  /-- `retire` goes on with `checkOverflow`. -/
  | retire
  /-- `checkOverflow` removes the request from the overflow queue and goes on with its loop. -/
  | checkOverflow (f : Request)
deriving DecidableEq, Repr

/-- The registers, the functions that are running, and what has become of the requests. -/
structure SingleState where
  mshr : SingleMSHR
  stack : List SingleFrame
  /-- The requests that were made, in order. -/
  asked : List Request
  /-- The requests that were granted, in order. -/
  grants : List Grant
  destroyed : List Callback
  /-- The requests that were granted and are not retired. -/
  outstanding : List Request
  retired : List Request

namespace SingleState

variable (s : SingleState)

def grant (g : Grant) : SingleState :=
  { s with grants := s.grants ++ [g], outstanding := g.request :: s.outstanding }

/-- A request to read or write, with new callbacks. -/
def request (r : Request) : Except MSHRFault SingleState := do
  check .client (r ∉ s.asked ∧ r.ovflw = true ∧ (r.mo = .MemRead ∨ r.mo = .MemWrite))
  let s := { s with asked := s.asked ++ [r] }
  let (issued, mshr) ← s.mshr.issue r.paddr r.mo
  if issued then
    .ok (grant { s with mshr := mshr } (.issued r))
  else do
    let (mshr, destroyed) ← mshr.addEntry r
    .ok { s with mshr := mshr, destroyed := destroyed ++ s.destroyed }

/-- The outcome of `checkOverflow`. -/
def afterOverflow (x : SingleMSHR × Option Request × List Callback) : SingleState :=
  let s := { s with mshr := x.1, destroyed := x.2.2 ++ s.destroyed }
  match x.2.1 with
  | none => s
  | some f => grant { s with stack := .checkOverflow f :: s.stack } (.called (.ovflwcb f))

def checkOverflow : Except MSHRFault SingleState := do
  let x ← s.mshr.checkOverflow
  .ok (s.afterOverflow x)

/-- A request that was granted is retired. -/
def retire (r : Request) : Except MSHRFault SingleState := do
  check .client (r ∈ s.outstanding)
  let s := { s with outstanding := s.outstanding.erase r, retired := r :: s.retired }
  let (mshr, called) ← s.mshr.retireEntry r.paddr
  let s := { s with mshr := mshr }
  match called with
  | some c => .ok (grant { s with stack := .retire :: s.stack } (.called c))
  | none => s.checkOverflow

/-- The callback that was called last returns. -/
def callbackReturns : Except MSHRFault SingleState :=
  match s.stack with
  | [] => .error .client
  | .retire :: stack => checkOverflow { s with stack := stack }
  | .checkOverflow f :: stack => do
    let s := { s with stack := stack, destroyed := .cb f :: s.destroyed }
    -- An empty queue has nothing to remove.
    match s.mshr.overflow with
    | [] => .error .assertion
    | _ :: rest => do
      let x ← SingleMSHR.checkOverflowLoop rest s.mshr []
      .ok (s.afterOverflow x)

end SingleState

inductive SingleEvent
  | request (r : Request)
  | retire (r : Request)
  | callbackReturns
deriving DecidableEq, Repr

/-- The registers and their users; a callback may do what its caller may. -/
def singleMachine (m : SingleMSHR) : Machine SingleState SingleEvent MSHRFault where
  init := ⟨m, [], [], [], [], [], []⟩
  step s
    | .request r => s.request r
    | .retire r => s.retire r
    | .callbackReturns => s.callbackReturns

end Sesc.Mshr
