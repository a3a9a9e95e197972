import Mathlib.Data.Int.Notation
import Mathlib.Data.Nat.Notation
import Mathlib.Logic.Function.Basic
import Sesc.BPred.Basic
import Sesc.Lib.Check
import Sesc.Lib.Machine

/-!
# Miss-status holding registers keyed by a hash

A request that is not issued hands its callbacks over.  It waits at the entry of its address, or in the
overflow queue when there is no free entry; it is granted when one of its callbacks is called.  A callback
may itself make requests and retire others, so what a function does after it is a frame on a stack.
-/

namespace Sesc.Mshr

open Lib

inductive MemOperation
  | MemRead
  | MemWrite
  | MemPush
  | MemReadW
  | MemSpecialOp
deriving DecidableEq, Repr

abbrev Addr := ℕ

/-- A request, told apart from the others by its number. -/
structure Request where
  id : ℕ
  paddr : Addr
  mo : MemOperation
  /-- The request has an overflow callback. -/
  ovflw : Bool
deriving DecidableEq, Repr

/-- The callbacks of a request. -/
inductive Callback
  | cb (r : Request)
  | ovflwcb (r : Request)
deriving DecidableEq, Repr

def Callback.request : Callback → Request
  | .cb r => r
  | .ovflwcb r => r

inductive MSHRFault
  /-- An assertion fails. -/
  | assertion
  /-- The program ends with a message. -/
  | exit
  /-- The users of the registers may not do this. -/
  | client
deriving DecidableEq, Repr

/-- An entry, with the callbacks of the requests that wait at it. -/
@[ext] structure EntryType where
  cc : List Callback
  inUse : Bool
deriving DecidableEq, Repr

structure FullMSHR where
  nEntries : ℤ
  nFreeEntries : ℤ
  Log2LineSize : ℕ
  MSHRSize : ℕ
  overflowing : Bool
  entry : ℕ → EntryType
  overflow : List Request

namespace FullMSHR

variable (m : FullMSHR)

def MSHRMask : ℕ := m.MSHRSize - 1

def calcEntry (paddr : Addr) : ℕ :=
  let p := paddr >>> m.Log2LineSize
  (p ^^^ (p >>> 11)) &&& m.MSHRMask

def setEntry (pos : ℕ) (e : EntryType) : FullMSHR :=
  { m with entry := Function.update m.entry pos e }

/-- A new object, for a number of entries and a length of the lines. -/
def new (size : ℤ) (lineSize : ℕ) : Except MSHRFault FullMSHR := do
  check .assertion (0 < size ∧ size < 1024 * 32)
  let Log2LineSize := BPred.log2i (BitVec.ofNat 32 lineSize)
  check .assertion (Log2LineSize < 8 * 4 - 1)
  .ok {
    nEntries := size
    nFreeEntries := size
    Log2LineSize := Log2LineSize
    MSHRSize := (BPred.roundUpPower2 (BitVec.ofInt 32 size)).toNat * 4
    overflowing := false
    entry := fun _ => ⟨[], false⟩
    overflow := [] }

/-- Whether the request is issued. -/
def issue (paddr : Addr) : Except MSHRFault (Bool × FullMSHR) :=
  if m.overflowing ∨ m.nFreeEntries = 0 then
    .ok (false, { m with overflowing := true })
  else do
    let m := { m with nFreeEntries := m.nFreeEntries - 1 }
    check .assertion (0 ≤ m.nFreeEntries)
    let pos := m.calcEntry paddr
    if (m.entry pos).inUse then
      .ok (false, m)
    else do
      check .assertion ((m.entry pos).cc = [])
      .ok (true, m.setEntry pos ⟨(m.entry pos).cc, true⟩)

/-- The overflow callback of a request, if there is one, is destroyed. -/
def ovflwcbs (r : Request) : List Callback :=
  if r.ovflw then [.ovflwcb r] else []

/-- A request that was not issued is put away; the list is of the callbacks that are destroyed. -/
def addEntry (r : Request) : Except MSHRFault (FullMSHR × List Callback) := do
  check .assertion (0 ≤ m.nFreeEntries)
  if m.overflowing then
    .ok ({ m with overflow := m.overflow ++ [r] }, [])
  else do
    let pos := m.calcEntry r.paddr
    check .assertion ((m.entry pos).inUse = true)
    .ok (m.setEntry pos ⟨(m.entry pos).cc ++ [.cb r], true⟩, ovflwcbs r)

/-- The callback that a function calls, if any, and those that it destroys after this. -/
structure Calls where
  called : Option Callback
  destroyed : List Callback
deriving DecidableEq, Repr

/-- The first part of `retire`: the free entry goes to the oldest request of the overflow queue. -/
def retireOverflow : Except MSHRFault (FullMSHR × Calls) :=
  if m.overflowing then
    match m.overflow with
    | [] => .error .assertion
    | f :: rest =>
      let m := { m with overflow := rest, overflowing := !rest.isEmpty }
      let opos := m.calcEntry f.paddr
      if (m.entry opos).inUse then
        .ok (m.setEntry opos ⟨(m.entry opos).cc ++ [.cb f], true⟩, ⟨none, ovflwcbs f⟩)
      else
        let m := m.setEntry opos ⟨(m.entry opos).cc, true⟩
        if f.ovflw then
          .ok (m, ⟨some (.ovflwcb f), [.cb f]⟩)
        else
          .ok (m, ⟨some (.cb f), []⟩)
  else
    .ok ({ m with nFreeEntries := m.nFreeEntries + 1 }, ⟨none, []⟩)

/-- The last part of `retire`: the next request of the entry, or none.  The result is whether the entry is
given back. -/
def retireEntry (paddr : Addr) : Except MSHRFault (FullMSHR × Option Callback × Bool) := do
  check .assertion (0 ≤ m.nFreeEntries)
  let pos := m.calcEntry paddr
  if (m.entry pos).inUse then
    match (m.entry pos).cc with
    | c :: cc => .ok (m.setEntry pos ⟨cc, true⟩, some c, false)
    | [] => .ok (m.setEntry pos ⟨[], false⟩, none, true)
  else
    .ok (m, none, true)

end FullMSHR

/-! ## The users of the registers -/

/-- What a function does after the callback that it has called. -/
inductive Frame
  /-- The rest of `retire`, which destroys callbacks first. -/
  | retireEntry (paddr : Addr) (destroyed : List Callback)
  /-- It returns. -/
  | leave
deriving DecidableEq, Repr

/-- The registers, the functions that are running, and what has become of the requests. -/
structure FullState where
  mshr : FullMSHR
  stack : List Frame
  /-- The requests that were made. -/
  asked : List Request
  /-- The requests for which `issue` returned true. -/
  issued : List Request
  called : List Callback
  destroyed : List Callback
  /-- The requests that were granted and are not retired. -/
  outstanding : List Request
  retired : List Request

namespace FullState

variable (s : FullState)

def callback (c : Callback) (frame : Frame) : FullState :=
  { s with
    stack := frame :: s.stack
    called := c :: s.called
    outstanding := c.request :: s.outstanding }

/-- A request, with new callbacks. -/
def request (r : Request) : Except MSHRFault FullState := do
  check .client (r ∉ s.asked)
  let s := { s with asked := r :: s.asked }
  let (issued, mshr) ← s.mshr.issue r.paddr
  if issued then
    .ok { s with mshr := mshr, issued := r :: s.issued, outstanding := r :: s.outstanding }
  else do
    let (mshr, destroyed) ← mshr.addEntry r
    .ok { s with mshr := mshr, destroyed := destroyed ++ s.destroyed }

def retireEntry (paddr : Addr) : Except MSHRFault FullState := do
  let (mshr, called, _) ← s.mshr.retireEntry paddr
  let s := { s with mshr := mshr }
  match called with
  | some c => .ok (s.callback c .leave)
  | none => .ok s

/-- A request that was granted is retired. -/
def retire (r : Request) : Except MSHRFault FullState := do
  check .client (r ∈ s.outstanding)
  let s := { s with outstanding := s.outstanding.erase r, retired := r :: s.retired }
  let (mshr, calls) ← s.mshr.retireOverflow
  let s := { s with mshr := mshr }
  match calls.called with
  | some c => .ok (s.callback c (.retireEntry r.paddr calls.destroyed))
  | none =>
    let s := { s with destroyed := calls.destroyed ++ s.destroyed }
    s.retireEntry r.paddr

/-- The callback that was called last returns. -/
def callbackReturns : Except MSHRFault FullState :=
  match s.stack with
  | [] => .error .client
  | .leave :: stack => .ok { s with stack := stack }
  | .retireEntry paddr destroyed :: stack =>
    let s := { s with stack := stack, destroyed := destroyed ++ s.destroyed }
    s.retireEntry paddr

end FullState

inductive FullEvent
  | request (r : Request)
  | retire (r : Request)
  | callbackReturns
deriving DecidableEq, Repr

/-- The registers and their users; a callback may do what its caller may. -/
def fullMachine (m : FullMSHR) : Machine FullState FullEvent MSHRFault where
  init := ⟨m, [], [], [], [], [], [], []⟩
  step s
    | .request r => s.request r
    | .retire r => s.retire r
    | .callbackReturns => s.callbackReturns

end Sesc.Mshr
