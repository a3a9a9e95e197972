import Sesc.Lib.FinMap
import Sesc.Trans.Detector

/-!
# `CollisionDetectionFlatten`

Only the outermost transaction of a process is known to the detection that is wrapped: the
begins and ends of the others are suppressed, and their accesses are attributed to it.

The assertions of the source are made only when it is compiled for debugging.
-/

namespace Sesc.Trans

open Lib

/-- The registers of a `CollisionDetectionFlatten` and the detection that is wrapped.  The sets
that only `DumpStats` reads are left out. -/
structure Flatten (σ : Type) where
  parentRelation : FinMap Level Level
  suppressActions : Bool
  parent : Level
  child : Level
  opCode : TMOpCode
  isTransInst : Bool
  wrapped : σ

namespace Flatten

variable {σ : Type}

/-- A new object; the source leaves the registers unset until an instruction is observed. -/
def new (wrapped : σ) : Flatten σ where
  parentRelation := ∅
  suppressActions := false
  parent := 0
  child := 0
  opCode := .transBegin
  isTransInst := false
  wrapped := wrapped

/-- The entry that `parentRelation[level]` makes if there is none. -/
def entry (links : FinMap Level Level) (level : Level) : Level × FinMap Level Level :=
  match links.find level with
  | some parent => (parent, links)
  | none => (0, links.insert level 0)

/-- The loop of `ObserveAccess`.  It is at an end after as many steps as there are entries, or
goes on for ever, which is a fault too. -/
def climb (debug : Bool) : ℕ → FinMap Level Level → Level →
    Except Fault (Level × FinMap Level Level)
  | 0, _, _ => .error .noSuchEvent
  | n + 1, links, level =>
    if level = 0 then .ok (0, links)
    else do
      check .assertion (debug = false ∨ links.find level ≠ none)
      let (parent, links) := entry links level
      if parent = 0 then return (level, links) else climb debug n links parent

variable (T : Detector σ) (debug : Bool)

/-- `ObserveAccess`. -/
def observeAccess (isRead : Bool) (pid : Pid) (transactionEntry : Level) (address : Address)
    (size : ℕ) (s : Flatten σ) : Except Fault (Flatten σ) := do
  let (level, links) ←
    climb debug (s.parentRelation.keys.length + 1) s.parentRelation transactionEntry
  let wrapped ← T.observe (.access isRead pid level address size) s.wrapped
  return { s with
    suppressActions := false
    isTransInst := false
    parentRelation := links
    wrapped := wrapped }

/-- The call of the detection that is wrapped, at the end of `ObserveTransactionInst`. -/
def forward (i : Instruction) (s : Flatten σ) : Except Fault (Flatten σ) :=
  if s.suppressActions then .ok s
  else do
    let wrapped ← T.observe i s.wrapped
    return { s with wrapped := wrapped }

/-- `ObserveTransactionInst`. -/
def observeTransactionInst (pid : Pid) (oldLevel newLevel : Level) (opCode : TMOpCode)
    (s : Flatten σ) : Except Fault (Flatten σ) :=
  let s := { s with isTransInst := true, opCode := opCode }
  match opCode with
  | .transBegin => do
    check .assertion (debug = false ∨ s.parentRelation.find oldLevel = none)
    forward T (.transaction pid oldLevel newLevel opCode)
      { s with parent := oldLevel, child := newLevel, suppressActions := oldLevel ≠ 0 }
  | _ => do
    check .assertion (debug = false ∨ s.parentRelation.find oldLevel ≠ none)
    let (parent, links) := entry s.parentRelation oldLevel
    check .assertion (debug = false ∨ parent = newLevel)
    forward T (.transaction pid oldLevel newLevel opCode)
      { s with
        parent := newLevel
        child := oldLevel
        suppressActions := newLevel ≠ 0
        -- the entry is looked up, and made, by an assertion
        parentRelation := if debug then links else s.parentRelation }

/-- `ObserveAccess` and `ObserveTransactionInst`. -/
def observe (i : Instruction) (s : Flatten σ) : Except Fault (Flatten σ) :=
  match i with
  | .access isRead pid transactionEntry address size =>
    observeAccess T debug isRead pid transactionEntry address size s
  | .transaction pid oldLevel newLevel opCode =>
    observeTransactionInst T debug pid oldLevel newLevel opCode s

/-- `CollisionCount`, with the calls of `FetchCollision` that follow. -/
def checkCollisions (s : Flatten σ) : Except Fault (List Collision × Flatten σ) :=
  if s.suppressActions then .ok ([], s)
  else do
    let (collisions, wrapped) ← T.checkCollisions s.wrapped
    return (collisions, { s with wrapped := wrapped })

def getDelay (s : Flatten σ) : Except Fault ℕ :=
  if s.suppressActions then .ok 0 else T.getDelay s.wrapped

def mayNotDelay (s : Flatten σ) : Except Fault (Flatten σ) :=
  if s.suppressActions then .ok s
  else do
    let wrapped ← T.mayNotDelay s.wrapped
    return { s with wrapped := wrapped }

/-- `FinalizeInstruction`, for the parent links. -/
def finalizeLinks (s : Flatten σ) : Except Fault (FinMap Level Level) :=
  if s.isTransInst then
    match s.opCode with
    | .transBegin => do
      check .assertion (debug = false ∨ s.parentRelation.find s.parent = none)
      return s.parentRelation.insert s.child s.parent
    | _ => do
      check .assertion (debug = false ∨ s.parentRelation.find s.child ≠ none)
      check .assertion (debug = false ∨ (entry s.parentRelation s.child).1 = s.parent)
      return s.parentRelation.erase s.child
  else .ok s.parentRelation

def finalizeInstruction (s : Flatten σ) : Except Fault (Flatten σ) := do
  let links ← finalizeLinks debug s
  let s := { s with parentRelation := links }
  if s.suppressActions then return s
  else
    let wrapped ← T.finalizeInstruction s.wrapped
    return { s with wrapped := wrapped }

def rollbackInstruction (s : Flatten σ) : Except Fault (Flatten σ) :=
  if s.suppressActions then .ok s
  else do
    let wrapped ← T.rollbackInstruction s.wrapped
    return { s with wrapped := wrapped }

/-- `CollisionDetectionFlatten<T>`, compiled for debugging or not. -/
def detector : Detector (Flatten σ) where
  observe := observe T debug
  checkCollisions := checkCollisions T
  getDelay := getDelay T
  mayNotDelay := mayNotDelay T
  finalizeInstruction := finalizeInstruction T debug
  rollbackInstruction := rollbackInstruction T

end Flatten

end Sesc.Trans
