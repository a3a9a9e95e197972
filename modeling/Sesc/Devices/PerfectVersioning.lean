import Mathlib.Algebra.Group.Nat.Defs
import Mathlib.Data.Finset.Card
import Mathlib.Data.List.Basic
import Mathlib.Logic.Function.Basic
import Sesc.Lib.Check
import Sesc.Lib.Machine
import Sesc.Messages

/-!
# Perfect versioning

`PerfectVersioning` keeps, for each active transaction, the set of the lines that it has stored to.  An
instruction is observed first, and has its effect when it is finalized.  A commit adds the lines of a
transaction to those of its parent; at its end or abort, a transaction leaves its lines in its result.

The vectors that the addresses of the transfers are computed from are never resized.
-/

namespace Sesc.Devices

open Lib

/-- An address or the address of a line. -/
abbrev VAddr := ℕ

/-- An identifier of a transaction, which is not 0. -/
abbrev TransID := ℕ

abbrev Cpu := ℕ

inductive TMOpCode
  | TransBegin
  | TransEnd
  | TransAbort
deriving DecidableEq, Repr

structure TransferEntry where
  isRead : Bool
  address : VAddr
deriving DecidableEq, Repr

structure TransactionResult where
  pid : Cpu
  transID : TransID
  versionSet : List VAddr
deriving DecidableEq, Repr

/-- The arguments of the constructor, and the width of an address. -/
structure VersioningParams where
  lineSize : ℕ
  lineSize_pos : 0 < lineSize
  transferEnabled : Bool
  addrBits : ℕ

/-- The address of the line of an address. -/
def VersioningParams.calcLineAddr (P : VersioningParams) (addr : ℕ) : VAddr :=
  let addr := addr % 2 ^ P.addrBits
  addr - addr % P.lineSize

structure PerfectVersioning where
  activeAddress : VAddr
  lastInstrWasAccess : Bool
  transOpCode : TMOpCode
  oldTransLevel : TransID
  newTransLevel : TransID
  accessIsRead : Bool
  accessSize : ℕ
  lineSet : TransID → Option (List VAddr)
  necessaryTransfers : Cpu → List TransferEntry
  currentCpu : Option Cpu
  versioningAddr : List VAddr
  currentBufferIndex : List ℕ
  transResultBuffer : List TransactionResult
  /-- The index of the result of an active transaction. -/
  activeTransResultSet : TransID → Option ℕ

namespace PerfectVersioning

variable (P : VersioningParams) (s : PerfectVersioning)

def observeAccess (isRead : Bool) (pid : Cpu) (transactionEntry : TransID) (address : VAddr)
    (size : ℕ) : PerfectVersioning :=
  { s with
    activeAddress := address
    accessIsRead := isRead
    currentCpu := some pid
    accessSize := size
    lastInstrWasAccess := true
    oldTransLevel := transactionEntry }

def observeTransactionInst (pid : Cpu) (oldLevel newLevel : TransID) (opCode : TMOpCode) :
    PerfectVersioning :=
  { s with
    currentCpu := some pid
    lastInstrWasAccess := false
    transOpCode := opCode
    oldTransLevel := oldLevel
    newTransLevel := newLevel }

/-- The lines of a transaction, which are none when it has no set. -/
def linesOf (t : TransID) : List VAddr := (s.lineSet t).getD []

/-- An element of a vector; an index out of its range is an error. -/
def vectorAt (v : List ℕ) (i : ℕ) : Except Fault ℕ := v[i]?.elim (.error .assertion) .ok

def pushTransfer : Except Fault PerfectVersioning := do
  let cpu ← s.currentCpu.elim (.error .assertion) .ok
  let versioningAddr ← vectorAt s.versioningAddr cpu
  let index ← vectorAt s.currentBufferIndex cpu
  return { s with
    currentBufferIndex := s.currentBufferIndex.set cpu (index + P.lineSize)
    necessaryTransfers := Function.update s.necessaryTransfers cpu
      (s.necessaryTransfers cpu ++ [⟨false, versioningAddr + index⟩]) }

/-- An iteration of the loop over the bytes of a store, which keeps the line of the last byte. -/
def storeByte (r : VAddr × PerfectVersioning) (i : ℕ) : Except Fault (VAddr × PerfectVersioning) :=
  let s := r.2
  let curAddr := P.calcLineAddr (s.activeAddress + i)
  if curAddr = r.1 then .ok r
  else if curAddr ∈ s.linesOf s.oldTransLevel then .ok (curAddr, s)
  else do
    let s := { s with
      lineSet := Function.update s.lineSet s.oldTransLevel
        (some ((s.linesOf s.oldTransLevel).insert curAddr)) }
    if P.transferEnabled then do
      let s ← s.pushTransfer P
      return (curAddr, s)
    else return (curAddr, s)

def finalizeStore : Except Fault PerfectVersioning := do
  check .assertion (s.lineSet s.oldTransLevel).isSome
  let (_, s) ← (List.range s.accessSize).foldlM (storeByte P) (0, s)
  return s

/-- The lines of the transaction go to its result, and its set is erased. -/
def leaveResult : Except Fault PerfectVersioning := do
  let t := s.oldTransLevel
  let index ← (s.activeTransResultSet t).elim (.error .assertion) .ok
  return { s with
    transResultBuffer := s.transResultBuffer.modify index fun r =>
      { r with versionSet := r.versionSet ++ s.linesOf t }
    activeTransResultSet := Function.update s.activeTransResultSet t none
    lineSet := Function.update s.lineSet t none }

def finalizeBegin (cpu : Cpu) : Except Fault PerfectVersioning := do
  check .assertion (s.oldTransLevel = 0 ∨ (s.lineSet s.oldTransLevel).isSome)
  check .assertion (s.newTransLevel ≠ 0)
  check .assertion (s.lineSet s.newTransLevel = none)
  return { s with
    lineSet := Function.update s.lineSet s.newTransLevel (some [])
    transResultBuffer := s.transResultBuffer ++ [⟨cpu, s.newTransLevel, []⟩]
    activeTransResultSet := Function.update s.activeTransResultSet s.newTransLevel
      (some s.transResultBuffer.length) }

def finalizeEnd : Except Fault PerfectVersioning := do
  check .assertion (s.oldTransLevel ≠ 0)
  check .assertion (s.lineSet s.oldTransLevel).isSome
  check .assertion (s.newTransLevel = 0 ∨ (s.lineSet s.newTransLevel).isSome)
  let s := if s.newTransLevel = 0 then s
    else { s with
      lineSet := Function.update s.lineSet s.newTransLevel
        (some (s.linesOf s.oldTransLevel ∪ s.linesOf s.newTransLevel)) }
  s.leaveResult

def finalizeAbort (cpu : Cpu) : Except Fault PerfectVersioning := do
  check .assertion (s.oldTransLevel ≠ 0)
  check .assertion (s.lineSet s.oldTransLevel).isSome
  check .assertion (s.newTransLevel = 0 ∨ (s.lineSet s.newTransLevel).isSome)
  let s := if P.transferEnabled then
      { s with necessaryTransfers := Function.update s.necessaryTransfers cpu [] }
    else s
  s.leaveResult

def finalizeTransaction : Except Fault PerfectVersioning := do
  let cpu ← s.currentCpu.elim (.error .assertion) .ok
  match s.transOpCode with
  | .TransBegin => s.finalizeBegin cpu
  | .TransEnd => s.finalizeEnd
  | .TransAbort => s.finalizeAbort P cpu

def finalizeInstruction : Except Fault PerfectVersioning := do
  let s ← if s.lastInstrWasAccess then
      if !s.accessIsRead && s.oldTransLevel ≠ 0 then s.finalizeStore P else .ok s
    else s.finalizeTransaction P
  return { s with currentCpu := none }

def rollbackInstruction : PerfectVersioning := { s with currentCpu := none }

def hasTransfers (cpuID : Cpu) : Except Fault (Bool × PerfectVersioning) := do
  check .assertion (s.currentCpu = none)
  if s.necessaryTransfers cpuID = [] then return (false, s)
  else return (true, { s with currentCpu := some cpuID })

def acceptTransfer : Except Fault PerfectVersioning := do
  check .assertion P.transferEnabled
  let cpu ← s.currentCpu.elim (.error .assertion) .ok
  check .assertion (s.necessaryTransfers cpu ≠ [])
  return { s with
    necessaryTransfers := Function.update s.necessaryTransfers cpu (s.necessaryTransfers cpu).tail
    currentCpu := none }

def denyTransfer : Except Fault PerfectVersioning := do
  check .assertion P.transferEnabled
  let cpu ← s.currentCpu.elim (.error .assertion) .ok
  check .assertion (s.necessaryTransfers cpu ≠ [])
  return { s with currentCpu := none }

end PerfectVersioning

/-- A transaction that has ended or aborted: the index of its result, and the lines that its stores
and those of its committed descendants have touched. -/
structure FinishedTransaction where
  index : ℕ
  pid : Cpu
  transID : TransID
  touched : Finset VAddr
deriving DecidableEq

/-- The device with the transactions of the processors. -/
structure Versioned extends PerfectVersioning where
  /-- The transactions of a processor that are active, the innermost one first. -/
  nesting : Cpu → List TransID
  /-- The lines that the stores of a transaction and of its committed descendants have touched. -/
  touched : TransID → Finset VAddr
  finished : List FinishedTransaction
  /-- For each transfer that a processor ought to have queued, the transaction that an abort of takes
  it back, or 0. -/
  owed : Cpu → List TransID

inductive VersioningEvent
  | access (isRead : Bool) (pid : Cpu) (address : VAddr) (size : ℕ)
  | transBegin (pid : Cpu) (t : TransID)
  | transEnd (pid : Cpu)
  | transAbort (pid : Cpu)
  /-- An access that is observed and rolled back. -/
  | rollback (isRead : Bool) (pid : Cpu) (address : VAddr) (size : ℕ)
  /-- A processor asks for a transfer, and accepts or denies it. -/
  | transfer (cpuID : Cpu) (accept : Bool)
deriving DecidableEq, Repr

namespace Versioned

open PerfectVersioning

variable (P : VersioningParams) (s : Versioned)

/-- The innermost transaction of a processor, or 0. -/
def level (pid : Cpu) : TransID := (s.nesting pid).headD 0

/-- The transaction that the innermost one is nested in, or 0. -/
def parent (pid : Cpu) : TransID := (s.nesting pid).tail.headD 0

/-- The lines of the bytes of an access. -/
def linesOfAccess (address : VAddr) (size : ℕ) : Finset VAddr :=
  (Finset.range size).image fun i => P.calcLineAddr (address + i)

/-- The lines that the transactions have touched after an access. -/
def touchedAfter (isRead : Bool) (pid : Cpu) (address : VAddr) (size : ℕ) :
    TransID → Finset VAddr :=
  let t := s.level pid
  if isRead = false ∧ t ≠ 0 then
    Function.update s.touched t (s.touched t ∪ linesOfAccess P address size)
  else s.touched

/-- An access owes a transfer for each line that its transaction has not touched before. -/
def owedAfter (isRead : Bool) (pid : Cpu) (address : VAddr) (size : ℕ) : Cpu → List TransID :=
  let t := s.level pid
  if P.transferEnabled ∧ isRead = false ∧ t ≠ 0 then
    Function.update s.owed pid (s.owed pid ++
      List.replicate (linesOfAccess P address size \ s.touched t).card t)
  else s.owed

/-- The innermost transaction of a processor leaves. -/
def finish (pid : Cpu) (v : PerfectVersioning) : Versioned :=
  let t := s.level pid
  { s with
    toPerfectVersioning := v
    nesting := Function.update s.nesting pid (s.nesting pid).tail
    finished := ⟨(s.activeTransResultSet t).getD 0, pid, t, s.touched t⟩ :: s.finished }

def act : VersioningEvent → Except Fault Versioned
  | .access isRead pid address size => do
    let t := s.level pid
    let v ← (s.observeAccess isRead pid t address size).finalizeInstruction P
    return { s with
      toPerfectVersioning := v
      touched := s.touchedAfter P isRead pid address size
      owed := s.owedAfter P isRead pid address size }
  | .transBegin pid t => do
    check .noSuchEvent (t ≠ 0 ∧ s.lineSet t = none)
    let v ← (s.observeTransactionInst pid (s.level pid) t .TransBegin).finalizeInstruction P
    return { s with
      toPerfectVersioning := v
      nesting := Function.update s.nesting pid (t :: s.nesting pid)
      touched := Function.update s.touched t ∅ }
  | .transEnd pid => do
    check .noSuchEvent (s.nesting pid ≠ [])
    let v ← (s.observeTransactionInst pid (s.level pid) (s.parent pid)
      .TransEnd).finalizeInstruction P
    return { s.finish pid v with
      touched := Function.update s.touched (s.parent pid)
        (s.touched (s.parent pid) ∪ s.touched (s.level pid))
      -- Its transfers are now those of its parent.
      owed := Function.update s.owed pid
        ((s.owed pid).map fun t => if t = s.level pid then s.parent pid else t) }
  | .transAbort pid => do
    check .noSuchEvent (s.nesting pid ≠ [])
    let v ← (s.observeTransactionInst pid (s.level pid) (s.parent pid)
      .TransAbort).finalizeInstruction P
    return { s.finish pid v with
      owed := Function.update s.owed pid ((s.owed pid).filter (· ≠ s.level pid)) }
  | .rollback isRead pid address size =>
    .ok { s with
      toPerfectVersioning :=
        (s.observeAccess isRead pid (s.level pid) address size).rollbackInstruction }
  | .transfer cpuID accept => do
    let (has, v) ← s.hasTransfers cpuID
    check .noSuchEvent has
    let v ← if accept then v.acceptTransfer P else v.denyTransfer P
    return { s with
      toPerfectVersioning := v
      owed := if accept then Function.update s.owed cpuID (s.owed cpuID).tail else s.owed }

end Versioned

/-- The device after `Initialize`. -/
def versioning (P : VersioningParams) : Machine Versioned VersioningEvent Fault where
  init :=
    { activeAddress := 0
      lastInstrWasAccess := false
      transOpCode := .TransBegin
      oldTransLevel := 0
      newTransLevel := 0
      accessIsRead := false
      accessSize := 0
      lineSet := fun _ => none
      necessaryTransfers := fun _ => []
      currentCpu := none
      versioningAddr := []
      currentBufferIndex := []
      transResultBuffer := []
      activeTransResultSet := fun _ => none
      nesting := fun _ => []
      touched := fun _ => ∅
      finished := []
      owed := fun _ => [] }
  step s e := s.act P e

end Sesc.Devices
