import Mathlib.Logic.Function.Basic
import Sesc.Devices.DeviceTransfers
import Sesc.Trans.Instruction

/-!
# Excluding all accesses but the permitted ones

`CollisionDetectionExcludeAllBut` stands between `TMInterface` and another collision detection, its host.
It keeps an access back until one of its special instructions permits it.
-/

namespace Sesc.Devices

open Lib
open Trans (Collision)

structure Access where
  isRead : Bool
  pid : Cpu
  transactionEntry : TransID
  address : VAddr
  size : ℕ
deriving DecidableEq, Repr

structure SpecialInst where
  opCode : ℕ
  arg1 : ℕ
  arg2 : ℕ
  arg3 : ℕ
  arg4 : ℕ
  arg5 : ℕ
deriving DecidableEq, Repr

structure TransactionInst where
  pid : Cpu
  oldLevel : TransID
  newLevel : TransID
  opCode : ℕ
  arg1 : ℕ
  arg2 : ℕ
  arg3 : ℕ
  arg4 : ℕ
  arg5 : ℕ
deriving DecidableEq, Repr

/-- The calls that a collision detection gets from the initialization on. -/
inductive DetectionCall
  | observeAccess (a : Access)
  | observeSpecialInst (op : SpecialInst)
  | observeTransactionInst (x : TransactionInst)
  | observeCacheEvict (pid : Cpu) (address : VAddr) (cacheLayer newCacheLayer : ℤ) (size : ℕ)
  | clockTick
  | finalizeTick
  | finalizeInstruction
  | rollbackInstruction
  | hasTransfers (cpuID : Cpu)
  | getTransferInfo
  | acceptTransfer
  | denyTransfer
  | confirmTransferCompleted (cpuID : Cpu) (isRead : Bool) (address : VAddr)
  | getDelay
  | mayNotDelay
  | collisionCount
  | fetchCollision
deriving DecidableEq, Repr

inductive Answer
  | nothing
  | has (b : Bool)
  /-- The size is `none` when the reference of the caller is not assigned. -/
  | transferInfo (isRead isRequired : Bool) (address : VAddr) (transferSize : Option ℕ)
  | delay (n : ℕ)
  | count (n : ℕ)
  | collision (c : Collision)
  /-- No reference of the caller is assigned. -/
  | unassigned
deriving DecidableEq, Repr

/-- A collision detection with the states `σ`; `notify` is for the methods without a result. -/
structure Host (σ : Type) where
  notify : DetectionCall → σ → Except Fault σ
  hasTransfers : Cpu → σ → Except Fault (Bool × σ)
  getTransferInfo : σ → Except Fault (TransferInfo × σ)
  getDelay : σ → Except Fault (ℕ × σ)
  collisionCount : σ → Except Fault (ℕ × σ)
  fetchCollision : σ → Except Fault (Collision × σ)

def Host.call {σ : Type} (H : Host σ) (c : DetectionCall) (x : σ) : Except Fault (Answer × σ) :=
  match c with
  | .hasTransfers cpuID => do
    let (b, x) ← H.hasTransfers cpuID x
    return (.has b, x)
  | .getTransferInfo => do
    let (i, x) ← H.getTransferInfo x
    return (.transferInfo i.isRead i.isRequired i.address (some i.transferSize), x)
  | .getDelay => do
    let (n, x) ← H.getDelay x
    return (.delay n, x)
  | .collisionCount => do
    let (n, x) ← H.collisionCount x
    return (.count n, x)
  | .fetchCollision => do
    let (k, x) ← H.fetchCollision x
    return (.collision k, x)
  | c => do
    let x ← H.notify c x
    return (.nothing, x)

/-! ## What has been observed -/

/-- An instruction that has been observed, with its special instructions in order. -/
structure Record where
  inst : Access ⊕ TransactionInst
  specials : List SpecialInst
  /-- Whether it has been finalized or rolled back. -/
  outcome : Option Bool
  /-- The information about a transfer has been asked for before the instruction was permitted. -/
  fetched : Bool
deriving DecidableEq, Repr

/-- The instruction is no access, or an access with a special instruction that permits it. -/
def Record.permitted (permitOpCode : ℕ) (r : Record) : Bool :=
  r.inst.isRight || r.specials.any (·.opCode = permitOpCode)

/-- The observed instructions after a call, the latest one first. -/
def note (permitOpCode : ℕ) (rs : List Record) : DetectionCall → List Record
  | .observeAccess a => ⟨.inl a, [], none, false⟩ :: rs
  | .observeTransactionInst x => ⟨.inr x, [], none, false⟩ :: rs
  | .observeSpecialInst op => rs.modifyHead fun r => { r with specials := r.specials ++ [op] }
  | .finalizeInstruction => rs.modifyHead fun r => { r with outcome := some true }
  | .rollbackInstruction => rs.modifyHead fun r => { r with outcome := some false }
  | .getTransferInfo => rs.modifyHead fun r =>
    { r with fetched := r.fetched || !r.permitted permitOpCode }
  | _ => rs

def records (permitOpCode : ℕ) (cs : List DetectionCall) : List Record :=
  cs.foldl (note permitOpCode) []

/-! ## The wrapper -/

/-- A call with its answer, and what the host has been asked for it. -/
structure DetectionStep where
  call : DetectionCall
  answer : Answer
  asked : Option (DetectionCall × Answer)
deriving DecidableEq, Repr

structure ExcludeAllBut (σ : Type) where
  host : σ
  excluding : Bool
  tickProcessing : Bool
  /-- The fields `isRead`, `pid`, `transactionEntry`, `addr` and `size`. -/
  access : Access
  /-- What the host has been asked for the current call. -/
  asked : Option (DetectionCall × Answer)
  steps : List DetectionStep

namespace ExcludeAllBut

variable {σ : Type} (H : Host σ) (permitOpCode : ℕ) (s : ExcludeAllBut σ)

def calls : List DetectionCall := s.steps.map (·.call)

def hostCalls : List DetectionCall := s.steps.filterMap fun st => st.asked.map Prod.fst

def ask (c : DetectionCall) : Except Fault (Answer × ExcludeAllBut σ) := do
  let (a, x) ← H.call c s.host
  return (a, { s with host := x, asked := some (c, a) })

/-- The host is asked if a test holds; else the answer is `silent`. -/
def askIf (test : Bool) (c : DetectionCall) (silent : Answer) :
    Except Fault (Answer × ExcludeAllBut σ) :=
  if test then s.ask H c else .ok (silent, s)

def observeSpecialInst (op : SpecialInst) : Except Fault (Answer × ExcludeAllBut σ) :=
  if s.excluding ∧ op.opCode = permitOpCode then
    { s with excluding := false }.ask H (.observeAccess s.access)
  else if !s.excluding ∧ op.opCode ≠ permitOpCode then s.ask H (.observeSpecialInst op)
  else .ok (.nothing, s)

/-- The size of the transfer goes to the field for the size of the access. -/
def getTransferInfo : Except Fault (Answer × ExcludeAllBut σ) := do
  let (i, x) ← H.getTransferInfo s.host
  return (.transferInfo i.isRead i.isRequired i.address none, { s with
    host := x
    access := { s.access with size := i.transferSize }
    asked := some (.getTransferInfo,
      .transferInfo i.isRead i.isRequired i.address (some i.transferSize)) })

/-- `FinalizeInstruction` and `RollbackInstruction`. -/
def conclude (c : DetectionCall) : Except Fault (Answer × ExcludeAllBut σ) := do
  let (a, s) ← s.askIf H (!s.excluding) c .nothing
  return (a, { s with excluding := true })

def receive : DetectionCall → Except Fault (Answer × ExcludeAllBut σ)
  | .observeAccess a => .ok (.nothing, { s with access := a, excluding := true })
  | .observeSpecialInst op => s.observeSpecialInst H permitOpCode op
  | .observeTransactionInst x => do
    let (a, s) ← s.ask H (.observeTransactionInst x)
    return (a, { s with excluding := false })
  | .clockTick => { s with tickProcessing := true }.ask H .clockTick
  | .finalizeTick => do
    let (a, s) ← s.ask H .finalizeTick
    return (a, { s with tickProcessing := false })
  | .finalizeInstruction => s.conclude H .finalizeInstruction
  | .rollbackInstruction => s.conclude H .rollbackInstruction
  | .getTransferInfo => s.getTransferInfo H
  | .getDelay => s.askIf H (!s.excluding) .getDelay (.delay 0)
  | .mayNotDelay => s.askIf H (!s.excluding) .mayNotDelay .nothing
  | .collisionCount => s.askIf H (!s.excluding || s.tickProcessing) .collisionCount (.count 0)
  | .fetchCollision => s.askIf H (!s.excluding || s.tickProcessing) .fetchCollision .unassigned
  | c => s.ask H c

/-- The latest instruction, if it has been neither finalized nor rolled back. -/
def current : Option Record :=
  ((records permitOpCode s.calls).head?).filter fun r => r.outcome.isNone

/-- Special instructions, and the end of an instruction, come after an instruction. -/
def mayGet : DetectionCall → Bool
  | .observeSpecialInst _ | .finalizeInstruction | .rollbackInstruction =>
    (s.current permitOpCode).isSome
  | _ => true

def act (c : DetectionCall) : Except Fault (ExcludeAllBut σ) := do
  check .noSuchEvent (s.mayGet permitOpCode c)
  let (a, s') ← { s with asked := none }.receive H permitOpCode c
  return { s' with steps := s.steps ++ [⟨c, a, s'.asked⟩] }

end ExcludeAllBut

/-- The wrapper of a host in a given state. -/
def excludeAllBut {σ : Type} (H : Host σ) (permitOpCode : ℕ) (x : σ) :
    Machine (ExcludeAllBut σ) DetectionCall Fault where
  init :=
    { host := x
      excluding := true
      tickProcessing := false
      access := ⟨false, 0, 0, 0, 0⟩
      asked := none
      steps := [] }
  step s c := s.act H permitOpCode c

end Sesc.Devices
