import Mathlib.Data.Int.Notation
import Mathlib.Data.Nat.Notation
import Mathlib.Logic.Function.Basic
import Sesc.Lib.Check
import Sesc.Lib.Machine
import Sesc.Messages

/-!
# The back end of a processor

An instruction is added to the reorder buffer when its resource can issue it, executes some time later,
and is retired when it is the oldest one.  Each kind of resource has its own ways of issuing, executing
and retiring; the clusters count the entries of their windows.

The instructions are executed in any order here, which includes the orders that the dependences allow.
Replay and wrong paths are off.
-/

namespace Sesc.Processor

open Lib

inductive InstType
  | iOpInvalid
  | iALU
  | iMult
  | iDiv
  | iBJ
  | iLoad
  | iStore
  | fpALU
  | fpMult
  | fpDiv
  | iFence
  | iEvent
  | iTransactional
deriving DecidableEq, Repr

inductive InstSubType
  | iSubInvalid
  | iNop
  | iMemory
  | iAtomicMemory
  | iFetchOp
  | iMemFence
  | iAcquire
  | iRelease
  | BJUncond
  | BJCall
  | BJRet
  | BJCond
  | iFake
  | iSubTransactional
deriving DecidableEq, Repr

abbrev RegType := ℕ

/-- The register that takes the results of the instructions without a result. -/
def InvalidOutput : RegType := 69

structure Instruction where
  opcode : InstType
  subCode : InstSubType
  src1 : RegType
  src2 : RegType
  dest : RegType
  dstPool : ℕ
deriving DecidableEq, Repr

/-- A pointer to an instruction. -/
abbrev Ptr := ℕ

/-- A cluster of the core. -/
abbrev Cluster := ℕ

structure DInst where
  inst : Instruction
  /-- There is a pending event. -/
  pendEvent : Bool
  executed : Bool
  /-- How often the pending event has been called. -/
  calls : ℕ
  /-- How many slots of the address generator the retirement has taken. -/
  slots : ℕ
deriving DecidableEq, Repr

/-- The resources of a core, of which there is one for each type of instruction. -/
inductive Resource
  | FUMemory
  | FULoad
  | FUStore
  | FUGeneric
  | FUBranch
  | FUEvent
deriving DecidableEq, Repr

inductive StallCause
  | NoStall
  | SmallROBStall
  | SmallREGStall
  | SmallWinStall
  | OutsLoadsStall
  | OutsStoresStall
  | OutsBranchesStall
deriving DecidableEq, Repr

inductive RetOutcome
  | Retired
  | NotExecuted
  | NoCacheSpace
  | NoCachePorts
  | WaitForFence
deriving DecidableEq, Repr

/-- The configuration of a core. -/
structure CoreConfig where
  InOrderCore : Bool
  MaxROBSize : ℕ
  /-- The registers of each pool. -/
  regs : ℕ → ℕ
  /-- The cluster that has the functional unit of a type. -/
  cluster : InstType → Cluster
  /-- A `RetiredCluster` rather than an `ExecutedCluster`. -/
  recycleAtRetire : Cluster → Bool
  winSize : Cluster → ℕ
  maxLoads : ℕ
  maxStores : ℕ
  maxBranches : ℕ

namespace InstType

/-- The resource that `buildUnit` creates for a type. -/
def resource : InstType → Option Resource
  | iOpInvalid | iALU | iMult | iDiv | fpALU | fpMult | fpDiv => some .FUGeneric
  | iBJ => some .FUBranch
  | iLoad => some .FULoad
  | iStore => some .FUStore
  | iFence => some .FUMemory
  | iEvent => some .FUEvent
  | iTransactional => none

end InstType

/-- The cluster of the resource of a type; those for fences and events go together with the store
unit. -/
def CoreConfig.clusterOf (cfg : CoreConfig) : InstType → Cluster
  | .iFence | .iEvent => cfg.cluster .iStore
  | t => cfg.cluster t

/-- An instruction that has been inserted. -/
structure Inserted where
  dinst : Ptr
  dest : RegType
  executed : Bool
deriving DecidableEq, Repr

structure GProcessor where
  dinst : Ptr → DInst
  /-- The reorder buffer, the oldest instruction first. -/
  ROB : List Ptr
  RAT : RegType → Option Ptr
  regPool : ℕ → ℤ
  windowSize : Cluster → ℤ
  freeLoads : ℤ
  freeStores : ℤ
  freeBranches : ℤ
  pendingFence : Bool
  nOutsStores : ℤ
  /-- The stores and fetch-ops that are in memory. -/
  sent : List Ptr
  /-- How many stores and fetch-ops have been sent to memory. -/
  nSent : ℕ
  /-- The stores and fetch-ops that the last fence waits for. -/
  awaited : List Ptr
  /-- All instructions that have been inserted, the youngest first. -/
  inserted : List Inserted
  /-- All instructions that have been retired, the youngest first. -/
  retired : List DInst

/-- What the memory answers to the attempt to retire an instruction. -/
structure MemoryState where
  /-- The next free cycle of the cache has come. -/
  freeCycle : Bool
  canAcceptStore : Bool
  isValidDataVAddr : Bool
deriving DecidableEq, Repr

namespace GProcessor

variable (cfg : CoreConfig) (s : GProcessor) (p : Ptr) (c : Cluster)

def inst : Instruction := (s.dinst p).inst

def modifyDInst (f : DInst → DInst) : GProcessor :=
  { s with dinst := Function.update s.dinst p (f (s.dinst p)) }

/-! ### Clusters -/

def newEntry : Except Fault GProcessor := do
  let windowSize := s.windowSize c - 1
  check .assertion (0 ≤ windowSize)
  return { s with windowSize := Function.update s.windowSize c windowSize }

def delEntry : Except Fault GProcessor := do
  let windowSize := s.windowSize c + 1
  check .assertion (windowSize ≤ cfg.winSize c)
  return { s with windowSize := Function.update s.windowSize c windowSize }

/-- `executed` of a cluster, which marks the instruction. -/
def clusterExecuted : Except Fault GProcessor :=
  let c := cfg.clusterOf (s.inst p).opcode
  let s := { s.modifyDInst p fun d => { d with executed := true } with
    inserted := s.inserted.map fun d =>
      if d.dinst = p ∧ d.executed = false then { d with executed := true } else d }
  if cfg.recycleAtRetire c then .ok s else s.delEntry cfg c

def clusterRetire : Except Fault GProcessor :=
  let c := cfg.clusterOf (s.inst p).opcode
  if cfg.recycleAtRetire c then s.delEntry cfg c else .ok s

/-! ### Issue -/

def canIssue : Resource → Except Fault (StallCause × GProcessor)
  | .FUMemory | .FUGeneric => do
    let s ← s.newEntry c
    return (.NoStall, s)
  | .FULoad =>
    if s.freeLoads ≤ 0 then do
      check .assertion (s.freeLoads = 0)
      return (.OutsLoadsStall, s)
    else do
      let s ← s.newEntry c
      return (.NoStall, { s with freeLoads := s.freeLoads - 1 })
  | .FUStore =>
    if s.freeStores ≤ 0 then do
      check .assertion (s.freeStores = 0)
      return (.OutsStoresStall, s)
    else do
      let s ← s.newEntry c
      return (.NoStall, { s with freeStores := s.freeStores - 1 })
  | .FUBranch =>
    if s.freeBranches = 0 then .ok (.OutsBranchesStall, s)
    else do
      let s ← s.newEntry c
      return (.NoStall, { s with freeBranches := s.freeBranches - 1 })
  | .FUEvent => .ok (.NoStall, s)

/-- The end of `sharedAddInst` and of `addInst`: the instruction enters the reorder buffer and the
rename table. -/
def insert (inst : Instruction) (pendEvent : Bool) : GProcessor :=
  { s with
    dinst := Function.update s.dinst p ⟨inst, pendEvent, false, 0, 0⟩
    regPool := Function.update s.regPool inst.dstPool (s.regPool inst.dstPool - 1)
    ROB := s.ROB ++ [p]
    RAT := Function.update s.RAT inst.dest (some p)
    inserted := ⟨p, inst.dest, false⟩ :: s.inserted }

def sharedAddInst (inst : Instruction) (pendEvent : Bool) :
    Except Fault (StallCause × GProcessor) :=
  if cfg.MaxROBSize ≤ s.ROB.length then .ok (.SmallROBStall, s)
  else do
    check .assertion (inst.dstPool < 3)
    if s.regPool inst.dstPool = 0 then return (.SmallREGStall, s)
    else do
      let res ← inst.opcode.resource.elim (.error .assertion) .ok
      let c := cfg.clusterOf inst.opcode
      if s.windowSize c ≤ 0 then return (.SmallWinStall, s)
      else do
        let (stall, s) ← s.canIssue c res
        if stall = .NoStall then return (.NoStall, s.insert p inst pendEvent)
        else return (stall, s)

/-- An in-order core waits for the sources and the destination. -/
def waitsForRAT (inst : Instruction) : Bool :=
  cfg.InOrderCore &&
    ((s.RAT inst.src1).isSome || (s.RAT inst.src2).isSome || (s.RAT inst.dest).isSome)

def addInst (inst : Instruction) (pendEvent : Bool) : Except Fault (StallCause × GProcessor) :=
  if s.waitsForRAT cfg inst then .ok (.SmallWinStall, s)
  else s.sharedAddInst cfg p inst pendEvent

/-! ### Execution -/

def clearRAT : GProcessor :=
  let dest := (s.inst p).dest
  if s.RAT dest = some p then { s with RAT := Function.update s.RAT dest none } else s

/-- `doAtExecuted`, which clears the entry in the rename table and calls `executed` of the resource. -/
def doAtExecuted : Resource → Except Fault GProcessor
  | .FUBranch =>
    let s := s.clearRAT p
    { s with freeBranches := s.freeBranches + 1 }.clusterExecuted cfg p
  | _ => (s.clearRAT p).clusterExecuted cfg p

/-- The execution of an instruction, which an event does not leave to `doAtExecuted`. -/
def execute : Resource → Except Fault GProcessor
  | .FUEvent => (s.modifyDInst p fun d => { d with calls := d.calls + 1 }).clusterExecuted cfg p
  | res => s.doAtExecuted cfg p res

/-! ### Retirement -/

def storeSent : GProcessor := { s with nOutsStores := s.nOutsStores + 1, nSent := s.nSent + 1 }

def storeCompleted : Except Fault GProcessor := do
  check .assertion (0 < s.nOutsStores)
  let nOutsStores := s.nOutsStores - 1
  return { s with
    nOutsStores
    pendingFence := if nOutsStores = 0 then false else s.pendingFence }

def doFence : GProcessor :=
  { s with
    pendingFence := if 0 < s.nOutsStores then true else s.pendingFence
    awaited := s.sent }

/-- A `DMemRequest` for a write is acknowledged at once when the address is not valid. -/
def createWrite (m : MemoryState) : Except Fault GProcessor :=
  if m.isValidDataVAddr then .ok { s with sent := p :: s.sent } else s.storeCompleted

def doRetire : Except Fault GProcessor := do
  let s ← s.clusterRetire cfg p
  return { s with freeStores := s.freeStores + 1 }

def retireStore (m : MemoryState) : Except Fault (RetOutcome × GProcessor) :=
  if !m.freeCycle then .ok (.NoCachePorts, s)
  else if !m.canAcceptStore then .ok (.NoCacheSpace, s)
  else
    let s := s.modifyDInst p fun d =>
      { d with slots := d.slots + 1, calls := if d.pendEvent then d.calls + 1 else d.calls }
    if s.pendingFence then .ok (.WaitForFence, s)
    else do
      let s ← s.storeSent.createWrite p m
      let s ← s.doRetire cfg p
      return (.Retired, s)

def retireMemory (m : MemoryState) : Except Fault (RetOutcome × GProcessor) :=
  match (s.inst p).subCode with
  | .iFetchOp =>
    if !m.canAcceptStore then .ok (.NoCacheSpace, s)
    else if s.pendingFence then .ok (.WaitForFence, s)
    else do
      let s ← s.storeSent.createWrite p m
      return (.Retired, s)
  | .iMemFence => .ok (.Retired, s.doFence)
  | .iAcquire | .iRelease => .ok (.Retired, s)
  | _ => .error .assertion

/-- `retire` of a resource. -/
def retireResource (m : MemoryState) : Resource → Except Fault (RetOutcome × GProcessor)
  | .FUMemory => s.retireMemory p m
  | .FULoad => do
    let s ← s.clusterRetire cfg p
    return (.Retired, { s with freeLoads := s.freeLoads + 1 })
  | .FUStore => s.retireStore cfg p m
  | .FUGeneric | .FUBranch | .FUEvent => do
    let s ← s.clusterRetire cfg p
    return (.Retired, s)

/-- The instruction leaves the reorder buffer. -/
def popROB : GProcessor :=
  let rp := (s.inst p).dstPool
  { s with
    regPool := Function.update s.regPool rp (s.regPool rp + 1)
    ROB := s.ROB.tail
    retired := s.dinst p :: s.retired }

/-- An iteration of the loop of `retire`. -/
def retire (m : MemoryState) : Except Fault (RetOutcome × GProcessor) := do
  let p ← s.ROB.head?.elim (.error .noSuchEvent) .ok
  if (s.dinst p).executed then do
    let res ← (s.inst p).opcode.resource.elim (.error .assertion) .ok
    let (outcome, s) ← s.retireResource cfg p m res
    return (outcome, if outcome = .Retired then s.popROB p else s)
  else return (.NotExecuted, s)

end GProcessor

inductive ProcessorEvent
  | addInst (p : Ptr) (inst : Instruction) (pendEvent : Bool)
  | execute (p : Ptr)
  | retire (m : MemoryState)
  /-- The memory has performed a store or a fetch-op. -/
  | storeCompleted (p : Ptr)
deriving DecidableEq, Repr

namespace GProcessor

variable (cfg : CoreConfig) (s : GProcessor)

/-- An instruction is added with a pointer that is not in use. -/
def act : ProcessorEvent → Except Fault GProcessor
  | .addInst p inst pendEvent => do
    check .noSuchEvent (p ∉ s.ROB ∧ p ∉ s.sent)
    let (_, s) ← s.addInst cfg p inst pendEvent
    return s
  | .execute p => do
    check .noSuchEvent (p ∈ s.ROB ∧ (s.dinst p).executed = false)
    let res ← (s.inst p).opcode.resource.elim (.error .assertion) .ok
    s.execute cfg p res
  | .retire m => do
    let (_, s) ← s.retire cfg m
    return s
  | .storeCompleted p => do
    check .noSuchEvent (p ∈ s.sent)
    let s ← s.storeCompleted
    return { s with sent := s.sent.erase p, awaited := s.awaited.erase p }

end GProcessor

/-- A core, from the empty reorder buffer on. -/
def processor (cfg : CoreConfig) : Machine GProcessor ProcessorEvent Fault where
  init :=
    { dinst := fun _ => ⟨⟨.iOpInvalid, .iSubInvalid, 0, 0, 0, 0⟩, false, false, 0, 0⟩
      ROB := []
      RAT := fun _ => none
      regPool := fun r => cfg.regs r
      windowSize := fun c => cfg.winSize c
      freeLoads := cfg.maxLoads
      freeStores := cfg.maxStores
      freeBranches := cfg.maxBranches
      pendingFence := false
      nOutsStores := 0
      sent := []
      nSent := 0
      awaited := []
      inserted := []
      retired := [] }
  step s e := s.act cfg e

end Sesc.Processor
