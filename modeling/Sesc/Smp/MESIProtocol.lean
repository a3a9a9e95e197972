import Mathlib.Data.Fintype.Basic
import Mathlib.Data.Int.Notation
import Mathlib.Logic.Function.Basic
import Sesc.Lib.Check
import Sesc.Lib.Machine
import Sesc.Mshr.FullMSHR

/-!
# `MESIProtocol`

The caches of a multiprocessor share a bus.  A request that a cache cannot serve waits for the registers
`mutExclBuffer`, which all caches share, and then goes to the bus; all other caches answer it, and when
none of them has the line it goes to memory.

Nothing of this relates two lines, but for the line that gives way to another one in a cache.  So the
functions are about one line; when something happens is left open.
-/

namespace Sesc.Smp

open Lib Mshr

inductive Fault
  /-- An assertion fails. -/
  | assertion
  /-- There is nothing to be done of this kind. -/
  | client
deriving DecidableEq, Repr

/-- The state of a line in a cache.  A cache finds no line that is invalid. -/
inductive MESIState
  | INVALID
  | TRANS_RD
  | TRANS_RD_MEM
  | TRANS_WR
  | TRANS_WR_MEM
  | TRANS_RSV
  | TRANS_INV
  | TRANS_INV_D
  | MODIFIED
  | EXCLUSIVE
  | SHARED
deriving DecidableEq, Repr

namespace MESIState

/-- The encoding. -/
def bits : MESIState → BitVec 32
  | .INVALID => 0x00000000#32
  | .TRANS_RD => 0x12000000#32
  | .TRANS_RD_MEM => 0x16000000#32
  | .TRANS_WR => 0x13000000#32
  | .TRANS_WR_MEM => 0x17000000#32
  | .TRANS_RSV => 0x14000000#32
  | .TRANS_INV => 0x18000000#32
  | .TRANS_INV_D => 0x18000001#32
  | .MODIFIED => 0x00300001#32
  | .EXCLUSIVE => 0x00300010#32
  | .SHARED => 0x00100100#32

variable (s : MESIState)

def isValid : Bool := s.bits ≠ 0
def isLocked : Bool := s.bits &&& 0x10000000#32 ≠ 0
def isBeingInvalidated : Bool := s.bits &&& 0x08000000#32 ≠ 0
def isDirty : Bool := s.bits &&& 0x00000001#32 ≠ 0
def canBeRead : Bool := s.bits &&& 0x00100000#32 ≠ 0
def canBeWritten : Bool := s.bits &&& 0x00200000#32 ≠ 0

/-- A line that a cache finds and that it may use. -/
def isStable : Bool := s.isValid && !s.isLocked

/-- What `changeState` asserts of the old and the new state. -/
def mayBecome : MESIState → MESIState → Bool
  | _, .INVALID => false
  | .INVALID, s => s = .TRANS_RSV
  | .TRANS_RSV, s => s = .TRANS_RD ∨ s = .TRANS_WR
  | .TRANS_RD, s => s = .SHARED ∨ s = .TRANS_RD_MEM
  | .TRANS_RD_MEM, s => s = .EXCLUSIVE
  | .TRANS_WR, s => s = .MODIFIED ∨ s = .TRANS_WR_MEM
  | .TRANS_WR_MEM, s => s = .MODIFIED
  | .EXCLUSIVE, s => s = .SHARED ∨ s = .MODIFIED ∨ s = .TRANS_INV
  | .SHARED, s => s = .SHARED ∨ s = .MODIFIED ∨ s = .TRANS_INV ∨ s = .TRANS_WR
  | .MODIFIED, s => s = .MODIFIED ∨ s = .SHARED ∨ s = .TRANS_INV_D
  | .TRANS_INV, _ | .TRANS_INV_D, _ => true

end MESIState

/-- A request of a cache on its way through the memory system; the requestor and the address are known
from where it is kept. -/
structure SMPMemRequest (n : ℕ) where
  memOp : MemOperation
  state : MESIState
  supplier : Option (Fin n)
  found : Bool
  needSnoop : Bool
  needData : Bool
  writeDown : Bool
deriving DecidableEq, Repr

/-- Where a request is. -/
inductive Location
  | toBus
  | snooping
  | inMemory
  | toRequestor
deriving DecidableEq, Repr

/-- How far an access has come that was granted by `outsReq`. -/
inductive Stage (n : ℕ)
  /-- `doRead` or `doWrite` is scheduled. -/
  | scheduled
  /-- It waits in `mutExclBuffer`. -/
  | queued
  /-- `sendRead` or `sendWrite` is called. -/
  | granted
  /-- `doAllocateLine` will be called: once more in the next cycle, or when the line `rpl` has given way. -/
  | allocating (rpl : Option Addr)
  | sent (location : Location) (sreq : SMPMemRequest n)
deriving DecidableEq, Repr

/-- An access from the upper level. -/
structure Access (n : ℕ) where
  memOp : MemOperation
  stage : Stage n
deriving DecidableEq, Repr

/-- What another cache has still to do about a request. -/
inductive Snoop
  | idle
  /-- `doReceiveFromBelow` is scheduled. -/
  | received
  /-- The line is being invalidated in the upper levels. -/
  | invalidating
  /-- `sendWriteMissAck` or `sendInvalidateAck` is scheduled. -/
  | acking
deriving DecidableEq, Repr

/-- The callback of an invalidation. -/
inductive Callback (n : ℕ)
  /-- The answer to the request of a cache. -/
  | ack (requestor : Fin n)
  /-- `doAllocateLine` for an address. -/
  | allocate (addr : Addr)
deriving DecidableEq, Repr

/-- An entry of `pendInvTable`. -/
structure Entry (n : ℕ) where
  outsResps : ℤ
  invalidate : Bool
  writeback : Bool
  cb : Callback n
deriving DecidableEq, Repr

/-- All that the caches, their registers and the bus know about one line. -/
structure Line (n : ℕ) where
  state : Fin n → MESIState
  pendInvTable : Fin n → Option (Entry n)
  /-- The access that `outsReq` has granted. -/
  access : Fin n → Option (Access n)
  /-- The accesses that wait in `outsReq`. -/
  waiting : Fin n → List MemOperation
  /-- The cache whose access `mutExclBuffer` has granted, and those that wait in it. -/
  holder : Option (Fin n)
  queue : List (Fin n)
  pendReqsTable : Fin n → Option ℕ
  /-- What the second cache has still to do about the request of the first one. -/
  snoop : Fin n → Fin n → Snoop
  /-- `doAllocateLine` is scheduled, for an address that takes the place of the line. -/
  replacing : Fin n → Option Addr
  /-- The number of times that the line was written back. -/
  writeBacks : Fin n → ℕ
  /-- The number of times that a clean line became dirty. -/
  dirtied : Fin n → ℕ

namespace Line

variable {n : ℕ}

/-- Nobody has the line. -/
def new : Line n where
  state := fun _ => .INVALID
  pendInvTable := fun _ => none
  access := fun _ => none
  waiting := fun _ => []
  holder := none
  queue := []
  pendReqsTable := fun _ => none
  snoop := fun _ _ => .idle
  replacing := fun _ => none
  writeBacks := fun _ => 0
  dirtied := fun _ => 0

variable (L : Line n) (c d : Fin n)

/-! ## The line in a cache -/

def changeStateTo (st : MESIState) : Line n :=
  { L with
    state := Function.update L.state c st
    dirtied := if (L.state c).isDirty = false ∧ st.isDirty = true then
        Function.update L.dirtied c (L.dirtied c + 1)
      else L.dirtied }

def changeState (newstate : MESIState) : Except Fault (Line n) := do
  check .assertion ((L.state c).mayBecome newstate)
  .ok (L.changeStateTo c newstate)

/-- `invalidate` of the line. -/
def invalidate : Except Fault (Line n) := do
  check .assertion ((L.state c).isLocked → (L.state c).isBeingInvalidated)
  .ok (L.changeStateTo c .INVALID)

def makeDirty : Except Fault (Line n) := do
  check .assertion (L.state c).isValid
  L.changeState c .MODIFIED

def preInvalidate : Except Fault (Line n) := do
  check .assertion (L.state c).isValid
  if (L.state c).isDirty then L.changeState c .TRANS_INV_D else L.changeState c .TRANS_INV

def doWriteBack : Line n :=
  { L with writeBacks := Function.update L.writeBacks c (L.writeBacks c + 1) }

/-- A dirty line is written back. -/
def writeBackDirty : Line n := if (L.state c).isDirty then L.doWriteBack c else L

def realInvalidate (writeBack : Bool) : Except Fault (Line n) :=
  if (L.state c).isValid then
    (if writeBack then L.writeBackDirty c else L).invalidate c
  else .ok L

/-! ## The registers -/

def setStage (memOp : MemOperation) (stage : Stage n) : Line n :=
  { L with access := Function.update L.access c (some ⟨memOp, stage⟩) }

/-- `retire` of `outsReq`. -/
def retireOutsReq : Line n :=
  match L.waiting c with
  | [] => { L with access := Function.update L.access c none }
  | memOp :: rest =>
    { L with
      access := Function.update L.access c (some ⟨memOp, .scheduled⟩)
      waiting := Function.update L.waiting c rest }

/-- `issue` of `mutExclBuffer`, and `addEntry`. -/
def issueMutExcl (memOp : MemOperation) : Line n :=
  match L.holder with
  | none => { L.setStage c memOp .granted with holder := some c }
  | some _ => { L.setStage c memOp .queued with queue := L.queue ++ [c] }

/-- `retire` of `mutExclBuffer`. -/
def retireMutExcl : Line n :=
  match L.queue with
  | [] => { L with holder := none }
  | d :: rest =>
    { L with
      holder := some d
      queue := rest
      access := Function.update L.access d ((L.access d).map fun a => ⟨a.memOp, .granted⟩) }

def concludeAccess : Line n := (L.retireOutsReq c).retireMutExcl

/-! ## Requests from the upper level -/

/-- `access`, with `read` and `write`. -/
def accessCache (memOp : MemOperation) : Except Fault (Line n) :=
  match memOp with
  | .MemPush => .error .assertion
  | .MemSpecialOp => .ok L
  | .MemRead | .MemWrite | .MemReadW =>
    match L.access c with
    | none => .ok (L.setStage c memOp .scheduled)
    | some _ => .ok { L with waiting := Function.update L.waiting c (L.waiting c ++ [memOp]) }

def mutateWriteToRead (memOp : MemOperation) : MemOperation :=
  if memOp = .MemWrite then .MemReadW else memOp

def doRead (memOp : MemOperation) : Except Fault (Line n) :=
  if (L.state c).canBeRead then .ok (L.retireOutsReq c)
  else if (L.state c).isLocked then .ok L
  else .ok (L.issueMutExcl c memOp)

def doWrite (memOp : MemOperation) : Except Fault (Line n) :=
  if (L.state c).canBeWritten then do
    let L ← L.makeDirty c
    .ok (L.retireOutsReq c)
  else if (L.state c).isLocked then .ok (L.setStage c (mutateWriteToRead memOp) .scheduled)
  else
    let memOp := if (L.state c).isValid then memOp else mutateWriteToRead memOp
    .ok (L.issueMutExcl c memOp)

/-! ## Misses -/

/-- A new request is sent to the bus. -/
def sendRequest (memOp : MemOperation) (sendData : Bool) : Line n :=
  L.setStage c memOp (.sent .toBus
    { memOp := memOp, state := .INVALID, supplier := none, found := false, needSnoop := memOp ≠ .MemPush,
      needData := sendData, writeDown := false })

/-- `doRead` and `doWrite` of the protocol, with the state of the line that they lead to. -/
def sendMiss (memOp : MemOperation) (newstate : MESIState) : Except Fault (Line n) := do
  check .assertion (L.state c).isValid
  check .assertion ((L.state c).isLocked → L.state c = .TRANS_RSV)
  let L ← L.changeState c newstate
  .ok (L.sendRequest c memOp true)

/-- `MESIProtocol::doRead` or `MESIProtocol::doWrite`. -/
def callMiss (memOp : MemOperation) : Except Fault (Line n) :=
  if memOp = .MemRead then L.sendMiss c memOp .TRANS_RD else L.sendMiss c memOp .TRANS_WR

/-- What `allocateLine` returns: a line, or nothing, when it will be called once more, or when
`doAllocateLine` will be called after the line `rpl` has given way. -/
inductive Allocated
  | line
  | retry
  | waiting (rpl : Addr)
deriving DecidableEq, Repr

/-- `read` and `write` of the protocol, after `allocateLine`. -/
def afterAllocate (memOp : MemOperation) (allocated : Allocated) : Except Fault (Line n) := do
  check .assertion (!(L.state c).isValid)
  match allocated with
  | .line => do
    let L ← L.changeState c .TRANS_RSV
    L.callMiss c memOp
  | .retry => .ok (L.setStage c memOp (.allocating none))
  | .waiting rpl => .ok (L.setStage c memOp (.allocating (some rpl)))

/-- `MESIProtocol::read`. -/
def sendRead (memOp : MemOperation) (allocated : Allocated) : Except Fault (Line n) := do
  check .assertion ((L.state c).isValid → (L.state c).isLocked = false)
  if (L.state c).isValid then do
    let L ← L.changeState c .TRANS_RSV
    L.callMiss c memOp
  else L.afterAllocate c memOp allocated

/-- `MESIProtocol::write`. -/
def sendWrite (memOp : MemOperation) (allocated : Allocated) : Except Fault (Line n) := do
  check .assertion ((L.state c).isValid → (L.state c).isLocked = false ∧ L.state c = .SHARED)
  if (L.state c).isValid ∧ (L.state c).canBeWritten = false then do
    let L ← L.changeState c .TRANS_WR
    .ok (L.sendRequest c memOp false)
  else do
    check .assertion (!(L.state c).isValid)
    L.afterAllocate c (if memOp ≠ .MemReadW then mutateWriteToRead memOp else memOp) allocated

/-- The end of `doAllocateLine`, where the line has a place in the cache. -/
def reserve (memOp : MemOperation) : Except Fault (Line n) :=
  (L.changeStateTo c .TRANS_RSV).callMiss c memOp

/-- `doAllocateLine` that calls `allocateLine` once more. -/
def retryAllocate (memOp : MemOperation) (allocated : Allocated) : Except Fault (Line n) := do
  check .assertion (!(L.state c).isValid)
  match allocated with
  | .line => L.reserve c memOp
  | .retry => .ok (L.setStage c memOp (.allocating none))
  | .waiting rpl => .ok (L.setStage c memOp (.allocating (some rpl)))

/-! ## Giving way to another line -/

/-- `allocateLine` in a cache of the highest level, for the line that gives way. -/
def evict : Except Fault (Line n) := do
  check .client (L.state c).isStable
  (L.writeBackDirty c).invalidate c

/-- `allocateLine` in another cache, for the line that gives way to the address. -/
def startEviction (upperCaches : ℕ) (addr : Addr) : Except Fault (Line n) := do
  check .client (L.state c).isStable
  check .assertion (L.pendInvTable c = none)
  let L := { L with
    pendInvTable := Function.update L.pendInvTable c (some ⟨upperCaches, false, true, .allocate addr⟩) }
  L.preInvalidate c

/-- `doAllocateLine`, for the line that gives way. -/
def finishEviction : Except Fault (Line n) := do
  check .assertion ((L.state c).isValid ∧ (L.state c).isLocked)
  let L := (L.writeBackDirty c).changeStateTo c .INVALID
  .ok { L with replacing := Function.update L.replacing c none }

/-! ## The bus -/

/-- `goUp` of a request that has been answered. -/
def finalizeAccess (r : SMPMemRequest n) : Line n :=
  { L.setStage c r.memOp (.sent .toRequestor r) with
    pendReqsTable := Function.update L.pendReqsTable c none }

/-- `doRead` and `doWrite` of the bus. -/
def busAccess (r : SMPMemRequest n) : Except Fault (Line n) :=
  if r.needSnoop = false then .ok (L.setStage c r.memOp (.sent .inMemory r))
  else
    match L.pendReqsTable c with
    | none =>
      if n - 1 = 0 then .ok (L.finalizeAccess c r)
      else .ok { L.setStage c r.memOp (.sent .snooping r) with
        pendReqsTable := Function.update L.pendReqsTable c (some (n - 1))
        snoop := Function.update L.snoop c fun d => if d = c then .idle else .received }
    | some k => do
      check .assertion (0 < k)
      check .assertion (k ≤ n)
      if k - 1 ≠ 0 then
        .ok { L.setStage c r.memOp (.sent .snooping r) with
          pendReqsTable := Function.update L.pendReqsTable c (some (k - 1)) }
      else .ok (L.finalizeAccess c r)

def setSnoop (st : Snoop) : Line n :=
  { L with snoop := Function.update L.snoop c (Function.update (L.snoop c) d st) }

/-- The cache `d` answers the request of the cache `c`. -/
def respondBelow (r : SMPMemRequest n) : Except Fault (Line n) :=
  let L := if r.supplier = some d ∧ r.writeDown then L.doWriteBack d else L
  (L.setSnoop c d .idle).busAccess c r

/-! ## Requests from other caches -/

end Line

/-- The state of the line in the cache `d` goes into the answer. -/
def SMPMemRequest.combineResponses {n : ℕ} (r : SMPMemRequest n) (d : Fin n) (localState : MESIState) :
    Except Fault (SMPMemRequest n) :=
  if localState = .INVALID ∨ localState.isLocked then .ok r
  else do
    check .assertion (r.state ≠ .EXCLUSIVE ∧ r.state ≠ .MODIFIED)
    if localState = .SHARED then
      .ok (if r.found then r
        else { r with found := true, supplier := some d, state := localState })
    else if localState = .EXCLUSIVE then
      .ok { r with found := true, supplier := some d, state := localState }
    else do
      check .assertion (localState = .MODIFIED)
      .ok { r with found := true, supplier := some d, writeDown := true, state := localState }

namespace Line

variable {n : ℕ} (L : Line n) (c d : Fin n)

/-- The callback of an invalidation is scheduled. -/
def schedule : Callback n → Line n
  | .ack requestor => L.setSnoop requestor d .acking
  | .allocate addr => { L with replacing := Function.update L.replacing d (some addr) }

/-- What `doInvalidate` does for the entry that it has erased, before it schedules the callback. -/
def invalidateFor (e : Entry n) : Except Fault (Line n) :=
  if e.invalidate then L.realInvalidate d e.writeback else .ok L

/-- A cache of the upper levels has invalidated the line. -/
def doInvalidate : Except Fault (Line n) :=
  match L.pendInvTable d with
  | none => .error .assertion
  | some e =>
    if e.outsResps - 1 ≤ 0 then do
      let L := { L with pendInvTable := Function.update L.pendInvTable d none }
      let L ← L.invalidateFor d e
      .ok (L.schedule d e.cb)
    else
      .ok { L with
        pendInvTable := Function.update L.pendInvTable d (some { e with outsResps := e.outsResps - 1 }) }

def invalidateLine (upperCaches : ℕ) (cb : Callback n) (writeBack : Bool) : Except Fault (Line n) := do
  check .assertion (L.state d).isValid
  check .assertion (L.pendInvTable d = none)
  let L := { L with
    pendInvTable := Function.update L.pendInvTable d (some ⟨upperCaches, true, writeBack, cb⟩) }
  let L ← L.preInvalidate d
  if upperCaches = 0 then L.doInvalidate d else .ok L

def readMissHandler (r : SMPMemRequest n) : Except Fault (Line n) :=
  if (L.state d).isStable then do
    let r ← r.combineResponses d (L.state d)
    let L ← L.changeState d .SHARED
    L.respondBelow c d r
  else L.respondBelow c d r

/-- `writeMissHandler` and `invalidateHandler`. -/
def writeMissHandler (upperCaches : ℕ) (r : SMPMemRequest n) : Except Fault (Line n) :=
  if (L.state d).isStable then do
    let r ← r.combineResponses d (L.state d)
    let L := (L.setStage c r.memOp (.sent .snooping r)).setSnoop c d .invalidating
    L.invalidateLine d upperCaches (.ack c) false
  else L.respondBelow c d r

def doReceiveFromBelow (upperCaches : ℕ) (r : SMPMemRequest n) : Except Fault (Line n) :=
  match r.memOp with
  | .MemRead => L.readMissHandler c d r
  | .MemReadW => L.writeMissHandler c d upperCaches r
  | .MemWrite => do
    check .assertion (r.needData = false)
    L.writeMissHandler c d upperCaches r
  | .MemPush | .MemSpecialOp => .error .assertion

/-! ## Answers -/

/-- The request goes to the bus once more, and from there to memory. -/
def goToMemory (r : SMPMemRequest n) (newstate : MESIState) : Except Fault (Line n) := do
  check .assertion (!r.found)
  let L ← L.changeState c newstate
  .ok (L.setStage c r.memOp (.sent .toBus { r with needSnoop := false }))

def readMissAckHandler (r : SMPMemRequest n) : Except Fault (Line n) := do
  check .assertion (L.state c).isValid
  if r.state = .INVALID ∧ L.state c = .TRANS_RD then L.goToMemory c r .TRANS_RD_MEM
  else if r.state = .INVALID then do
    check .assertion (L.state c = .TRANS_RD_MEM)
    let L ← L.changeState c .EXCLUSIVE
    .ok (L.concludeAccess c)
  else do
    check .assertion (L.state c = .TRANS_RD)
    let L ← L.changeState c .SHARED
    .ok (L.concludeAccess c)

def writeMissAckHandler (r : SMPMemRequest n) : Except Fault (Line n) := do
  check .assertion (L.state c).isValid
  check .assertion r.needData
  if r.state = .INVALID ∧ L.state c = .TRANS_WR then L.goToMemory c r .TRANS_WR_MEM
  else do
    check .assertion (L.state c = .TRANS_WR ∨ L.state c = .TRANS_WR_MEM)
    let L ← L.changeState c .MODIFIED
    .ok (L.concludeAccess c)

def invalidateAckHandler : Except Fault (Line n) := do
  check .assertion (L.state c).isValid
  check .assertion (L.state c = .TRANS_WR)
  let L ← L.changeState c .MODIFIED
  .ok (L.concludeAccess c)

/-- `returnAccess` at the requestor. -/
def returnAccess (r : SMPMemRequest n) : Except Fault (Line n) :=
  match r.memOp with
  | .MemRead => L.readMissAckHandler c r
  | .MemReadW =>
    if r.needData then L.writeMissAckHandler c r
    else do
      check .assertion r.needSnoop
      L.invalidateAckHandler c
  | .MemWrite => do
    check .assertion (!r.needData)
    check .assertion r.needSnoop
    L.invalidateAckHandler c
  | .MemPush | .MemSpecialOp => .ok L

end Line

/-! ## The events of a line -/

/-- What happens to a line, at the cache `c` or to its request. -/
inductive LineEvent (n : ℕ)
  | access (c : Fin n) (memOp : MemOperation)
  /-- The scheduled `doRead` or `doWrite`. -/
  | run (c : Fin n)
  /-- `sendRead` or `sendWrite`. -/
  | send (c : Fin n) (allocated : Line.Allocated)
  | retryAllocate (c : Fin n) (allocated : Line.Allocated)
  /-- `doAllocateLine`, for the address that takes the place of the line `rpl`. -/
  | reserve (c : Fin n) (rpl : Addr)
  | evict (c : Fin n)
  | startEviction (c : Fin n) (addr : Addr)
  /-- `doAllocateLine`, for the line that gives way. -/
  | finishEviction (c : Fin n)
  | bus (c : Fin n)
  /-- `doReceiveFromBelow` at the cache `d`. -/
  | receive (c d : Fin n)
  | upperInvalidated (d : Fin n)
  /-- `sendWriteMissAck` or `sendInvalidateAck` of the cache `d`. -/
  | ack (c d : Fin n)
  /-- The memory returns the request. -/
  | memory (c : Fin n)
  | answer (c : Fin n)
deriving DecidableEq, Repr

namespace Line

variable {n : ℕ} (L : Line n)

/-- The access of a cache at a stage. -/
def withAccess (c : Fin n) (f : MemOperation → Stage n → Except Fault (Line n)) : Except Fault (Line n) :=
  match L.access c with
  | none => .error .client
  | some a => f a.memOp a.stage

/-- The request of a cache at a location. -/
def withRequest (c : Fin n) (location : Location) (f : SMPMemRequest n → Except Fault (Line n)) :
    Except Fault (Line n) :=
  L.withAccess c fun _ stage =>
    match stage with
    | .sent l r => if l = location then f r else .error .client
    | _ => .error .client

def step (upperCaches : ℕ) : LineEvent n → Except Fault (Line n)
  | .access c memOp => L.accessCache c memOp
  | .run c => L.withAccess c fun memOp stage => do
    check .client (stage = .scheduled)
    if memOp = .MemRead then L.doRead c memOp else L.doWrite c memOp
  | .send c allocated => L.withAccess c fun memOp stage => do
    check .client (stage = .granted)
    if memOp = .MemRead then L.sendRead c memOp allocated else L.sendWrite c memOp allocated
  | .retryAllocate c allocated => L.withAccess c fun memOp stage => do
    check .client (stage = .allocating none)
    L.retryAllocate c memOp allocated
  | .reserve c rpl => L.withAccess c fun memOp stage => do
    check .client (stage = .allocating (some rpl))
    L.reserve c memOp
  | .evict c => do
    check .client (upperCaches = 0)
    L.evict c
  | .startEviction c addr => do
    check .client (upperCaches ≠ 0)
    L.startEviction c upperCaches addr
  | .finishEviction c => do
    check .client (L.replacing c ≠ none)
    L.finishEviction c
  | .bus c => L.withRequest c .toBus fun r => L.busAccess c r
  | .receive c d => L.withRequest c .snooping fun r => do
    check .client (L.snoop c d = .received)
    L.doReceiveFromBelow c d upperCaches r
  | .upperInvalidated d => do
    check .client (L.pendInvTable d ≠ none)
    L.doInvalidate d
  | .ack c d => L.withRequest c .snooping fun r => do
    check .client (L.snoop c d = .acking)
    L.respondBelow c d r
  | .memory c => L.withRequest c .inMemory fun r =>
    .ok (L.setStage c r.memOp (.sent .toRequestor r))
  | .answer c => L.withRequest c .toRequestor fun r => L.returnAccess c r

end Line

/-- A line on its own: which line gives way to it, and to which it gives way, is left open. -/
def lineMachine (n upperCaches : ℕ) : Machine (Line n) (LineEvent n) Fault where
  init := .new
  step L e := L.step upperCaches e

end Sesc.Smp
