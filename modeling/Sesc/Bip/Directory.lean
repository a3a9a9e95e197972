import Sesc.Bip.Basic

/-!
# The handlers of a `BIPDirectory`

A handler fails when an assertion of the source fails or a message arrives that the source does
not handle.
-/

namespace Sesc.Bip

open Lib

/-- A block without a node. -/
def BlockData.release (b : BlockData) (id : NodeID) : BlockData :=
  if b.owner = id then { b with owner := InvalidNodeID }
  else { b with sharers := b.sharers.erase id }

/-- The nodes that hold a block. -/
def BlockData.numberOfSharers (b : BlockData) : ℕ :=
  (if b.owner ≠ InvalidNodeID then 1 else 0) + b.sharers.size

/-- The configuration of a device: its node and the calculator of home nodes. -/
structure Device where
  nodeID : NodeID
  directoryNodeCalc : NodeIDCalculator

namespace Device

variable (self : Device)

/-- A message to another device, or to the device itself through the network. -/
def sendNetwork (dest : NodeID) (msg : Msg) (a : Activation) : Activation :=
  a.send (.network dest self.nodeID msg)

/-- `SendMsg` on the connection to the local cache. -/
def sendLocalCache (msg : Msg) (a : Activation) : Activation :=
  a.send (.toLocalCache self.nodeID msg)

def sendReadRequestToMemory (m : ReadMsg) (a : Activation) : Except Fault Activation := do
  check .assertion (a.dir.pendingMemoryReadAccesses m.msgID = none)
  return (a.setPendingMemoryRead m.msgID (some m)).send (.toMemory self.nodeID (.read m))

def sendWriteRequestToMemory (m : WriteMsg) (a : Activation) : Except Fault Activation := do
  check .assertion (a.dir.pendingMemoryWriteAccesses m.msgID = none)
  return (a.setPendingMemoryWrite m.msgID (some m)).send (.toMemory self.nodeID (.write m))

/-- The write of the block that came with an eviction or an invalidate response, if there is
one. -/
def writeBlock (blockAttached : Bool) (addr : Address) (a : Activation) :
    Except Fault Activation :=
  if blockAttached then
    self.sendWriteRequestToMemory { msgID := a.currentMsgStamp, addr := addr } a.stamped
  else .ok a

/-! ## The directory record -/

def eraseDirectoryShare (addr : Address) (id : NodeID) (a : Activation) :
    Except Fault Activation :=
  match a.dir.directoryData addr with
  | none => .error .assertion
  | some b => .ok (a.setDirectoryData addr (b.release id))

def addDirectoryShare (addr : Address) (id : NodeID) (exclusive : Bool) (a : Activation) :
    Except Fault Activation :=
  match a.dir.directoryData addr with
  | none => .error .assertion
  | some b => do
    check .assertion (exclusive = false ∨
      b.sharers.size = 0 ∧ (b.owner = id ∨ b.owner = InvalidNodeID))
    return a.setDirectoryData addr (
      if b.owner = id ∨ b.owner = InvalidNodeID then { b with owner := id }
      else { b with sharers := b.sharers.insert id })

/-! ## Reads for the local cache -/

def onRemoteReadCache (m : ReadMsg) (src : NodeID) (a : Activation) : Except Fault Activation := do
  check .assertion (m.directoryLookup = false)
  check .assertion (a.dir.pendingRemoteReads m.msgID = none)
  return self.sendLocalCache (.read m) (a.setPendingRemoteRead m.msgID (some (.new m src)))

/-- The pending read for which `PerformDirectoryFetch` fetches a line. -/
def fetchedRead (addr : Address) (a : Activation) : Option (LookupData ReadMsg) :=
  let shared := a.dir.pendingDirectorySharedReads addr
  match shared[a.order.found % shared.length]? with
  | some ld => some ld
  | none => a.dir.pendingDirectoryExclusiveReads addr

/-- The node from which `PerformDirectoryFetch` fetches a block, if it is not the memory. -/
def fetchTarget (b : BlockData) (a : Activation) : Option NodeID :=
  if b.owner ≠ InvalidNodeID then some b.owner
  else b.sharers.toList[a.order.first % b.sharers.size]?

def performDirectoryFetch (addr : Address) (a : Activation) : Except Fault Activation := do
  check .assertion (a.dir.pendingDirectorySharedReads addr ≠ [] ∨
    a.dir.pendingDirectoryExclusiveReads addr ≠ none)
  check .assertion (a.dir.pendingDirectorySharedReads addr = [] ∨
    a.dir.pendingDirectoryExclusiveReads addr = none)
  let ld ← (fetchedRead addr a).elim (.error .assertion) .ok
  let m := { ld.msg with directoryLookup := false, alreadyHasBlock := false }
  let b := (a.dir.directoryData m.addr).getD .new
  let a := a.setDirectoryData m.addr b
  match fetchTarget b a with
  | some target =>
    if target = self.nodeID then self.onRemoteReadCache m self.nodeID a
    else return self.sendNetwork target (.read m) a
  | none =>
    if a.dir.pendingMemoryReadAccesses m.msgID = none then self.sendReadRequestToMemory m a
    else return a

/-! ## Reads of the local cache -/

def onLocalRead (m : ReadMsg) (a : Activation) : Except Fault Activation := do
  check .assertion (a.dir.pendingLocalReads m.msgID = none)
  let a := a.setPendingLocalRead m.msgID (some m)
  let a := a.modifyReversePendingLocalReads m.addr (· ++ [m])
  let forward := { m with directoryLookup := true }
  return if self.directoryNodeCalc m.addr = self.nodeID then
      a.send (.scheduled self.nodeID (.read forward))
    else self.sendNetwork (self.directoryNodeCalc m.addr) (.read forward) a

/-- The answer to a local read. -/
def answerLocalRead (m : ReadResponseMsg) (ref : ReadMsg) (a : Activation) : Activation :=
  self.sendLocalCache
    (.readResponse
      { ReadResponseMsg.ofRead a.currentMsgStamp ref with
        blockAttached := m.blockAttached
        exclusiveOwnership := m.exclusiveOwnership
        satisfied := true })
    a.stamped

def onDirectoryBlockResponse (m : ReadResponseMsg) (a : Activation) : Except Fault Activation := do
  let ref ← (a.dir.pendingLocalReads m.solicitingMessage).elim (.error .assertion) .ok
  let a := a.setPendingLocalRead m.solicitingMessage none
  let a := a.modifyReversePendingLocalReads m.addr
    (·.eraseP fun read => read.msgID = m.solicitingMessage)
  if m.satisfied then
    -- an exclusive response erases all reads of the line, but only from this map
    let a := if m.exclusiveOwnership then a.modifyReversePendingLocalReads m.addr fun _ => []
      else a
    return self.answerLocalRead m ref a
  else self.onLocalRead ref a

/-! ## Requests to the home node -/

def onDirectoryBlockRequest (m : ReadMsg) (src : NodeID) (a : Activation) :
    Except Fault Activation :=
  if a.dir.pendingDirectoryExclusiveReads m.addr ≠ none ∨
      m.requestingExclusive = true ∧ a.dir.pendingDirectorySharedReads m.addr ≠ [] then
    .ok (
      if src = self.nodeID then a.send (.scheduled self.nodeID (.read m))
      else self.sendNetwork src
        (.readResponse
          { ReadResponseMsg.ofRead a.currentMsgStamp m with directoryLookup := true })
        a.stamped)
  else if m.requestingExclusive then
    self.performDirectoryFetch m.addr
      (a.setPendingDirectoryExclusiveRead m.addr (some (.new m src)))
  else
    let shared := a.dir.pendingDirectorySharedReads m.addr
    let a := a.setPendingDirectorySharedReads m.addr
      (shared.insertIdx (a.order.position % (shared.length + 1)) (.new m src))
    if shared ≠ [] then .ok a
    else self.performDirectoryFetch m.addr a

/-- `OnRemoteInvalidate`. -/
def onRemoteInvalidate (m : InvalidateMsg) (src : NodeID) (a : Activation) :
    Except Fault Activation := do
  check .assertion (a.dir.pendingRemoteInvalidates m.addr = none)
  return self.sendLocalCache (.invalidate m)
    (a.setPendingRemoteInvalidate m.addr (some (.new m src)))

/-- An invalidate for a node. -/
def sendInvalidate (addr : Address) (dest : NodeID) (a : Activation) : Except Fault Activation :=
  let inv : InvalidateMsg :=
    { msgID := a.currentMsgStamp, addr := addr, newOwner := InvalidNodeID }
  if dest ≠ self.nodeID then .ok (self.sendNetwork dest (.invalidate inv) a.stamped)
  else self.onRemoteInvalidate inv self.nodeID a.stamped

/-- The answer of the home to a pending shared read. -/
def answerSharedRead (addr : Address) (isOneReader : Bool) (ld : LookupData ReadMsg)
    (a : Activation) : Except Fault Activation :=
  let r : ReadResponseMsg :=
    { ReadResponseMsg.ofRead a.currentMsgStamp ld.msg with
      addr := addr
      blockAttached := true
      directoryLookup := true
      exclusiveOwnership := isOneReader
      satisfied := true }
  if ld.sourceNode = self.nodeID then self.onDirectoryBlockResponse r a.stamped
  else .ok (self.sendNetwork ld.sourceNode (.readResponse r) a.stamped)

/-- `OnRemoteReadResponse`, for the pending shared reads of a line. -/
def satisfySharedReads (addr : Address) (a : Activation) : Except Fault Activation := do
  let pending := a.dir.pendingDirectorySharedReads addr
  let a ← pending.foldlM (fun a ld => addDirectoryShare addr ld.sourceNode false a) a
  let isOneReader := ((a.dir.directoryData addr).getD .new).numberOfSharers = 1
  let a ← pending.foldlM (fun a ld => self.answerSharedRead addr isOneReader ld a) a
  return a.setPendingDirectorySharedReads addr []

/-- The answer of the home to a pending exclusive read. -/
def answerExclusiveRead (m : ReadResponseMsg) (ld : LookupData ReadMsg) (a : Activation) :
    Except Fault Activation :=
  let response := { m with directoryLookup := true }
  if ld.sourceNode ≠ self.nodeID then
    .ok (self.sendNetwork ld.sourceNode (.readResponse response) a)
  else self.onDirectoryBlockResponse response a

/-- `OnRemoteReadResponse`, for the pending exclusive read of a line whose block nobody holds. -/
def satisfyExclusiveRead (m : ReadResponseMsg) (ld : LookupData ReadMsg) (a : Activation) :
    Except Fault Activation := do
  let a ← self.answerExclusiveRead m ld a
  let a ← addDirectoryShare m.addr ld.sourceNode true a
  return a.setPendingDirectoryExclusiveRead m.addr none

/-- `OnRemoteReadResponse`, for the pending exclusive read of a line that has sharers: the block
is held back until they have answered the invalidates. -/
def invalidateSharers (addr : Address) (b : BlockData) (ld : LookupData ReadMsg)
    (a : Activation) : Except Fault Activation :=
  b.sharers.toList.foldlM (fun a dest => self.sendInvalidate addr dest a)
    (a.setPendingDirectoryExclusiveRead addr (some { ld with
      invalidateResponsesReceived := 0
      invalidateResponsesExpected := b.sharers.size }))

/-- `OnRemoteReadResponse`, for the pending exclusive read of a line. -/
def satisfyExclusiveReads (m : ReadResponseMsg) (src : NodeID) (a : Activation) :
    Except Fault Activation := do
  check .assertion (m.exclusiveOwnership = true)
  check .assertion (m.blockAttached = true)
  let b := (a.dir.directoryData m.addr).getD .new
  check .assertion (b.owner = InvalidNodeID ∨ b.owner = src ∨ src = InvalidNodeID)
  let ld ← (a.dir.pendingDirectoryExclusiveReads m.addr).elim (.error .assertion) .ok
  if b.sharers.size = 0 then self.satisfyExclusiveRead m ld a
  else self.invalidateSharers m.addr b ld a

/-- A node that has given up its block is erased from the record. -/
def eraseExclusiveShare (m : ReadResponseMsg) (src : NodeID) (a : Activation) :
    Except Fault Activation :=
  if m.exclusiveOwnership then eraseDirectoryShare m.addr src a else .ok a

/-- `OnRemoteReadResponse`, for a response that is satisfied. -/
def onSatisfiedReadResponse (m : ReadResponseMsg) (src : NodeID) (a : Activation) :
    Except Fault Activation := do
  let a ← eraseExclusiveShare m src a
  if a.dir.pendingDirectorySharedReads m.addr ≠ [] then self.satisfySharedReads m.addr a
  else self.satisfyExclusiveReads m src a

/-- `OnRemoteReadResponse`, for a response that is not satisfied. -/
def onUnsatisfiedReadResponse (m : ReadResponseMsg) (src : NodeID) (a : Activation) :
    Except Fault Activation := do
  let a ← eraseDirectoryShare m.addr src a
  check .assertion (((a.dir.directoryData m.addr).getD .new).owner = InvalidNodeID)
  self.performDirectoryFetch m.addr a

def onRemoteReadResponse (m : ReadResponseMsg) (src : NodeID) (a : Activation) :
    Except Fault Activation := do
  check .assertion (m.directoryLookup = false)
  check .assertion (a.dir.pendingDirectorySharedReads m.addr ≠ [] ∨
    a.dir.pendingDirectoryExclusiveReads m.addr ≠ none)
  check .assertion (a.dir.pendingDirectorySharedReads m.addr = [] ∨
    a.dir.pendingDirectoryExclusiveReads m.addr = none)
  check .assertion (a.dir.directoryData m.addr ≠ none)
  if m.satisfied then self.onSatisfiedReadResponse m src a
  else self.onUnsatisfiedReadResponse m src a

def onRemoteDirectoryNak (m : DirectoryNakMsg) (src : NodeID) (a : Activation) :
    Except Fault Activation :=
  if m.isReadResponse then
    if a.dir.pendingDirectorySharedReads m.addr ≠ [] ∨
        a.dir.pendingDirectoryExclusiveReads m.addr ≠ none then
      self.performDirectoryFetch m.addr a
    else .ok a
  else if m.isInvalidateResponse then self.sendInvalidate m.addr src a
  else .error (.printError "RemDirNak")

/-! ## Evictions and invalidate responses -/

/-- The home answers an eviction; its own eviction is no longer pending. -/
def answerEviction (m : EvictionMsg) (src : NodeID) (a : Activation) : Except Fault Activation :=
  if src = self.nodeID then do
    check .assertion (a.dir.pendingEviction m.addr = true)
    return a.setPendingEviction m.addr false
  else
    .ok (self.sendNetwork src (.evictionResponse (.ofEviction a.currentMsgStamp m)) a.stamped)

def onRemoteEviction (m : EvictionMsg) (src : NodeID) (a : Activation) :
    Except Fault Activation :=
  match a.dir.directoryData m.addr with
  | none => .error .assertion
  | some b => do
    let a ← self.answerEviction m src (a.setDirectoryData m.addr (b.release src))
    self.writeBlock m.blockAttached m.addr a

def onRemoteEvictionResponse (m : EvictionResponseMsg) (a : Activation) :
    Except Fault Activation := do
  check .assertion (a.dir.pendingEviction m.addr = true)
  return self.sendLocalCache (.evictionResponse m) (a.setPendingEviction m.addr false)

/-- The block is held by nobody, or only by the node of a pending exclusive read. -/
def isFreeFor (b : BlockData) (id : NodeID) : Prop :=
  b.owner = InvalidNodeID ∧ b.sharers.size = 0 ∨ b.owner = id ∧ b.sharers.size = 0 ∨
    b.owner = InvalidNodeID ∧ b.sharers.size = 1 ∧ id ∈ b.sharers

instance (b : BlockData) (id : NodeID) : Decidable (isFreeFor b id) :=
  inferInstanceAs (Decidable (_ ∨ _))

/-- The block is given to the node of a pending exclusive read. -/
def grantExclusive (addr : Address) (ld : LookupData ReadMsg) (a : Activation) :
    Except Fault Activation := do
  let a := a.setDirectoryData addr { sharers := ∅, owner := ld.sourceNode }
  let rm : ReadResponseMsg :=
    { ReadResponseMsg.ofRead a.currentMsgStamp ld.msg with
      addr := addr
      blockAttached := true
      directoryLookup := true
      exclusiveOwnership := true
      satisfied := true }
  -- the home sends the response to its local cache without `OnDirectoryBlockResponse`
  let a := if ld.sourceNode = self.nodeID then self.sendLocalCache (.readResponse rm) a.stamped
    else self.sendNetwork ld.sourceNode (.readResponse rm) a.stamped
  let a ← addDirectoryShare addr ld.sourceNode true a
  return a.setPendingDirectoryExclusiveRead addr none

/-- `OnRemoteInvalidateResponse`, after the record has been changed and the block written. -/
def countInvalidateResponse (addr : Address) (b : BlockData) (a : Activation) :
    Except Fault Activation :=
  match a.dir.pendingDirectoryExclusiveReads addr with
  | none => .error .assertion
  | some ld =>
    let ld := { ld with invalidateResponsesReceived := ld.invalidateResponsesReceived + 1 }
    let a := a.setPendingDirectoryExclusiveRead addr (some ld)
    if ld.invalidateResponsesExpected = ld.invalidateResponsesReceived ∧
        isFreeFor b ld.sourceNode then
      self.grantExclusive addr ld a
    else .ok a

def onRemoteInvalidateResponse (m : InvalidateResponseMsg) (src : NodeID) (a : Activation) :
    Except Fault Activation :=
  match a.dir.directoryData m.addr with
  | none => .error .assertion
  | some b => do
    check .assertion (m.blockAttached = false ∨ b.owner = src ∨ b.owner = InvalidNodeID)
    check .assertion (m.blockAttached = true ∨ src ∈ b.sharers ∨ b.owner = src ∨
      b.owner = InvalidNodeID)
    let a ← self.writeBlock m.blockAttached m.addr (a.setDirectoryData m.addr (b.release src))
    self.countInvalidateResponse m.addr (b.release src) a

/-! ## Messages of the local cache -/

def sendDirectoryNak (m : DirectoryNakMsg) (a : Activation) : Except Fault Activation := do
  let dirNode := self.directoryNodeCalc m.addr
  check .assertion (dirNode ≠ InvalidNodeID)
  return if dirNode = self.nodeID then a.send (.scheduled self.nodeID (.directoryNak m))
    else self.sendNetwork dirNode (.directoryNak m) a

def onLocalReadResponse (m : ReadResponseMsg) (a : Activation) : Except Fault Activation := do
  let ld ← (a.dir.pendingRemoteReads m.solicitingMessage).elim (.error .assertion) .ok
  check .assertion (ld.msg.msgID = m.solicitingMessage)
  let a := a.setPendingRemoteRead ld.msg.msgID none
  if m.satisfied then
    return self.sendNetwork ld.sourceNode (.readResponse { m with directoryLookup := false }) a
  else
    self.sendDirectoryNak
      { msgID := a.currentMsgStamp
        addr := m.addr
        solicitingMessage := m.msgID
        isInvalidateResponse := false
        isReadResponse := true }
      a.stamped

def onRemoteWrite (m : WriteMsg) (a : Activation) : Except Fault Activation := do
  check .assertion (self.nodeID = self.directoryNodeCalc m.addr)
  self.sendWriteRequestToMemory m a

def onLocalWrite (m : WriteMsg) (a : Activation) : Except Fault Activation :=
  let a := self.sendLocalCache
    (.writeResponse
      { msgID := a.currentMsgStamp, addr := m.addr, solicitingMessage := m.msgID })
    a.stamped
  if self.directoryNodeCalc m.addr = self.nodeID then self.onRemoteWrite m a
  else .ok (self.sendNetwork (self.directoryNodeCalc m.addr) (.write m) a)

def onLocalEviction (m : EvictionMsg) (a : Activation) : Except Fault Activation :=
  if a.dir.pendingEviction m.addr then .ok a
  else
    let a := a.setPendingEviction m.addr true
    let a := self.sendLocalCache
      (.evictionResponse (.ofEviction a.currentMsgStamp m)) a.stamped
    if self.directoryNodeCalc m.addr = self.nodeID then self.onRemoteEviction m self.nodeID a
    else .ok (self.sendNetwork (self.directoryNodeCalc m.addr) (.eviction m) a)

/-- An invalidate response goes to the home. -/
def passInvalidateResponse (m : InvalidateResponseMsg) (dest : NodeID) (a : Activation) :
    Except Fault Activation :=
  if self.nodeID ≠ dest then .ok (self.sendNetwork dest (.invalidateResponse m) a)
  else self.onRemoteInvalidateResponse m self.nodeID a

def onLocalInvalidateResponse (m : InvalidateResponseMsg) (a : Activation) :
    Except Fault Activation := do
  let ld ← (a.dir.pendingRemoteInvalidates m.addr).elim (.error .assertion) .ok
  check .assertion (ld.msg.msgID = m.solicitingMessage)
  let a ← self.passInvalidateResponse m ld.sourceNode a
  return a.setPendingRemoteInvalidate ld.msg.addr none

/-! ## Messages of the memory -/

def onLocalMemoryReadResponse (m : ReadResponseMsg) (a : Activation) :
    Except Fault Activation := do
  check .assertion (a.dir.pendingMemoryReadAccesses m.solicitingMessage ≠ none)
  self.onRemoteReadResponse m InvalidNodeID (a.setPendingMemoryRead m.solicitingMessage none)

/-- `OnLocalMemoryWriteResponse`; `OnRemoteWriteResponse` only disposes of the message. -/
def onLocalMemoryWriteResponse (m : WriteResponseMsg) (a : Activation) :
    Except Fault Activation := do
  check .assertion (a.dir.pendingMemoryWriteAccesses m.solicitingMessage ≠ none)
  return a.setPendingMemoryWrite m.solicitingMessage none

/-! ## `RecvMsg` -/

/-- `RecvMsg`, for a message of the local cache. -/
def recvFromCache (msg : Msg) (a : Activation) : Except Fault Activation :=
  match msg with
  | .read m => self.onLocalRead m a
  | .readResponse m => self.onLocalReadResponse m a
  | .write m => self.onLocalWrite m a
  | .eviction m => self.onLocalEviction m a
  | .invalidateResponse m => self.onLocalInvalidateResponse m a
  | _ => .error .assertion

/-- `RecvMsg`, for a message of the memory. -/
def recvFromMemory (msg : Msg) (a : Activation) : Except Fault Activation :=
  match msg with
  | .readResponse m => self.onLocalMemoryReadResponse m a
  | .writeResponse m => onLocalMemoryWriteResponse m a
  | _ => .error (.printError "RecvMsg")

/-- `RecvMsg`, for the payload of a network message. -/
def recvFromNetwork (msg : Msg) (src : NodeID) (a : Activation) : Except Fault Activation :=
  match msg with
  | .directoryNak m => self.onRemoteDirectoryNak m src a
  | .read m =>
    if m.directoryLookup then self.onDirectoryBlockRequest m src a
    else self.onRemoteReadCache m src a
  | .readResponse m =>
    if m.directoryLookup then self.onDirectoryBlockResponse m a
    else self.onRemoteReadResponse m src a
  | .writeResponse _ => .ok a
  | .eviction m => self.onRemoteEviction m src a
  | .evictionResponse m => self.onRemoteEvictionResponse m a
  | .invalidate m => self.onRemoteInvalidate m src a
  | .invalidateResponse m => self.onRemoteInvalidateResponse m src a
  | _ => .error .assertion

/-- A scheduled call of `OnDirectoryBlockRequest` or `OnRemoteDirectoryNak`. -/
def runScheduled (msg : Msg) (a : Activation) : Except Fault Activation :=
  match msg with
  | .read m => self.onDirectoryBlockRequest m self.nodeID a
  | .directoryNak m => self.onRemoteDirectoryNak m self.nodeID a
  | _ => .error .noSuchEvent

end Device

end Sesc.Bip
