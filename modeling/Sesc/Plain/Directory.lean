import Sesc.Bip.Directory

/-!
# The `Directory`

The tables and handlers of the plain `Directory`, the forerunner of the `BIPDirectory`.  The memory
of a line is another node, to which reads and writes go through the network.

The record of a line, the packets and what the hash containers leave open are as for a
`BIPDirectory`.
-/

namespace Sesc.Plain

open Lib
open Bip (BlockData Packet HashOrder)

/-- A node that a message can come from. -/
abbrev Node := {id : NodeID // id ≠ InvalidNodeID}

/-- `LookupData<T>`. -/
structure LookupData (T : Type) where
  msg : T
  sourceNode : Node
deriving DecidableEq

/-- The tables of a `Directory`. -/
structure Directory where
  pendingLocalReads : MessageID → Option ReadMsg
  pendingRemoteReads : MessageID → Option (LookupData ReadMsg)
  pendingRemoteInvalidates : Address → Option (LookupData InvalidateMsg)
  pendingDirectorySharedReads : Address → List (LookupData ReadMsg)
  pendingDirectoryExclusiveReads : Address → Option (LookupData ReadMsg)
  pendingEviction : Address → Bool
  directoryData : Address → Option BlockData

def Directory.new : Directory where
  pendingLocalReads := fun _ => none
  pendingRemoteReads := fun _ => none
  pendingRemoteInvalidates := fun _ => none
  pendingDirectorySharedReads := fun _ => []
  pendingDirectoryExclusiveReads := fun _ => none
  pendingEviction := fun _ => false
  directoryData := fun _ => none

/-- What a handler works on: its device, the event manager's stamp of the next message, the
packets sent so far and the order in the hash containers. -/
structure Activation where
  dir : Directory
  currentMsgStamp : MessageID
  sent : List Packet
  order : HashOrder

namespace Activation

variable (a : Activation)

def setPendingLocalRead (id : MessageID) (m : Option ReadMsg) : Activation :=
  { a with dir.pendingLocalReads := Function.update a.dir.pendingLocalReads id m }

def setPendingRemoteRead (id : MessageID) (ld : Option (LookupData ReadMsg)) : Activation :=
  { a with dir.pendingRemoteReads := Function.update a.dir.pendingRemoteReads id ld }

def setPendingRemoteInvalidate (addr : Address) (ld : Option (LookupData InvalidateMsg)) :
    Activation :=
  { a with
    dir.pendingRemoteInvalidates := Function.update a.dir.pendingRemoteInvalidates addr ld }

def setPendingDirectorySharedReads (addr : Address) (l : List (LookupData ReadMsg)) :
    Activation :=
  { a with
    dir.pendingDirectorySharedReads :=
      Function.update a.dir.pendingDirectorySharedReads addr l }

def setPendingDirectoryExclusiveRead (addr : Address) (ld : Option (LookupData ReadMsg)) :
    Activation :=
  { a with
    dir.pendingDirectoryExclusiveReads :=
      Function.update a.dir.pendingDirectoryExclusiveReads addr ld }

def setPendingEviction (addr : Address) (pending : Bool) : Activation :=
  { a with dir.pendingEviction := Function.update a.dir.pendingEviction addr pending }

def setDirectoryData (addr : Address) (b : BlockData) : Activation :=
  { a with dir.directoryData := Function.update a.dir.directoryData addr (some b) }

/-- A packet is sent. -/
def send (p : Packet) : Activation := { a with sent := a.sent ++ [p] }

/-- The stamp has been given to a new message. -/
def stamped : Activation := { a with currentMsgStamp := a.currentMsgStamp + 1 }

/-- `directoryData[addr]`, which makes a record if there is none. -/
def record (addr : Address) : BlockData := (a.dir.directoryData addr).getD .new

end Activation

/-- The configuration of a device: its node and the calculators of home and memory nodes. -/
structure Device where
  nodeID : Node
  directoryNodeCalc : NodeIDCalculator
  memoryNodeCalc : NodeIDCalculator

namespace Device

variable (self : Device)

/-- A network message to another device, or to the device itself. -/
def sendNetwork (dest : NodeID) (msg : Msg) (a : Activation) : Activation :=
  a.send (.network dest self.nodeID msg)

/-- `SendMsg` on the local connection. -/
def sendLocal (msg : Msg) (a : Activation) : Activation :=
  a.send (.toLocalCache self.nodeID msg)

/-- The write of the block that came with an eviction or an invalidate response, if there is
one. -/
def writeBlock (blockAttached : Bool) (addr : Address) (a : Activation) : Activation :=
  if blockAttached then
    self.sendNetwork (self.memoryNodeCalc addr)
      (.write { msgID := a.currentMsgStamp, addr := addr }) a.stamped
  else a

/-! ## The directory record -/

def eraseDirectoryShare (addr : Address) (id : Node) (a : Activation) :
    Except Fault Activation :=
  match a.dir.directoryData addr with
  | none => .error .assertion
  | some b => do
    check .assertion (b.owner ≠ id ∨ id.1 ∉ b.sharers)
    return a.setDirectoryData addr (b.release id)

def addDirectoryShare (addr : Address) (id : Node) (exclusive : Bool) (a : Activation) :
    Except Fault Activation :=
  match a.dir.directoryData addr with
  | none => .error .assertion
  | some b => do
    check .assertion (exclusive = false ∨
      b.sharers.size = 0 ∧ (b.owner = id ∨ b.owner = InvalidNodeID))
    return a.setDirectoryData addr (
      if b.owner = id ∨ b.owner = InvalidNodeID then { b with owner := id }
      else { b with sharers := b.sharers.insert id })

/-! ## Reads for the local cache -/

def onRemoteRead (m : ReadMsg) (src : Node) (a : Activation) : Except Fault Activation := do
  check .assertion (m.directoryLookup = false)
  check .assertion (a.dir.pendingRemoteReads m.msgID = none)
  return self.sendLocal (.read m) (a.setPendingRemoteRead m.msgID (some ⟨m, src⟩))

/-- The pending read for which `PerformDirectoryFetch` fetches a line. -/
def fetchedRead (addr : Address) (a : Activation) : Option (LookupData ReadMsg) :=
  let shared := a.dir.pendingDirectorySharedReads addr
  match shared[a.order.found % shared.length]? with
  | some ld => some ld
  | none => a.dir.pendingDirectoryExclusiveReads addr

/-- The node from which `PerformDirectoryFetch` fetches a block. -/
def fetchTarget (b : BlockData) (addr : Address) (a : Activation) : NodeID :=
  if b.owner ≠ InvalidNodeID then b.owner
  else (b.sharers.toList[a.order.first % b.sharers.size]?).getD (self.memoryNodeCalc addr)

def performDirectoryFetch (addr : Address) (a : Activation) : Except Fault Activation := do
  check .assertion (a.dir.pendingDirectorySharedReads addr ≠ [] ∨
    a.dir.pendingDirectoryExclusiveReads addr ≠ none)
  check .assertion (a.dir.pendingDirectorySharedReads addr = [] ∨
    a.dir.pendingDirectoryExclusiveReads addr = none)
  let ld ← (fetchedRead addr a).elim (.error .assertion) .ok
  let m := { ld.msg with directoryLookup := false, alreadyHasBlock := false }
  let b := a.record m.addr
  let a := a.setDirectoryData m.addr b
  let target := self.fetchTarget b addr a
  if target = self.nodeID then self.onRemoteRead m self.nodeID a
  else return self.sendNetwork target (.read m) a

/-- The answer goes back to the node that has asked for the read. -/
def onLocalReadResponse (m : ReadResponseMsg) (a : Activation) : Except Fault Activation := do
  let ld ← (a.dir.pendingRemoteReads m.solicitingMessage).elim (.error .assertion) .ok
  check .assertion (ld.msg.msgID = m.solicitingMessage)
  return self.sendNetwork ld.sourceNode (.readResponse { m with directoryLookup := false })
    (a.setPendingRemoteRead ld.msg.msgID none)

/-! ## Reads of the local cache -/

def onLocalRead (m : ReadMsg) (a : Activation) : Except Fault Activation := do
  check .assertion (a.dir.pendingLocalReads m.msgID = none)
  let a := a.setPendingLocalRead m.msgID (some m)
  let forward := { m with directoryLookup := true }
  return if self.directoryNodeCalc m.addr = self.nodeID then
      a.send (.scheduled self.nodeID (.read forward))
    else self.sendNetwork (self.directoryNodeCalc m.addr) (.read forward) a

def onDirectoryBlockResponse (m : ReadResponseMsg) (a : Activation) : Except Fault Activation := do
  let ref ← (a.dir.pendingLocalReads m.solicitingMessage).elim (.error .assertion) .ok
  let a := a.setPendingLocalRead m.solicitingMessage none
  if m.satisfied then
    return self.sendLocal
      (.readResponse
        { ReadResponseMsg.ofRead a.currentMsgStamp ref with
          blockAttached := m.blockAttached
          exclusiveOwnership := m.exclusiveOwnership
          satisfied := true })
      a.stamped
  else self.onLocalRead ref a

/-! ## Requests to the home node -/

def onDirectoryBlockRequest (m : ReadMsg) (src : Node) (a : Activation) :
    Except Fault Activation :=
  if a.dir.pendingDirectoryExclusiveReads m.addr ≠ none ∨
      m.requestingExclusive = true ∧ a.dir.pendingDirectorySharedReads m.addr ≠ [] then
    .ok (
      if src = self.nodeID then a.send (.scheduled self.nodeID (.read m))
      else self.sendNetwork src
        (.readResponse
          { ReadResponseMsg.ofRead a.currentMsgStamp m with directoryLookup := true })
        a.stamped)
  else if m.requestingExclusive then
    self.performDirectoryFetch m.addr (a.setPendingDirectoryExclusiveRead m.addr (some ⟨m, src⟩))
  else
    let shared := a.dir.pendingDirectorySharedReads m.addr
    let a := a.setPendingDirectorySharedReads m.addr
      (shared.insertIdx (a.order.position % (shared.length + 1)) ⟨m, src⟩)
    if shared ≠ [] then .ok a
    else self.performDirectoryFetch m.addr a

def onRemoteInvalidate (m : InvalidateMsg) (src : Node) (a : Activation) :
    Except Fault Activation := do
  check .assertion (a.dir.pendingRemoteInvalidates m.addr = none)
  return self.sendLocal (.invalidate m)
    (a.setPendingRemoteInvalidate m.addr (some ⟨m, src⟩))

/-- An invalidate for a sharer. -/
def sendInvalidate (addr : Address) (dest : NodeID) (a : Activation) : Except Fault Activation :=
  let inv : InvalidateMsg :=
    { msgID := a.currentMsgStamp, addr := addr, newOwner := InvalidNodeID }
  if dest ≠ self.nodeID then .ok (self.sendNetwork dest (.invalidate inv) a.stamped)
  else self.onRemoteInvalidate inv self.nodeID a.stamped

/-- A pending shared read is answered: the body of the loop over the reads of a line, of which
there are `count`. -/
def satisfySharedRead (addr : Address) (count : ℕ) (a : Activation) (ld : LookupData ReadMsg) :
    Except Fault Activation := do
  let r : ReadResponseMsg :=
    { ReadResponseMsg.ofRead a.currentMsgStamp ld.msg with
      addr := addr
      blockAttached := true
      directoryLookup := true
      -- the position of the first read is compared before it is increased
      exclusiveOwnership := decide (0 = count)
      satisfied := true }
  let a ← addDirectoryShare addr ld.sourceNode false a.stamped
  if ld.sourceNode = self.nodeID then self.onDirectoryBlockResponse r a
  else return self.sendNetwork ld.sourceNode (.readResponse r) a

/-- `OnRemoteReadResponse`, for the pending shared reads of a line. -/
def satisfySharedReads (addr : Address) (a : Activation) : Except Fault Activation := do
  let pending := a.dir.pendingDirectorySharedReads addr
  let a ← pending.foldlM (self.satisfySharedRead addr pending.length) a
  return a.setPendingDirectorySharedReads addr []

/-- `OnRemoteReadResponse`, for the pending exclusive read of a line that has no sharers. -/
def satisfyExclusiveRead (m : ReadResponseMsg) (ld : LookupData ReadMsg) (a : Activation) :
    Except Fault Activation := do
  let response := { m with directoryLookup := true }
  -- the home sends the response to its local cache without `OnDirectoryBlockResponse`
  let a := if ld.sourceNode ≠ self.nodeID then
      self.sendNetwork ld.sourceNode (.readResponse response) a
    else self.sendLocal (.readResponse response) a
  let a ← addDirectoryShare m.addr ld.sourceNode true a
  return a.setPendingDirectoryExclusiveRead m.addr none

/-- `OnRemoteReadResponse`, for the pending exclusive read of a line. -/
def satisfyExclusiveReads (m : ReadResponseMsg) (src : Node) (a : Activation) :
    Except Fault Activation := do
  check .assertion (m.exclusiveOwnership = true)
  check .assertion (m.blockAttached = true)
  let b := a.record m.addr
  check .assertion (b.owner = InvalidNodeID ∨ b.owner = src)
  let ld ← (a.dir.pendingDirectoryExclusiveReads m.addr).elim (.error .assertion) .ok
  if b.sharers.size = 0 then self.satisfyExclusiveRead m ld a
  else b.sharers.toList.foldlM (fun a dest => self.sendInvalidate m.addr dest a) a

/-- A node that has given up its block is erased from the record. -/
def eraseExclusiveShare (m : ReadResponseMsg) (src : Node) (a : Activation) :
    Except Fault Activation :=
  if m.exclusiveOwnership then eraseDirectoryShare m.addr src a else .ok a

def onRemoteReadResponse (m : ReadResponseMsg) (src : Node) (a : Activation) :
    Except Fault Activation := do
  check .assertion (m.directoryLookup = false)
  check .assertion (a.dir.pendingDirectorySharedReads m.addr ≠ [] ∨
    a.dir.pendingDirectoryExclusiveReads m.addr ≠ none)
  check .assertion (a.dir.pendingDirectorySharedReads m.addr = [] ∨
    a.dir.pendingDirectoryExclusiveReads m.addr = none)
  check .assertion (a.dir.directoryData m.addr ≠ none)
  if m.satisfied then
    let a ← eraseExclusiveShare m src a
    if a.dir.pendingDirectorySharedReads m.addr ≠ [] then self.satisfySharedReads m.addr a
    else self.satisfyExclusiveReads m src a
  else
    let a ← eraseDirectoryShare m.addr src a
    check .assertion ((a.record m.addr).owner = InvalidNodeID)
    self.performDirectoryFetch m.addr a

/-! ## Writes, evictions and invalidate responses -/

/-- The home's own write goes no further. -/
def onRemoteWrite (m : WriteMsg) (src : Node) (a : Activation) : Except Fault Activation := do
  check .assertion (self.nodeID = self.directoryNodeCalc m.addr)
  return if src ≠ self.nodeID then
      self.sendNetwork src
        (.writeResponse
          { msgID := a.currentMsgStamp, addr := m.addr, solicitingMessage := m.msgID })
        (self.sendNetwork (self.memoryNodeCalc m.addr) (.write m) a.stamped)
    else a

def onLocalWrite (m : WriteMsg) (a : Activation) : Except Fault Activation :=
  let a := self.sendLocal
    (.writeResponse
      { msgID := a.currentMsgStamp, addr := m.addr, solicitingMessage := m.msgID })
    a.stamped
  if self.directoryNodeCalc m.addr = self.nodeID then self.onRemoteWrite m self.nodeID a
  else .ok (self.sendNetwork (self.directoryNodeCalc m.addr) (.write m) a)

/-- The home answers an eviction; its own eviction is no longer pending. -/
def answerEviction (m : EvictionMsg) (src : Node) (a : Activation) : Except Fault Activation :=
  if src = self.nodeID then do
    check .assertion (a.dir.pendingEviction m.addr = true)
    return a.setPendingEviction m.addr false
  else
    .ok (self.sendNetwork src (.evictionResponse (.ofEviction a.currentMsgStamp m)) a.stamped)

def onRemoteEviction (m : EvictionMsg) (src : Node) (a : Activation) : Except Fault Activation :=
  match a.dir.directoryData m.addr with
  | none => .error .assertion
  | some b => do
    let a ← self.answerEviction m src (a.setDirectoryData m.addr (b.release src))
    return self.writeBlock m.blockAttached m.addr a

def onRemoteEvictionResponse (m : EvictionResponseMsg) (a : Activation) :
    Except Fault Activation := do
  check .assertion (a.dir.pendingEviction m.addr = true)
  return self.sendLocal (.evictionResponse m) (a.setPendingEviction m.addr false)

def onLocalEviction (m : EvictionMsg) (a : Activation) : Except Fault Activation := do
  check .assertion (a.dir.pendingEviction m.addr = false)
  let a := a.setPendingEviction m.addr true
  let a := self.sendLocal (.evictionResponse (.ofEviction a.currentMsgStamp m)) a.stamped
  if self.directoryNodeCalc m.addr = self.nodeID then self.onRemoteEviction m self.nodeID a
  else return self.sendNetwork (self.directoryNodeCalc m.addr) (.eviction m) a

/-- The block is given to the node of a pending exclusive read. -/
def grantExclusive (addr : Address) (ld : LookupData ReadMsg) (a : Activation) :
    Except Fault Activation := do
  let a := a.setDirectoryData addr { sharers := ∅, owner := ld.sourceNode }
  let rm : ReadResponseMsg :=
    { ReadResponseMsg.ofRead a.currentMsgStamp ld.msg with
      addr := addr
      blockAttached := true
      directoryLookup := true
      exclusiveOwnership := true
      satisfied := true }
  let a := if ld.sourceNode = self.nodeID then self.sendLocal (.readResponse rm) a.stamped
    else self.sendNetwork ld.sourceNode (.readResponse rm) a.stamped
  let a ← addDirectoryShare addr ld.sourceNode true a
  return a.setPendingDirectoryExclusiveRead addr none

/-- `OnRemoteInvalidateResponse`, for the pending exclusive read of a line. -/
def satisfyFreedRead (addr : Address) (b : BlockData) (a : Activation) : Except Fault Activation :=
  match a.dir.pendingDirectoryExclusiveReads addr with
  | none => .ok a
  | some ld => if Bip.Device.isFreeFor b ld.sourceNode then self.grantExclusive addr ld a else .ok a

def onRemoteInvalidateResponse (m : InvalidateResponseMsg) (src : Node) (a : Activation) :
    Except Fault Activation :=
  match a.dir.directoryData m.addr with
  | none => .error .assertion
  | some b => do
    check .assertion (m.blockAttached = false ∨ b.owner = src ∨ b.owner = InvalidNodeID)
    check .assertion (m.blockAttached = true ∨ src.1 ∈ b.sharers ∨ b.owner = src ∨
      b.owner = InvalidNodeID)
    let b := b.release src
    self.satisfyFreedRead m.addr b (self.writeBlock m.blockAttached m.addr
      (a.setDirectoryData m.addr b))

/-- An invalidate response goes to the home. -/
def passInvalidateResponse (m : InvalidateResponseMsg) (dest : Node) (a : Activation) :
    Except Fault Activation :=
  if self.nodeID ≠ dest then .ok (self.sendNetwork dest (.invalidateResponse m) a)
  else self.onRemoteInvalidateResponse m self.nodeID a

def onLocalInvalidateResponse (m : InvalidateResponseMsg) (a : Activation) :
    Except Fault Activation := do
  let ld ← (a.dir.pendingRemoteInvalidates m.addr).elim (.error .assertion) .ok
  check .assertion (ld.msg.msgID = m.solicitingMessage)
  let a ← self.passInvalidateResponse m ld.sourceNode a
  return a.setPendingRemoteInvalidate ld.msg.addr none

/-! ## `RecvMsg` -/

/-- `RecvMsg`, for a message of the local connection. -/
def recvFromLocal (msg : Msg) (a : Activation) : Except Fault Activation :=
  match msg with
  | .read m => self.onLocalRead m a
  | .readResponse m => self.onLocalReadResponse m a
  | .write m => self.onLocalWrite m a
  | .eviction m => self.onLocalEviction m a
  | .invalidateResponse m => self.onLocalInvalidateResponse m a
  | _ => .error .assertion

/-- `RecvMsg`, for the payload of a network message.  A write is not among the payloads that the
source handles. -/
def recvFromNetwork (msg : Msg) (src : Node) (a : Activation) : Except Fault Activation :=
  match msg with
  | .read m =>
    if m.directoryLookup then self.onDirectoryBlockRequest m src a else self.onRemoteRead m src a
  | .readResponse m =>
    if m.directoryLookup then self.onDirectoryBlockResponse m a
    else self.onRemoteReadResponse m src a
  | .writeResponse _ => .ok a
  | .eviction m => self.onRemoteEviction m src a
  | .evictionResponse m => self.onRemoteEvictionResponse m a
  | .invalidate m => self.onRemoteInvalidate m src a
  | .invalidateResponse m => self.onRemoteInvalidateResponse m src a
  | _ => .error .assertion

end Device

end Sesc.Plain
