import Mathlib.Logic.Function.Basic
import Sesc.Lib.Check
import Sesc.Lib.ListSet
import Sesc.Messages

/-!
# The data of an `OriginDirectory`

An `OriginDirectory` keeps, for every line its node caches, a `CacheData`, and, for every
line its node is the home of, a `DirectoryData`.  A hash map is a function to `Option`
when its keys matter, and a function to the values when a missing entry is created with
the default of its class on the first access.

The handlers work on an `Activation`: the device, the stamp of the next message and the
packets sent so far.
-/

namespace Sesc.Origin

open Lib

/-- `OriginDirectory::CacheState`. -/
inductive CacheState
  | exclusive
  | exclusiveInterventionEviction
  | exclusiveWaitingForSpeculativeReply
  | invalid
  | shared
  | sharedWaitingForSpeculativeReply
  | waitingForIntervention
  | waitingForExclusiveReadResponse
  | waitingForExclusiveResponseAck
  | waitingForKInvalidatesJInvalidatesReceived
  | waitingForSharedReadResponse
  | waitingForSharedResponseAck
  | waitingForWritebackBusyAck
  | waitingForWritebackResponse
deriving DecidableEq, Repr

/-- `OriginDirectory::DirectoryState`. -/
inductive DirectoryState
  | busyExclusive
  | busyExclusiveMemoryAccess
  | busyExclusiveMemoryAccessWritebackRequest
  | busyShared
  | busySharedMemoryAccess
  | busySharedMemoryAccessWritebackRequest
  | exclusive
  | exclusiveMemoryAccess
  | shared
  | sharedMemoryAccess
  | sharedExclusiveMemoryAccess
  | sharedMemoryAccessWritebackRequest
  | unowned
deriving DecidableEq, Repr

structure CacheData where
  cacheState : CacheState
  isCanceledReadRequest : Bool
  firstReply : Option Msg
  firstReplySrc : NodeID
  secondReply : Option EvictionMsg
  invalidAcksReceived : ℕ
  cacheDataPendingLocalReads : List ReadMsg
deriving DecidableEq

/-- The constructor of `CacheData`; the source leaves `secondReply` unset. -/
def CacheData.new : CacheData where
  cacheState := .invalid
  isCanceledReadRequest := false
  firstReply := none
  firstReplySrc := InvalidNodeID
  secondReply := none
  invalidAcksReceived := 0
  cacheDataPendingLocalReads := []

/-- `LookupData<ReadMsg>` with a message. -/
structure LookupData where
  msg : ReadMsg
  sourceNode : NodeID
deriving DecidableEq, Repr

structure DirectoryData where
  firstRequest : Option ReadMsg
  firstRequestSrc : NodeID
  owner : NodeID
  previousOwner : NodeID
  sharers : ListSet NodeID
  secondRequest : Option WritebackRequestMsg
  secondRequestSrc : NodeID
  pendingSharedReads : List LookupData
  state : DirectoryState
deriving DecidableEq

/-- The constructor of `DirectoryData`. -/
def DirectoryData.new : DirectoryData where
  firstRequest := none
  firstRequestSrc := InvalidNodeID
  owner := InvalidNodeID
  previousOwner := InvalidNodeID
  sharers := ∅
  secondRequest := none
  secondRequestSrc := InvalidNodeID
  pendingSharedReads := []
  state := .unowned

/-- `ClearTempCacheData`. -/
def CacheData.clearTemp (c : CacheData) : CacheData :=
  { c with
    firstReply := none
    firstReplySrc := InvalidNodeID
    invalidAcksReceived := 0
    secondReply := none }

/-- `ClearTempDirectoryData`. -/
def DirectoryData.clearTemp (d : DirectoryData) : DirectoryData :=
  { d with
    firstRequest := none
    firstRequestSrc := InvalidNodeID
    previousOwner := InvalidNodeID
    secondRequest := none
    secondRequestSrc := InvalidNodeID }

/-- The tables of an `OriginDirectory`. -/
structure OriginDirectory where
  pendingLocalReads : MessageID → Option ReadMsg
  pendingRemoteReads : MessageID → Option ReadMsg
  pendingRemoteInvalidates : MessageID → Option InvalidateMsg
  pendingMemoryReadAccesses : MessageID → Option ReadMsg
  pendingMemoryWriteAccesses : MessageID → Option WriteMsg
  pendingEviction : Address → Option EvictionMsg
  directoryDataMap : Address → DirectoryData
  cacheDataMap : Address → CacheData

def OriginDirectory.new : OriginDirectory where
  pendingLocalReads := fun _ => none
  pendingRemoteReads := fun _ => none
  pendingRemoteInvalidates := fun _ => none
  pendingMemoryReadAccesses := fun _ => none
  pendingMemoryWriteAccesses := fun _ => none
  pendingEviction := fun _ => none
  directoryDataMap := fun _ => .new
  cacheDataMap := fun _ => .new

/-- A message on its way.  The first two kinds are deliveries to `RecvMsgCache` and to
`RecvMsgDirectory`, through the network or, inside a node, as a scheduled call; the others
travel on the two local connections of a node. -/
inductive Packet
  | toCache (dest src : NodeID) (msg : Msg)
  | toDirectory (dest src : NodeID) (msg : Msg)
  | toLocalCache (node : NodeID) (msg : Msg)
  | fromLocalCache (node : NodeID) (msg : Msg)
  | toMemory (node : NodeID) (msg : Msg)
  | fromMemory (node : NodeID) (msg : Msg)
deriving DecidableEq, Repr

/-- The node at which a packet is delivered. -/
def Packet.node : Packet → NodeID
  | toCache dest _ _ => dest
  | toDirectory dest _ _ => dest
  | toLocalCache node _ => node
  | fromLocalCache node _ => node
  | toMemory node _ => node
  | fromMemory node _ => node

def Packet.msg : Packet → Msg
  | toCache _ _ msg => msg
  | toDirectory _ _ msg => msg
  | toLocalCache _ msg => msg
  | fromLocalCache _ msg => msg
  | toMemory _ msg => msg
  | fromMemory _ msg => msg

/-- What a handler works on: its device, the event manager's stamp of the next message and
the packets sent so far. -/
structure Activation where
  dir : OriginDirectory
  currentMsgStamp : MessageID
  sent : List Packet

namespace Activation

/-- `GetCacheData`. -/
def cacheData (a : Activation) (addr : Address) : CacheData := a.dir.cacheDataMap addr

/-- `GetDirectoryData`. -/
def directoryData (a : Activation) (addr : Address) : DirectoryData :=
  a.dir.directoryDataMap addr

def modifyCacheData (a : Activation) (addr : Address) (f : CacheData → CacheData) :
    Activation :=
  { a with dir.cacheDataMap := Function.update a.dir.cacheDataMap addr (f (a.cacheData addr)) }

def modifyDirectoryData (a : Activation) (addr : Address)
    (f : DirectoryData → DirectoryData) : Activation :=
  { a with
    dir.directoryDataMap :=
      Function.update a.dir.directoryDataMap addr (f (a.directoryData addr)) }

/-- `SetCacheState`. -/
def setCacheState (a : Activation) (addr : Address) (newCacheState : CacheState) : Activation :=
  a.modifyCacheData addr fun c => { c with cacheState := newCacheState }

def setPendingLocalRead (a : Activation) (id : MessageID) (m : Option ReadMsg) : Activation :=
  { a with dir.pendingLocalReads := Function.update a.dir.pendingLocalReads id m }

def setPendingRemoteRead (a : Activation) (id : MessageID) (m : Option ReadMsg) : Activation :=
  { a with dir.pendingRemoteReads := Function.update a.dir.pendingRemoteReads id m }

def setPendingRemoteInvalidate (a : Activation) (id : MessageID) (m : Option InvalidateMsg) :
    Activation :=
  { a with dir.pendingRemoteInvalidates := Function.update a.dir.pendingRemoteInvalidates id m }

def setPendingMemoryRead (a : Activation) (id : MessageID) (m : Option ReadMsg) : Activation :=
  { a with
    dir.pendingMemoryReadAccesses := Function.update a.dir.pendingMemoryReadAccesses id m }

def setPendingMemoryWrite (a : Activation) (id : MessageID) (m : Option WriteMsg) :
    Activation :=
  { a with
    dir.pendingMemoryWriteAccesses := Function.update a.dir.pendingMemoryWriteAccesses id m }

def setPendingEviction (a : Activation) (addr : Address) (m : Option EvictionMsg) :
    Activation :=
  { a with dir.pendingEviction := Function.update a.dir.pendingEviction addr m }

/-- A packet is sent. -/
def send (a : Activation) (p : Packet) : Activation := { a with sent := a.sent ++ [p] }

/-- The stamp has been given to a new message. -/
def stamped (a : Activation) : Activation := { a with currentMsgStamp := a.currentMsgStamp + 1 }

/-! ### Reading back -/

variable (a : Activation) (addr : Address)

@[simp] lemma cacheData_modifyCacheData (f : CacheData → CacheData) :
    (a.modifyCacheData addr f).cacheData addr = f (a.cacheData addr) := by
  simp [modifyCacheData, cacheData]

lemma cacheData_modifyCacheData_of_ne {addr' : Address} (h : addr' ≠ addr)
    (f : CacheData → CacheData) :
    (a.modifyCacheData addr f).cacheData addr' = a.cacheData addr' := by
  simp [modifyCacheData, cacheData, h]

@[simp] lemma directoryData_modifyDirectoryData (f : DirectoryData → DirectoryData) :
    (a.modifyDirectoryData addr f).directoryData addr = f (a.directoryData addr) := by
  simp [modifyDirectoryData, directoryData]

lemma directoryData_modifyDirectoryData_of_ne {addr' : Address} (h : addr' ≠ addr)
    (f : DirectoryData → DirectoryData) :
    (a.modifyDirectoryData addr f).directoryData addr' = a.directoryData addr' := by
  simp [modifyDirectoryData, directoryData, h]

lemma modifyDirectoryData_modifyDirectoryData (f g : DirectoryData → DirectoryData) :
    (a.modifyDirectoryData addr f).modifyDirectoryData addr g =
      a.modifyDirectoryData addr (g ∘ f) := by
  simp [modifyDirectoryData, directoryData]

@[simp] lemma dir_send (p : Packet) : (a.send p).dir = a.dir := rfl

@[simp] lemma dir_stamped : a.stamped.dir = a.dir := rfl

end Activation

end Sesc.Origin
