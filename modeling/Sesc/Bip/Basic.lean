import Mathlib.Logic.Function.Basic
import Sesc.Lib.Check
import Sesc.Lib.ListSet
import Sesc.Messages

/-!
# The data of a `BIPDirectory`

A `BIPDirectory` keeps the requests of its local cache, the requests it has passed on to its
local cache, and, for the lines its node is the home of, the pending reads and the record of
the nodes that hold them.  A hash map is a function to `Option` and a hash multimap a function
to lists, one list for every key.

The handlers work on an `Activation`: the device, the stamp of the next message and the packets
sent so far.
-/

namespace Sesc.Bip

open Lib

/-- `BIPDirectory::BlockData`. -/
structure BlockData where
  sharers : ListSet NodeID
  owner : NodeID
deriving DecidableEq

/-- The constructor of `BlockData`. -/
def BlockData.new : BlockData where
  sharers := ∅
  owner := InvalidNodeID

/-- `LookupData<T>`. -/
structure LookupData (T : Type) where
  msg : T
  sourceNode : NodeID
  invalidateResponsesExpected : ℕ
  invalidateResponsesReceived : ℕ
deriving DecidableEq, Repr

/-- A `LookupData` with the counters of its constructor. -/
def LookupData.new {T : Type} (msg : T) (sourceNode : NodeID) : LookupData T where
  msg := msg
  sourceNode := sourceNode
  invalidateResponsesExpected := 0
  invalidateResponsesReceived := 0

/-- The tables of a `BIPDirectory`. -/
structure BIPDirectory where
  pendingLocalReads : MessageID → Option ReadMsg
  pendingRemoteReads : MessageID → Option (LookupData ReadMsg)
  pendingRemoteInvalidates : Address → Option (LookupData InvalidateMsg)
  pendingDirectorySharedReads : Address → List (LookupData ReadMsg)
  pendingDirectoryExclusiveReads : Address → Option (LookupData ReadMsg)
  pendingEviction : Address → Bool
  pendingMemoryReadAccesses : MessageID → Option ReadMsg
  pendingMemoryWriteAccesses : MessageID → Option WriteMsg
  reversePendingLocalReads : Address → List ReadMsg
  directoryData : Address → Option BlockData

def BIPDirectory.new : BIPDirectory where
  pendingLocalReads := fun _ => none
  pendingRemoteReads := fun _ => none
  pendingRemoteInvalidates := fun _ => none
  pendingDirectorySharedReads := fun _ => []
  pendingDirectoryExclusiveReads := fun _ => none
  pendingEviction := fun _ => false
  pendingMemoryReadAccesses := fun _ => none
  pendingMemoryWriteAccesses := fun _ => none
  reversePendingLocalReads := fun _ => []
  directoryData := fun _ => none

/-- A message on its way: through the network, as a scheduled call of a node to itself, or on
one of the two local connections of a node. -/
inductive Packet
  | network (dest src : NodeID) (msg : Msg)
  | scheduled (node : NodeID) (msg : Msg)
  | toLocalCache (node : NodeID) (msg : Msg)
  | fromLocalCache (node : NodeID) (msg : Msg)
  | toMemory (node : NodeID) (msg : Msg)
  | fromMemory (node : NodeID) (msg : Msg)
deriving DecidableEq, Repr

/-- The node at which a packet is delivered. -/
def Packet.node : Packet → NodeID
  | network dest _ _ => dest
  | scheduled node _ => node
  | toLocalCache node _ => node
  | fromLocalCache node _ => node
  | toMemory node _ => node
  | fromMemory node _ => node

def Packet.msg : Packet → Msg
  | network _ _ msg => msg
  | scheduled _ msg => msg
  | toLocalCache _ msg => msg
  | fromLocalCache _ msg => msg
  | toMemory _ msg => msg
  | fromMemory _ msg => msg

/-- What the hash containers leave open: where an entry is put among those of its key, which of
them `find` returns, and which sharer `begin` returns. -/
structure HashOrder where
  position : ℕ
  found : ℕ
  first : ℕ
deriving DecidableEq, Repr

/-- What a handler works on: its device, the event manager's stamp of the next message, the
packets sent so far and the order in the hash containers. -/
structure Activation where
  dir : BIPDirectory
  currentMsgStamp : MessageID
  sent : List Packet
  order : HashOrder

namespace Activation

variable (a : Activation)

def setPendingLocalRead (id : MessageID) (m : Option ReadMsg) : Activation :=
  { a with dir.pendingLocalReads := Function.update a.dir.pendingLocalReads id m }

def modifyReversePendingLocalReads (addr : Address) (f : List ReadMsg → List ReadMsg) :
    Activation :=
  { a with
    dir.reversePendingLocalReads := Function.update a.dir.reversePendingLocalReads addr
      (f (a.dir.reversePendingLocalReads addr)) }

def setPendingRemoteRead (id : MessageID) (ld : Option (LookupData ReadMsg)) : Activation :=
  { a with dir.pendingRemoteReads := Function.update a.dir.pendingRemoteReads id ld }

def setPendingRemoteInvalidate (addr : Address) (ld : Option (LookupData InvalidateMsg)) :
    Activation :=
  { a with
    dir.pendingRemoteInvalidates := Function.update a.dir.pendingRemoteInvalidates addr ld }

def setPendingDirectorySharedReads (addr : Address) (l : List (LookupData ReadMsg)) :
    Activation :=
  { a with
    dir.pendingDirectorySharedReads :=
      Function.update a.dir.pendingDirectorySharedReads addr l }

def setPendingDirectoryExclusiveRead (addr : Address) (ld : Option (LookupData ReadMsg)) :
    Activation :=
  { a with
    dir.pendingDirectoryExclusiveReads :=
      Function.update a.dir.pendingDirectoryExclusiveReads addr ld }

def setPendingEviction (addr : Address) (pending : Bool) : Activation :=
  { a with dir.pendingEviction := Function.update a.dir.pendingEviction addr pending }

def setPendingMemoryRead (id : MessageID) (m : Option ReadMsg) : Activation :=
  { a with
    dir.pendingMemoryReadAccesses := Function.update a.dir.pendingMemoryReadAccesses id m }

def setPendingMemoryWrite (id : MessageID) (m : Option WriteMsg) : Activation :=
  { a with
    dir.pendingMemoryWriteAccesses := Function.update a.dir.pendingMemoryWriteAccesses id m }

def setDirectoryData (addr : Address) (b : BlockData) : Activation :=
  { a with dir.directoryData := Function.update a.dir.directoryData addr (some b) }

/-- A packet is sent. -/
def send (p : Packet) : Activation := { a with sent := a.sent ++ [p] }

/-- The stamp has been given to a new message. -/
def stamped : Activation := { a with currentMsgStamp := a.currentMsgStamp + 1 }

end Activation

end Sesc.Bip
