import Mathlib.Data.Int.Notation
import Mathlib.Data.Nat.Notation
import Mathlib.Tactic.Common

/-!
# The messages of the memory system

The messages that caches, directories, memories and the network exchange, with the
fields that some device reads.  The identifier of the sending device, the program
counter that generated a request, the sizes and the completion callbacks take no
part in any decision and are left out.

A pointer that may be null is an `Option`.  A flag that the event manager leaves
unset when it creates a message has the value of a new object, `false`.
-/

namespace Sesc

abbrev Address := ℕ
abbrev MessageID := ℕ
abbrev TickTime := ℕ
abbrev NodeID := ℤ

/-- The node identifier that stands for "no node". -/
def InvalidNodeID : NodeID := -2

structure ReadMsg where
  msgID : MessageID
  addr : Address
  requestingExclusive : Bool
  alreadyHasBlock : Bool
  directoryLookup : Bool
deriving DecidableEq, Repr

structure WriteMsg where
  msgID : MessageID
  addr : Address
deriving DecidableEq, Repr

structure InvalidateMsg where
  msgID : MessageID
  addr : Address
  newOwner : NodeID
deriving DecidableEq, Repr

structure EvictionMsg where
  msgID : MessageID
  addr : Address
  blockAttached : Bool
deriving DecidableEq, Repr

structure ReadResponseMsg where
  msgID : MessageID
  addr : Address
  satisfied : Bool
  blockAttached : Bool
  directoryLookup : Bool
  exclusiveOwnership : Bool
  interventionMessage : MessageID
  isDirty : Bool
  solicitingMessage : MessageID
deriving DecidableEq, Repr

structure WriteResponseMsg where
  msgID : MessageID
  addr : Address
  solicitingMessage : MessageID
deriving DecidableEq, Repr

structure InvalidateResponseMsg where
  msgID : MessageID
  addr : Address
  blockAttached : Bool
  solicitingMessage : MessageID
deriving DecidableEq, Repr

structure EvictionResponseMsg where
  msgID : MessageID
  addr : Address
  solicitingMessage : MessageID
deriving DecidableEq, Repr

/-! ## Messages added for the Origin protocol -/

structure CacheNakMsg where
  msgID : MessageID
  addr : Address
  solicitingMessage : MessageID
  interventionMessage : MessageID
deriving DecidableEq, Repr

structure DirectoryNakMsg where
  msgID : MessageID
  addr : Address
  solicitingMessage : MessageID
  isInvalidateResponse : Bool
  isReadResponse : Bool
deriving DecidableEq, Repr

structure InterventionMsg extends ReadMsg where
  solicitingMessage : MessageID
  newOwner : NodeID
deriving DecidableEq, Repr

structure InvalidateAckMsg extends InvalidateResponseMsg
deriving DecidableEq, Repr

structure ReadReplyMsg extends ReadResponseMsg where
  pendingInvalidates : ℕ
deriving DecidableEq, Repr

structure SpeculativeReplyMsg extends ReadResponseMsg
deriving DecidableEq, Repr

structure TransferMsg extends EvictionMsg where
  isDirty : Bool
  isShared : Bool
deriving DecidableEq, Repr

structure WritebackMsg extends TransferMsg
deriving DecidableEq, Repr

structure WritebackAckMsg extends EvictionResponseMsg where
  isBusy : Bool
  isExclusive : Bool
deriving DecidableEq, Repr

structure WritebackRequestMsg extends EvictionMsg
deriving DecidableEq, Repr

/-! ## Creating messages

A message is created with a fresh identifier and its fields are copied from the message
that it answers or passes on; these are the `Create…Msg` functions of the event manager
followed by the `Initialize…Msg` function for the given source. -/

/-- A read response that answers a read. -/
def ReadResponseMsg.ofRead (id : MessageID) (read : ReadMsg) : ReadResponseMsg where
  msgID := id
  addr := read.addr
  satisfied := false
  blockAttached := false
  directoryLookup := false
  exclusiveOwnership := false
  interventionMessage := 0
  isDirty := false
  solicitingMessage := read.msgID

/-- A read response that answers the read an intervention was sent for. -/
def ReadResponseMsg.ofIntervention (id : MessageID) (m : InterventionMsg) : ReadResponseMsg :=
  { ReadResponseMsg.ofRead id m.toReadMsg with solicitingMessage := m.solicitingMessage }

/-- A read response made from another one. -/
def ReadResponseMsg.ofReadResponse (id : MessageID) (m : ReadResponseMsg) : ReadResponseMsg :=
  { m with msgID := id, interventionMessage := 0 }

/-- An eviction message about the line of a read. -/
def EvictionMsg.ofRead (id : MessageID) (m : ReadMsg) : EvictionMsg where
  msgID := id
  addr := m.addr
  blockAttached := false

/-- The answer to an eviction. -/
def EvictionResponseMsg.ofEviction (id : MessageID) (m : EvictionMsg) : EvictionResponseMsg where
  msgID := id
  addr := m.addr
  solicitingMessage := m.msgID

/-- An answer to an eviction made from another one. -/
def EvictionResponseMsg.ofEvictionResponse (id : MessageID) (m : EvictionResponseMsg) :
    EvictionResponseMsg :=
  { m with msgID := id }

/-- An answer to an eviction about the line of a read. -/
def EvictionResponseMsg.ofRead (id : MessageID) (m : ReadMsg) : EvictionResponseMsg where
  msgID := id
  addr := m.addr
  solicitingMessage := m.msgID

/-- An invalidation of the line of a read. -/
def InvalidateMsg.ofRead (id : MessageID) (m : ReadMsg) : InvalidateMsg where
  msgID := id
  addr := m.addr
  newOwner := InvalidNodeID

/-- The answer to an invalidation. -/
def InvalidateResponseMsg.ofInvalidate (id : MessageID) (m : InvalidateMsg) :
    InvalidateResponseMsg where
  msgID := id
  addr := m.addr
  blockAttached := false
  solicitingMessage := m.msgID

/-- An answer to an invalidation made from another one. -/
def InvalidateResponseMsg.ofInvalidateResponse (id : MessageID) (m : InvalidateResponseMsg) :
    InvalidateResponseMsg :=
  { m with msgID := id }

/-- A read made from another one. -/
def ReadMsg.ofRead (id : MessageID) (m : ReadMsg) : ReadMsg :=
  { m with msgID := id }

/-- A read of the line of a read response; `requestingExclusive` and `alreadyHasBlock` are
for the caller to set. -/
def ReadMsg.ofReadResponse (id : MessageID) (m : ReadResponseMsg) : ReadMsg where
  msgID := id
  addr := m.addr
  requestingExclusive := false
  alreadyHasBlock := false
  directoryLookup := false

/-- A write of the line of an eviction. -/
def WriteMsg.ofEviction (id : MessageID) (m : EvictionMsg) : WriteMsg where
  msgID := id
  addr := m.addr

/-- A write of the line of a read response. -/
def WriteMsg.ofReadResponse (id : MessageID) (m : ReadResponseMsg) : WriteMsg where
  msgID := id
  addr := m.addr

/-- A message of any type; the constructors are the values of `MsgType` other than
`mt_Network`, whose envelopes are the packets of each system. -/
inductive Msg
  | read (m : ReadMsg)
  | write (m : WriteMsg)
  | invalidate (m : InvalidateMsg)
  | eviction (m : EvictionMsg)
  | readResponse (m : ReadResponseMsg)
  | writeResponse (m : WriteResponseMsg)
  | invalidateResponse (m : InvalidateResponseMsg)
  | evictionResponse (m : EvictionResponseMsg)
  | cacheNak (m : CacheNakMsg)
  | directoryNak (m : DirectoryNakMsg)
  | intervention (m : InterventionMsg)
  | invalidateAck (m : InvalidateAckMsg)
  | readReply (m : ReadReplyMsg)
  | speculativeReply (m : SpeculativeReplyMsg)
  | transfer (m : TransferMsg)
  | writeback (m : WritebackMsg)
  | writebackAck (m : WritebackAckMsg)
  | writebackRequest (m : WritebackRequestMsg)
deriving DecidableEq, Repr

namespace Msg

/-- `MsgID` of a message. -/
def msgID : Msg → MessageID
  | read m => m.msgID
  | write m => m.msgID
  | invalidate m => m.msgID
  | eviction m => m.msgID
  | readResponse m => m.msgID
  | writeResponse m => m.msgID
  | invalidateResponse m => m.msgID
  | evictionResponse m => m.msgID
  | cacheNak m => m.msgID
  | directoryNak m => m.msgID
  | intervention m => m.msgID
  | invalidateAck m => m.msgID
  | readReply m => m.msgID
  | speculativeReply m => m.msgID
  | transfer m => m.msgID
  | writeback m => m.msgID
  | writebackAck m => m.msgID
  | writebackRequest m => m.msgID

/-- `BaseMemDevice::GetAddress`. -/
def getAddress : Msg → Address
  | read m => m.addr
  | write m => m.addr
  | invalidate m => m.addr
  | eviction m => m.addr
  | readResponse m => m.addr
  | writeResponse m => m.addr
  | invalidateResponse m => m.addr
  | evictionResponse m => m.addr
  | cacheNak m => m.addr
  | directoryNak m => m.addr
  | intervention m => m.addr
  | invalidateAck m => m.addr
  | readReply m => m.addr
  | speculativeReply m => m.addr
  | transfer m => m.addr
  | writeback m => m.addr
  | writebackAck m => m.addr
  | writebackRequest m => m.addr

end Msg

/-- Why a handler stopped the simulator: a failed debugging assertion, or a message that
the handler reports through `PrintError` under the given name.  `noSuchEvent` marks an
event that cannot happen in the current state. -/
inductive Fault
  | assertion
  | printError (fromMethod : String)
  | noSuchEvent
deriving DecidableEq, Repr

/-- A `NodeIDCalculator` assigns its home node to every address. -/
abbrev NodeIDCalculator := Address → NodeID

/-- The page size and the set of nodes of a `HashedPageCalculator`. -/
structure HashedPageCalculator where
  pageSize : Address
  nodeSet : List NodeID
deriving DecidableEq, Repr

/-- `HashedPageCalculator::CalcNodeID`; an empty node set, on which the source divides by
zero, gives no node. -/
def HashedPageCalculator.calcNodeID (c : HashedPageCalculator) : NodeIDCalculator :=
  fun addr => c.nodeSet.getD (addr / c.pageSize % c.nodeSet.length) InvalidNodeID

end Sesc
