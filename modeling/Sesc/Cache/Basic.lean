import Mathlib.Logic.Function.Basic
import Sesc.Lib.Check
import Sesc.Messages

/-!
# The data of a `BIPMOESICache`

A set-associative cache between a local connection, to the level above, and a remote
connection, to the level below.  `MOESICache` has the same data and differs in one handler.
The array of blocks is a function on indices of which only those below
`setCount * associativity` are used; a hash map is a function to `Option`, and a stored
function call is the request it performs again.

The handlers work on an `Activation`: the cache, the stamp of the next message, the current
tick, the values that `rand` returns and the messages sent so far.
-/

namespace Sesc.Cache

open Lib

abbrev AddrTag := ℕ
abbrev TimeDelta := ℕ

/-- `BIPMOESICache::BIPMOESIState`. -/
inductive BIPMOESIState
  | modified
  | owned
  | exclusive
  | shared
  | invalid
deriving DecidableEq, Repr

/-- `BIPMOESICache::BlockState`. -/
structure BlockState where
  lastRead : TickTime
  lastWrite : TickTime
  locked : Bool
  valid : Bool
  tag : AddrTag
  state : BIPMOESIState
deriving DecidableEq, Repr

/-- A block of a new cache; the source leaves its state unset. -/
def BlockState.new : BlockState where
  lastRead := 0
  lastWrite := 0
  locked := false
  valid := false
  tag := 0
  state := .invalid

/-- Whether the data of the block differ from those of the level below. -/
def BIPMOESIState.isDirty : BIPMOESIState → Bool
  | modified => true
  | owned => true
  | _ => false

/-- The state after dirty data have come from the level above. -/
def BIPMOESIState.dirtied : BIPMOESIState → BIPMOESIState
  | exclusive => modified
  | shared => owned
  | s => s

def BlockState.mapState (b : BlockState) (f : BIPMOESIState → BIPMOESIState) : BlockState :=
  { b with state := f b.state }

/-- The two classes of caches. -/
inductive CacheKind
  | bipMOESI
  | moesi
deriving DecidableEq, Repr

inductive EvictionPolicy
  | random
  | lru
deriving DecidableEq, Repr

/-- The configuration of a cache. -/
structure CacheConfig where
  kind : CacheKind
  hitTime : TimeDelta
  missTime : TimeDelta
  evictionTime : TimeDelta
  invalidateTime : TimeDelta
  satisfyRequestTime : TimeDelta
  evictionPolicy : EvictionPolicy
  associativity : ℕ
  setCount : ℕ
  lineSize : Address
  topCache : Bool
deriving DecidableEq, Repr

/-- A request that waits until a block is unlocked: `CBPerformRead` or `CBPerformWrite`. -/
inductive BlockWaiter
  | performRead (m : ReadMsg)
  | performWrite (m : WriteMsg)
deriving DecidableEq, Repr

/-- A request of the local connection that waits until a block of its set is unlocked:
`CBRetryMsg`. -/
inductive SetWaiter
  | read (m : ReadMsg)
  | write (m : WriteMsg)
deriving DecidableEq, Repr

/-- The tables of a cache.  The calls stored under one key are a list in the order of their
execution; there is no entry under a key whose list is empty. -/
structure BIPMOESICache where
  cacheContents : ℕ → BlockState
  waitingOnBlockUnlock : AddrTag → List BlockWaiter
  waitingOnSetUnlock : ℕ → List SetWaiter
  waitingOnRemoteReads : AddrTag → List ReadMsg
  pendingEviction : AddrTag → Option BlockState
  pendingInvalidate : AddrTag → Option InvalidateMsg
  canceledBlockEviction : AddrTag → Bool

def BIPMOESICache.new : BIPMOESICache where
  cacheContents := fun _ => .new
  waitingOnBlockUnlock := fun _ => []
  waitingOnSetUnlock := fun _ => []
  waitingOnRemoteReads := fun _ => []
  pendingEviction := fun _ => none
  pendingInvalidate := fun _ => none
  canceledBlockEviction := fun _ => false

/-- The two connections of a cache. -/
inductive Port
  | localConnection
  | remoteConnection
deriving DecidableEq, Repr

/-- A message sent on a connection and the delay it is sent with. -/
structure Sent where
  port : Port
  msg : Msg
  delay : TimeDelta
deriving DecidableEq, Repr

/-- What a handler works on. -/
structure Activation where
  cache : BIPMOESICache
  currentMsgStamp : MessageID
  currentTick : TickTime
  rands : List ℕ
  sent : List Sent

namespace CacheConfig

variable (cfg : CacheConfig)

/-- `CalcTag`. -/
def calcTag (addr : Address) : AddrTag := addr / cfg.lineSize

/-- `CalcAddr`. -/
def calcAddr (tag : AddrTag) : Address := tag * cfg.lineSize

/-- `CalcSetFromTag`. -/
def calcSetFromTag (tag : AddrTag) : ℕ := tag % cfg.setCount

/-- The index of a block of a set. -/
def blockIndex (set i : ℕ) : ℕ := set * cfg.associativity + i

/-- The indices of the blocks of a set, in order. -/
def set (i : ℕ) : List ℕ := (List.range cfg.associativity).map (cfg.blockIndex i)

/-- `Lookup`, with the index of the block. -/
def lookup (c : BIPMOESICache) (tag : AddrTag) : Option ℕ :=
  (cfg.set (cfg.calcSetFromTag tag)).find? fun j =>
    (c.cacheContents j).valid && (c.cacheContents j).tag == tag

/-- The block that `Lookup` finds. -/
def block (c : BIPMOESICache) (tag : AddrTag) : Option BlockState :=
  (cfg.lookup c tag).map c.cacheContents

end CacheConfig

namespace Activation

variable (a : Activation)

def modifyBlock (j : ℕ) (f : BlockState → BlockState) : Activation :=
  { a with
    cache.cacheContents :=
      Function.update a.cache.cacheContents j (f (a.cache.cacheContents j)) }

def setWaitingOnBlockUnlock (tag : AddrTag) (l : List BlockWaiter) : Activation :=
  { a with
    cache.waitingOnBlockUnlock := Function.update a.cache.waitingOnBlockUnlock tag l }

def setWaitingOnSetUnlock (set : ℕ) (l : List SetWaiter) : Activation :=
  { a with cache.waitingOnSetUnlock := Function.update a.cache.waitingOnSetUnlock set l }

def setWaitingOnRemoteReads (tag : AddrTag) (l : List ReadMsg) : Activation :=
  { a with
    cache.waitingOnRemoteReads := Function.update a.cache.waitingOnRemoteReads tag l }

def setPendingEviction (tag : AddrTag) (b : Option BlockState) : Activation :=
  { a with cache.pendingEviction := Function.update a.cache.pendingEviction tag b }

def setPendingInvalidate (tag : AddrTag) (m : Option InvalidateMsg) : Activation :=
  { a with cache.pendingInvalidate := Function.update a.cache.pendingInvalidate tag m }

def setCanceledBlockEviction (tag : AddrTag) (p : Bool) : Activation :=
  { a with cache.canceledBlockEviction := Function.update a.cache.canceledBlockEviction tag p }

/-- `SendMsg` on a connection. -/
def sendMsg (port : Port) (msg : Msg) (delay : TimeDelta) : Activation :=
  { a with sent := a.sent ++ [⟨port, msg, delay⟩] }

/-- The stamp has been given to a new message. -/
def stamped : Activation := { a with currentMsgStamp := a.currentMsgStamp + 1 }

/-- `WaitOnBlockUnlock`. -/
def waitOnBlockUnlock (tag : AddrTag) (f : BlockWaiter) : Activation :=
  a.setWaitingOnBlockUnlock tag (a.cache.waitingOnBlockUnlock tag ++ [f])

/-- `WaitOnRemoteReadResponse`. -/
def waitOnRemoteReadResponse (tag : AddrTag) (f : ReadMsg) : Activation :=
  a.setWaitingOnRemoteReads tag (a.cache.waitingOnRemoteReads tag ++ [f])

/-- `WaitOnSetUnlock`. -/
def waitOnSetUnlock (set : ℕ) (f : SetWaiter) : Activation :=
  a.setWaitingOnSetUnlock set (a.cache.waitingOnSetUnlock set ++ [f])

end Activation

end Sesc.Cache
