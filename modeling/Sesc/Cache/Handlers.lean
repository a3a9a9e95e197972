import Sesc.Cache.Basic

/-!
# The handlers of a `BIPMOESICache`

A handler fails when an assertion of the source fails, when a null pointer is followed or
when the source calls `DebugFail`.
-/

namespace Sesc.Cache

open Lib

/-! ## Eviction policies -/

/-- The blocks a policy may evict. -/
def BlockState.isEvictable (b : BlockState) : Bool :=
  b.valid && b.state ≠ .invalid && !b.locked

/-- `RandomEvictionPolicy::Evict`, on the blocks of a set; the value of `rand` is given. -/
def randomEvict (blocks : List BlockState) (rand : ℕ) : Except Fault (Option ℕ) :=
  if blocks.countP BlockState.isEvictable = 0 then .ok none
  else
    let candidates := (List.range blocks.length).filter fun i =>
      (blocks[i]?.map BlockState.isEvictable).getD false
    match candidates[rand % blocks.length]? with
    | some i => .ok (some i)
    | none => .error .assertion

/-- The loop of `LRUEvictionPolicy::Evict`: the index and the use time of the block found so
far, and the index of the next block. -/
def lruLoop : List BlockState → ℕ → Option ℕ → TickTime → Option ℕ
  | [], _, index, _ => index
  | b :: rest, i, index, useTime =>
    if b.isEvictable ∧ max b.lastWrite b.lastRead < useTime then
      lruLoop rest (i + 1) (some i) (max b.lastWrite b.lastRead)
    else lruLoop rest (i + 1) index useTime

/-- `LRUEvictionPolicy::Evict`, on the blocks of a set. -/
def lruEvict (blocks : List BlockState) : Except Fault (Option ℕ) :=
  if blocks.countP BlockState.isEvictable = 0 then .ok none
  else do
    let index := lruLoop blocks 0 none (0xFFFFFFFFFFFFFFFF)
    check .assertion (index ≠ none)
    return index

namespace CacheConfig

variable (cfg : CacheConfig)

/-- The eviction policy on a set: the index in the set of the block to evict. -/
def evict (set : ℕ) (a : Activation) : Except Fault (Option ℕ × Activation) := do
  check .assertion (0 < cfg.associativity)
  let blocks := (cfg.set set).map a.cache.cacheContents
  match cfg.evictionPolicy with
  | .lru =>
    let i ← lruEvict blocks
    return (i, a)
  | .random =>
    let i ← randomEvict blocks (a.rands.headD 0)
    return (i, if i = none then a else { a with rands := a.rands.tail })

/-! ## Blocks -/

def invalidateBlock (j : ℕ) (a : Activation) : Except Fault Activation := do
  check .assertion (a.cache.waitingOnBlockUnlock (a.cache.cacheContents j).tag = [])
  return a.modifyBlock j fun _ => .new

def prepareFreshBlock (set i : ℕ) (tag : AddrTag) (a : Activation) :
    Except Fault Activation := do
  let j := cfg.blockIndex set i
  check .assertion ((a.cache.cacheContents j).locked = false)
  match a.cache.pendingEviction tag with
  | none =>
    return a.modifyBlock j fun b =>
      { b with valid := true, tag := tag, lastWrite := 0, lastRead := 0, state := .invalid }
  | some b =>
    -- the pending eviction is canceled
    let a := a.setCanceledBlockEviction tag true
    let a := a.modifyBlock j fun _ => b
    let a := a.setPendingEviction tag none
    check .assertion (b.state ≠ .invalid)
    check .assertion (b.locked = false)
    return a

def evictBlock (tag : AddrTag) (a : Activation) : Except Fault Activation :=
  match cfg.block a.cache tag with
  | none => .error .assertion
  | some b => do
    check .assertion (a.cache.pendingEviction tag = none)
    check .assertion (b.valid = true)
    check .assertion (b.locked = false)
    check .assertion (b.state ≠ .invalid)
    return a.stamped.sendMsg .remoteConnection
      (.eviction
        { msgID := a.currentMsgStamp
          addr := cfg.calcAddr b.tag
          blockAttached := b.lastWrite ≠ 0 })
      cfg.evictionTime

/-- `AllocateBlock`: whether a block has been allocated. -/
def allocateBlock (tag : AddrTag) (a : Activation) : Except Fault (Bool × Activation) := do
  let set := cfg.calcSetFromTag tag
  match (List.range cfg.associativity).find? fun i =>
      !(a.cache.cacheContents (cfg.blockIndex set i)).valid with
  | some i =>
    let a ← cfg.prepareFreshBlock set i tag a
    return (true, a)
  | none =>
    let (eviction, a) ← cfg.evict set a
    match eviction with
    | none => return (false, a)
    | some eviction =>
      let b := a.cache.cacheContents (cfg.blockIndex set eviction)
      if cfg.topCache then
        let a ← cfg.evictBlock b.tag a
        let a ← cfg.prepareFreshBlock set eviction tag a
        return (true, a)
      else
        check .assertion (a.cache.pendingEviction b.tag = none)
        let a := a.setPendingEviction b.tag (some b)
        -- the source tests the tag to allocate, not the evicted one
        let a := match a.cache.pendingInvalidate tag with
          | none => a.stamped.sendMsg .localConnection
              (.invalidate
                { msgID := a.currentMsgStamp
                  addr := cfg.calcAddr b.tag
                  newOwner := InvalidNodeID })
              cfg.invalidateTime
          | some _ => a
        let a ← cfg.prepareFreshBlock set eviction tag a
        return (true, a)

def lockBlock (tag : AddrTag) (a : Activation) : Except Fault Activation :=
  match cfg.lookup a.cache tag with
  | none => .error .assertion
  | some j => do
    check .assertion ((a.cache.cacheContents j).valid = true)
    check .assertion ((a.cache.cacheContents j).locked = false)
    check .assertion (a.cache.waitingOnBlockUnlock tag = [])
    return a.modifyBlock j fun b => { b with locked := true }

/-! ## Requests -/

/-- A miss: the block is locked and the read goes to the level below. -/
def forwardMiss (tag : AddrTag) (b : BlockState) (requestingExclusive : Bool) (a : Activation) :
    Except Fault Activation :=
  if b.locked then .ok a
  else do
    let a ← cfg.lockBlock tag a
    return a.stamped.sendMsg .remoteConnection
      (.read
        { msgID := a.currentMsgStamp
          addr := cfg.calcAddr tag
          requestingExclusive := requestingExclusive
          alreadyHasBlock := b.state ≠ .invalid
          directoryLookup := false })
      cfg.missTime

def performRead (m : ReadMsg) (a : Activation) : Except Fault Activation :=
  let tag := cfg.calcTag m.addr
  match cfg.lookup a.cache tag with
  | none => .error .assertion
  | some j => do
    let b := a.cache.cacheContents j
    let a ← if b.state = .invalid ∨
        m.requestingExclusive = true ∧ (b.state = .shared ∨ b.state = .owned) then do
        let a ← cfg.forwardMiss tag b m.requestingExclusive a
        pure (a.waitOnBlockUnlock tag (.performRead m))
      else
        pure (a.stamped.sendMsg .localConnection
          (.readResponse
            { ReadResponseMsg.ofRead a.currentMsgStamp m with
              blockAttached := !m.alreadyHasBlock
              exclusiveOwnership := b.state = .exclusive ∨ b.state = .modified
              satisfied := true })
          cfg.hitTime)
    return a.modifyBlock j fun b => { b with lastRead := a.currentTick }

def performWrite (m : WriteMsg) (a : Activation) : Except Fault Activation :=
  let tag := cfg.calcTag m.addr
  match cfg.lookup a.cache tag with
  | none => .error .assertion
  | some j => do
    let b := a.cache.cacheContents j
    let a ← if b.state = .invalid ∨ b.state = .shared ∨ b.state = .owned then do
        let a ← cfg.forwardMiss tag b true a
        pure (a.waitOnBlockUnlock tag (.performWrite m))
      else do
        let a := a.modifyBlock j fun b => { b with state := .modified }
        pure (a.stamped.sendMsg .localConnection
          (.writeResponse
            { msgID := a.currentMsgStamp, addr := m.addr, solicitingMessage := m.msgID })
          cfg.hitTime)
    return a.modifyBlock j fun b => { b with lastWrite := a.currentTick }

def performRemoteRead (m : ReadMsg) (a : Activation) : Except Fault Activation :=
  let tag := cfg.calcTag m.addr
  let res := ReadResponseMsg.ofRead a.currentMsgStamp m
  let a := a.stamped
  match cfg.lookup a.cache tag with
  | none => .ok (a.sendMsg .remoteConnection (.readResponse res) cfg.hitTime)
  | some j => do
    let b := a.cache.cacheContents j
    if b.state = .invalid then
      return a.sendMsg .remoteConnection (.readResponse res) cfg.hitTime
    else if m.requestingExclusive then
      let a ← if a.cache.waitingOnBlockUnlock tag ≠ [] then do
          check .assertion (b.locked = true)
          pure (a.modifyBlock j fun b => { b with state := .invalid })
        else do
          check .assertion (b.locked = false)
          invalidateBlock j a
      return a.sendMsg .remoteConnection
        (.readResponse
          { res with
            blockAttached := !m.alreadyHasBlock
            exclusiveOwnership := true
            satisfied := true })
        cfg.hitTime
    else
      let a := a.modifyBlock j fun b => b.mapState fun
        | .modified => .owned
        | .exclusive => .shared
        | s => s
      return a.sendMsg .remoteConnection
        (.readResponse
          { res with
            isDirty := b.state = .modified
            blockAttached := true
            satisfied := true })
        cfg.hitTime

def respondInvalidate (tag : AddrTag) (a : Activation) : Except Fault Activation :=
  match a.cache.pendingInvalidate tag with
  | none => .error .assertion
  | some pending => do
    let j := cfg.lookup a.cache tag
    let res : InvalidateResponseMsg := .ofInvalidate a.currentMsgStamp pending
    let res := { res with addr := cfg.calcAddr tag }
    let a := a.stamped
    let (blockAttached, a) := match j, a.cache.pendingEviction tag with
      | some j, _ => ((a.cache.cacheContents j).state.isDirty, a)
      | none, some b => (b.state.isDirty, a.setPendingEviction tag none)
      | none, none => (false, a)
    let a := a.sendMsg .remoteConnection
      (.invalidateResponse { res with blockAttached := blockAttached }) cfg.invalidateTime
    let a ← if a.cache.waitingOnBlockUnlock tag ≠ [] then
        match j with
        | none => .error .assertion
        | some j => do
          check .assertion ((a.cache.cacheContents j).locked = true)
          let a := a.modifyBlock j fun b => { b with state := .invalid }
          pure (a.stamped.sendMsg .remoteConnection
            (.read
              { msgID := a.currentMsgStamp
                addr := pending.addr
                requestingExclusive := false
                alreadyHasBlock := false
                directoryLookup := false })
            cfg.invalidateTime)
      else
        match j with
        | none => pure a
        | some j => invalidateBlock j a
    return a.setPendingInvalidate tag none

/-! ## Messages from the local connection -/

def onLocalRead (m : ReadMsg) (a : Activation) : Except Fault Activation :=
  let tag := cfg.calcTag m.addr
  match cfg.lookup a.cache tag with
  | some _ => cfg.performRead m a
  | none => do
    let (allocateBlockResult, a) ← cfg.allocateBlock tag a
    if allocateBlockResult then cfg.performRead m a
    else return a.waitOnSetUnlock (cfg.calcSetFromTag tag) (.read m)

def onLocalWrite (m : WriteMsg) (a : Activation) : Except Fault Activation :=
  let tag := cfg.calcTag m.addr
  match cfg.lookup a.cache tag with
  | some _ => cfg.performWrite m a
  | none => do
    let (allocateBlockResult, a) ← cfg.allocateBlock tag a
    if allocateBlockResult then cfg.performWrite m a
    else return a.waitOnSetUnlock (cfg.calcSetFromTag tag) (.write m)

def onLocalEviction (m : EvictionMsg) (a : Activation) : Except Fault Activation :=
  let a := match cfg.lookup a.cache (cfg.calcTag m.addr) with
    | some j =>
      if m.blockAttached then a.modifyBlock j fun b => b.mapState BIPMOESIState.dirtied else a
    | none => a
  .ok (a.stamped.sendMsg .localConnection
    (.evictionResponse (.ofEviction a.currentMsgStamp m)) cfg.hitTime)

/-- The stored remote reads are performed in their order. -/
def performRemoteReads : List ReadMsg → Activation → Except Fault Activation
  | [], a => .ok a
  | m :: rest, a => do
    let a ← cfg.performRemoteRead m a
    performRemoteReads rest a

def onLocalReadResponse (m : ReadResponseMsg) (a : Activation) : Except Fault Activation :=
  let tag := cfg.calcTag m.addr
  let f := a.cache.waitingOnRemoteReads tag
  cfg.performRemoteReads f (a.setWaitingOnRemoteReads tag [])

def onLocalInvalidateResponse (m : InvalidateResponseMsg) (a : Activation) :
    Except Fault Activation := do
  let tag := cfg.calcTag m.addr
  check .assertion (a.cache.pendingEviction tag ≠ none ∨ a.cache.pendingInvalidate tag ≠ none ∨
    a.cache.canceledBlockEviction tag = true)
  if a.cache.canceledBlockEviction tag then
    check .assertion (a.cache.pendingEviction tag = none)
    check .assertion (a.cache.pendingInvalidate tag = none)
    return a.setCanceledBlockEviction tag false
  else
    let a :=
      if m.blockAttached then
        match a.cache.pendingEviction tag with
        | some b => a.setPendingEviction tag (some (b.mapState BIPMOESIState.dirtied))
        | none =>
          match a.cache.pendingInvalidate tag, cfg.lookup a.cache tag with
          | some _, some j => a.modifyBlock j fun b => b.mapState BIPMOESIState.dirtied
          | _, _ => a
      else a
    let a ← match a.cache.pendingInvalidate tag with
      | some _ => cfg.respondInvalidate tag a
      | none => pure a
    match a.cache.pendingEviction tag with
    | some b =>
      let forward : EvictionMsg :=
        { msgID := a.currentMsgStamp
          addr := cfg.calcAddr (cfg.calcTag m.addr)
          blockAttached := b.state.isDirty }
      return (a.stamped.setPendingEviction tag none).sendMsg .remoteConnection (.eviction forward)
        cfg.evictionTime
    | none => return a

/-! ## Messages from the remote connection -/

def onRemoteRead (m : ReadMsg) (a : Activation) : Except Fault Activation :=
  let tag := cfg.calcTag m.addr
  match cfg.block a.cache tag with
  | none => cfg.performRemoteRead m a
  | some b =>
    if cfg.topCache = true ∨ b.state = .invalid ∨
        m.requestingExclusive = false ∧ (b.state = .shared ∨ b.state = .owned) then
      cfg.performRemoteRead m a
    else
      let forward : ReadMsg :=
        { msgID := a.currentMsgStamp
          addr := m.addr
          requestingExclusive := m.requestingExclusive
          alreadyHasBlock := true
          directoryLookup := false }
      .ok ((a.stamped.sendMsg .localConnection (.read forward) cfg.hitTime).waitOnRemoteReadResponse
        tag m)

def onRemoteWrite (m : WriteMsg) (a : Activation) : Except Fault Activation :=
  .ok (a.stamped.sendMsg .remoteConnection
    (.writeResponse
      { msgID := a.currentMsgStamp, addr := m.addr, solicitingMessage := m.msgID })
    cfg.satisfyRequestTime)

def onRemoteInvalidate (m : InvalidateMsg) (a : Activation) : Except Fault Activation :=
  let tag := cfg.calcTag m.addr
  match a.cache.pendingInvalidate tag with
  | some _ => .ok a
  | none =>
    let a := a.setPendingInvalidate tag (some m)
    if cfg.topCache then cfg.respondInvalidate tag a
    else
      match cfg.lookup a.cache tag with
      | some _ => .ok (a.sendMsg .localConnection (.invalidate m) 0)
      | none => cfg.respondInvalidate tag a

def onRemoteEviction (m : EvictionMsg) (a : Activation) : Except Fault Activation :=
  .ok (a.stamped.sendMsg .remoteConnection
    (.evictionResponse (.ofEviction a.currentMsgStamp m)) cfg.hitTime)

/-- The stored calls for an unlocked block are made in their order. -/
def performBlockWaiters : List BlockWaiter → Activation → Except Fault Activation
  | [], a => .ok a
  | .performRead m :: rest, a => do
    let a ← cfg.performRead m a
    performBlockWaiters rest a
  | .performWrite m :: rest, a => do
    let a ← cfg.performWrite m a
    performBlockWaiters rest a

/-- The stored calls for a set with an unlocked block are made in their order. -/
def retrySetWaiters : List SetWaiter → Activation → Except Fault Activation
  | [], a => .ok a
  | .read m :: rest, a => do
    let a ← cfg.onLocalRead m a
    retrySetWaiters rest a
  | .write m :: rest, a => do
    let a ← cfg.onLocalWrite m a
    retrySetWaiters rest a

def unlockBlock (tag : AddrTag) (a : Activation) : Except Fault Activation :=
  match cfg.lookup a.cache tag with
  | none => .error .assertion
  | some j => do
    check .assertion ((a.cache.cacheContents j).valid = true)
    check .assertion ((a.cache.cacheContents j).locked = true)
    let f := a.cache.waitingOnBlockUnlock tag
    check .assertion (f ≠ [])
    let a := a.modifyBlock j fun b => { b with locked := false }
    let a ← cfg.performBlockWaiters f (a.setWaitingOnBlockUnlock tag [])
    if (a.cache.cacheContents j).locked then return a
    else
      let setIndex := cfg.calcSetFromTag tag
      let f := a.cache.waitingOnSetUnlock setIndex
      cfg.retrySetWaiters f (a.setWaitingOnSetUnlock setIndex [])

def onRemoteReadResponse (m : ReadResponseMsg) (a : Activation) : Except Fault Activation :=
  let tag := cfg.calcTag m.addr
  -- a `BIPMOESICache` answers with an eviction, a `MOESICache` with nothing
  let refuse : Activation :=
    match cfg.kind with
    | .moesi => a
    | .bipMOESI => a.stamped.sendMsg .remoteConnection
        (.eviction
          { msgID := a.currentMsgStamp, addr := m.addr, blockAttached := m.blockAttached })
        cfg.evictionTime
  match cfg.lookup a.cache tag with
  | none => .ok refuse
  | some j =>
    if (a.cache.cacheContents j).locked = false then .ok refuse
    else
      cfg.unlockBlock tag (a.modifyBlock j fun b =>
        { b with state := if m.exclusiveOwnership then .exclusive else .shared })

/-- `RecvMsg`. -/
def recvMsg (port : Port) (msg : Msg) (a : Activation) : Except Fault Activation :=
  match port, msg with
  | .localConnection, .read m => cfg.onLocalRead m a
  | .localConnection, .write m => cfg.onLocalWrite m a
  | .localConnection, .eviction m => cfg.onLocalEviction m a
  | .localConnection, .readResponse m => cfg.onLocalReadResponse m a
  | .localConnection, .invalidateResponse m => cfg.onLocalInvalidateResponse m a
  | .remoteConnection, .read m => cfg.onRemoteRead m a
  | .remoteConnection, .write m => cfg.onRemoteWrite m a
  | .remoteConnection, .invalidate m => cfg.onRemoteInvalidate m a
  | .remoteConnection, .eviction m => cfg.onRemoteEviction m a
  | .remoteConnection, .readResponse m => cfg.onRemoteReadResponse m a
  | .remoteConnection, .writeResponse _ => .ok a
  | .remoteConnection, .invalidateResponse _ => .ok a
  | .remoteConnection, .evictionResponse _ => .ok a
  | _, _ => .error .assertion

end CacheConfig

end Sesc.Cache
