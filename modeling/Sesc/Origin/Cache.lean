import Sesc.Origin.Basic

/-!
# The cache side of an `OriginDirectory`

The handlers of the messages for the lines a node caches.  A handler gets the line whose
`CacheData` it was called with and fails when an assertion of the source fails or a null
pointer is followed.

`ProcessReadResponse` and `ProcessRemainingPendingLocalReads` call `OnCache` again for the
next pending read of the line.  The handlers therefore take the latter as the parameter
`remaining`, and `processRemainingPendingLocalReads` ties the knot: every round has taken
one read off the list of pending reads.
-/

namespace Sesc.Origin

open Lib

/-- The configuration of a device: its node and the calculator of home nodes. -/
structure Device where
  nodeID : NodeID
  directoryNodeCalc : NodeIDCalculator

namespace Device

variable (self : Device)

/-! ## Sending -/

def sendMessageToRemoteCache (msg : Msg) (dest : NodeID) (a : Activation) :
    Except Fault Activation := do
  check .assertion (dest ≠ InvalidNodeID)
  return a.send (.toCache dest self.nodeID msg)

lemma sendMessageToRemoteCache_eq_ok {msg : Msg} {dest : NodeID} {a a' : Activation} :
    self.sendMessageToRemoteCache msg dest a = .ok a' ↔
      dest ≠ InvalidNodeID ∧ a' = a.send (.toCache dest self.nodeID msg) := by
  rw [sendMessageToRemoteCache, check_bind_eq_ok]
  refine and_congr_right fun _ => ?_
  constructor
  · rintro ⟨⟩
    rfl
  · rintro rfl
    rfl

def sendMessageToDirectory (msg : Msg) (a : Activation) : Except Fault Activation := do
  let dirNode := self.directoryNodeCalc msg.getAddress
  check .assertion (dirNode ≠ InvalidNodeID)
  return a.send (.toDirectory dirNode self.nodeID msg)

def resendRequestToDirectory (m : ReadMsg) (a : Activation) : Activation :=
  a.send (.toDirectory (self.directoryNodeCalc m.addr) self.nodeID (.read m))

/-- `SendMsg` on the connection to the local cache. -/
def sendMsgToLocalCache (msg : Msg) (a : Activation) : Activation :=
  a.send (.toLocalCache self.nodeID msg)

/-- `SendMessageToLocalCache`. -/
def sendMessageToLocalCache (msg : ReadReplyMsg) (a : Activation) : Activation :=
  self.sendMsgToLocalCache
    (.readResponse (.ofReadResponse a.currentMsgStamp msg.toReadResponseMsg)) a.stamped

/-- `SendCacheNak` for a read. -/
def sendCacheNak (m : ReadMsg) (dest : NodeID) (a : Activation) : Except Fault Activation :=
  self.sendMessageToRemoteCache
    (.cacheNak
      { msgID := a.currentMsgStamp
        addr := m.addr
        solicitingMessage := m.msgID
        interventionMessage := 0 })
    dest a.stamped

/-- `SendCacheNak` for an intervention. -/
def sendCacheNakIntervention (m : InterventionMsg) (a : Activation) :
    Except Fault Activation :=
  self.sendMessageToRemoteCache
    (.cacheNak
      { msgID := a.currentMsgStamp
        addr := m.addr
        solicitingMessage := m.solicitingMessage
        interventionMessage := m.msgID })
    m.newOwner a.stamped

def sendDirectoryNak (m : InterventionMsg) (a : Activation) : Except Fault Activation :=
  self.sendMessageToDirectory
    (.directoryNak
      { msgID := a.currentMsgStamp
        addr := m.addr
        solicitingMessage := m.solicitingMessage
        isInvalidateResponse := false
        isReadResponse := false })
    a.stamped

def sendInterventionNaks (im : InterventionMsg) (a : Activation) :
    Except Fault Activation := do
  check .assertion (im.newOwner ≠ InvalidNodeID)
  let a ← self.sendDirectoryNak im a
  self.sendCacheNakIntervention im a

/-- The answer of an owner to an intervention: a read response for the new owner. -/
def sendInterventionResponse (m : InterventionMsg) (blockAttached exclusiveOwnership : Bool)
    (interventionMessage : MessageID) (a : Activation) : Except Fault Activation :=
  self.sendMessageToRemoteCache
    (.readResponse
      { ReadResponseMsg.ofIntervention a.currentMsgStamp m with
        blockAttached := blockAttached
        exclusiveOwnership := exclusiveOwnership
        interventionMessage := interventionMessage
        satisfied := true })
    m.newOwner a.stamped

/-- The answer of an owner to an intervention: a transfer for the home node. -/
def sendTransfer (m : InterventionMsg) (isDirty isShared : Bool) (a : Activation) :
    Except Fault Activation :=
  self.sendMessageToDirectory
    (.transfer
      { EvictionMsg.ofRead a.currentMsgStamp m.toReadMsg with
        isDirty := isDirty
        isShared := isShared })
    a.stamped

/-- The answer of a dirty owner to a shared intervention: a writeback for the home node. -/
def sendWriteback (m : InterventionMsg) (a : Activation) : Except Fault Activation :=
  self.sendMessageToDirectory
    (.writeback
      { EvictionMsg.ofRead a.currentMsgStamp m.toReadMsg with
        blockAttached := true
        isDirty := false
        isShared := true })
    a.stamped

/-! ## Helpers of the handlers -/

def processInterventionWhileInvalid (m : InterventionMsg) (src : NodeID) (a : Activation) :
    Except Fault Activation := do
  check .assertion (src = self.directoryNodeCalc m.addr)
  check .assertion (m.newOwner ≠ InvalidNodeID)
  if m.requestingExclusive then
    let a ← self.sendInterventionResponse m false true 0 a
    self.sendTransfer m true false a
  else
    let a ← self.sendInterventionResponse m false false 0 a
    self.sendTransfer m false true a

def processInvalidateWhileInvalid (m : InvalidateMsg) (src : NodeID) (a : Activation) :
    Except Fault Activation := do
  check .assertion (src = self.directoryNodeCalc m.addr)
  self.sendMessageToRemoteCache
    (.invalidateAck ⟨.ofInvalidate a.currentMsgStamp m⟩) m.newOwner a.stamped

/-- `ProcessReadResponse`: the read that has been answered is no longer pending. -/
def processReadResponse (remaining : Activation → Except Fault Activation)
    (m : ReadResponseMsg) (line : Address) (a : Activation) : Except Fault Activation := do
  check .assertion (a.dir.pendingLocalReads m.solicitingMessage ≠ none)
  let a := a.setPendingLocalRead m.solicitingMessage none
  match (a.cacheData line).cacheDataPendingLocalReads with
  | [] => .error .assertion
  | ref :: rest => do
    check .assertion (ref.msgID = m.solicitingMessage)
    remaining (a.modifyCacheData line fun c => { c with cacheDataPendingLocalReads := rest })

/-! ## Stable states -/

def onCacheCleanExclusive (msg : Msg) (src : NodeID) (line : Address) (a : Activation) :
    Except Fault Activation :=
  match msg with
  | .eviction m => do
    check .assertion (a.dir.pendingEviction m.addr = none)
    check .assertion ((a.cacheData line).firstReply = none)
    check .assertion (src = InvalidNodeID)
    let a := self.sendMsgToLocalCache
      (.evictionResponse (.ofEviction a.currentMsgStamp m)) a.stamped
    return a.setCacheState line .invalid
  | .intervention m => do
    check .assertion (src = self.directoryNodeCalc m.addr)
    check .assertion (a.dir.pendingEviction m.addr = none)
    if m.requestingExclusive then
      let a ← self.sendInterventionResponse m false true m.msgID a
      let a ← self.sendTransfer m true false a
      return (a.modifyCacheData line .clearTemp).setCacheState line .invalid
    else
      let a ← self.sendInterventionResponse m false false m.msgID a
      let a ← self.sendTransfer m false true a
      return (a.modifyCacheData line .clearTemp).setCacheState line .shared
  | _ => .error (.printError "OnCacheCleanEx")

def onCacheDirtyExclusive (msg : Msg) (src : NodeID) (line : Address) (a : Activation) :
    Except Fault Activation := do
  check .assertion (a.dir.pendingEviction msg.getAddress = none)
  match msg with
  | .eviction m => do
    check .assertion ((a.cacheData line).firstReply = none)
    check .assertion (src = InvalidNodeID)
    let a := a.setCacheState line .waitingForWritebackResponse
    let a ← self.sendMessageToDirectory
      (.writebackRequest
        { msgID := a.currentMsgStamp, addr := m.addr, blockAttached := m.blockAttached })
      a.stamped
    return a.setPendingEviction m.addr (some m)
  | .intervention m => do
    check .assertion (src = self.directoryNodeCalc m.addr)
    if m.requestingExclusive then
      let a := a.setCacheState line .invalid
      let a ← self.sendInterventionResponse m true true m.msgID a
      let a ← self.sendTransfer m true false a
      return a.modifyCacheData line .clearTemp
    else
      let a := a.setCacheState line .shared
      let a ← self.sendInterventionResponse m true false m.msgID a
      let a ← self.sendWriteback m a
      return a.modifyCacheData line .clearTemp
  | _ => .error (.printError "OnCacheEvic")

/-- The stored intervention goes to the handler of a dirty or of a clean exclusive line. -/
def onCacheFirstReply (isDirty : Bool) (line : Address) (a : Activation) :
    Except Fault Activation :=
  match (a.cacheData line).firstReply with
  | none => .error .assertion
  | some firstReply =>
    if isDirty then self.onCacheDirtyExclusive firstReply (a.cacheData line).firstReplySrc line a
    else self.onCacheCleanExclusive firstReply (a.cacheData line).firstReplySrc line a

def onCacheExclusive (remaining : Activation → Except Fault Activation) (msg : Msg)
    (src : NodeID) (line : Address) (a : Activation) : Except Fault Activation :=
  match msg with
  | .intervention m => do
    check .assertion ((a.cacheData line).firstReply = none)
    check .assertion ((a.cacheData line).firstReplySrc = InvalidNodeID)
    check .assertion (src = self.directoryNodeCalc m.addr)
    check .assertion (m.newOwner ≠ InvalidNodeID)
    let a := a.modifyCacheData line fun c =>
      { c with firstReply := some msg, firstReplySrc := src }
    if m.requestingExclusive then
      let im := InvalidateMsg.ofRead a.currentMsgStamp m.toReadMsg
      let a := a.stamped
      check .assertion (a.dir.pendingRemoteInvalidates im.msgID = none)
      let a := a.setPendingRemoteInvalidate im.msgID (some im)
      return self.sendMsgToLocalCache (.invalidate im) a
    else
      let rm := ReadMsg.ofRead a.currentMsgStamp m.toReadMsg
      let a := a.stamped
      check .assertion (a.dir.pendingRemoteReads rm.msgID = none)
      let a := a.setPendingRemoteRead rm.msgID (some rm)
      return self.sendMsgToLocalCache (.read rm) a
  | .eviction m => do
    check .assertion (src = InvalidNodeID)
    match (a.cacheData line).firstReply with
    | none =>
      if m.blockAttached then self.onCacheDirtyExclusive msg src line a
      else self.onCacheCleanExclusive msg src line a
    -- an intervention has asked the local cache, whose eviction was already on its way
    | some (.intervention _) =>
      return a.modifyCacheData line fun c =>
        { c with secondReply := some m, cacheState := .exclusiveInterventionEviction }
    | some _ => .error .assertion
  | .invalidateResponse m => do
    check .assertion ((a.cacheData line).firstReply ≠ none)
    check .assertion ((a.cacheData line).firstReplySrc = self.directoryNodeCalc m.addr)
    check .assertion (a.dir.pendingRemoteInvalidates m.solicitingMessage ≠ none)
    let a := a.setPendingRemoteInvalidate m.solicitingMessage none
    self.onCacheFirstReply m.blockAttached line a
  | .readResponse m => do
    check .assertion ((a.cacheData line).firstReply ≠ none)
    check .assertion ((a.cacheData line).firstReplySrc = self.directoryNodeCalc m.addr)
    check .assertion (a.dir.pendingRemoteReads m.solicitingMessage ≠ none)
    let a := a.setPendingRemoteRead m.solicitingMessage none
    self.onCacheFirstReply m.isDirty line a
  -- the read response is created and never sent
  | .read m => processReadResponse remaining (.ofRead a.currentMsgStamp m) line a.stamped
  | _ => .error (.printError "OnCacheEx")

def onCacheExclusiveInterventionEviction (msg : Msg) (line : Address) (a : Activation) :
    Except Fault Activation :=
  match (a.cacheData line).secondReply, (a.cacheData line).firstReply with
  | some secondReply, some (.intervention firstReply) =>
    match msg with
    | .invalidateResponse m => do
      check .assertion (a.dir.pendingRemoteInvalidates m.solicitingMessage ≠ none)
      let a := a.setPendingRemoteInvalidate m.solicitingMessage none
      let a := self.sendMsgToLocalCache
        (.evictionResponse (.ofEviction a.currentMsgStamp secondReply)) a.stamped
      check .assertion ((a.cacheData line).firstReplySrc = self.directoryNodeCalc m.addr)
      check .assertion (firstReply.requestingExclusive = true)
      check .assertion (a.dir.pendingEviction m.addr = none)
      let a ← self.sendInterventionResponse firstReply secondReply.blockAttached true
        firstReply.msgID a
      let a ← self.sendTransfer firstReply true false a
      return (a.modifyCacheData line .clearTemp).setCacheState line .invalid
    | .readResponse m => do
      check .assertion (a.dir.pendingRemoteReads m.solicitingMessage ≠ none)
      let a := a.setPendingRemoteRead m.solicitingMessage none
      let a := self.sendMsgToLocalCache
        (.evictionResponse (.ofEviction a.currentMsgStamp secondReply)) a.stamped
      check .assertion ((a.cacheData line).firstReplySrc = self.directoryNodeCalc m.addr)
      check .assertion (firstReply.requestingExclusive = false)
      check .assertion (a.dir.pendingEviction m.addr = none)
      let a ← self.sendInterventionResponse firstReply secondReply.blockAttached false
        firstReply.msgID a
      let a ← if secondReply.blockAttached then self.sendWriteback firstReply a
        else self.sendTransfer firstReply false true a
      return (a.modifyCacheData line .clearTemp).setCacheState line .invalid
    | _ => .error (.printError "OnCacheExIntvEvic")
  | _, _ => .error .assertion

def onCacheInvalid (msg : Msg) (src : NodeID) (line : Address) (a : Activation) :
    Except Fault Activation :=
  match msg with
  | .intervention m => self.processInterventionWhileInvalid m src a
  | .read m => do
    check .assertion (src = InvalidNodeID)
    let a := a.setCacheState line
      (if m.requestingExclusive then .waitingForExclusiveReadResponse
        else .waitingForSharedReadResponse)
    self.sendMessageToDirectory msg a
  | .invalidate m => self.processInvalidateWhileInvalid m src a
  | _ => .error (.printError "OnCacheInvalid")

def onCacheShared (msg : Msg) (src : NodeID) (line : Address) (a : Activation) :
    Except Fault Activation :=
  match msg with
  | .invalidate m => do
    check .assertion (src = self.directoryNodeCalc m.addr)
    check .assertion ((a.cacheData line).firstReply = none)
    check .assertion ((a.cacheData line).firstReplySrc = InvalidNodeID)
    let a := a.modifyCacheData line fun c =>
      { c with firstReply := some msg, firstReplySrc := m.newOwner }
    return self.sendMsgToLocalCache msg a
  | .invalidateResponse m => do
    check .assertion (src = InvalidNodeID)
    match (a.cacheData line).firstReply with
    | some (.invalidate firstReply) =>
      check .assertion ((a.cacheData line).firstReplySrc ≠ InvalidNodeID)
      check .assertion (m.solicitingMessage = firstReply.msgID)
      let a := a.setCacheState line .invalid
      check .assertion (firstReply.newOwner ≠ InvalidNodeID)
      let a ← self.sendMessageToRemoteCache
        (.invalidateAck ⟨.ofInvalidateResponse a.currentMsgStamp m⟩) firstReply.newOwner a.stamped
      return a.modifyCacheData line .clearTemp
    | _ => .error .assertion
  | .read m => do
    check .assertion (m.requestingExclusive = true)
    let a := a.setCacheState line .waitingForExclusiveReadResponse
    self.sendMessageToDirectory msg a
  | .eviction m => do
    -- a line with an invalidate on its way to the local cache stays shared
    let a ← match (a.cacheData line).firstReply with
      | none => pure (a.setCacheState line .invalid)
      | some (.invalidate _) => pure a
      | some _ => .error .assertion
    return self.sendMsgToLocalCache
      (.evictionResponse (.ofEviction a.currentMsgStamp m)) a.stamped
  | _ => .error (.printError "OnCacheSh")

end Device

end Sesc.Origin
