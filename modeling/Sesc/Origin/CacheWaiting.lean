import Sesc.Origin.Cache

/-!
# The waiting states of the cache side

The handlers of the states in which a line waits for replies, the dispatch of a message to
the handler of its line's state (`OnCache`) and the entry point `RecvMsgCache`.
-/

namespace Sesc.Origin.Device

open Lib

variable (self : Device)

/-- A waiting line sends its pending read to the home node once more. -/
def resendPendingRead (line : Address) (a : Activation) : Except Fault Activation :=
  match (a.cacheData line).cacheDataPendingLocalReads with
  | [] => .error .assertion
  | pendingRead :: _ => .ok (self.resendRequestToDirectory pendingRead a)

def onCacheExclusiveWaitingForSpeculativeReply (remaining : Activation → Except Fault Activation)
    (msg : Msg) (src : NodeID) (line : Address) (a : Activation) : Except Fault Activation :=
  match (a.cacheData line).firstReply with
  | some (.readResponse firstReply) => do
    check .assertion ((a.cacheData line).firstReplySrc ≠ InvalidNodeID)
    match msg with
    | .speculativeReply m =>
      check .assertion (m.solicitingMessage = firstReply.solicitingMessage)
      let a := a.setCacheState line .exclusive
      let a := self.sendMsgToLocalCache
        (.readResponse
          { ReadResponseMsg.ofReadResponse a.currentMsgStamp m.toReadResponseMsg with
            blockAttached := true
            exclusiveOwnership := true })
        a.stamped
      let a := a.modifyCacheData line .clearTemp
      processReadResponse remaining firstReply line a
    | .invalidate m => self.processInvalidateWhileInvalid m src a
    | _ => .error (.printError "OnCacheExWaitForSpecReply")
  | _ => .error .assertion

def onCacheSharedWaitingForSpeculativeReply (remaining : Activation → Except Fault Activation)
    (msg : Msg) (src : NodeID) (line : Address) (a : Activation) : Except Fault Activation :=
  match (a.cacheData line).firstReply with
  | some (.readResponse firstReply) => do
    check .assertion ((a.cacheData line).firstReplySrc ≠ InvalidNodeID)
    match msg with
    | .speculativeReply m =>
      check .assertion (m.solicitingMessage = firstReply.solicitingMessage)
      let a := a.setCacheState line .shared
      let a := self.sendMsgToLocalCache
        (.readResponse
          { ReadResponseMsg.ofReadResponse a.currentMsgStamp m.toReadResponseMsg with
            blockAttached := true
            exclusiveOwnership := false })
        a.stamped
      let a := a.modifyCacheData line .clearTemp
      processReadResponse remaining firstReply line a
    | .invalidate m => self.processInvalidateWhileInvalid m src a
    | _ => .error (.printError "OnCacheShWaitForSpecReply")
  | _ => .error .assertion

def onCacheWaitingForExclusiveReadResponse (remaining : Activation → Except Fault Activation)
    (msg : Msg) (src : NodeID) (line : Address) (a : Activation) : Except Fault Activation :=
  match (a.cacheData line).cacheDataPendingLocalReads with
  | [] => .error .assertion
  | pendingRead :: _ =>
    match msg with
    | .cacheNak m => do
      check .assertion (m.solicitingMessage = pendingRead.msgID)
      match (a.cacheData line).firstReply with
      | none =>
        check .assertion ((a.cacheData line).firstReplySrc = InvalidNodeID)
        if m.interventionMessage = 0 then
          self.resendPendingRead line a
        else
          -- the speculative reply of the home node is still to come
          return a.modifyCacheData line fun c => { c with firstReply := some msg }
      | some (.invalidate _) =>
        check .assertion ((a.cacheData line).firstReplySrc ≠ InvalidNodeID)
        check .assertion ((a.cacheData line).isCanceledReadRequest = false)
        return a.modifyCacheData line fun c => { c with isCanceledReadRequest := true }
      | some _ => .error .assertion
    | .invalidate _ => do
      check .assertion ((a.cacheData line).firstReply = none)
      check .assertion ((a.cacheData line).firstReplySrc = InvalidNodeID)
      check .assertion (src ≠ InvalidNodeID)
      let a := a.modifyCacheData line fun c =>
        { c with firstReply := some msg, firstReplySrc := src }
      return self.sendMsgToLocalCache msg a
    | .invalidateResponse m =>
      match (a.cacheData line).firstReply with
      | some (.invalidate firstReply) => do
        check .assertion ((a.cacheData line).firstReplySrc ≠ InvalidNodeID)
        check .assertion (src = InvalidNodeID)
        check .assertion (m.solicitingMessage = firstReply.msgID)
        check .assertion (firstReply.newOwner ≠ InvalidNodeID)
        let a ← self.sendMessageToRemoteCache
          (.invalidateAck ⟨.ofInvalidateResponse a.currentMsgStamp m⟩) firstReply.newOwner a.stamped
        let a := a.modifyCacheData line .clearTemp
        if (a.cacheData line).isCanceledReadRequest then
          self.resendPendingRead line
            (a.modifyCacheData line fun c => { c with isCanceledReadRequest := false })
        else
          return a
      | _ => .error .assertion
    | .readReply m => do
      check .assertion ((a.cacheData line).firstReply = none)
      check .assertion ((a.cacheData line).firstReplySrc = InvalidNodeID)
      check .assertion (src ≠ InvalidNodeID)
      check .assertion (m.exclusiveOwnership = true)
      if m.pendingInvalidates = 0 then
        let a := a.setCacheState line .exclusive
        let a := self.sendMessageToLocalCache m a
        processReadResponse remaining m.toReadResponseMsg line a
      else
        return a.modifyCacheData line fun c =>
          { c with
            cacheState := .waitingForKInvalidatesJInvalidatesReceived
            firstReply := some msg
            firstReplySrc := src }
    | .invalidateAck _ => do
      check .assertion ((a.cacheData line).firstReply = none)
      check .assertion ((a.cacheData line).firstReplySrc = InvalidNodeID)
      check .assertion ((a.cacheData line).invalidAcksReceived = 0)
      return a.modifyCacheData line fun c =>
        { c with
          invalidAcksReceived := c.invalidAcksReceived + 1
          cacheState := .waitingForKInvalidatesJInvalidatesReceived }
    | .speculativeReply m => do
      check .assertion (src = self.directoryNodeCalc m.addr)
      match (a.cacheData line).firstReply with
      | none =>
        return a.modifyCacheData line fun c =>
          { c with
            cacheState := .waitingForExclusiveResponseAck
            firstReply := some msg
            firstReplySrc := src }
      | some (.cacheNak _) =>
        let a ← self.resendPendingRead line a
        return a.modifyCacheData line .clearTemp
      | some _ => .error .assertion
    | .readResponse m => do
      check .assertion (src ≠ InvalidNodeID)
      check .assertion (m.exclusiveOwnership = true)
      return a.modifyCacheData line fun c =>
        { c with
          cacheState := .exclusiveWaitingForSpeculativeReply
          firstReply := some msg
          firstReplySrc := src }
    | .intervention m => do
      check .assertion ((a.cacheData line).firstReply = none)
      check .assertion ((a.cacheData line).firstReplySrc = InvalidNodeID)
      self.sendInterventionNaks m a
    | _ => .error (.printError "OnCacheWaitForExReadRes")

def onCacheWaitingForExclusiveResponseAck (remaining : Activation → Except Fault Activation)
    (msg : Msg) (src : NodeID) (line : Address) (a : Activation) : Except Fault Activation := do
  check .assertion ((a.cacheData line).firstReply ≠ none)
  check .assertion ((a.cacheData line).firstReplySrc ≠ InvalidNodeID)
  match msg with
  | .readResponse m =>
    check .assertion (m.exclusiveOwnership = true)
    let a := a.setCacheState line .exclusive
    let a := self.sendMsgToLocalCache
      (.readResponse { m with blockAttached := true, exclusiveOwnership := true }) a
    let a := a.modifyCacheData line .clearTemp
    processReadResponse remaining m line a
  | .cacheNak m =>
    match (a.cacheData line).cacheDataPendingLocalReads with
    | [] => .error .assertion
    | ref :: _ =>
      check .assertion (ref.msgID = m.solicitingMessage)
      let a ← self.resendPendingRead line a
      let a := a.modifyCacheData line .clearTemp
      return a.setCacheState line .waitingForExclusiveReadResponse
  | .intervention m => self.sendInterventionNaks m a
  | .invalidate m => self.processInvalidateWhileInvalid m src a
  | _ => .error (.printError "OnCacheWaitForExResAck")

def onCacheWaitingForIntervention (remaining : Activation → Except Fault Activation)
    (msg : Msg) (line : Address) (a : Activation) : Except Fault Activation :=
  match (a.cacheData line).firstReply with
  | some (.writebackAck firstReply) => do
    check .assertion (firstReply.isBusy = true)
    check .assertion ((a.cacheData line).firstReplySrc ≠ InvalidNodeID)
    match msg with
    | .intervention m =>
      check .assertion (m.newOwner ≠ InvalidNodeID)
      check .assertion (a.dir.pendingEviction firstReply.addr ≠ none)
      let a := a.setPendingEviction firstReply.addr none
      let a := a.setCacheState line .invalid
      let a := self.sendMsgToLocalCache
        (.evictionResponse (.ofRead a.currentMsgStamp m.toReadMsg)) a.stamped
      remaining (a.modifyCacheData line .clearTemp)
    | _ => .error (.printError "OnCacheWaitForIntv")
  | _ => .error .assertion

def onCacheWaitingForKInvalidatesJInvalidatesReceived
    (remaining : Activation → Except Fault Activation) (msg : Msg) (src : NodeID)
    (line : Address) (a : Activation) : Except Fault Activation :=
  match msg with
  | .intervention im => self.sendInterventionNaks im a
  | .invalidateAck _ =>
    let received := a.modifyCacheData line fun c =>
      { c with invalidAcksReceived := c.invalidAcksReceived + 1 }
    match (a.cacheData line).firstReply with
    | none => .ok received
    | some (.readReply firstReply) => do
      check .assertion (firstReply.exclusiveOwnership = true)
      check .assertion ((a.cacheData line).invalidAcksReceived < firstReply.pendingInvalidates)
      if firstReply.pendingInvalidates = (received.cacheData line).invalidAcksReceived then
        let a := received.setCacheState line .exclusive
        let a := self.sendMessageToLocalCache firstReply a
        let a := a.modifyCacheData line .clearTemp
        processReadResponse remaining firstReply.toReadResponseMsg line a
      else
        return received
    | some _ => .error .assertion
  | .readReply m => do
    check .assertion (m.exclusiveOwnership = true)
    check .assertion (0 < m.pendingInvalidates)
    check .assertion ((a.cacheData line).firstReply = none)
    check .assertion ((a.cacheData line).firstReplySrc = InvalidNodeID)
    if m.pendingInvalidates = (a.cacheData line).invalidAcksReceived then
      let a := a.setCacheState line .exclusive
      let a := self.sendMessageToLocalCache m a
      let a := a.modifyCacheData line .clearTemp
      processReadResponse remaining m.toReadResponseMsg line a
    else
      return a.modifyCacheData line fun c =>
        { c with firstReply := some msg, firstReplySrc := src }
  | _ => .error (.printError "OnCacheWaitForKInvalidatesJInvalidatesReceived")

def onCacheWaitingForSharedReadResponse (remaining : Activation → Except Fault Activation)
    (msg : Msg) (src : NodeID) (line : Address) (a : Activation) : Except Fault Activation :=
  match (a.cacheData line).cacheDataPendingLocalReads with
  | [] => .error .assertion
  | pendingRead :: _ =>
    match msg with
    | .cacheNak m => do
      check .assertion (m.solicitingMessage = pendingRead.msgID)
      check .assertion ((a.cacheData line).firstReply = none)
      check .assertion ((a.cacheData line).firstReplySrc = InvalidNodeID)
      if m.interventionMessage = 0 then
        self.resendPendingRead line a
      else
        -- the speculative reply of the home node is still to come
        return a.modifyCacheData line fun c => { c with firstReply := some msg }
    | .readReply m => do
      check .assertion ((a.cacheData line).firstReply = none)
      check .assertion ((a.cacheData line).firstReplySrc = InvalidNodeID)
      let a := a.setCacheState line (if m.exclusiveOwnership then .exclusive else .shared)
      let a := self.sendMessageToLocalCache m a
      processReadResponse remaining m.toReadResponseMsg line a
    | .readResponse m => do
      check .assertion (m.exclusiveOwnership = false)
      check .assertion ((a.cacheData line).firstReply = none)
      check .assertion ((a.cacheData line).firstReplySrc = InvalidNodeID)
      return a.modifyCacheData line fun c =>
        { c with
          cacheState := .sharedWaitingForSpeculativeReply
          firstReply := some msg
          firstReplySrc := src }
    | .speculativeReply m => do
      check .assertion (src = self.directoryNodeCalc m.addr)
      match (a.cacheData line).firstReply with
      | none =>
        return a.modifyCacheData line fun c =>
          { c with
            cacheState := .waitingForSharedResponseAck
            firstReply := some msg
            firstReplySrc := src }
      | some (.cacheNak _) =>
        let a ← self.resendPendingRead line a
        return a.modifyCacheData line .clearTemp
      | some _ => .error .assertion
    | .intervention m => do
      check .assertion ((a.cacheData line).firstReply = none)
      check .assertion ((a.cacheData line).firstReplySrc = InvalidNodeID)
      self.sendInterventionNaks m a
    | .invalidate m => self.processInvalidateWhileInvalid m src a
    | _ => .error (.printError "OnCacheWaitForShReadRes")

def onCacheWaitingForSharedResponseAck (remaining : Activation → Except Fault Activation)
    (msg : Msg) (src : NodeID) (line : Address) (a : Activation) : Except Fault Activation := do
  check .assertion ((a.cacheData line).firstReply ≠ none)
  check .assertion ((a.cacheData line).firstReplySrc ≠ InvalidNodeID)
  match msg with
  | .readResponse m =>
    check .assertion (m.exclusiveOwnership = false)
    let a := a.setCacheState line .shared
    let a := self.sendMsgToLocalCache
      (.readResponse { m with blockAttached := true, exclusiveOwnership := false }) a
    let a := a.modifyCacheData line .clearTemp
    processReadResponse remaining m line a
  | .cacheNak m =>
    match (a.cacheData line).cacheDataPendingLocalReads with
    | [] => .error .assertion
    | ref :: _ =>
      check .assertion (ref.msgID = m.solicitingMessage)
      let a ← self.resendPendingRead line a
      let a := a.modifyCacheData line .clearTemp
      return a.setCacheState line .waitingForSharedReadResponse
  | .intervention m => self.sendInterventionNaks m a
  | .invalidate m => self.processInvalidateWhileInvalid m src a
  | _ => .error (.printError "OnCacheWaitForShResAck")

def onCacheWaitingForWritebackBusyAck (remaining : Activation → Except Fault Activation)
    (msg : Msg) (line : Address) (a : Activation) : Except Fault Activation :=
  match (a.cacheData line).firstReply with
  | some (.intervention _) => do
    check .assertion ((a.cacheData line).firstReplySrc ≠ InvalidNodeID)
    match msg with
    | .writebackAck m =>
      check .assertion (m.isBusy = true ∧ m.isExclusive = false)
      check .assertion (a.dir.pendingEviction m.addr ≠ none)
      let a := a.setPendingEviction m.addr none
      let a := a.setCacheState line .invalid
      let a := self.sendMsgToLocalCache
        (.evictionResponse (.ofEvictionResponse a.currentMsgStamp m.toEvictionResponseMsg))
        a.stamped
      remaining (a.modifyCacheData line .clearTemp)
    | _ => .error (.printError "OnCacheWaitForWbBusyAck")
  | _ => .error .assertion

def onCacheWaitingForWritebackResponse (remaining : Activation → Except Fault Activation)
    (msg : Msg) (src : NodeID) (line : Address) (a : Activation) : Except Fault Activation := do
  check .assertion ((a.cacheData line).firstReply = none)
  check .assertion ((a.cacheData line).firstReplySrc = InvalidNodeID)
  check .assertion (a.dir.pendingEviction msg.getAddress ≠ none)
  match msg with
  | .writebackAck m =>
    check .assertion (m.isBusy ≠ m.isExclusive)
    if m.isExclusive then
      let a := a.setCacheState line .invalid
      let a := self.sendMsgToLocalCache
        (.evictionResponse (.ofEvictionResponse a.currentMsgStamp m.toEvictionResponseMsg))
        a.stamped
      remaining (a.setPendingEviction m.addr none)
    else
      return a.modifyCacheData line fun c =>
        { c with
          cacheState := .waitingForIntervention
          firstReply := some msg
          firstReplySrc := src }
  | .intervention m =>
    check .assertion (m.newOwner ≠ InvalidNodeID)
    return a.modifyCacheData line fun c =>
      { c with
        cacheState := .waitingForWritebackBusyAck
        firstReply := some msg
        firstReplySrc := m.newOwner }
  | _ => .error (.printError "OnCacheWaitForWbRes")

/-! ## Dispatch -/

/-- `OnCache`, with `remaining` for the further pending reads of the line. -/
def onCacheWith (remaining : Activation → Except Fault Activation) (msg : Msg) (src : NodeID)
    (line : Address) (a : Activation) : Except Fault Activation :=
  match (a.cacheData line).cacheState with
  | .exclusive => self.onCacheExclusive remaining msg src line a
  | .exclusiveInterventionEviction => self.onCacheExclusiveInterventionEviction msg line a
  | .exclusiveWaitingForSpeculativeReply =>
    self.onCacheExclusiveWaitingForSpeculativeReply remaining msg src line a
  | .invalid => self.onCacheInvalid msg src line a
  | .shared => self.onCacheShared msg src line a
  | .sharedWaitingForSpeculativeReply =>
    self.onCacheSharedWaitingForSpeculativeReply remaining msg src line a
  | .waitingForIntervention => self.onCacheWaitingForIntervention remaining msg line a
  | .waitingForExclusiveReadResponse =>
    self.onCacheWaitingForExclusiveReadResponse remaining msg src line a
  | .waitingForExclusiveResponseAck =>
    self.onCacheWaitingForExclusiveResponseAck remaining msg src line a
  | .waitingForKInvalidatesJInvalidatesReceived =>
    self.onCacheWaitingForKInvalidatesJInvalidatesReceived remaining msg src line a
  | .waitingForSharedReadResponse =>
    self.onCacheWaitingForSharedReadResponse remaining msg src line a
  | .waitingForSharedResponseAck =>
    self.onCacheWaitingForSharedResponseAck remaining msg src line a
  | .waitingForWritebackBusyAck => self.onCacheWaitingForWritebackBusyAck remaining msg line a
  | .waitingForWritebackResponse =>
    self.onCacheWaitingForWritebackResponse remaining msg src line a

/-- `ProcessRemainingPendingLocalReads`, for at most `n` rounds. -/
def processRemainingPendingLocalReads (line : Address) :
    ℕ → Activation → Except Fault Activation
  | 0, a => .ok a
  | n + 1, a =>
    match (a.cacheData line).cacheDataPendingLocalReads with
    | [] => .ok a
    | pendingRead :: _ =>
      self.onCacheWith (processRemainingPendingLocalReads line n) (.read pendingRead)
        InvalidNodeID line a

/-- `OnCache`; there is a round for every pending read of the line. -/
def onCache (msg : Msg) (src : NodeID) (line : Address) (a : Activation) :
    Except Fault Activation :=
  self.onCacheWith
    (self.processRemainingPendingLocalReads line
      (a.cacheData line).cacheDataPendingLocalReads.length)
    msg src line a

def onCacheRead (m : ReadMsg) (a : Activation) : Except Fault Activation := do
  check .assertion (a.dir.pendingLocalReads m.msgID = none)
  let a := a.setPendingLocalRead m.msgID (some m)
  let cacheState := (a.cacheData m.addr).cacheState
  let a := a.modifyCacheData m.addr fun c =>
    { c with cacheDataPendingLocalReads := c.cacheDataPendingLocalReads ++ [m] }
  if cacheState = .invalid ∨ cacheState = .exclusive ∨ cacheState = .shared then
    self.onCache (.read m) InvalidNodeID m.addr a
  else
    return a

def recvMsgCache (msg : Msg) (src : NodeID) (a : Activation) : Except Fault Activation :=
  match msg with
  | .eviction m => do
    check .assertion (src = InvalidNodeID)
    self.onCache msg src m.addr a
  | .read m => do
    check .assertion (src = InvalidNodeID)
    self.onCacheRead m a
  | _ => self.onCache msg src msg.getAddress a

end Sesc.Origin.Device
