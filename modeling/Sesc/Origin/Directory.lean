import Sesc.Origin.Cache

/-!
# The directory side of an `OriginDirectory`

The handlers of the messages for the lines a node is the home of, the dispatch of a
message to the handler of its entry's state (`OnDirectory`) and the entry point
`RecvMsgDirectory`.
-/

namespace Sesc.Origin.Device

open Lib

variable (self : Device)

/-! ## Memory accesses -/

/-- `SendRequestToMemory` for a read. -/
def sendReadToMemory (m : ReadMsg) (a : Activation) : Except Fault Activation := do
  check .assertion (a.dir.pendingMemoryReadAccesses m.msgID = none)
  let a := a.setPendingMemoryRead m.msgID (some m)
  return a.send (.toMemory self.nodeID (.read m))

/-- `SendRequestToMemory` for a write. -/
def sendWriteToMemory (m : WriteMsg) (a : Activation) : Except Fault Activation := do
  check .assertion (a.dir.pendingMemoryWriteAccesses m.msgID = none)
  let a := a.setPendingMemoryWrite m.msgID (some m)
  return a.send (.toMemory self.nodeID (.write m))

def performMemoryReadResponseCheck (m : ReadResponseMsg) (src : NodeID) (a : Activation) :
    Except Fault Activation := do
  check .assertion (src = InvalidNodeID)
  check .assertion (a.dir.pendingMemoryReadAccesses m.solicitingMessage ≠ none)
  return a.setPendingMemoryRead m.solicitingMessage none

def performMemoryWriteResponseCheck (m : WriteResponseMsg) (src : NodeID) (a : Activation) :
    Except Fault Activation := do
  check .assertion (src = InvalidNodeID)
  check .assertion (a.dir.pendingMemoryWriteAccesses m.solicitingMessage ≠ none)
  return a.setPendingMemoryWrite m.solicitingMessage none

/-! ## Replies of the home node -/

/-- A read reply for a read. -/
def sendReadReply (read : ReadMsg) (dest : NodeID)
    (blockAttached exclusiveOwnership satisfied : Bool) (pendingInvalidates : ℕ)
    (a : Activation) : Except Fault Activation :=
  self.sendMessageToRemoteCache
    (.readReply
      { ReadResponseMsg.ofRead a.currentMsgStamp read with
        blockAttached := blockAttached
        exclusiveOwnership := exclusiveOwnership
        satisfied := satisfied
        pendingInvalidates := pendingInvalidates })
    dest a.stamped

/-- A speculative reply for a read. -/
def sendSpeculativeReply (read : ReadMsg) (dest : NodeID) (a : Activation) :
    Except Fault Activation :=
  self.sendMessageToRemoteCache
    (.speculativeReply
      { ReadResponseMsg.ofRead a.currentMsgStamp read with
        blockAttached := true
        satisfied := true })
    dest a.stamped

/-- The intervention that asks the previous owner to serve the first request. -/
def sendIntervention (m : ReadResponseMsg) (firstRequest : ReadMsg) (firstRequestSrc : NodeID)
    (requestingExclusive : Bool) (previousOwner : NodeID) (a : Activation) :
    Except Fault Activation :=
  self.sendMessageToRemoteCache
    (.intervention
      { ReadMsg.ofReadResponse a.currentMsgStamp m with
        alreadyHasBlock := false
        newOwner := firstRequestSrc
        requestingExclusive := requestingExclusive
        solicitingMessage := firstRequest.msgID })
    previousOwner a.stamped

/-- `SendInvalidateMsg`, and the invalidates that `OnDirectoryShared` sends itself. -/
def sendInvalidateMsg (m : ReadMsg) (dest newOwner : NodeID) (a : Activation) :
    Except Fault Activation :=
  self.sendMessageToRemoteCache
    (.invalidate { InvalidateMsg.ofRead a.currentMsgStamp m with newOwner := newOwner })
    dest a.stamped

/-- The loop over the sharers: an invalidate for each of them, in the order of iteration. -/
def sendInvalidates (m : ReadMsg) (newOwner : NodeID) :
    List NodeID → Activation → Except Fault Activation
  | [], a => .ok a
  | dest :: rest, a => do
    let a ← self.sendInvalidateMsg m dest newOwner a
    sendInvalidates m newOwner rest a

def sendWritebackAck (m : EvictionMsg) (dest : NodeID) (isBusy isExclusive : Bool)
    (a : Activation) : Except Fault Activation :=
  self.sendMessageToRemoteCache
    (.writebackAck
      { EvictionResponseMsg.ofEviction a.currentMsgStamp m with
        isBusy := isBusy
        isExclusive := isExclusive })
    dest a.stamped

/-! ## Busy states -/

def onDirectoryBusyExclusive (msg : Msg) (src : NodeID) (line : Address) (a : Activation) :
    Except Fault Activation :=
  let d := a.directoryData line
  match d.firstRequest with
  | none => .error .assertion
  | some firstRequest => do
    check .assertion (d.firstRequestSrc ≠ InvalidNodeID)
    check .assertion (d.previousOwner ≠ InvalidNodeID)
    check .assertion (d.sharers.size = 0)
    match msg with
    | .read m => self.sendCacheNak m src a
    | .writebackRequest m =>
      check .assertion (src = d.previousOwner)
      let a := a.modifyDirectoryData line fun d => { d with state := .exclusive }
      let a ← self.sendMessageToRemoteCache
        (.readResponse
          { ReadResponseMsg.ofRead a.currentMsgStamp firstRequest with
            blockAttached := true
            exclusiveOwnership := true
            satisfied := true })
        d.owner a.stamped
      let a ← self.sendWritebackAck m.toEvictionMsg src true false a
      let a ← self.sendWriteToMemory (.ofEviction a.currentMsgStamp m.toEvictionMsg) a.stamped
      return a.modifyDirectoryData line .clearTemp
    | .transfer m =>
      check .assertion (src = d.previousOwner)
      check .assertion (m.isDirty = true)
      return a.modifyDirectoryData line fun d => { d.clearTemp with state := .exclusive }
    | .directoryNak _ =>
      return a.modifyDirectoryData line fun d =>
        { d.clearTemp with state := .exclusive, owner := d.previousOwner }
    | _ => .error (.printError "OnDirBusyEx")

/-- The answer of the memory in `ds_BusyExclusiveMemoryAccess` and in
`ds_BusySharedMemoryAccess`: the previous owner gets an intervention and the requester a
speculative reply. -/
def interveneAfterMemoryAccess (m : ReadResponseMsg) (src : NodeID) (firstRequest : ReadMsg)
    (requestingExclusive : Bool) (newState : DirectoryState) (line : Address) (a : Activation) :
    Except Fault Activation := do
  let d := a.directoryData line
  let a ← performMemoryReadResponseCheck m src a
  let a := a.modifyDirectoryData line fun d => { d with state := newState }
  check .assertion (d.previousOwner ≠ InvalidNodeID)
  let a ← self.sendIntervention m firstRequest d.firstRequestSrc requestingExclusive
    d.previousOwner a
  self.sendSpeculativeReply firstRequest d.firstRequestSrc a

def onDirectoryBusyExclusiveMemoryAccess (msg : Msg) (src : NodeID) (line : Address)
    (isFromMemory : Bool) (a : Activation) : Except Fault Activation :=
  let d := a.directoryData line
  match d.firstRequest with
  | none => .error .assertion
  | some firstRequest => do
    check .assertion (d.firstRequestSrc ≠ InvalidNodeID)
    check .assertion (d.secondRequest = none)
    check .assertion (d.secondRequestSrc = InvalidNodeID)
    check .assertion (d.previousOwner ≠ InvalidNodeID)
    match msg with
    | .writebackRequest m =>
      return a.modifyDirectoryData line fun d =>
        { d with
          state := .busyExclusiveMemoryAccessWritebackRequest
          secondRequest := some m
          secondRequestSrc := src }
    | .read m => self.sendCacheNak m src a
    | .readResponse m =>
      if isFromMemory then
        self.interveneAfterMemoryAccess m src firstRequest true .busyExclusive line a
      else .error (.printError "OnDirBusyExMemAcc")
    | _ => .error (if isFromMemory then .assertion else .printError "OnDirBusyExMemAcc")

/-- The answer of the memory when the previous owner has meanwhile asked to write the line
back: the requester and the previous owner are answered at once. -/
def replyAfterWritebackRequest (m : ReadResponseMsg) (src : NodeID) (firstRequest : ReadMsg)
    (secondRequest : WritebackRequestMsg) (blockAttached exclusiveOwnership satisfied : Bool)
    (newState : DirectoryState) (line : Address) (a : Activation) :
    Except Fault Activation := do
  let d := a.directoryData line
  let a ← performMemoryReadResponseCheck m src a
  check .assertion (m.solicitingMessage = firstRequest.msgID)
  let a := a.modifyDirectoryData line fun d => { d with state := newState }
  let a ← self.sendReadReply firstRequest d.owner blockAttached exclusiveOwnership satisfied 0 a
  let a ← self.sendWritebackAck secondRequest.toEvictionMsg d.secondRequestSrc false true a
  let a ← self.sendWriteToMemory (.ofReadResponse a.currentMsgStamp m) a.stamped
  return a.modifyDirectoryData line .clearTemp

def onDirectoryBusyExclusiveMemoryAccessWritebackRequest (msg : Msg) (src : NodeID)
    (line : Address) (isFromMemory : Bool) (a : Activation) : Except Fault Activation :=
  let d := a.directoryData line
  match d.firstRequest, d.secondRequest with
  | some firstRequest, some secondRequest => do
    check .assertion (d.firstRequestSrc ≠ InvalidNodeID)
    check .assertion (d.secondRequestSrc ≠ InvalidNodeID)
    match msg with
    | .read m => self.sendCacheNak m src a
    | .readResponse m =>
      if isFromMemory then
        self.replyAfterWritebackRequest m src firstRequest secondRequest true true true
          .exclusive line a
      else .error (.printError "OnDirBusyExMemAccWbReq")
    | _ => .error (if isFromMemory then .assertion else .printError "OnDirBusyExMemAccWbReq")
  | _, _ => .error .assertion

def onDirectoryBusyShared (msg : Msg) (src : NodeID) (line : Address) (a : Activation) :
    Except Fault Activation :=
  let d := a.directoryData line
  match d.firstRequest with
  | none => .error .assertion
  | some firstRequest => do
    check .assertion (d.firstRequestSrc ≠ InvalidNodeID)
    check .assertion (d.previousOwner ≠ InvalidNodeID)
    match msg with
    | .writeback m =>
      check .assertion (src = d.previousOwner)
      let a := a.modifyDirectoryData line fun d => { d with state := .shared }
      let a ← self.sendWriteToMemory (.ofEviction a.currentMsgStamp m.toEvictionMsg) a.stamped
      return a.modifyDirectoryData line .clearTemp
    | .transfer _ =>
      check .assertion (src = d.previousOwner)
      return a.modifyDirectoryData line fun d => { d.clearTemp with state := .shared }
    | .read m => self.sendCacheNak m src a
    | .writebackRequest m =>
      check .assertion (src = d.previousOwner)
      let a := a.modifyDirectoryData line fun d => { d with state := .shared }
      check .assertion (d.owner ≠ InvalidNodeID)
      let a ← self.sendMessageToRemoteCache
        (.readResponse
          { ReadResponseMsg.ofRead a.currentMsgStamp firstRequest with
            exclusiveOwnership := false
            satisfied := true })
        d.owner a.stamped
      let a ← self.sendWritebackAck m.toEvictionMsg src true false a
      let a ← self.sendWriteToMemory (.ofEviction a.currentMsgStamp m.toEvictionMsg) a.stamped
      return a.modifyDirectoryData line .clearTemp
    | .directoryNak _ =>
      check .assertion (src = d.previousOwner)
      return a.modifyDirectoryData line fun d =>
        { d.clearTemp with state := .exclusive, owner := d.previousOwner, sharers := ∅ }
    | _ => .error (.printError "OnDirBusySh")

def onDirectoryBusySharedMemoryAccess (msg : Msg) (src : NodeID) (line : Address)
    (isFromMemory : Bool) (a : Activation) : Except Fault Activation :=
  let d := a.directoryData line
  match d.firstRequest with
  | none => .error .assertion
  | some firstRequest => do
    check .assertion (d.firstRequestSrc ≠ InvalidNodeID)
    check .assertion (d.secondRequest = none)
    check .assertion (d.secondRequestSrc = InvalidNodeID)
    if isFromMemory then
      match msg with
      | .readResponse m =>
        self.interveneAfterMemoryAccess m src firstRequest false .busyShared line a
      | _ => .error .assertion
    else
      match msg with
      | .read m => self.sendCacheNak m src a
      | .writebackRequest m =>
        return a.modifyDirectoryData line fun d =>
          { d with
            state := .busySharedMemoryAccessWritebackRequest
            secondRequest := some m
            secondRequestSrc := src }
      | _ => .error (.printError "OnDirBusyShMemAcc")

def onDirectoryBusySharedMemoryAccessWritebackRequest (msg : Msg) (src : NodeID)
    (line : Address) (isFromMemory : Bool) (a : Activation) : Except Fault Activation :=
  let d := a.directoryData line
  match d.firstRequest, d.secondRequest with
  | some firstRequest, some secondRequest => do
    check .assertion (d.firstRequestSrc ≠ InvalidNodeID)
    check .assertion (d.secondRequestSrc ≠ InvalidNodeID)
    match msg with
    | .read m => self.sendCacheNak m src a
    | .readResponse m =>
      if isFromMemory then
        self.replyAfterWritebackRequest m src firstRequest secondRequest false false false
          .shared line a
      else .error (.printError "OnDirBusyShMemAccWbReq")
    | _ => .error (if isFromMemory then .assertion else .printError "OnDirBusyShMemAccWbReq")
  | _, _ => .error .assertion

/-! ## Stable states and their memory accesses -/

def onDirectoryExclusive (msg : Msg) (src : NodeID) (line : Address) (a : Activation) :
    Except Fault Activation := do
  let d := a.directoryData line
  check .assertion (d.firstRequest = none)
  check .assertion (d.firstRequestSrc = InvalidNodeID)
  check .assertion (d.sharers.size = 0)
  match msg with
  | .read m =>
    let a := a.modifyDirectoryData line fun d =>
      { d with firstRequest := some m, firstRequestSrc := src }
    if d.owner = src then
      let a := a.modifyDirectoryData line fun d => { d with state := .exclusiveMemoryAccess }
      self.sendReadToMemory m a
    else if m.requestingExclusive then
      let a := a.modifyDirectoryData line fun d =>
        { d with state := .busyExclusiveMemoryAccess, previousOwner := d.owner, owner := src }
      self.sendReadToMemory m a
    else
      let a := a.modifyDirectoryData line fun d =>
        { d with
          state := .busySharedMemoryAccess
          previousOwner := d.owner
          sharers := d.sharers.insert d.owner
          owner := src }
      self.sendReadToMemory m a
  | .writebackRequest m =>
    check .assertion (d.owner = src)
    let a := a.modifyDirectoryData line fun d =>
      { d with state := .unowned, owner := InvalidNodeID }
    let a ← self.sendWritebackAck m.toEvictionMsg src false true a
    self.sendWriteToMemory (.ofEviction a.currentMsgStamp m.toEvictionMsg) a.stamped
  | _ => .error (.printError "OnDirEx")

def onDirectoryExclusiveMemoryAccess (msg : Msg) (src : NodeID) (line : Address)
    (isFromMemory : Bool) (a : Activation) : Except Fault Activation :=
  let d := a.directoryData line
  match d.firstRequest with
  | none => .error .assertion
  | some firstRequest => do
    check .assertion (d.firstRequestSrc ≠ InvalidNodeID)
    match msg with
    | .read m => self.sendCacheNak m src a
    -- the access is not taken off `pendingMemoryReadAccesses`
    | .readResponse _ =>
      if isFromMemory then
        let a := a.modifyDirectoryData line fun d => { d with state := .exclusive }
        let a ← self.sendReadReply firstRequest d.firstRequestSrc true true true 0 a
        return a.modifyDirectoryData line .clearTemp
      else .error (.printError "OnDirExMemAcc")
    | _ => .error (if isFromMemory then .assertion else .printError "OnDirExMemAcc")

def onDirectoryShared (msg : Msg) (src : NodeID) (line : Address) (a : Activation) :
    Except Fault Activation := do
  let d := a.directoryData line
  check .assertion (d.firstRequest = none)
  check .assertion (d.firstRequestSrc = InvalidNodeID)
  check .assertion (d.owner ≠ InvalidNodeID)
  check .assertion (d.pendingSharedReads = [])
  check .assertion (d.sharers.size ≠ 0)
  match msg with
  | .read m =>
    if m.requestingExclusive = false then
      let a := a.modifyDirectoryData line fun d =>
        { d with
          state := .sharedMemoryAccess
          sharers := d.sharers.insert src
          pendingSharedReads := d.pendingSharedReads ++ [⟨m, src⟩] }
      self.sendReadToMemory m a
    else if d.owner ≠ src ∧ src ∉ d.sharers then
      let a := a.modifyDirectoryData line fun d =>
        { d with
          state := .sharedExclusiveMemoryAccess
          firstRequest := some m
          firstRequestSrc := src }
      self.sendReadToMemory m a
    else
      let a := a.modifyDirectoryData line fun d => { d with state := .exclusive }
      let toOwner := if d.owner ≠ src then [d.owner] else []
      check .assertion (InvalidNodeID ∉ d.sharers)
      let toSharers := d.sharers.toList.filter fun i => i ≠ src ∧ i ≠ d.owner
      let a ← self.sendInvalidates m src (toOwner ++ toSharers) a
      let pendingInvalidates := toOwner.length + toSharers.length
      let a ← self.sendReadReply m src false true true pendingInvalidates a
      return a.modifyDirectoryData line fun d => { d with owner := src, sharers := ∅ }
  | _ => .error (.printError "OnDirSh")

def onDirectorySharedExclusiveMemoryAccess (msg : Msg) (src : NodeID) (line : Address)
    (isFromMemory : Bool) (a : Activation) : Except Fault Activation :=
  let d := a.directoryData line
  match d.firstRequest with
  | none => .error .assertion
  | some firstRequest => do
    check .assertion (d.firstRequestSrc ≠ InvalidNodeID)
    if isFromMemory then
      match msg with
      | .readResponse m =>
        let a ← performMemoryReadResponseCheck m src a
        let a := a.modifyDirectoryData line fun d => { d with state := .exclusive }
        let toOwner := if d.owner ≠ d.firstRequestSrc then [d.owner] else []
        let toSharers := d.sharers.toList.filter fun i => i ≠ d.firstRequestSrc
        let a ← self.sendInvalidates firstRequest d.firstRequestSrc (toOwner ++ toSharers) a
        let pendingInvalidates := toOwner.length + toSharers.length
        let a ← self.sendReadReply firstRequest d.firstRequestSrc false true true
          pendingInvalidates a
        return a.modifyDirectoryData line fun d =>
          { d.clearTemp with sharers := ∅, owner := d.firstRequestSrc }
      | _ => .error .assertion
    else
      match msg with
      | .read m => self.sendCacheNak m src a
      | _ => .error (.printError "OnShExMemAcc")

/-- The loop over the pending shared reads: a shared reply for each of them. -/
def sendSharedReplies : List LookupData → Activation → Except Fault Activation
  | [], a => .ok a
  | ld :: rest, a => do
    let a ← self.sendReadReply ld.msg ld.sourceNode true false true 0 a
    sendSharedReplies rest a

def onDirectorySharedMemoryAccess (msg : Msg) (src : NodeID) (line : Address)
    (isFromMemory : Bool) (a : Activation) : Except Fault Activation := do
  let d := a.directoryData line
  check .assertion (d.pendingSharedReads ≠ [])
  check .assertion (d.sharers.size ≠ 0)
  match msg with
  | .read m =>
    if m.requestingExclusive = false then
      return a.modifyDirectoryData line fun d =>
        { d with
          sharers := d.sharers.insert src
          pendingSharedReads := d.pendingSharedReads ++ [⟨m, src⟩] }
    else self.sendCacheNak m src a
  | .readResponse m =>
    if isFromMemory then
      let a ← performMemoryReadResponseCheck m src a
      let a := a.modifyDirectoryData line fun d => { d with state := .shared }
      let a ← self.sendSharedReplies d.pendingSharedReads a
      return a.modifyDirectoryData line fun d => { d with pendingSharedReads := [] }
    else .error (.printError "OnDirShMemAcc")
  | _ => .error (if isFromMemory then .assertion else .printError "OnDirShMemAcc")

def onDirectoryUnowned (msg : Msg) (src : NodeID) (line : Address) (a : Activation) :
    Except Fault Activation := do
  let d := a.directoryData line
  check .assertion (d.firstRequest = none)
  check .assertion (d.firstRequestSrc = InvalidNodeID)
  match msg with
  | .read m =>
    let a := a.modifyDirectoryData line fun d =>
      { d with
        state := .exclusiveMemoryAccess
        firstRequest := some m
        firstRequestSrc := src }
    let a ← self.sendReadToMemory m a
    check .assertion (d.owner = InvalidNodeID)
    return a.modifyDirectoryData line fun d => { d with owner := src }
  | _ => .error (.printError "OnDirUnowned")

/-! ## Dispatch -/

def onDirectory (msg : Msg) (src : NodeID) (line : Address) (isFromMemory : Bool)
    (a : Activation) : Except Fault Activation :=
  match (a.directoryData line).state with
  | .busyExclusiveMemoryAccess =>
    self.onDirectoryBusyExclusiveMemoryAccess msg src line isFromMemory a
  | .busyExclusive => self.onDirectoryBusyExclusive msg src line a
  | .busyExclusiveMemoryAccessWritebackRequest =>
    self.onDirectoryBusyExclusiveMemoryAccessWritebackRequest msg src line isFromMemory a
  | .busyShared => self.onDirectoryBusyShared msg src line a
  | .busySharedMemoryAccess =>
    self.onDirectoryBusySharedMemoryAccess msg src line isFromMemory a
  | .busySharedMemoryAccessWritebackRequest =>
    self.onDirectoryBusySharedMemoryAccessWritebackRequest msg src line isFromMemory a
  | .exclusiveMemoryAccess => self.onDirectoryExclusiveMemoryAccess msg src line isFromMemory a
  | .exclusive => self.onDirectoryExclusive msg src line a
  | .shared => self.onDirectoryShared msg src line a
  | .sharedExclusiveMemoryAccess =>
    self.onDirectorySharedExclusiveMemoryAccess msg src line isFromMemory a
  | .sharedMemoryAccess => self.onDirectorySharedMemoryAccess msg src line isFromMemory a
  | .unowned => self.onDirectoryUnowned msg src line a
  | .sharedMemoryAccessWritebackRequest => .error (.printError "OnDir")

def recvMsgDirectory (msg : Msg) (src : NodeID) (isFromMemory : Bool) (a : Activation) :
    Except Fault Activation :=
  match msg with
  | .directoryNak m => do
    check .assertion (isFromMemory = false)
    self.onDirectory msg src m.addr false a
  | .read m => do
    check .assertion (isFromMemory = false)
    self.onDirectory msg src m.addr false a
  | .readResponse m => do
    check .assertion (isFromMemory = true)
    self.onDirectory msg src m.addr isFromMemory a
  | .writeback m => do
    check .assertion (isFromMemory = false)
    self.onDirectory msg src m.addr false a
  | .writebackRequest m => do
    check .assertion (isFromMemory = false)
    self.onDirectory msg src m.addr false a
  | .writeResponse m => do
    check .assertion (isFromMemory = true)
    performMemoryWriteResponseCheck m src a
  | _ => self.onDirectory msg src msg.getAddress isFromMemory a

end Sesc.Origin.Device
