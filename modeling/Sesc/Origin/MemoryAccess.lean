import Sesc.Origin.Frame

/-!
# The memory accesses of a handler

A home node keeps its reads and writes to the memory in two tables until the answers
arrive, and a line waits in one of the `…MemoryAccess…` states for the answer to its read.
This file says what each handler of the directory side does to the tables, to the waiting
lines and to the traffic with the memory: see `MemoryEffect`.
-/

namespace Sesc.Origin

open Lib

/-- Whether a line in the given state waits for the memory. -/
def DirectoryState.isMemoryAccess : DirectoryState → Bool
  | busyExclusiveMemoryAccess => true
  | busyExclusiveMemoryAccessWritebackRequest => true
  | busySharedMemoryAccess => true
  | busySharedMemoryAccessWritebackRequest => true
  | exclusiveMemoryAccess => true
  | sharedMemoryAccess => true
  | sharedExclusiveMemoryAccess => true
  | sharedMemoryAccessWritebackRequest => true
  | _ => false

/-- The node, the line and the identifier of a read of a memory, when the packet is the read
or the answer to it. -/
def Packet.memoryRead : Packet → Option (NodeID × Address × MessageID)
  | toMemory node (.read m) => some (node, m.addr, m.msgID)
  | fromMemory node (.readResponse r) => some (node, r.addr, r.solicitingMessage)
  | _ => none

/-- The node and the identifier of a write to a memory, when the packet is the write or the
answer to it. -/
def Packet.memoryWrite : Packet → Option (NodeID × MessageID)
  | toMemory node (.write m) => some (node, m.msgID)
  | fromMemory node (.writeResponse r) => some (node, r.solicitingMessage)
  | _ => none

namespace Activation

/-- The lines that wait for the memory. -/
def accessing (a : Activation) (addr : Address) : Bool := (a.directoryData addr).state.isMemoryAccess

def sentReads (a : Activation) : List (NodeID × Address × MessageID) :=
  a.sent.filterMap Packet.memoryRead

def sentWrites (a : Activation) : List (NodeID × MessageID) :=
  a.sent.filterMap Packet.memoryWrite

variable (a : Activation) (n : NodeID) (line : Address)

@[simp] lemma accessing_modifyDirectoryData (f : DirectoryData → DirectoryData) :
    (a.modifyDirectoryData line f).accessing =
      Function.update a.accessing line (f (a.directoryData line)).state.isMemoryAccess := by
  funext addr
  by_cases h : addr = line
  · subst h
    simp [accessing]
  · simp [accessing, directoryData_modifyDirectoryData_of_ne _ _ h, h]

@[simp] lemma accessing_setPendingMemoryRead (id : MessageID) (m : Option ReadMsg) :
    (a.setPendingMemoryRead id m).accessing = a.accessing := rfl

@[simp] lemma accessing_setPendingMemoryWrite (id : MessageID) (m : Option WriteMsg) :
    (a.setPendingMemoryWrite id m).accessing = a.accessing := rfl

@[simp] lemma accessing_send (p : Packet) : (a.send p).accessing = a.accessing := rfl

@[simp] lemma accessing_stamped : a.stamped.accessing = a.accessing := rfl

@[simp] lemma sentReads_send (p : Packet) :
    sentReads (a.send p) = sentReads a ++ p.memoryRead.toList := by
  rw [sentReads, sentReads, send, List.filterMap_append]
  cases h : p.memoryRead <;> simp [h]

@[simp] lemma sentWrites_send (p : Packet) :
    sentWrites (a.send p) = sentWrites a ++ p.memoryWrite.toList := by
  rw [sentWrites, sentWrites, send, List.filterMap_append]
  cases h : p.memoryWrite <;> simp [h]

/-- What the memory reads of a home node are: the waiting lines, the table and the packets
sent for them. -/
def readView (a : Activation) :=
  (a.accessing, a.dir.pendingMemoryReadAccesses, sentReads a)

/-- What the memory writes of a home node are. -/
def writeView (a : Activation) :=
  (a.dir.pendingMemoryWriteAccesses, sentWrites a)

def memoryView (a : Activation) := (readView a, writeView a)

/-- Changing the entry of a line without changing whether it waits keeps the accesses. -/
lemma memoryView_modifyDirectoryData {f : DirectoryData → DirectoryData}
    (hf : (f (a.directoryData line)).state.isMemoryAccess = a.accessing line) :
    memoryView (a.modifyDirectoryData line f) = memoryView a := by
  have hacc : (a.modifyDirectoryData line f).accessing = a.accessing := by
    rw [accessing_modifyDirectoryData, hf, Function.update_eq_self]
  rw [memoryView, memoryView, readView, readView, hacc]
  rfl

/-- No read of the memory begins or ends. -/
def KeepsReads (a a' : Activation) : Prop := readView a' = readView a

/-- A read of the memory begins and its line waits. -/
def StartsRead (a a' : Activation) : Prop :=
  ∃ m : ReadMsg, m.addr = line ∧ a.accessing line = false ∧
    a.dir.pendingMemoryReadAccesses m.msgID = none ∧
    readView a' = (Function.update a.accessing line true,
      Function.update a.dir.pendingMemoryReadAccesses m.msgID (some m),
      sentReads a ++ [(n, line, m.msgID)])

/-- The line of an answered read waits no more; unless `stale`, the read leaves its table. -/
def FinishesRead (r : ReadResponseMsg) (stale : Bool) (a a' : Activation) : Prop :=
  a.accessing line = true ∧ readView a' = (Function.update a.accessing line false,
    if stale then a.dir.pendingMemoryReadAccesses
      else Function.update a.dir.pendingMemoryReadAccesses r.solicitingMessage none,
    sentReads a)

/-- No write begins, or one begins. -/
def AtMostStartsWrite (a a' : Activation) : Prop :=
  writeView a' = writeView a ∨
  ∃ m : WriteMsg, a.dir.pendingMemoryWriteAccesses m.msgID = none ∧
    writeView a' = (Function.update a.dir.pendingMemoryWriteAccesses m.msgID (some m),
      sentWrites a ++ [(n, m.msgID)])

/-- The effect of a message for the directory side on the memory accesses: the answer of the
memory to a read ends it, and any other message begins at most one. -/
def MemoryEffect (msg : Msg) (isFromMemory : Bool) (a a' : Activation) : Prop :=
  AtMostStartsWrite n a a' ∧
    match msg, isFromMemory with
    | .readResponse r, true =>
      FinishesRead line r ((a.directoryData line).state = .exclusiveMemoryAccess) a a'
    | _, _ => KeepsReads a a' ∨ StartsRead n line a a'

end Activation

namespace Device

open Activation

variable (self : Device) {a b : Activation} (msg : Msg) (src : NodeID) {line : Address}
  (isFromMemory : Bool)

/-! ### Sending -/

lemma memoryView_sendMessageToRemoteCache (dest : NodeID)
    (hb : memoryView b = memoryView a) :
    Keeps memoryView a (self.sendMessageToRemoteCache msg dest b.stamped) := by
  simp only [sendMessageToRemoteCache, keeps_check_bind, keeps_pure]
  intro _
  rw [← hb]
  simp only [memoryView, readView, writeView, sentReads_send, sentWrites_send, Packet.memoryRead,
    Packet.memoryWrite, Option.toList_none, List.append_nil]
  rfl

lemma memoryView_sendInvalidates (m : ReadMsg) (newOwner : NodeID) (l : List NodeID)
    (hb : memoryView b = memoryView a) :
    Keeps memoryView a (self.sendInvalidates m newOwner l b) := by
  induction l generalizing b with
  | nil => exact keeps_ok.2 hb
  | cons dest rest ih =>
    have hsend : Keeps memoryView a (self.sendInvalidateMsg m dest newOwner b) :=
      self.memoryView_sendMessageToRemoteCache _ _ hb
    exact hsend.ensures_bind fun c hc => ih hc

lemma memoryView_sendSharedReplies (l : List LookupData)
    (hb : memoryView b = memoryView a) :
    Keeps memoryView a (self.sendSharedReplies l b) := by
  induction l generalizing b with
  | nil => exact keeps_ok.2 hb
  | cons ld rest ih =>
    have hsend : Keeps memoryView a
        (self.sendReadReply ld.msg ld.sourceNode true false true 0 b) :=
      self.memoryView_sendMessageToRemoteCache _ _ hb
    exact hsend.ensures_bind fun c hc => ih hc

/-- A read that is sent to the memory enters the table; its line has just begun to wait. -/
lemma startsRead_sendReadToMemory {m : ReadMsg} {f : DirectoryData → DirectoryData}
    (ha : a.accessing line = false) (hm : m.addr = line)
    (hf : ∀ d, (f d).state.isMemoryAccess = true) :
    Ensures (fun c => AtMostStartsWrite self.nodeID a c ∧ StartsRead self.nodeID line a c)
      (self.sendReadToMemory m (a.modifyDirectoryData line f)) := by
  simp only [sendReadToMemory, ensures_check_bind, ensures_pure, decide_eq_true_eq]
  intro hfresh
  refine ⟨.inl ?_, m, hm, ha, hfresh, ?_⟩
  · rw [writeView, sentWrites_send]
    exact Prod.ext rfl (List.append_nil _)
  · rw [readView, accessing_send, accessing_setPendingMemoryRead, accessing_modifyDirectoryData, hf,
      sentReads_send, Packet.memoryRead, hm]
    rfl

/-- A write that is sent to the memory enters its table. -/
lemma startsWrite_sendWriteToMemory {m : WriteMsg}
    (hb : writeView b = writeView a) :
    Ensures (fun c => AtMostStartsWrite self.nodeID a c ∧
      readView c = readView b ∧
      c.dir.directoryDataMap = b.dir.directoryDataMap) (self.sendWriteToMemory m b) := by
  simp only [sendWriteToMemory, ensures_check_bind, ensures_pure, decide_eq_true_eq]
  simp only [writeView, Prod.mk.injEq] at hb
  intro hfresh
  refine ⟨.inr ⟨m, by rw [← hb.1, hfresh], ?_⟩, ?_, rfl⟩
  · rw [writeView, sentWrites_send, Packet.memoryWrite, ← hb.1, ← hb.2]
    rfl
  · rw [readView, sentReads_send]
    exact Prod.ext rfl (Prod.ext rfl (List.append_nil _))

/-- The line of an answered read leaves its waiting state. -/
lemma readView_finish (r : ReadResponseMsg) {f : DirectoryData → DirectoryData}
    (hf : (f (a.directoryData line)).state.isMemoryAccess = false) :
    readView ((a.setPendingMemoryRead r.solicitingMessage none).modifyDirectoryData
      line f) = (Function.update a.accessing line false,
        Function.update a.dir.pendingMemoryReadAccesses r.solicitingMessage none,
        sentReads a) := by
  rw [readView, accessing_modifyDirectoryData, accessing_setPendingMemoryRead]
  show (Function.update a.accessing line (f (a.directoryData line)).state.isMemoryAccess, _, _) = _
  rw [hf]
  rfl

/-- After replies the line is written to the memory and its temporaries are cleared. -/
lemma ensures_write_clearTemp {m : WriteMsg}
    (hb : writeView b = writeView a) :
    Ensures (fun c => AtMostStartsWrite self.nodeID a c ∧
        readView c = readView b)
      (self.sendWriteToMemory m b.stamped >>= fun c =>
        pure (c.modifyDirectoryData line .clearTemp)) := by
  have hb' : writeView b.stamped = writeView a := hb
  refine (self.startsWrite_sendWriteToMemory hb').bind fun c hc => ?_
  have hview : memoryView (c.modifyDirectoryData line .clearTemp) =
    memoryView c := memoryView_modifyDirectoryData _ _ rfl
  simp only [memoryView, Prod.mk.injEq] at hview
  rw [ensures_pure, AtMostStartsWrite, hview.1, hview.2]
  exact ⟨hc.1, hc.2.1⟩

/-! ### The handlers -/

lemma memoryEffect_of_keeps (hmsg : ∀ r, msg ≠ .readResponse r) {x : Except Fault Activation}
    (hx : Keeps memoryView a x) :
    Ensures (MemoryEffect self.nodeID line msg isFromMemory a) x := by
  intro b hb
  have hview := hx b hb
  simp only [memoryView, Prod.mk.injEq] at hview
  refine ⟨.inl hview.2, ?_⟩
  split
  · exact absurd rfl (hmsg _)
  · exact .inl hview.1

lemma memoryEffect_of_starts (hmsg : ∀ r, msg ≠ .readResponse r) {x : Except Fault Activation}
    (hx : Ensures (fun b => AtMostStartsWrite self.nodeID a b ∧
      (KeepsReads a b ∨ StartsRead self.nodeID line a b)) x) :
    Ensures (MemoryEffect self.nodeID line msg isFromMemory a) x := by
  intro b hb
  obtain ⟨hw, hr⟩ := hx b hb
  refine ⟨hw, ?_⟩
  split
  · exact absurd rfl (hmsg _)
  · exact hr

lemma memoryEffect_sendCacheNak (m : ReadMsg) (dest : NodeID) :
    Ensures (MemoryEffect self.nodeID line (.read m) isFromMemory a) (self.sendCacheNak m dest a) :=
  self.memoryEffect_of_keeps _ _ (by simp) (self.memoryView_sendMessageToRemoteCache _ _ rfl)

lemma memoryEffect_onDirectoryBusyExclusive
    (hstate : (a.directoryData line).state = .busyExclusive) :
    Ensures (MemoryEffect self.nodeID line msg isFromMemory a)
      (self.onDirectoryBusyExclusive msg src line a) := by
  have hacc : a.accessing line = false := by rw [accessing, hstate]; rfl
  unfold onDirectoryBusyExclusive
  dsimp only
  split
  · simp
  simp only [ensures_check_bind]
  intro _ _ _
  split
  · exact self.memoryEffect_sendCacheNak _ _ _
  · simp only [ensures_check_bind]
    intro _
    refine self.memoryEffect_of_starts _ _ (by simp) ?_
    have hmod : memoryView (a.modifyDirectoryData line
        fun d => { d with state := .exclusive }) = memoryView a :=
      memoryView_modifyDirectoryData _ _ hacc.symm
    refine (self.memoryView_sendMessageToRemoteCache _ _ hmod).ensures_bind fun b hb => ?_
    refine (self.memoryView_sendMessageToRemoteCache _ _ hb).ensures_bind fun c hc => ?_
    refine (self.ensures_write_clearTemp (congrArg Prod.snd hc)).mono fun d hd => ?_
    exact ⟨hd.1, .inl (hd.2.trans (congrArg Prod.fst hc))⟩
  · simp only [ensures_check_bind]
    intro _ _
    exact self.memoryEffect_of_keeps _ _ (by simp)
      (keeps_pure.2 (memoryView_modifyDirectoryData _ _ hacc.symm))
  · exact self.memoryEffect_of_keeps _ _ (by simp)
      (keeps_pure.2 (memoryView_modifyDirectoryData _ _ hacc.symm))
  · simp

/-- The memory has answered the read of the first request, which goes on to the previous owner. -/
lemma finishesRead_interveneAfterMemoryAccess {m : ReadResponseMsg} {firstRequest : ReadMsg}
    {requestingExclusive : Bool} {newState : DirectoryState} (hacc : a.accessing line = true)
    (hnew : newState.isMemoryAccess = false) :
    Ensures (fun b => AtMostStartsWrite self.nodeID a b ∧
        FinishesRead line m false a b)
      (self.interveneAfterMemoryAccess m src firstRequest requestingExclusive newState line a) := by
  simp only [interveneAfterMemoryAccess, performMemoryReadResponseCheck, bind_assoc, pure_bind,
    ensures_check_bind]
  intro _ _ _
  refine (self.memoryView_sendMessageToRemoteCache _ _ rfl).ensures_bind fun b hb => ?_
  refine (self.memoryView_sendMessageToRemoteCache _ _ hb).mono fun c hc => ?_
  simp only [memoryView, Prod.mk.injEq] at hc
  exact ⟨.inl hc.2, hacc, hc.1.trans (readView_finish m hnew)⟩

/-- The memory has answered the read of the first request, and the line is written back. -/
lemma finishesRead_replyAfterWritebackRequest {m : ReadResponseMsg} {firstRequest : ReadMsg}
    {secondRequest : WritebackRequestMsg} {blockAttached exclusiveOwnership satisfied : Bool}
    {newState : DirectoryState} (hacc : a.accessing line = true)
    (hnew : newState.isMemoryAccess = false) :
    Ensures (fun b => AtMostStartsWrite self.nodeID a b ∧
        FinishesRead line m false a b)
      (self.replyAfterWritebackRequest m src firstRequest secondRequest blockAttached
        exclusiveOwnership satisfied newState line a) := by
  simp only [replyAfterWritebackRequest, performMemoryReadResponseCheck, bind_assoc, pure_bind,
    ensures_check_bind]
  intro _ _ _
  refine (self.memoryView_sendMessageToRemoteCache _ _ rfl).ensures_bind fun b hb => ?_
  refine (self.memoryView_sendMessageToRemoteCache _ _ hb).ensures_bind fun c hc => ?_
  simp only [memoryView, Prod.mk.injEq] at hc
  have hw : writeView c = writeView a := hc.2
  refine (self.ensures_write_clearTemp hw).mono fun d hd => ?_
  exact ⟨hd.1, hacc, hd.2.trans (hc.1.trans (readView_finish m hnew))⟩

/-- An answered read that is taken off its table ends as it should. -/
lemma memoryEffect_of_finishes {m : ReadResponseMsg} {x : Except Fault Activation}
    (hstate : (a.directoryData line).state ≠ .exclusiveMemoryAccess)
    (hx : Ensures (fun b => AtMostStartsWrite self.nodeID a b ∧
      FinishesRead line m false a b) x) :
    Ensures (MemoryEffect self.nodeID line (.readResponse m) true a) x := by
  refine hx.mono fun b hb => ⟨hb.1, ?_⟩
  rw [decide_eq_false hstate]
  exact hb.2

lemma memoryEffect_onDirectoryBusyExclusiveMemoryAccess
    (hstate : (a.directoryData line).state = .busyExclusiveMemoryAccess) :
    Ensures (MemoryEffect self.nodeID line msg isFromMemory a)
      (self.onDirectoryBusyExclusiveMemoryAccess msg src line isFromMemory a) := by
  have hacc : a.accessing line = true := by rw [accessing, hstate]; rfl
  unfold onDirectoryBusyExclusiveMemoryAccess
  dsimp only
  split
  · simp
  simp only [ensures_check_bind]
  intro _ _ _ _
  split
  · exact self.memoryEffect_of_keeps _ _ (by simp)
      (keeps_pure.2 (memoryView_modifyDirectoryData _ _ hacc.symm))
  · exact self.memoryEffect_sendCacheNak _ _ _
  · split
    · rename_i hmem
      subst hmem
      exact self.memoryEffect_of_finishes (by simp [hstate])
        (self.finishesRead_interveneAfterMemoryAccess _ hacc rfl)
    · simp
  · simp

lemma memoryEffect_onDirectoryBusyExclusiveMemoryAccessWritebackRequest
    (hstate : (a.directoryData line).state = .busyExclusiveMemoryAccessWritebackRequest) :
    Ensures (MemoryEffect self.nodeID line msg isFromMemory a)
      (self.onDirectoryBusyExclusiveMemoryAccessWritebackRequest msg src line isFromMemory a) := by
  have hacc : a.accessing line = true := by rw [accessing, hstate]; rfl
  unfold onDirectoryBusyExclusiveMemoryAccessWritebackRequest
  dsimp only
  split
  · simp only [ensures_check_bind]
    intro _ _
    split
    · exact self.memoryEffect_sendCacheNak _ _ _
    · split
      · rename_i hmem
        subst hmem
        exact self.memoryEffect_of_finishes (by simp [hstate])
          (self.finishesRead_replyAfterWritebackRequest _ hacc rfl)
      · simp
    · simp
  · simp

lemma memoryEffect_onDirectoryBusyShared (hstate : (a.directoryData line).state = .busyShared) :
    Ensures (MemoryEffect self.nodeID line msg isFromMemory a)
      (self.onDirectoryBusyShared msg src line a) := by
  have hacc : a.accessing line = false := by rw [accessing, hstate]; rfl
  have hmod : memoryView (a.modifyDirectoryData line
      fun d => { d with state := .shared }) = memoryView a :=
    memoryView_modifyDirectoryData _ _ hacc.symm
  unfold onDirectoryBusyShared
  dsimp only
  split
  · simp
  simp only [ensures_check_bind]
  intro _ _
  split
  · simp only [ensures_check_bind]
    intro _
    refine self.memoryEffect_of_starts _ _ (by simp) ?_
    refine (self.ensures_write_clearTemp (congrArg Prod.snd hmod)).mono fun d hd => ?_
    exact ⟨hd.1, .inl (hd.2.trans (congrArg Prod.fst hmod))⟩
  · simp only [ensures_check_bind]
    intro _
    exact self.memoryEffect_of_keeps _ _ (by simp)
      (keeps_pure.2 (memoryView_modifyDirectoryData _ _ hacc.symm))
  · exact self.memoryEffect_sendCacheNak _ _ _
  · simp only [ensures_check_bind]
    intro _ _
    refine self.memoryEffect_of_starts _ _ (by simp) ?_
    refine (self.memoryView_sendMessageToRemoteCache _ _ hmod).ensures_bind fun b hb => ?_
    refine (self.memoryView_sendMessageToRemoteCache _ _ hb).ensures_bind fun c hc => ?_
    refine (self.ensures_write_clearTemp (congrArg Prod.snd hc)).mono fun d hd => ?_
    exact ⟨hd.1, .inl (hd.2.trans (congrArg Prod.fst hc))⟩
  · simp only [ensures_check_bind]
    intro _
    exact self.memoryEffect_of_keeps _ _ (by simp)
      (keeps_pure.2 (memoryView_modifyDirectoryData _ _ hacc.symm))
  · simp

lemma memoryEffect_onDirectoryBusySharedMemoryAccess
    (hstate : (a.directoryData line).state = .busySharedMemoryAccess) :
    Ensures (MemoryEffect self.nodeID line msg isFromMemory a)
      (self.onDirectoryBusySharedMemoryAccess msg src line isFromMemory a) := by
  have hacc : a.accessing line = true := by rw [accessing, hstate]; rfl
  unfold onDirectoryBusySharedMemoryAccess
  dsimp only
  split
  · simp
  simp only [ensures_check_bind]
  intro _ _ _
  split
  · rename_i hmem
    subst hmem
    split
    · exact self.memoryEffect_of_finishes (by simp [hstate])
        (self.finishesRead_interveneAfterMemoryAccess _ hacc rfl)
    · simp
  · split
    · exact self.memoryEffect_sendCacheNak _ _ _
    · exact self.memoryEffect_of_keeps _ _ (by simp)
        (keeps_pure.2 (memoryView_modifyDirectoryData _ _ hacc.symm))
    · simp

lemma memoryEffect_onDirectoryBusySharedMemoryAccessWritebackRequest
    (hstate : (a.directoryData line).state = .busySharedMemoryAccessWritebackRequest) :
    Ensures (MemoryEffect self.nodeID line msg isFromMemory a)
      (self.onDirectoryBusySharedMemoryAccessWritebackRequest msg src line isFromMemory a) := by
  have hacc : a.accessing line = true := by rw [accessing, hstate]; rfl
  unfold onDirectoryBusySharedMemoryAccessWritebackRequest
  dsimp only
  split
  · simp only [ensures_check_bind]
    intro _ _
    split
    · exact self.memoryEffect_sendCacheNak _ _ _
    · split
      · rename_i hmem
        subst hmem
        exact self.memoryEffect_of_finishes (by simp [hstate])
          (self.finishesRead_replyAfterWritebackRequest _ hacc rfl)
      · simp
    · simp
  · simp

lemma memoryEffect_sendReadToMemory {m : ReadMsg} {f : DirectoryData → DirectoryData}
    (hacc : a.accessing line = false) (hm : m.addr = line)
    (hf : ∀ d, (f d).state.isMemoryAccess = true) :
    Ensures (MemoryEffect self.nodeID line (.read m) isFromMemory a)
      (self.sendReadToMemory m (a.modifyDirectoryData line f)) := by
  refine self.memoryEffect_of_starts _ _ (by simp) ?_
  exact (self.startsRead_sendReadToMemory hacc hm hf).mono fun b hb => ⟨hb.1, .inr hb.2⟩

lemma memoryEffect_onDirectoryExclusive (hline : msg.getAddress = line)
    (hstate : (a.directoryData line).state = .exclusive) :
    Ensures (MemoryEffect self.nodeID line msg isFromMemory a)
      (self.onDirectoryExclusive msg src line a) := by
  have hacc : a.accessing line = false := by rw [accessing, hstate]; rfl
  simp only [onDirectoryExclusive, ensures_check_bind]
  intro _ _ _
  split
  · simp only [modifyDirectoryData_modifyDirectoryData]
    split
    · exact self.memoryEffect_sendReadToMemory _ hacc hline fun _ => rfl
    · split
      · exact self.memoryEffect_sendReadToMemory _ hacc hline fun _ => rfl
      · exact self.memoryEffect_sendReadToMemory _ hacc hline fun _ => rfl
  · simp only [ensures_check_bind]
    intro _
    refine self.memoryEffect_of_starts _ _ (by simp) ?_
    have hmod : memoryView (a.modifyDirectoryData line
        fun d => { d with state := .unowned, owner := InvalidNodeID }) = memoryView a :=
      memoryView_modifyDirectoryData _ _ hacc.symm
    refine (self.memoryView_sendMessageToRemoteCache _ _ hmod).ensures_bind fun b hb => ?_
    simp only [memoryView, Prod.mk.injEq] at hb
    have hw : writeView b.stamped = writeView a := hb.2
    refine (self.startsWrite_sendWriteToMemory hw).mono fun c hc => ?_
    exact ⟨hc.1, .inl (hc.2.1.trans hb.1)⟩
  · simp

/-- The answered read is not taken off its table. -/
lemma memoryEffect_onDirectoryExclusiveMemoryAccess
    (hstate : (a.directoryData line).state = .exclusiveMemoryAccess) :
    Ensures (MemoryEffect self.nodeID line msg isFromMemory a)
      (self.onDirectoryExclusiveMemoryAccess msg src line isFromMemory a) := by
  have hacc : a.accessing line = true := by rw [accessing, hstate]; rfl
  unfold onDirectoryExclusiveMemoryAccess
  dsimp only
  split
  · simp
  simp only [ensures_check_bind]
  intro _
  split
  · exact self.memoryEffect_sendCacheNak _ _ _
  · split
    · rename_i hmem
      subst hmem
      refine (self.memoryView_sendMessageToRemoteCache _ _ rfl).ensures_bind fun b hb => ?_
      have hclear : memoryView (b.modifyDirectoryData line .clearTemp) =
        memoryView b := memoryView_modifyDirectoryData _ _ rfl
      have hview := hclear.trans hb
      simp only [memoryView, Prod.mk.injEq] at hview
      refine ensures_pure.2 ⟨.inl hview.2, hacc, hview.1.trans ?_⟩
      rw [readView, accessing_modifyDirectoryData, decide_eq_true hstate]
      rfl
    · simp
  · simp

lemma memoryEffect_onDirectoryShared (hline : msg.getAddress = line)
    (hstate : (a.directoryData line).state = .shared) :
    Ensures (MemoryEffect self.nodeID line msg isFromMemory a)
      (self.onDirectoryShared msg src line a) := by
  have hacc : a.accessing line = false := by rw [accessing, hstate]; rfl
  simp only [onDirectoryShared, ensures_check_bind]
  intro _ _ _ _ _
  split
  · split
    · exact self.memoryEffect_sendReadToMemory _ hacc hline fun _ => rfl
    · split
      · exact self.memoryEffect_sendReadToMemory _ hacc hline fun _ => rfl
      · simp only [ensures_check_bind]
        intro _
        refine self.memoryEffect_of_keeps _ _ (by simp) ?_
        have hmod : memoryView (a.modifyDirectoryData line
            fun d => { d with state := .exclusive }) = memoryView a :=
          memoryView_modifyDirectoryData _ _ hacc.symm
        refine (self.memoryView_sendInvalidates _ _ _ hmod).ensures_bind fun b hb => ?_
        refine (self.memoryView_sendMessageToRemoteCache _ _ hb).ensures_bind fun c hc => ?_
        exact ensures_pure.2 ((memoryView_modifyDirectoryData _ _ rfl).trans hc)
  · simp

lemma memoryEffect_onDirectorySharedExclusiveMemoryAccess
    (hstate : (a.directoryData line).state = .sharedExclusiveMemoryAccess) :
    Ensures (MemoryEffect self.nodeID line msg isFromMemory a)
      (self.onDirectorySharedExclusiveMemoryAccess msg src line isFromMemory a) := by
  have hacc : a.accessing line = true := by rw [accessing, hstate]; rfl
  unfold onDirectorySharedExclusiveMemoryAccess
  dsimp only
  split
  · simp
  simp only [ensures_check_bind]
  intro _
  split
  · rename_i hmem
    subst hmem
    split
    · refine self.memoryEffect_of_finishes (by simp [hstate]) ?_
      simp only [performMemoryReadResponseCheck, bind_assoc, pure_bind, ensures_check_bind]
      intro _ _
      refine (self.memoryView_sendInvalidates _ _ _ rfl).ensures_bind fun b hb => ?_
      refine (self.memoryView_sendMessageToRemoteCache _ _ hb).ensures_bind fun c hc => ?_
      have hlast : memoryView (c.modifyDirectoryData line fun d =>
          { d.clearTemp with sharers := ∅, owner := d.firstRequestSrc }) =
        memoryView c := memoryView_modifyDirectoryData _ _ rfl
      have hview := hlast.trans hc
      simp only [memoryView, Prod.mk.injEq] at hview
      exact ensures_pure.2
        ⟨.inl hview.2, hacc, hview.1.trans (readView_finish _ rfl)⟩
    · simp
  · split
    · exact self.memoryEffect_sendCacheNak _ _ _
    · simp

lemma memoryEffect_onDirectorySharedMemoryAccess
    (hstate : (a.directoryData line).state = .sharedMemoryAccess) :
    Ensures (MemoryEffect self.nodeID line msg isFromMemory a)
      (self.onDirectorySharedMemoryAccess msg src line isFromMemory a) := by
  have hacc : a.accessing line = true := by rw [accessing, hstate]; rfl
  simp only [onDirectorySharedMemoryAccess, ensures_check_bind]
  intro _ _
  split
  · split
    · exact self.memoryEffect_of_keeps _ _ (by simp)
        (keeps_pure.2 (memoryView_modifyDirectoryData _ _ rfl))
    · exact self.memoryEffect_sendCacheNak _ _ _
  · split
    · rename_i hmem
      subst hmem
      refine self.memoryEffect_of_finishes (by simp [hstate]) ?_
      simp only [performMemoryReadResponseCheck, bind_assoc, pure_bind, ensures_check_bind]
      intro _ _
      refine (self.memoryView_sendSharedReplies _ rfl).ensures_bind fun b hb => ?_
      have hlast : memoryView (b.modifyDirectoryData line fun d =>
          { d with pendingSharedReads := [] }) = memoryView b :=
        memoryView_modifyDirectoryData _ _ rfl
      have hview := hlast.trans hb
      simp only [memoryView, Prod.mk.injEq] at hview
      exact ensures_pure.2
        ⟨.inl hview.2, hacc, hview.1.trans (readView_finish _ rfl)⟩
    · simp
  · simp

lemma memoryEffect_onDirectoryUnowned (hline : msg.getAddress = line)
    (hstate : (a.directoryData line).state = .unowned) :
    Ensures (MemoryEffect self.nodeID line msg isFromMemory a)
      (self.onDirectoryUnowned msg src line a) := by
  have hacc : a.accessing line = false := by rw [accessing, hstate]; rfl
  simp only [onDirectoryUnowned, ensures_check_bind]
  intro _ _
  split
  · refine self.memoryEffect_of_starts _ _ (by simp) ?_
    refine (self.startsRead_sendReadToMemory hacc hline fun _ => rfl).bind fun b hb => ?_
    simp only [ensures_check_bind, ensures_pure]
    intro _
    have hlast : memoryView (b.modifyDirectoryData line fun d =>
        { d with owner := src }) = memoryView b :=
      memoryView_modifyDirectoryData _ _ rfl
    simp only [memoryView, Prod.mk.injEq] at hlast
    rw [AtMostStartsWrite, StartsRead, hlast.1, hlast.2]
    exact ⟨hb.1, .inr hb.2⟩
  · simp

/-- The effect of a message for the directory side on the memory accesses of its node. -/
lemma memoryEffect_onDirectory (hline : msg.getAddress = line) :
    Ensures (MemoryEffect self.nodeID line msg isFromMemory a)
      (self.onDirectory msg src line isFromMemory a) := by
  unfold onDirectory
  split
  · exact self.memoryEffect_onDirectoryBusyExclusiveMemoryAccess _ _ _ ‹_›
  · exact self.memoryEffect_onDirectoryBusyExclusive _ _ _ ‹_›
  · exact self.memoryEffect_onDirectoryBusyExclusiveMemoryAccessWritebackRequest _ _ _ ‹_›
  · exact self.memoryEffect_onDirectoryBusyShared _ _ _ ‹_›
  · exact self.memoryEffect_onDirectoryBusySharedMemoryAccess _ _ _ ‹_›
  · exact self.memoryEffect_onDirectoryBusySharedMemoryAccessWritebackRequest _ _ _ ‹_›
  · exact self.memoryEffect_onDirectoryExclusiveMemoryAccess _ _ _ ‹_›
  · exact self.memoryEffect_onDirectoryExclusive _ _ _ hline ‹_›
  · exact self.memoryEffect_onDirectoryShared _ _ _ hline ‹_›
  · exact self.memoryEffect_onDirectorySharedExclusiveMemoryAccess _ _ _ ‹_›
  · exact self.memoryEffect_onDirectorySharedMemoryAccess _ _ _ ‹_›
  · exact self.memoryEffect_onDirectoryUnowned _ _ _ hline ‹_›
  · simp

end Device

end Sesc.Origin
