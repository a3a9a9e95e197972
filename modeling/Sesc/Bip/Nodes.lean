import Sesc.Bip.System

/-!
# The nodes that a device names

The nodes that a device has recorded, and those that packets come from and go to, are nodes of
the system; only the owner of a line may be missing.
-/

namespace Sesc.Bip

open Lib

/-- The nodes recorded for a line are among the given ones. -/
structure BlockData.Within (b : BlockData) (nodes : List NodeID) : Prop where
  owner : b.owner = InvalidNodeID ∨ b.owner ∈ nodes
  sharers : ∀ id ∈ b.sharers, id ∈ nodes

/-- A device whose node, and whose home nodes, are among the given ones. -/
structure Device.Within (d : Device) (nodes : List NodeID) : Prop where
  node : d.nodeID ∈ nodes
  home : ∀ addr, d.directoryNodeCalc addr ∈ nodes

/-- The sender of a packet. -/
def Packet.sender : Packet → NodeID
  | network _ src _ => src
  | p => p.node

/-- The sender of a packet and the node to which it goes are among the given ones. -/
structure Packet.Within (p : Packet) (nodes : List NodeID) : Prop where
  node : p.node ∈ nodes
  sender : p.sender ∈ nodes

variable {nodes : List NodeID} {self : Device} {a b : Activation} {addr : Address} {src : NodeID}
  {reply : CacheReply}

namespace BlockData

lemma Within.new : BlockData.new.Within nodes where
  owner := .inl rfl
  sharers _ hid := absurd hid (ListSet.not_mem_empty _)

lemma Within.release {d : BlockData} {id : NodeID} (h : d.Within nodes) :
    (d.release id).Within nodes := by
  rw [BlockData.release]
  split
  · exact ⟨.inl rfl, h.sharers⟩
  · exact ⟨h.owner, fun id' hid' => h.sharers id' (ListSet.mem_erase.1 hid').2⟩

end BlockData

/-- The nodes that a device names while a handler runs are among the given ones. -/
structure Names (nodes : List NodeID) (a : Activation) : Prop where
  remoteRead : ∀ id ld, a.dir.pendingRemoteReads id = some ld → ld.sourceNode ∈ nodes
  remoteInvalidate : ∀ addr ld,
    a.dir.pendingRemoteInvalidates addr = some ld → ld.sourceNode ∈ nodes
  shared : ∀ addr, ∀ ld ∈ a.dir.pendingDirectorySharedReads addr, ld.sourceNode ∈ nodes
  exclusive : ∀ addr ld,
    a.dir.pendingDirectoryExclusiveReads addr = some ld → ld.sourceNode ∈ nodes
  record : ∀ addr d, a.dir.directoryData addr = some d → d.Within nodes
  sent : ∀ p ∈ a.sent, p.Within nodes

namespace Names

/-- The part of an activation that names nodes. -/
def view (a : Activation) :=
  (a.dir.pendingRemoteReads, a.dir.pendingRemoteInvalidates, a.dir.pendingDirectorySharedReads,
    a.dir.pendingDirectoryExclusiveReads, a.dir.directoryData, a.sent)

lemma congr (h : Names nodes a) (hab : view b = view a) : Names nodes b := by
  simp only [view, Prod.mk.injEq] at hab
  obtain ⟨hread, hinvalidate, hshared, hexclusive, hrecord, hsent⟩ := hab
  constructor
  · exact hread ▸ h.remoteRead
  · exact hinvalidate ▸ h.remoteInvalidate
  · exact hshared ▸ h.shared
  · exact hexclusive ▸ h.exclusive
  · exact hrecord ▸ h.record
  · exact hsent ▸ h.sent

lemma send {p : Packet} (h : Names nodes a) (hp : p.Within nodes) : Names nodes (a.send p) where
  __ := h
  sent q hq := by
    rcases List.mem_append.1 hq with hold | hnew
    · exact h.sent q hold
    · rw [List.mem_singleton.1 hnew]
      exact hp

lemma setDirectoryData {d : BlockData} (h : Names nodes a) (hd : d.Within nodes) :
    Names nodes (a.setDirectoryData addr d) where
  __ := h
  record := by
    refine (Function.forall_update_iff _ (p := fun _ (o : Option BlockData) => ∀ d, o = some d → d.Within nodes)).2
      ⟨fun d' hd' => ?_, fun addr' _ => h.record addr'⟩
    cases hd'
    exact hd

lemma setPendingRemoteRead {id : MessageID} {o : Option (LookupData ReadMsg)} (h : Names nodes a)
    (ho : ∀ ld, o = some ld → ld.sourceNode ∈ nodes) :
    Names nodes (a.setPendingRemoteRead id o) where
  __ := h
  remoteRead :=
    (Function.forall_update_iff _ (p := fun _ (o : Option (LookupData ReadMsg)) =>
      ∀ ld, o = some ld → ld.sourceNode ∈ nodes)).2
      ⟨ho, fun id' _ => h.remoteRead id'⟩

lemma setPendingRemoteInvalidate {o : Option (LookupData InvalidateMsg)} (h : Names nodes a)
    (ho : ∀ ld, o = some ld → ld.sourceNode ∈ nodes) :
    Names nodes (a.setPendingRemoteInvalidate addr o) where
  __ := h
  remoteInvalidate :=
    (Function.forall_update_iff _ (p := fun _ (o : Option (LookupData InvalidateMsg)) =>
      ∀ ld, o = some ld → ld.sourceNode ∈ nodes)).2
      ⟨ho, fun addr' _ => h.remoteInvalidate addr'⟩

lemma setPendingDirectorySharedReads {l : List (LookupData ReadMsg)} (h : Names nodes a)
    (hl : ∀ ld ∈ l, ld.sourceNode ∈ nodes) :
    Names nodes (a.setPendingDirectorySharedReads addr l) where
  __ := h
  shared :=
    (Function.forall_update_iff _ (p := fun _ (l : List (LookupData ReadMsg)) =>
      ∀ ld ∈ l, ld.sourceNode ∈ nodes)).2
      ⟨hl, fun addr' _ => h.shared addr'⟩

lemma setPendingDirectoryExclusiveRead {o : Option (LookupData ReadMsg)} (h : Names nodes a)
    (ho : ∀ ld, o = some ld → ld.sourceNode ∈ nodes) :
    Names nodes (a.setPendingDirectoryExclusiveRead addr o) where
  __ := h
  exclusive :=
    (Function.forall_update_iff _ (p := fun _ (o : Option (LookupData ReadMsg)) =>
      ∀ ld, o = some ld → ld.sourceNode ∈ nodes)).2
      ⟨ho, fun addr' _ => h.exclusive addr'⟩

/-- The record from which a line is fetched. -/
lemma getD_record (h : Names nodes a) : ((a.dir.directoryData addr).getD .new).Within nodes := by
  rcases hd : a.dir.directoryData addr with _ | d
  · exact .new
  · exact h.record addr d hd

end Names

/-! ## The handlers -/

namespace Device

lemma names_sendNetwork {dest : NodeID} {msg : Msg} (h : Names nodes a)
    (hself : self.Within nodes) (hdest : dest ∈ nodes) :
    Names nodes (self.sendNetwork dest msg a) :=
  h.send ⟨hdest, hself.node⟩

lemma names_sendLocalCache {msg : Msg} (h : Names nodes a) (hself : self.Within nodes) :
    Names nodes (self.sendLocalCache msg a) :=
  h.send ⟨hself.node, hself.node⟩

lemma names_sendReadRequestToMemory {m : ReadMsg} (h : Names nodes a)
    (hself : self.Within nodes) : Ensures (Names nodes) (self.sendReadRequestToMemory m a) := by
  refine ensures_check_bind.2 fun _ => ensures_ok.2 ?_
  have hset : Names nodes (a.setPendingMemoryRead m.msgID (some m)) := h.congr rfl
  exact hset.send ⟨hself.node, hself.node⟩

lemma names_sendWriteRequestToMemory {m : WriteMsg} (h : Names nodes a)
    (hself : self.Within nodes) : Ensures (Names nodes) (self.sendWriteRequestToMemory m a) := by
  refine ensures_check_bind.2 fun _ => ensures_ok.2 ?_
  have hset : Names nodes (a.setPendingMemoryWrite m.msgID (some m)) := h.congr rfl
  exact hset.send ⟨hself.node, hself.node⟩

lemma names_writeBlock {blockAttached : Bool} (h : Names nodes a) (hself : self.Within nodes) :
    Ensures (Names nodes) (self.writeBlock blockAttached addr a) := by
  rw [writeBlock]
  split
  · have hstamped : Names nodes a.stamped := h.congr rfl
    exact names_sendWriteRequestToMemory hstamped hself
  · exact ensures_ok.2 h

lemma names_eraseDirectoryShare {id : NodeID} (h : Names nodes a) :
    Ensures (Names nodes) (eraseDirectoryShare addr id a) := by
  rw [eraseDirectoryShare]
  split
  · exact ensures_error
  · rename_i d hd
    exact ensures_ok.2 (h.setDirectoryData (h.record addr d hd).release)

lemma names_addDirectoryShare {id : NodeID} {exclusive : Bool} (h : Names nodes a)
    (hid : id ∈ nodes) : Ensures (Names nodes) (addDirectoryShare addr id exclusive a) := by
  rw [addDirectoryShare]
  split
  · exact ensures_error
  · rename_i d hd
    have hrecord := h.record addr d hd
    refine ensures_check_bind.2 fun _ => ensures_ok.2 (h.setDirectoryData ?_)
    split
    · exact ⟨.inr hid, hrecord.sharers⟩
    · refine ⟨hrecord.owner, fun id' hid' => ?_⟩
      rcases ListSet.mem_insert.1 hid' with rfl | hold
      · exact hid
      · exact hrecord.sharers id' hold

lemma names_onRemoteReadCache {m : ReadMsg} (h : Names nodes a) (hself : self.Within nodes)
    (hsrc : src ∈ nodes) : Ensures (Names nodes) (self.onRemoteReadCache m src a) := by
  refine ensures_check_bind.2 fun _ => ensures_check_bind.2 fun _ => ensures_ok.2 ?_
  refine names_sendLocalCache (h.setPendingRemoteRead fun ld hld => ?_) hself
  cases hld
  exact hsrc

/-- The node from which a line is fetched has been recorded. -/
lemma fetchTarget_eq_some {d : BlockData} {target : NodeID} (h : fetchTarget d a = some target) :
    d.owner = target ∧ d.owner ≠ InvalidNodeID ∨
      d.owner = InvalidNodeID ∧ target ∈ d.sharers := by
  rw [fetchTarget] at h
  split at h
  · rename_i howner
    cases h
    exact .inl ⟨rfl, howner⟩
  · rename_i howner
    exact .inr ⟨not_not.1 howner, List.mem_of_getElem? h⟩

lemma names_performDirectoryFetch (h : Names nodes a) (hself : self.Within nodes) :
    Ensures (Names nodes) (self.performDirectoryFetch addr a) := by
  refine ensures_check_bind.2 fun _ => ensures_check_bind.2 fun _ => Ensures.elim fun ld _ => ?_
  have hrecord : ((a.dir.directoryData ld.msg.addr).getD .new).Within nodes := h.getD_record
  have hset : Names nodes (a.setDirectoryData ld.msg.addr
    ((a.dir.directoryData ld.msg.addr).getD .new)) := h.setDirectoryData hrecord
  dsimp only
  split
  · rename_i target htarget
    have hmem : target ∈ nodes := by
      rcases fetchTarget_eq_some htarget with ⟨howner, hvalid⟩ | ⟨-, hsharer⟩
      · exact howner ▸ hrecord.owner.resolve_left hvalid
      · exact hrecord.sharers target hsharer
    split
    · exact names_onRemoteReadCache hset hself hself.node
    · exact ensures_ok.2 (names_sendNetwork hset hself hmem)
  · split
    · exact names_sendReadRequestToMemory hset hself
    · exact ensures_ok.2 hset

lemma names_onLocalRead {m : ReadMsg} (h : Names nodes a) (hself : self.Within nodes) :
    Ensures (Names nodes) (self.onLocalRead m a) := by
  refine ensures_check_bind.2 fun _ => ensures_ok.2 ?_
  have hset : Names nodes ((a.setPendingLocalRead m.msgID
    (some m)).modifyReversePendingLocalReads m.addr (· ++ [m])) := h.congr rfl
  split
  · exact hset.send ⟨hself.node, hself.node⟩
  · exact names_sendNetwork hset hself (hself.home m.addr)

lemma names_onDirectoryBlockResponse {m : ReadResponseMsg} (h : Names nodes a)
    (hself : self.Within nodes) : Ensures (Names nodes) (self.onDirectoryBlockResponse m a) := by
  refine Ensures.elim fun ref _ => ?_
  have hset : Names nodes ((a.setPendingLocalRead m.solicitingMessage
    none).modifyReversePendingLocalReads m.addr
      (·.eraseP fun read => read.msgID = m.solicitingMessage)) := h.congr rfl
  dsimp only
  split
  · refine ensures_ok.2 (names_sendLocalCache ?_ hself)
    split
    · exact hset.congr rfl
    · exact hset.congr rfl
  · exact names_onLocalRead hset hself

lemma names_onDirectoryBlockRequest {m : ReadMsg} (h : Names nodes a)
    (hself : self.Within nodes) (hsrc : src ∈ nodes) :
    Ensures (Names nodes) (self.onDirectoryBlockRequest m src a) := by
  have hstamped : Names nodes a.stamped := h.congr rfl
  rw [onDirectoryBlockRequest]
  split
  · refine ensures_ok.2 ?_
    split
    · exact h.send ⟨hself.node, hself.node⟩
    · exact names_sendNetwork hstamped hself hsrc
  · split
    · refine names_performDirectoryFetch (h.setPendingDirectoryExclusiveRead fun ld hld => ?_)
        hself
      cases hld
      exact hsrc
    · dsimp only
      have hinsert : Names nodes (a.setPendingDirectorySharedReads m.addr
          ((a.dir.pendingDirectorySharedReads m.addr).insertIdx
            (a.order.position % ((a.dir.pendingDirectorySharedReads m.addr).length + 1))
            (.new m src))) := by
        refine h.setPendingDirectorySharedReads fun ld hld => ?_
        rcases List.eq_or_mem_of_mem_insertIdx hld with rfl | hmem
        · exact hsrc
        · exact h.shared m.addr ld hmem
      split
      · exact ensures_ok.2 hinsert
      · exact names_performDirectoryFetch hinsert hself

lemma names_onRemoteInvalidate {m : InvalidateMsg} (h : Names nodes a)
    (hself : self.Within nodes) (hsrc : src ∈ nodes) :
    Ensures (Names nodes) (self.onRemoteInvalidate m src a) := by
  refine ensures_check_bind.2 fun _ => ensures_ok.2 ?_
  refine names_sendLocalCache (h.setPendingRemoteInvalidate fun ld hld => ?_) hself
  cases hld
  exact hsrc

lemma names_sendInvalidate {dest : NodeID} (h : Names nodes a) (hself : self.Within nodes)
    (hdest : dest ∈ nodes) : Ensures (Names nodes) (self.sendInvalidate addr dest a) := by
  have hstamped : Names nodes a.stamped := h.congr rfl
  rw [sendInvalidate]
  split
  · exact ensures_ok.2 (names_sendNetwork hstamped hself hdest)
  · exact names_onRemoteInvalidate hstamped hself hself.node

/-! ### Responses at the home -/

lemma names_answerSharedRead {isOneReader : Bool} {ld : LookupData ReadMsg} (h : Names nodes a)
    (hself : self.Within nodes) (hld : ld.sourceNode ∈ nodes) :
    Ensures (Names nodes) (self.answerSharedRead addr isOneReader ld a) := by
  have hstamped : Names nodes a.stamped := h.congr rfl
  rw [answerSharedRead]
  split
  · exact names_onDirectoryBlockResponse hstamped hself
  · exact ensures_ok.2 (names_sendNetwork hstamped hself hld)

lemma names_satisfySharedReads (h : Names nodes a) (hself : self.Within nodes) :
    Ensures (Names nodes) (self.satisfySharedReads addr a) := by
  have hsources := h.shared addr
  refine (Ensures.foldlM h fun ld hld b hb =>
    names_addDirectoryShare hb (hsources ld hld)).bind fun b hb => ?_
  refine (Ensures.foldlM hb fun ld hld c hc =>
    names_answerSharedRead hc hself (hsources ld hld)).bind fun c hc => ensures_ok.2 ?_
  exact hc.setPendingDirectorySharedReads fun ld hld => absurd hld List.not_mem_nil

lemma names_answerExclusiveRead {m : ReadResponseMsg} {ld : LookupData ReadMsg}
    (h : Names nodes a) (hself : self.Within nodes) (hld : ld.sourceNode ∈ nodes) :
    Ensures (Names nodes) (self.answerExclusiveRead m ld a) := by
  rw [answerExclusiveRead]
  split
  · exact ensures_ok.2 (names_sendNetwork h hself hld)
  · exact names_onDirectoryBlockResponse h hself

lemma names_invalidateSharers {d : BlockData} {ld : LookupData ReadMsg} (h : Names nodes a)
    (hself : self.Within nodes) (hd : d.Within nodes) (hld : ld.sourceNode ∈ nodes) :
    Ensures (Names nodes) (self.invalidateSharers addr d ld a) := by
  refine Ensures.foldlM (h.setPendingDirectoryExclusiveRead fun ld' hld' => ?_)
    fun dest hdest b hb => names_sendInvalidate hb hself (hd.sharers dest hdest)
  cases hld'
  exact hld

lemma names_satisfyExclusiveReads {m : ReadResponseMsg} (h : Names nodes a)
    (hself : self.Within nodes) : Ensures (Names nodes) (self.satisfyExclusiveReads m src a) := by
  refine ensures_check_bind.2 fun _ => ensures_check_bind.2 fun _ => ensures_check_bind.2 fun _ =>
    Ensures.elim fun ld hld => ?_
  have hsource := h.exclusive m.addr ld hld
  split
  · refine (names_answerExclusiveRead h hself hsource).bind fun b hb => ?_
    refine (names_addDirectoryShare hb hsource).bind fun c hc => ensures_ok.2 ?_
    exact hc.setPendingDirectoryExclusiveRead fun ld hnone => by cases hnone
  · exact names_invalidateSharers h hself h.getD_record hsource

lemma names_onRemoteReadResponse {m : ReadResponseMsg} (h : Names nodes a)
    (hself : self.Within nodes) : Ensures (Names nodes) (self.onRemoteReadResponse m src a) := by
  refine ensures_check_bind.2 fun _ => ensures_check_bind.2 fun _ => ensures_check_bind.2 fun _ =>
    ensures_check_bind.2 fun _ => ?_
  split
  · have herase : Ensures (Names nodes) (eraseExclusiveShare m src a) := by
      rw [eraseExclusiveShare]
      split
      · exact names_eraseDirectoryShare h
      · exact ensures_ok.2 h
    refine herase.bind fun b hb => ?_
    split
    · exact names_satisfySharedReads hb hself
    · exact names_satisfyExclusiveReads hb hself
  · exact (names_eraseDirectoryShare h).bind fun b hb =>
      ensures_check_bind.2 fun _ => names_performDirectoryFetch hb hself

lemma names_onRemoteDirectoryNak {m : DirectoryNakMsg} (h : Names nodes a)
    (hself : self.Within nodes) (hsrc : src ∈ nodes) :
    Ensures (Names nodes) (self.onRemoteDirectoryNak m src a) := by
  rw [onRemoteDirectoryNak]
  split
  · split
    · exact names_performDirectoryFetch h hself
    · exact ensures_ok.2 h
  · split
    · exact names_sendInvalidate h hself hsrc
    · exact ensures_error

/-! ### Evictions and invalidate responses -/

lemma names_onRemoteEviction {m : EvictionMsg} (h : Names nodes a) (hself : self.Within nodes)
    (hsrc : src ∈ nodes) : Ensures (Names nodes) (self.onRemoteEviction m src a) := by
  have hanswer : ∀ b, Names nodes b → Ensures (Names nodes) (self.answerEviction m src b) := by
    intro b hb
    have hstamped : Names nodes b.stamped := hb.congr rfl
    rw [answerEviction]
    split
    · exact ensures_check_bind.2 fun _ => ensures_ok.2 (hb.congr rfl)
    · exact ensures_ok.2 (names_sendNetwork hstamped hself hsrc)
  rw [onRemoteEviction]
  split
  · exact ensures_error
  · rename_i d hd
    exact (hanswer _ (h.setDirectoryData (h.record m.addr d hd).release)).bind fun b hb =>
      names_writeBlock hb hself

lemma names_onRemoteEvictionResponse {m : EvictionResponseMsg} (h : Names nodes a)
    (hself : self.Within nodes) : Ensures (Names nodes) (self.onRemoteEvictionResponse m a) := by
  refine ensures_check_bind.2 fun _ => ensures_ok.2 ?_
  have hset : Names nodes (a.setPendingEviction m.addr false) := h.congr rfl
  exact names_sendLocalCache hset hself

lemma names_grantExclusive {ld : LookupData ReadMsg} (h : Names nodes a)
    (hself : self.Within nodes) (hld : ld.sourceNode ∈ nodes) :
    Ensures (Names nodes) (self.grantExclusive addr ld a) := by
  have hset : Names nodes (a.setDirectoryData addr ⟨∅, ld.sourceNode⟩) :=
    h.setDirectoryData ⟨.inr hld, fun id hid => absurd hid (ListSet.not_mem_empty id)⟩
  have hstamped : Names nodes (a.setDirectoryData addr ⟨∅, ld.sourceNode⟩).stamped :=
    hset.congr rfl
  have hsent : ∀ msg, Names nodes (if ld.sourceNode = self.nodeID then
      self.sendLocalCache msg (a.setDirectoryData addr ⟨∅, ld.sourceNode⟩).stamped
      else self.sendNetwork ld.sourceNode msg
        (a.setDirectoryData addr ⟨∅, ld.sourceNode⟩).stamped) := by
    intro msg
    split
    · exact names_sendLocalCache hstamped hself
    · exact names_sendNetwork hstamped hself hld
  refine (names_addDirectoryShare (hsent _) hld).bind fun b hb => ensures_ok.2 ?_
  exact hb.setPendingDirectoryExclusiveRead fun ld hnone => by cases hnone

lemma names_onRemoteInvalidateResponse {m : InvalidateResponseMsg} (h : Names nodes a)
    (hself : self.Within nodes) :
    Ensures (Names nodes) (self.onRemoteInvalidateResponse m src a) := by
  rw [onRemoteInvalidateResponse]
  split
  · exact ensures_error
  · rename_i d hd
    refine ensures_check_bind.2 fun _ => ensures_check_bind.2 fun _ => ?_
    have hset : Names nodes (a.setDirectoryData m.addr (d.release src)) :=
      h.setDirectoryData (h.record m.addr d hd).release
    refine (names_writeBlock hset hself).bind fun b hb => ?_
    rw [countInvalidateResponse]
    split
    · exact ensures_error
    · rename_i ld hld
      have hsource := hb.exclusive m.addr ld hld
      have hcounted : Names nodes (b.setPendingDirectoryExclusiveRead m.addr (some { ld with
          invalidateResponsesReceived := ld.invalidateResponsesReceived + 1 })) := by
        refine hb.setPendingDirectoryExclusiveRead fun ld' hld' => ?_
        cases hld'
        exact hsource
      dsimp only
      split
      · exact names_grantExclusive hcounted hself hsource
      · exact ensures_ok.2 hcounted

/-! ### Messages of the local cache -/

lemma names_onLocalReadResponse {m : ReadResponseMsg} (h : Names nodes a)
    (hself : self.Within nodes) : Ensures (Names nodes) (self.onLocalReadResponse m a) := by
  refine Ensures.elim fun ld hld => ensures_check_bind.2 fun _ => ?_
  have hsource := h.remoteRead _ ld hld
  have hset : Names nodes (a.setPendingRemoteRead ld.msg.msgID none) :=
    h.setPendingRemoteRead fun ld hnone => by cases hnone
  have hstamped : Names nodes (a.setPendingRemoteRead ld.msg.msgID none).stamped := hset.congr rfl
  dsimp only
  split
  · exact ensures_ok.2 (names_sendNetwork hset hself hsource)
  · refine ensures_check_bind.2 fun _ => ensures_ok.2 ?_
    split
    · exact hstamped.send ⟨hself.node, hself.node⟩
    · exact names_sendNetwork hstamped hself (hself.home m.addr)

lemma names_onLocalWrite {m : WriteMsg} (h : Names nodes a) (hself : self.Within nodes) :
    Ensures (Names nodes) (self.onLocalWrite m a) := by
  have hstamped : Names nodes a.stamped := h.congr rfl
  have hsend : Names nodes (self.sendLocalCache (.writeResponse
      { msgID := a.currentMsgStamp, addr := m.addr, solicitingMessage := m.msgID }) a.stamped) :=
    names_sendLocalCache hstamped hself
  rw [onLocalWrite]
  split
  · exact ensures_check_bind.2 fun _ => names_sendWriteRequestToMemory hsend hself
  · exact ensures_ok.2 (names_sendNetwork hsend hself (hself.home m.addr))

lemma names_onLocalEviction {m : EvictionMsg} (h : Names nodes a) (hself : self.Within nodes) :
    Ensures (Names nodes) (self.onLocalEviction m a) := by
  rw [onLocalEviction]
  split
  · exact ensures_ok.2 h
  · have hset : Names nodes (a.setPendingEviction m.addr true).stamped := h.congr rfl
    have hsend : Names nodes (self.sendLocalCache (.evictionResponse (.ofEviction
        (a.setPendingEviction m.addr true).currentMsgStamp m))
        (a.setPendingEviction m.addr true).stamped) :=
      names_sendLocalCache hset hself
    dsimp only
    split
    · exact names_onRemoteEviction hsend hself hself.node
    · exact ensures_ok.2 (names_sendNetwork hsend hself (hself.home m.addr))

lemma names_onLocalInvalidateResponse {m : InvalidateResponseMsg} (h : Names nodes a)
    (hself : self.Within nodes) : Ensures (Names nodes) (self.onLocalInvalidateResponse m a) := by
  refine Ensures.elim fun ld hld => ensures_check_bind.2 fun _ => ?_
  have hpass : Ensures (Names nodes) (self.passInvalidateResponse m ld.sourceNode a) := by
    rw [passInvalidateResponse]
    split
    · exact ensures_ok.2 (names_sendNetwork h hself (h.remoteInvalidate _ ld hld))
    · exact names_onRemoteInvalidateResponse h hself
  exact hpass.bind fun b hb => ensures_ok.2
    (hb.setPendingRemoteInvalidate fun ld hnone => by cases hnone)

end Device

/-! ## Deliveries -/

/-- The handler for a packet names nodes of the system only. -/
lemma names_recvMsg {cfg : Config} {p : Packet} (h : Names cfg.nodeIDs a)
    (hp : p.Within cfg.nodeIDs) : Ensures (Names cfg.nodeIDs) (cfg.recvMsg p reply a) := by
  have hself : ∀ n ∈ cfg.nodeIDs, (cfg.device n).Within cfg.nodeIDs := fun n hn => ⟨hn, cfg.calc_mem⟩
  have hstamped : Names cfg.nodeIDs a.stamped := h.congr rfl
  cases p with
  | network dest src msg =>
    have hdest := hself dest hp.node
    cases msg with
    | directoryNak m => exact Device.names_onRemoteDirectoryNak h hdest hp.sender
    | read m =>
      show Ensures _ (if m.directoryLookup then _ else _)
      split
      · exact Device.names_onDirectoryBlockRequest h hdest hp.sender
      · exact Device.names_onRemoteReadCache h hdest hp.sender
    | readResponse m =>
      show Ensures _ (if m.directoryLookup then _ else _)
      split
      · exact Device.names_onDirectoryBlockResponse h hdest
      · exact Device.names_onRemoteReadResponse h hdest
    | writeResponse m => exact ensures_ok.2 h
    | eviction m => exact Device.names_onRemoteEviction h hdest hp.sender
    | evictionResponse m => exact Device.names_onRemoteEvictionResponse h hdest
    | invalidate m => exact Device.names_onRemoteInvalidate h hdest hp.sender
    | invalidateResponse m => exact Device.names_onRemoteInvalidateResponse h hdest
    | _ => exact ensures_error
  | scheduled node msg =>
    cases msg with
    | read m => exact Device.names_onDirectoryBlockRequest h (hself node hp.node) hp.node
    | directoryNak m => exact Device.names_onRemoteDirectoryNak h (hself node hp.node) hp.node
    | _ => exact ensures_error
  | toLocalCache node msg =>
    cases msg with
    | read m => exact ensures_ok.2 (hstamped.send ⟨hp.node, hp.node⟩)
    | invalidate m => exact ensures_ok.2 (hstamped.send ⟨hp.node, hp.node⟩)
    | _ => exact ensures_ok.2 h
  | fromLocalCache node msg =>
    cases msg with
    | read m => exact Device.names_onLocalRead h (hself node hp.node)
    | readResponse m => exact Device.names_onLocalReadResponse h (hself node hp.node)
    | write m => exact Device.names_onLocalWrite h (hself node hp.node)
    | eviction m => exact Device.names_onLocalEviction h (hself node hp.node)
    | invalidateResponse m =>
      exact Device.names_onLocalInvalidateResponse h (hself node hp.node)
    | _ => exact ensures_error
  | toMemory node msg =>
    cases msg with
    | read m => exact ensures_ok.2 (hstamped.send ⟨hp.node, hp.node⟩)
    | write m => exact ensures_ok.2 (hstamped.send ⟨hp.node, hp.node⟩)
    | _ => exact ensures_error
  | fromMemory node msg =>
    cases msg with
    | readResponse m =>
      refine ensures_check_bind.2 fun _ => ?_
      have hset : Names cfg.nodeIDs (a.setPendingMemoryRead m.solicitingMessage none) :=
        h.congr rfl
      exact Device.names_onRemoteReadResponse hset (hself node hp.node)
    | writeResponse m => exact ensures_check_bind.2 fun _ => ensures_ok.2 (h.congr rfl)
    | _ => exact ensures_error

/-! ## Runs -/

/-- All packets in flight and all tables name nodes of the system. -/
structure NodesKnown (cfg : Config) (s : System) : Prop where
  flight : ∀ p ∈ s.flight, p.Within cfg.nodeIDs
  device : ∀ n order, Names cfg.nodeIDs (s.activation n order)

variable {cfg : Config} {s s' : System}

lemma NodesKnown.new : NodesKnown cfg .new where
  flight _ hp := absurd hp List.not_mem_nil
  device n order := by
    refine ⟨?_, ?_, ?_, ?_, ?_, fun p hp => absurd hp List.not_mem_nil⟩
    · exact fun id ld h => by cases h
    · exact fun addr ld h => by cases h
    · exact fun addr ld h => absurd h List.not_mem_nil
    · exact fun addr ld h => by cases h
    · exact fun addr d h => by cases h

lemma NodesKnown.localSend {n : NodeID} {msg : Msg} (hs : NodesKnown cfg s)
    (hn : n ∈ cfg.nodeIDs) : NodesKnown cfg (s.localSend n msg) where
  flight p hp := by
    rcases List.mem_append.1 hp with hold | hnew
    · exact hs.flight p hold
    · rw [List.mem_singleton.1 hnew]
      exact ⟨hn, hn⟩
  device n' order := (hs.device n' order).congr rfl

lemma NodesKnown.deliver {k : ℕ} {order : HashOrder} {p : Packet} (hs : NodesKnown cfg s)
    (hp : s.flight[k]? = some p) (h : cfg.recvMsg p reply (s.activation p.node order) = .ok a) :
    NodesKnown cfg (s.commit k p a) := by
  have hwithin : Names cfg.nodeIDs a := names_recvMsg (hs.device p.node order)
    (hs.flight p (List.mem_of_getElem? hp)) a h
  constructor
  · intro q hq
    rcases List.mem_append.1 hq with hold | hnew
    · exact hs.flight q (List.mem_of_mem_eraseIdx hold)
    · exact hwithin.sent q hnew
  · intro n order'
    by_cases hn : n = p.node
    · have hdir : (s.commit k p a).nodes n = a.dir := by
        rw [hn]
        exact Function.update_self _ _ _
      have hempty : Names cfg.nodeIDs { a with sent := [] } :=
        ⟨hwithin.remoteRead, hwithin.remoteInvalidate, hwithin.shared, hwithin.exclusive,
          hwithin.record, fun q hq => absurd hq List.not_mem_nil⟩
      refine hempty.congr ?_
      simp only [Names.view, System.activation, hdir]
    · have hdir : (s.commit k p a).nodes n = s.nodes n := Function.update_of_ne hn _ _
      refine (hs.device n order').congr ?_
      simp only [Names.view, System.activation, hdir]

lemma NodesKnown.step {e : Event} (hs : NodesKnown cfg s) (h : step cfg s e = .ok s') :
    NodesKnown cfg s' := by
  obtain ⟨node, addr, requestingExclusive, alreadyHasBlock, hnode, rfl⟩ |
    ⟨node, addr, dirty, hnode, rfl⟩ | ⟨k, order, reply, p, a, rfl, hp, ha, rfl⟩ := step_eq_ok h
  · exact hs.localSend hnode
  · exact hs.localSend hnode
  · exact hs.deliver hp ha

lemma nodesKnown_of_reachable (h : (machine cfg).Reachable s) : NodesKnown cfg s :=
  h.invariant .new fun _ _ _ hs hstep => hs.step hstep

end Sesc.Bip
