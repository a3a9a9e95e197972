import Sesc.Plain.Directory

/-!
# Exclusive ownership in the `Directory`

The answer to a read should give exclusive ownership if and only if the reader is then the only
node in the record of the line.  The test for this among shared reads always fails.
-/

namespace Sesc.Plain

open Lib
open Bip (BlockData Packet HashOrder)

/-- The record has the node as the owner or as a sharer. -/
def Records (b : BlockData) (id : NodeID) : Prop :=
  id ≠ InvalidNodeID ∧ (b.owner = id ∨ id ∈ b.sharers)

/-- The node is the only one in the record. -/
def Sole (b : BlockData) (q : NodeID) : Prop := ∀ id, Records b id ↔ id = q

/-- A packet that answers a read: who is answered, and whether it gets exclusive ownership. -/
def answered : Packet → Option (NodeID × Bool)
  | .network dest _ (.readResponse m) => some (dest, m.exclusiveOwnership)
  | .toLocalCache node (.readResponse m) => some (node, m.exclusiveOwnership)
  | _ => none

/-- The answers that a handler has sent. -/
def Activation.answers (a : Activation) : List (NodeID × Bool) := a.sent.filterMap answered

/-- The answer gives exclusive ownership just when its reader is the only node in the record, and
just when a `BIPDirectory` with this record gives it. -/
def Right (b : BlockData) (p : NodeID × Bool) : Prop :=
  (p.2 = true ↔ Sole b p.1) ∧ (p.2 = true ↔ b.numberOfSharers = 1)

/-- The record when the pending reads are answered, without a node that gave up its block. -/
def answeredRecord (a : Activation) (m : ReadResponseMsg) (src : Node) : BlockData :=
  if m.exclusiveOwnership then (a.record m.addr).release src else a.record m.addr

/-- The response answers shared reads of one node, and no other node is in the record. -/
def OneReader (a : Activation) (m : ReadResponseMsg) (src : Node) : Prop :=
  m.satisfied = true ∧ a.dir.pendingDirectorySharedReads m.addr ≠ [] ∧
  ∃ q, (∀ ld ∈ a.dir.pendingDirectorySharedReads m.addr, ld.sourceNode.1 = q) ∧
    ∀ id, Records (answeredRecord a m src) id → id = q

variable {self : Device} {a : Activation} {addr : Address} {b : BlockData} {q id : NodeID}

/-! ## Records -/

/-- A node that is counted alone is the only one. -/
lemma sole_of_numberOfSharers (hq : Records b q) (h : b.numberOfSharers = 1) : Sole b q := by
  intro id
  refine ⟨fun hid => ?_, fun hid => hid ▸ hq⟩
  rw [BlockData.numberOfSharers] at h
  split at h
  · rename_i howner
    have hnone := ListSet.size_eq_zero.1 (show b.sharers.size = 0 by omega)
    have hid' := hid.2.resolve_right (hnone id)
    have hq' := hq.2.resolve_right (hnone q)
    exact hid'.symm.trans hq'
  · rename_i howner
    have howner' : b.owner = InvalidNodeID := not_not.1 howner
    have hlength : b.sharers.toList.length = 1 := by
      have hsize : b.sharers.toList.length = b.sharers.size := rfl
      omega
    obtain ⟨x, hx⟩ := List.length_eq_one_iff.1 hlength
    have hmem : ∀ id, Records b id → id = x := by
      intro id hid
      have hid' := hid.2.resolve_left fun heq => hid.1 (heq.symm.trans howner')
      rw [ListSet.mem_iff, hx] at hid'
      exact List.mem_singleton.1 hid'
    rw [hmem id hid, hmem q hq]

/-- A reader without exclusive ownership is answered rightly if it is not the only node. -/
lemma right_false_iff (hq : Records b q) : Right b (q, false) ↔ ¬Sole b q := by
  constructor
  · intro h hsole
    exact Bool.false_ne_true (h.1.2 hsole)
  · intro h
    refine ⟨iff_of_false Bool.false_ne_true h, iff_of_false Bool.false_ne_true fun hcount => ?_⟩
    exact h (sole_of_numberOfSharers hq hcount)

/-- An owner without sharers is the only node. -/
lemma right_owner (q : Node) : Right { sharers := ∅, owner := q.1 } (q.1, true) := by
  refine ⟨iff_of_true rfl fun id => ⟨fun hid => ?_, ?_⟩, iff_of_true rfl ?_⟩
  · exact (hid.2.resolve_right (ListSet.not_mem_empty id)).symm
  · rintro rfl
    exact ⟨q.2, .inl rfl⟩
  · exact congrArg (· + 0) (if_pos q.2)

/-! ## Shared reads -/

lemma record_setDirectoryData : (a.setDirectoryData addr b).record addr = b := by
  show (Function.update a.dir.directoryData addr (some b) addr).getD _ = b
  rw [Function.update_self]
  rfl

/-- The record of a line with one more share. -/
lemma record_addDirectoryShare {node : Node} {exclusive : Bool} :
    Ensures (fun c => c.answers = a.answers ∧
      (∀ id, Records (c.record addr) id ↔ Records (a.record addr) id ∨ id = node.1) ∧
      (exclusive = true → c.record addr = { sharers := ∅, owner := node.1 }))
      (Device.addDirectoryShare addr node exclusive a) := by
  rw [Device.addDirectoryShare]
  split
  · exact ensures_error
  · rename_i b hb
    have hrecord : a.record addr = b := by
      rw [Activation.record, hb]
      rfl
    refine ensures_check_bind.2 fun hexclusive => ensures_ok.2 ⟨rfl, fun id => ?_, fun he => ?_⟩
    · rw [record_setDirectoryData, hrecord]
      split
      · rename_i howner
        constructor
        · rintro ⟨hid, heq | hmem⟩
          · exact .inr heq.symm
          · exact .inl ⟨hid, .inr hmem⟩
        · rintro (⟨hid, heq | hmem⟩ | rfl)
          · rcases howner with hself | hnone
            · exact ⟨hid, .inl (hself.symm.trans heq)⟩
            · exact absurd (heq.symm.trans hnone) hid
          · exact ⟨hid, .inr hmem⟩
          · exact ⟨node.2, .inl rfl⟩
      · constructor
        · rintro ⟨hid, heq | hmem⟩
          · exact .inl ⟨hid, .inl heq⟩
          · rcases ListSet.mem_insert.1 hmem with rfl | hmem
            · exact .inr rfl
            · exact .inl ⟨hid, .inr hmem⟩
        · rintro (⟨hid, heq | hmem⟩ | rfl)
          · exact ⟨hid, .inl heq⟩
          · exact ⟨hid, .inr (ListSet.mem_insert.2 (.inr hmem))⟩
          · exact ⟨node.2, .inr (ListSet.mem_insert.2 (.inl rfl))⟩
    · obtain ⟨hsize, howner⟩ := (of_decide_eq_true hexclusive).resolve_left
        fun hfalse => absurd (hfalse.symm.trans he) Bool.false_ne_true
      rw [record_setDirectoryData, if_pos howner, ListSet.eq_empty_of_size hsize]

/-- The answer to a read of the local cache goes on to it. -/
lemma answers_onDirectoryBlockResponse {m : ReadResponseMsg} (hm : m.satisfied = true) :
    Ensures (fun c => c.answers = a.answers ++ [(self.nodeID.1, m.exclusiveOwnership)] ∧
      c.record = a.record) (self.onDirectoryBlockResponse m a) := by
  rw [Device.onDirectoryBlockResponse]
  refine Ensures.elim fun ref _ => ?_
  dsimp only
  rw [hm, if_pos rfl]
  refine ensures_ok.2 ⟨?_, rfl⟩
  show List.filterMap answered (a.sent ++ [_]) = _
  rw [List.filterMap_append]
  rfl

/-- The answer to a shared read never gives exclusive ownership. -/
lemma answers_satisfySharedRead {count : ℕ} {ld : LookupData ReadMsg} (hcount : count ≠ 0) :
    Ensures (fun c => c.answers = a.answers ++ [(ld.sourceNode.1, false)] ∧
      ∀ id, Records (c.record addr) id ↔ Records (a.record addr) id ∨ id = ld.sourceNode.1)
      (self.satisfySharedRead addr count a ld) := by
  rw [Device.satisfySharedRead]
  dsimp only
  rw [decide_eq_false hcount.symm]
  refine Ensures.bind record_addDirectoryShare fun c hc => ?_
  obtain ⟨hanswers, hrecord, -⟩ := hc
  have hstamped : a.stamped.answers = a.answers := rfl
  rw [hstamped] at hanswers
  split
  · rename_i hsource
    refine (answers_onDirectoryBlockResponse rfl).mono fun d hd => ?_
    rw [hd.1, hd.2, hanswers, hsource]
    exact ⟨rfl, hsource ▸ hrecord⟩
  · refine ensures_ok.2 ⟨?_, hrecord⟩
    show List.filterMap answered (c.sent ++ [_]) = _
    rw [List.filterMap_append, ← hanswers]
    rfl

/-- The loop over the shared reads of a line. -/
lemma answers_foldlM {count : ℕ} {l : List (LookupData ReadMsg)} (hcount : count ≠ 0) :
    Ensures (fun c => c.answers = a.answers ++ l.map (fun ld => (ld.sourceNode.1, false)) ∧
      ∀ id, Records (c.record addr) id ↔
        Records (a.record addr) id ∨ ∃ ld ∈ l, id = ld.sourceNode.1)
      (l.foldlM (self.satisfySharedRead addr count) a) := by
  induction l generalizing a with
  | nil =>
    refine ensures_ok.2 ⟨(List.append_nil _).symm, fun id => ?_⟩
    exact ⟨.inl, fun h => h.resolve_right fun ⟨_, hld, _⟩ => List.not_mem_nil hld⟩
  | cons ld l ih =>
    rw [List.foldlM_cons]
    refine (answers_satisfySharedRead hcount).bind fun c hc => ih.mono fun d hd => ⟨?_, fun id => ?_⟩
    · rw [hd.1, hc.1, List.append_assoc]
      rfl
    · rw [hd.2, hc.2, or_assoc]
      refine or_congr_right ?_
      simp only [List.mem_cons, exists_eq_or_imp]

/-! ## The two handlers -/

/-- A fetch answers no read. -/
lemma answers_performDirectoryFetch :
    Keeps Activation.answers a (self.performDirectoryFetch addr a) := by
  rw [Device.performDirectoryFetch]
  refine keeps_check_bind.2 fun _ => keeps_check_bind.2 fun _ => Ensures.elim fun ld _ => ?_
  dsimp only
  split
  · rw [Device.onRemoteRead]
    refine keeps_check_bind.2 fun _ => keeps_check_bind.2 fun _ => keeps_ok.2 ?_
    show List.filterMap answered (a.sent ++ [_]) = _
    rw [List.filterMap_append]
    exact List.append_nil _
  · refine keeps_ok.2 ?_
    show List.filterMap answered (a.sent ++ [_]) = _
    rw [List.filterMap_append]
    exact List.append_nil _

/-- An invalidate answers no read. -/
lemma answers_sendInvalidate {dest : NodeID} :
    Keeps Activation.answers a (self.sendInvalidate addr dest a) := by
  rw [Device.sendInvalidate]
  split
  · refine keeps_ok.2 ?_
    show List.filterMap answered (a.sent ++ [_]) = _
    rw [List.filterMap_append]
    exact List.append_nil _
  · rw [Device.onRemoteInvalidate]
    refine keeps_check_bind.2 fun _ => keeps_ok.2 ?_
    show List.filterMap answered (a.sent ++ [_]) = _
    rw [List.filterMap_append]
    exact List.append_nil _

/-- The node that has given up its block leaves the record. -/
lemma record_eraseExclusiveShare {m : ReadResponseMsg} {src : Node} :
    Ensures (fun c => c.answers = a.answers ∧ c.record m.addr = answeredRecord a m src ∧
      c.dir.pendingDirectorySharedReads = a.dir.pendingDirectorySharedReads)
      (Device.eraseExclusiveShare m src a) := by
  rw [Device.eraseExclusiveShare, answeredRecord]
  split
  · rw [Device.eraseDirectoryShare]
    split
    · exact ensures_error
    · rename_i b hb
      refine ensures_check_bind.2 fun _ => ensures_ok.2 ⟨rfl, ?_, rfl⟩
      rw [record_setDirectoryData, Activation.record, hb]
      rfl
  · exact ensures_ok.2 ⟨rfl, rfl, rfl⟩

/-- The answer to an exclusive read gives exclusive ownership, and the reader becomes the owner of
a line without sharers. -/
lemma answers_satisfyExclusiveReads {m : ReadResponseMsg} {src : Node} (ha : a.answers = []) :
    Ensures (fun c => ∀ p ∈ c.answers, Right (c.record m.addr) p)
      (self.satisfyExclusiveReads m src a) := by
  rw [Device.satisfyExclusiveReads]
  refine ensures_check_bind.2 fun hexclusive => ensures_check_bind.2 fun _ =>
    ensures_check_bind.2 fun _ => Ensures.elim fun ld _ => ?_
  have hexclusive' : m.exclusiveOwnership = true := of_decide_eq_true hexclusive
  split
  · rw [Device.satisfyExclusiveRead]
    refine record_addDirectoryShare.bind fun c hc => ensures_ok.2 ?_
    obtain ⟨hanswers, -, hrecord⟩ := hc
    have hanswers' : c.answers = [(ld.sourceNode.1, true)] := by
      rw [hanswers, ← hexclusive']
      have hsent : ∀ packet, answered packet = some (ld.sourceNode.1, m.exclusiveOwnership) →
          (a.send packet).answers = [(ld.sourceNode.1, m.exclusiveOwnership)] := by
        intro packet hpacket
        show List.filterMap answered (a.sent ++ [packet]) = _
        rw [List.filterMap_append, show List.filterMap answered a.sent = [] from ha]
        simp [hpacket]
      split
      · exact hsent _ rfl
      · rename_i hsource
        exact hsent _ (by rw [not_not.1 hsource]; rfl)
    intro p hp
    have hp' : p ∈ c.answers := hp
    rw [hanswers', List.mem_singleton] at hp'
    show Right (c.record m.addr) p
    rw [hp', hrecord rfl]
    exact right_owner ld.sourceNode
  · have hnone : Ensures (fun c => Activation.answers c = a.answers) ((a.record m.addr).sharers.toList.foldlM
        (fun a dest => self.sendInvalidate m.addr dest a) a) :=
      Ensures.foldlM rfl fun dest _ c hc => (answers_sendInvalidate).of_eq hc
    refine hnone.mono fun c hc p hp => ?_
    rw [hc, ha] at hp
    exact absurd hp List.not_mem_nil

/-- The answers to shared reads are right unless the reader is the only node. -/
lemma answers_satisfySharedReads {m : ReadResponseMsg} {src : Node} {c : Activation}
    (ha : c.answers = []) (hrecord : c.record m.addr = answeredRecord a m src)
    (hpending : c.dir.pendingDirectorySharedReads = a.dir.pendingDirectorySharedReads)
    (hshared : c.dir.pendingDirectorySharedReads m.addr ≠ []) (hm : m.satisfied = true) :
    Ensures (fun d => (∀ p ∈ d.answers, Right (d.record m.addr) p) ↔ ¬OneReader a m src)
      (self.satisfySharedReads m.addr c) := by
  rw [Device.satisfySharedReads]
  have hcount : (c.dir.pendingDirectorySharedReads m.addr).length ≠ 0 :=
    fun hzero => hshared (List.length_eq_zero_iff.1 hzero)
  refine (answers_foldlM hcount).bind fun d hd => ensures_ok.2 ?_
  obtain ⟨hanswers, hrecords⟩ := hd
  rw [ha, List.nil_append] at hanswers
  rw [hrecord] at hrecords
  rw [hpending] at hanswers hrecords hshared
  show (∀ p ∈ d.answers, Right (d.record m.addr) p) ↔ _
  rw [hanswers]
  constructor
  · rintro hall ⟨-, -, q, hreaders, hothers⟩
    obtain ⟨ld, hld⟩ := List.exists_mem_of_ne_nil _ hshared
    have hright := hall _ (List.mem_map_of_mem hld)
    refine (right_false_iff ((hrecords _).2 (.inr ⟨ld, hld, rfl⟩))).1 hright fun id => ?_
    rw [hrecords, hreaders ld hld]
    constructor
    · rintro (hold | ⟨ld', hld', rfl⟩)
      · exact hothers id hold
      · exact hreaders ld' hld'
    · rintro rfl
      exact .inr ⟨ld, hld, (hreaders ld hld).symm⟩
  · intro hone p hp
    obtain ⟨ld, hld, rfl⟩ := List.mem_map.1 hp
    refine (right_false_iff ((hrecords _).2 (.inr ⟨ld, hld, rfl⟩))).2 fun hsole => hone ?_
    refine ⟨hm, hshared, ld.sourceNode, fun ld' hld' => ?_, fun id hid => ?_⟩
    · exact (hsole _).1 ((hrecords _).2 (.inr ⟨ld', hld', rfl⟩))
    · exact (hsole _).1 ((hrecords _).2 (.inl hid))

/-- The answers of `OnRemoteReadResponse`. -/
lemma right_onRemoteReadResponse {m : ReadResponseMsg} {src : Node} (ha : a.answers = []) :
    Ensures (fun c => (∀ p ∈ c.answers, Right (c.record m.addr) p) ↔ ¬OneReader a m src)
      (self.onRemoteReadResponse m src a) := by
  rw [Device.onRemoteReadResponse]
  refine ensures_check_bind.2 fun _ => ensures_check_bind.2 fun _ =>
    ensures_check_bind.2 fun _ => ensures_check_bind.2 fun _ => ?_
  split
  · rename_i hm
    refine record_eraseExclusiveShare.bind fun c hc => ?_
    obtain ⟨hanswers, hrecord, hpending⟩ := hc
    rw [ha] at hanswers
    split
    · rename_i hshared
      exact answers_satisfySharedReads hanswers hrecord hpending hshared hm
    · rename_i hshared
      refine (answers_satisfyExclusiveReads hanswers).mono fun d hd => iff_of_true hd ?_
      rintro ⟨-, hsome, -⟩
      rw [hpending] at hshared
      exact hshared hsome
  · rename_i hm
    have herase : Keeps Activation.answers a (Device.eraseDirectoryShare m.addr src a) := by
      rw [Device.eraseDirectoryShare]
      split
      · exact keeps_error
      · exact keeps_check_bind.2 fun _ => keeps_ok.2 rfl
    have hnone : Keeps Activation.answers a (Device.eraseDirectoryShare m.addr src a >>= fun a =>
        check .assertion ((a.record m.addr).owner = InvalidNodeID) >>= fun _ =>
          self.performDirectoryFetch m.addr a) :=
      herase.bind fun c _ => keeps_check_bind.2 fun _ => answers_performDirectoryFetch
    refine hnone.mono fun c hc => iff_of_true (fun p hp => ?_) fun hone => hm hone.1
    rw [hc, ha] at hp
    exact absurd hp List.not_mem_nil

/-- The answers of `OnRemoteInvalidateResponse`. -/
lemma right_onRemoteInvalidateResponse {m : InvalidateResponseMsg} {src : Node}
    (ha : a.answers = []) :
    Ensures (fun c => ∀ p ∈ c.answers, Right (c.record m.addr) p)
      (self.onRemoteInvalidateResponse m src a) := by
  rw [Device.onRemoteInvalidateResponse]
  split
  · exact ensures_error
  rename_i b hb
  refine ensures_check_bind.2 fun _ => ensures_check_bind.2 fun _ => ?_
  dsimp only
  generalize hc : self.writeBlock m.blockAttached m.addr (a.setDirectoryData m.addr _) = c
  have hanswers : c.answers = [] := by
    rw [← hc, Device.writeBlock]
    split
    · show List.filterMap answered (a.sent ++ [_]) = _
      rw [List.filterMap_append, show List.filterMap answered a.sent = [] from ha]
      rfl
    · exact ha
  have hnone : ∀ p ∈ c.answers, Right (c.record m.addr) p := by
    rw [hanswers]
    exact fun p hp => absurd hp List.not_mem_nil
  rw [Device.satisfyFreedRead]
  split
  · exact ensures_ok.2 hnone
  · rename_i ld hld
    split
    · rw [Device.grantExclusive]
      refine record_addDirectoryShare.bind fun d hd => ensures_ok.2 fun p hp => ?_
      obtain ⟨hd, -, hrecord⟩ := hd
      have hd' : d.answers = [(ld.sourceNode.1, true)] := by
        rw [hd]
        split
        · rename_i hsource
          show List.filterMap answered (c.sent ++ [_]) = _
          rw [List.filterMap_append, show List.filterMap answered c.sent = [] from hanswers,
            hsource]
          rfl
        · show List.filterMap answered (c.sent ++ [_]) = _
          rw [List.filterMap_append, show List.filterMap answered c.sent = [] from hanswers]
          rfl
      have hp' : p ∈ d.answers := hp
      rw [hd', List.mem_singleton] at hp'
      show Right (d.record m.addr) p
      rw [hp', hrecord rfl]
      exact right_owner ld.sourceNode
    · exact ensures_ok.2 hnone

/-- What a handler starts with. -/
def start (dir : Directory) (stamp : MessageID) (order : HashOrder) : Activation where
  dir := dir
  currentMsgStamp := stamp
  sent := []
  order := order

/-- Exclusive ownership is given rightly, except to the only reader of a line among shared
reads. -/
theorem exclusive_iff_sole (self : Device) (dir : Directory) (stamp : MessageID)
    (order : HashOrder) (src : Node) :
    (∀ (m : ReadResponseMsg) (c : Activation),
      self.onRemoteReadResponse m src (start dir stamp order) = .ok c →
      ((∀ p ∈ c.answers, Right (c.record m.addr) p) ↔
        ¬OneReader (start dir stamp order) m src)) ∧
    (∀ (m : InvalidateResponseMsg) (c : Activation),
      self.onRemoteInvalidateResponse m src (start dir stamp order) = .ok c →
      ∀ p ∈ c.answers, Right (c.record m.addr) p) :=
  ⟨fun _ c hc => right_onRemoteReadResponse rfl c hc,
    fun _ c hc => right_onRemoteInvalidateResponse rfl c hc⟩

/-- Node 1 is the home of all lines and node 3 their memory. -/
def homeOne : Device where
  nodeID := ⟨1, by decide⟩
  directoryNodeCalc := fun _ => 1
  memoryNodeCalc := fun _ => 3

/-- A shared read of line 0. -/
def sharedRead : ReadMsg where
  msgID := 7
  addr := 0
  requestingExclusive := false
  alreadyHasBlock := false
  directoryLookup := true

/-- The home after node 2 has asked for line 0. -/
def requested : Except Fault Activation :=
  homeOne.onDirectoryBlockRequest sharedRead ⟨2, by decide⟩ (start .new 20 ⟨0, 0, 0⟩)

/-- The memory answers the read, and gives the line away. -/
def memoryAnswer : ReadResponseMsg :=
  { ReadResponseMsg.ofRead 30 sharedRead with
    satisfied := true
    blockAttached := true
    exclusiveOwnership := true }

/-- The home while it waits for node 4 to give up line 0, which node 2 has asked for
exclusively. -/
def invalidating : Directory :=
  { Directory.new with
    pendingDirectoryExclusiveReads := Function.update (fun _ => none) 0
      (some ⟨{ sharedRead with requestingExclusive := true }, ⟨2, by decide⟩⟩)
    directoryData := Function.update (fun _ => none) 0
      (some { sharers := ListSet.insert ∅ 4, owner := InvalidNodeID }) }

def sharerAnswer : InvalidateResponseMsg where
  msgID := 40
  addr := 0
  blockAttached := false
  solicitingMessage := 39

/-- A shared read and an exclusive read are answered. -/
theorem exclusive_iff_sole_requested : ∃ a c d : Activation,
    requested = .ok a ∧ c.answers = [(2, false)] ∧ d.answers = [(2, true)] ∧
    ((∀ p ∈ c.answers, Right (c.record 0) p) ↔
      ¬OneReader (start a.dir 31 ⟨0, 0, 0⟩) memoryAnswer ⟨3, by decide⟩) ∧
    ∀ p ∈ d.answers, Right (d.record 0) p := by
  have hread : succeeds (requested >>= fun a => homeOne.onRemoteReadResponse memoryAnswer
      ⟨3, by decide⟩ (start a.dir 31 ⟨0, 0, 0⟩)) (fun c => decide (c.answers = [(2, false)])) =
      true := by
    decide +kernel
  have hinvalidate : succeeds (homeOne.onRemoteInvalidateResponse sharerAnswer ⟨4, by decide⟩
      (start invalidating 41 ⟨0, 0, 0⟩)) (fun d => decide (d.answers = [(2, true)])) = true := by
    decide +kernel
  obtain ⟨c, hc, hanswers⟩ := succeeds_iff.1 hread
  obtain ⟨a, ha, hc⟩ := bind_eq_ok.1 hc
  obtain ⟨d, hd, hgrant⟩ := succeeds_iff.1 hinvalidate
  exact ⟨a, c, d, ha, of_decide_eq_true hanswers, of_decide_eq_true hgrant,
    (exclusive_iff_sole homeOne a.dir 31 ⟨0, 0, 0⟩ ⟨3, by decide⟩).1 memoryAnswer c hc,
    (exclusive_iff_sole homeOne invalidating 41 ⟨0, 0, 0⟩ ⟨4, by decide⟩).2 sharerAnswer d hd⟩

/-- The only reader of line 0 is not given exclusive ownership, unlike with a `BIPDirectory`. -/
theorem not_exclusive_of_sole : ∃ a c, requested = .ok a ∧
    homeOne.onRemoteReadResponse memoryAnswer ⟨3, by decide⟩ (start a.dir 31 ⟨0, 0, 0⟩) = .ok c ∧
    c.answers = [(2, false)] ∧ Sole (c.record 0) 2 ∧ (c.record 0).numberOfSharers = 1 ∧
    ¬∀ p ∈ c.answers, Right (c.record 0) p := by
  have hrun : succeeds (requested >>= fun a => homeOne.onRemoteReadResponse memoryAnswer
      ⟨3, by decide⟩ (start a.dir 31 ⟨0, 0, 0⟩)) (fun c => decide (c.answers = [(2, false)] ∧
        c.record 0 = { sharers := ∅, owner := 2 })) = true := by
    decide +kernel
  obtain ⟨c, hc, htest⟩ := succeeds_iff.1 hrun
  obtain ⟨a, ha, hc⟩ := bind_eq_ok.1 hc
  obtain ⟨hanswers, hrecord⟩ := of_decide_eq_true htest
  have hright : Right (c.record 0) (2, true) := by
    rw [hrecord]
    exact right_owner ⟨2, by decide⟩
  refine ⟨a, c, ha, hc, hanswers, hright.1.1 rfl, hright.2.1 rfl, fun hall => ?_⟩
  have hfalse := hall (2, false) (by rw [hanswers]; exact List.mem_singleton_self _)
  exact Bool.false_ne_true (hfalse.1.2 (hright.1.1 rfl))

end Sesc.Plain
