import Sesc.Bip.Nodes
import Sesc.Bip.ReadBookkeeping

/-!
# The decisions of a home node

The home of a line decides to fetch the line from a node or to grant it to a node for itself.
A decision agrees with the record of the line when the handler that made it has finished, and
the node that receives a decision only passes it on to its cache.
-/

namespace Sesc.Bip

open Lib

/-- What the home of a line decides: to give the line to a node for itself, or to fetch it from
a node. -/
inductive Decision
  | grant (addr : Address) (node : NodeID)
  | fetch (addr : Address) (node : NodeID)
deriving DecidableEq, Repr

/-- The decision that a packet carries. -/
def Packet.decision : Packet → Option Decision
  | network dest _ (.read m) => if m.directoryLookup then none else some (.fetch m.addr dest)
  | network dest _ (.readResponse r) =>
    if r.directoryLookup && r.exclusiveOwnership then some (.grant r.addr dest) else none
  | toLocalCache node (.read m) => some (.fetch m.addr node)
  | toLocalCache node (.readResponse r) =>
    if r.exclusiveOwnership then some (.grant r.addr node) else none
  | _ => none

/-- The record of a line agrees with a decision: a node gets the line for itself when no other
node is recorded, and the line is fetched from its owner or, if there is none, from a sharer. -/
def Decision.Justified (record : Address → Option BlockData) : Decision → Prop
  | .grant addr node => record addr = some { sharers := ∅, owner := node }
  | .fetch addr node => ∃ d, record addr = some d ∧
      (d.owner = node ∧ d.owner ≠ InvalidNodeID ∨ d.owner = InvalidNodeID ∧ node ∈ d.sharers)

/-- Two entries for one request, which differ at most in their counters. -/
def LookupData.SameRequest {T : Type} (ld ld' : LookupData T) : Prop :=
  ld'.msg = ld.msg ∧ ld'.sourceNode = ld.sourceNode

/-- Shared and exclusive requests for a line are not pending together. -/
def BIPDirectory.Apart (d : BIPDirectory) (addr : Address) : Prop :=
  d.pendingDirectorySharedReads addr = [] ∨ d.pendingDirectoryExclusiveReads addr = none

variable {self : Device} {a b c : Activation} {addr : Address} {src id : NodeID}
  {ld : LookupData ReadMsg} {reply : CacheReply}

namespace Activation

/-- The decisions that a handler has sent so far. -/
def decisions (a : Activation) : List Decision := a.sent.filterMap Packet.decision

lemma decisions_send {p : Packet} : (a.send p).decisions = a.decisions ++ p.decision.toList := by
  rw [decisions, send, List.filterMap_append, List.filterMap_cons, List.filterMap_nil]
  cases p.decision <;> rfl

lemma decisions_send_of_none {p : Packet} (hp : p.decision = none) :
    (a.send p).decisions = a.decisions := by
  rw [decisions_send, hp, Option.toList_none, List.append_nil]

lemma decisions_send_of_some {p : Packet} {d : Decision} (hp : p.decision = some d) :
    (a.send p).decisions = a.decisions ++ [d] := by
  rw [decisions_send, hp, Option.toList_some]

/-- The requests and reads that are pending at a node, and the decisions sent so far. -/
def homeView (a : Activation) :=
  (a.dir.pendingDirectorySharedReads, a.dir.pendingDirectoryExclusiveReads,
    a.dir.pendingLocalReads, a.decisions)

lemma homeView_send {p : Packet} (hp : p.decision = none) :
    (a.send p).homeView = a.homeView := by
  rw [homeView, decisions_send_of_none hp]
  rfl

end Activation

/-- What a handler does to the requests at its node: they stay apart, a pending exclusive request
is answered or stays, and the decisions agree with the record. -/
structure Serves (a b : Activation) : Prop where
  apart : (∀ addr, a.dir.Apart addr) → ∀ addr, b.dir.Apart addr
  same : ∀ addr ld ld', a.dir.pendingDirectoryExclusiveReads addr = some ld →
    b.dir.pendingDirectoryExclusiveReads addr = some ld' → ld.SameRequest ld'
  justified : ∀ d ∈ b.decisions, d.Justified b.dir.directoryData

namespace Serves

/-- Nothing has been decided and no request has been touched. -/
lemma of_eq (hshared : b.dir.pendingDirectorySharedReads = a.dir.pendingDirectorySharedReads)
    (hexclusive : b.dir.pendingDirectoryExclusiveReads = a.dir.pendingDirectoryExclusiveReads)
    (hjustified : ∀ d ∈ b.decisions, d.Justified b.dir.directoryData) : Serves a b where
  apart h addr := by
    rw [BIPDirectory.Apart, hshared, hexclusive]
    exact h addr
  same addr ld ld' hld hld' := by
    rw [hexclusive, hld] at hld'
    cases hld'
    exact ⟨rfl, rfl⟩
  justified := hjustified

lemma of_view (hquiet : a.decisions = []) (h : b.homeView = a.homeView) : Serves a b := by
  obtain ⟨hshared, hexclusive, -, hdecisions⟩ : _ ∧ _ ∧ _ ∧ _ := by
    simpa only [Activation.homeView, Prod.mk.injEq] using h
  refine of_eq hshared hexclusive fun d hd => ?_
  rw [hdecisions, hquiet] at hd
  cases hd

/-- A first part that keeps the requests apart and every exclusive one pending. -/
lemma after (h : Serves b c)
    (hapart : (∀ addr, a.dir.Apart addr) → ∀ addr, b.dir.Apart addr)
    (hsame : ∀ addr ld, a.dir.pendingDirectoryExclusiveReads addr = some ld →
      ∃ ld', b.dir.pendingDirectoryExclusiveReads addr = some ld' ∧ ld.SameRequest ld') :
    Serves a c where
  apart ha := h.apart (hapart ha)
  same addr ld ld' hld hld' := by
    obtain ⟨ld₁, hld₁, hmsg, hsource⟩ := hsame addr ld hld
    obtain ⟨hmsg', hsource'⟩ := h.same addr ld₁ ld' hld₁ hld'
    exact ⟨hmsg'.trans hmsg, hsource'.trans hsource⟩
  justified := h.justified

/-- A first part that changes the counters of the pending exclusive request. -/
lemma restate {ld' : LookupData ReadMsg}
    (h : Serves (a.setPendingDirectoryExclusiveRead addr (some ld')) c)
    (hld : a.dir.pendingDirectoryExclusiveReads addr = some ld) (hsame : ld.SameRequest ld') :
    Serves a c := by
  refine h.after (fun ha addr' => ?_) fun addr' ld₁ hld₁ => ?_
  · refine (ha addr').imp_right fun hnone => ?_
    have hne : addr' ≠ addr := by
      rintro rfl
      cases hnone.symm.trans hld
    exact (Function.update_of_ne hne _ _).trans hnone
  · by_cases haddr : addr' = addr
    · subst haddr
      cases hld.symm.trans hld₁
      exact ⟨ld', Function.update_self _ _ _, hsame⟩
    · exact ⟨ld₁, (Function.update_of_ne haddr _ _).trans hld₁, rfl, rfl⟩

lemma after_view (h : Serves b c) (hview : b.homeView = a.homeView) : Serves a c := by
  have hserves : b.dir.pendingDirectorySharedReads = a.dir.pendingDirectorySharedReads ∧
      b.dir.pendingDirectoryExclusiveReads = a.dir.pendingDirectoryExclusiveReads :=
    ⟨congrArg Prod.fst hview, congrArg (fun v => v.2.1) hview⟩
  refine h.after (fun ha addr => ?_) fun addr ld hld => ⟨ld, hserves.2 ▸ hld, rfl, rfl⟩
  rw [BIPDirectory.Apart, hserves.1, hserves.2]
  exact ha addr

end Serves

/-! ## The handlers that decide nothing -/

namespace Device

lemma keeps_sendReadRequestToMemory {m : ReadMsg} :
    Keeps Activation.homeView a (self.sendReadRequestToMemory m a) :=
  keeps_check_bind.2 fun _ => keeps_ok.2 (Activation.homeView_send rfl)

lemma keeps_sendWriteRequestToMemory {m : WriteMsg} :
    Keeps Activation.homeView a (self.sendWriteRequestToMemory m a) :=
  keeps_check_bind.2 fun _ => keeps_ok.2 (Activation.homeView_send rfl)

lemma keeps_writeBlock {blockAttached : Bool} :
    Keeps Activation.homeView a (self.writeBlock blockAttached addr a) := by
  rw [writeBlock]
  split
  · exact keeps_sendWriteRequestToMemory.of_eq rfl
  · exact keeps_ok.2 rfl

lemma keeps_eraseDirectoryShare : Keeps Activation.homeView a (eraseDirectoryShare addr id a) := by
  rw [eraseDirectoryShare]
  split
  · exact keeps_error
  · exact keeps_ok.2 rfl

lemma keeps_addDirectoryShare {exclusive : Bool} :
    Keeps Activation.homeView a (addDirectoryShare addr id exclusive a) := by
  rw [addDirectoryShare]
  split
  · exact keeps_error
  · exact keeps_check_bind.2 fun _ => keeps_ok.2 rfl

lemma keeps_onRemoteInvalidate {m : InvalidateMsg} :
    Keeps Activation.homeView a (self.onRemoteInvalidate m src a) :=
  keeps_check_bind.2 fun _ => keeps_ok.2 (Activation.homeView_send rfl)

lemma keeps_sendInvalidate {dest : NodeID} :
    Keeps Activation.homeView a (self.sendInvalidate addr dest a) := by
  rw [sendInvalidate]
  split
  · exact keeps_ok.2 (Activation.homeView_send rfl)
  · exact keeps_onRemoteInvalidate.of_eq rfl

lemma keeps_onRemoteEviction {m : EvictionMsg} :
    Keeps Activation.homeView a (self.onRemoteEviction m src a) := by
  have hanswer : ∀ b, Keeps Activation.homeView b (self.answerEviction m src b) := by
    intro b
    rw [answerEviction]
    split
    · exact keeps_check_bind.2 fun _ => keeps_ok.2 rfl
    · exact keeps_ok.2 (Activation.homeView_send rfl)
  rw [onRemoteEviction]
  split
  · exact keeps_error
  · exact ((hanswer _).of_eq rfl).bind fun b _ => keeps_writeBlock

lemma keeps_onRemoteEvictionResponse {m : EvictionResponseMsg} :
    Keeps Activation.homeView a (self.onRemoteEvictionResponse m a) :=
  keeps_check_bind.2 fun _ => keeps_ok.2 (Activation.homeView_send rfl)

/-- The answer of a cache to the home is no decision. -/
lemma keeps_onLocalReadResponse {m : ReadResponseMsg} :
    Keeps Activation.homeView a (self.onLocalReadResponse m a) := by
  refine Ensures.elim fun ld _ => ensures_check_bind.2 fun _ => ?_
  dsimp only
  split
  · exact ensures_ok.2 (Activation.homeView_send rfl)
  · refine ensures_check_bind.2 fun _ => ensures_ok.2 ?_
    split
    · exact Activation.homeView_send rfl
    · exact Activation.homeView_send rfl

lemma keeps_onLocalWrite {m : WriteMsg} :
    Keeps Activation.homeView a (self.onLocalWrite m a) := by
  have hsend : (self.sendLocalCache (.writeResponse
      { msgID := a.currentMsgStamp, addr := m.addr, solicitingMessage := m.msgID })
      a.stamped).homeView = a.homeView := Activation.homeView_send rfl
  rw [onLocalWrite]
  split
  · exact keeps_check_bind.2 fun _ => keeps_sendWriteRequestToMemory.of_eq hsend
  · exact keeps_ok.2 ((Activation.homeView_send rfl).trans hsend)

lemma keeps_onLocalEviction {m : EvictionMsg} :
    Keeps Activation.homeView a (self.onLocalEviction m a) := by
  rw [onLocalEviction]
  split
  · exact keeps_ok.2 rfl
  · have hsend : (self.sendLocalCache (.evictionResponse (.ofEviction
        (a.setPendingEviction m.addr true).currentMsgStamp m))
        (a.setPendingEviction m.addr true).stamped).homeView = a.homeView :=
      Activation.homeView_send rfl
    dsimp only
    split
    · exact keeps_onRemoteEviction.of_eq hsend
    · exact keeps_ok.2 ((Activation.homeView_send rfl).trans hsend)

lemma serves_onLocalRead {m : ReadMsg} (hquiet : a.decisions = []) :
    Ensures (Serves a) (self.onLocalRead m a) := by
  refine ensures_check_bind.2 fun _ => ensures_ok.2 ?_
  have hsent : ∀ p : Packet, p.decision = none → Serves a
      (((a.setPendingLocalRead m.msgID (some m)).modifyReversePendingLocalReads m.addr
        (· ++ [m])).send p) := by
    refine fun p hp => .of_eq rfl rfl fun d hd => ?_
    have hnone : d ∈ a.decisions := (Activation.decisions_send_of_none hp) ▸ hd
    rw [hquiet] at hnone
    cases hnone
  split
  · exact hsent _ rfl
  · exact hsent _ rfl

/-! ## Fetches -/

/-- A read is passed to the local cache, with the record left as it is. -/
lemma decisions_onRemoteReadCache {m : ReadMsg} : Ensures (fun b =>
    b.decisions = a.decisions ++ [.fetch m.addr self.nodeID] ∧
    b.dir.pendingDirectorySharedReads = a.dir.pendingDirectorySharedReads ∧
    b.dir.pendingDirectoryExclusiveReads = a.dir.pendingDirectoryExclusiveReads ∧
    b.dir.directoryData = a.dir.directoryData) (self.onRemoteReadCache m src a) := by
  refine ensures_check_bind.2 fun _ => ensures_check_bind.2 fun _ => ensures_ok.2 ?_
  exact ⟨Activation.decisions_send, rfl, rfl, rfl⟩

lemma serves_performDirectoryFetch (hquiet : a.decisions = []) :
    Ensures (Serves a) (self.performDirectoryFetch addr a) := by
  refine ensures_check_bind.2 fun _ => ensures_check_bind.2 fun _ => Ensures.elim fun ld _ => ?_
  obtain ⟨d, hd⟩ : ∃ d, d = (a.dir.directoryData ld.msg.addr).getD .new := ⟨_, rfl⟩
  dsimp only
  rw [← hd]
  split
  · rename_i target htarget
    -- the record from which the target comes is the one that stays
    have hjustified : (Decision.fetch ld.msg.addr target).Justified
        (Function.update a.dir.directoryData ld.msg.addr (some d)) :=
      ⟨d, Function.update_self _ _ _, fetchTarget_eq_some htarget⟩
    split
    · rename_i hself
      refine decisions_onRemoteReadCache.mono fun b ⟨hdecisions, hshared, hexclusive, hrecord⟩ => ?_
      refine .of_eq hshared hexclusive fun d' hd' => ?_
      have hfetch : d' ∈ a.decisions ++ [.fetch ld.msg.addr self.nodeID] := hdecisions ▸ hd'
      rw [hquiet, List.nil_append, List.mem_singleton] at hfetch
      rw [hfetch, hrecord, ← hself]
      exact hjustified
    · refine ensures_ok.2 (.of_eq rfl rfl fun d' hd' => ?_)
      rw [sendNetwork, Activation.decisions_send_of_some (d := .fetch ld.msg.addr target) rfl]
        at hd'
      have hfetch : d' ∈ a.decisions ++ [.fetch ld.msg.addr target] := hd'
      rw [hquiet, List.nil_append, List.mem_singleton] at hfetch
      rw [hfetch]
      exact hjustified
  · split
    · exact keeps_sendReadRequestToMemory.mono fun b hb => .of_view hquiet hb
    · exact ensures_ok.2 (.of_view hquiet rfl)

lemma serves_onRemoteDirectoryNak {m : DirectoryNakMsg} (hquiet : a.decisions = []) :
    Ensures (Serves a) (self.onRemoteDirectoryNak m src a) := by
  rw [onRemoteDirectoryNak]
  split
  · split
    · exact serves_performDirectoryFetch hquiet
    · exact ensures_ok.2 (.of_view hquiet rfl)
  · split
    · exact keeps_sendInvalidate.mono fun b hb => .of_view hquiet hb
    · exact ensures_error

/-- A request that is accepted finds no exclusive request, and a new exclusive request finds no
request at all. -/
lemma serves_onDirectoryBlockRequest {m : ReadMsg} (hquiet : a.decisions = []) :
    Ensures (Serves a) (self.onDirectoryBlockRequest m src a) := by
  rw [onDirectoryBlockRequest]
  split
  · refine ensures_ok.2 (.of_view hquiet ?_)
    split
    · exact Activation.homeView_send rfl
    · exact Activation.homeView_send rfl
  · rename_i hfree
    rw [not_or, not_not, not_and, not_not] at hfree
    obtain ⟨hnone, hshared⟩ := hfree
    split
    · rename_i hexclusive
      have hfetch : Ensures (Serves (a.setPendingDirectoryExclusiveRead m.addr
          (some (.new m src)))) (self.performDirectoryFetch m.addr
          (a.setPendingDirectoryExclusiveRead m.addr (some (.new m src)))) :=
        serves_performDirectoryFetch hquiet
      refine hfetch.mono fun c hc => hc.after (fun ha addr => ?_) fun addr ld hld => ?_
      · by_cases haddr : addr = m.addr
        · exact .inl (haddr ▸ hshared hexclusive)
        · exact (ha addr).imp_right (Function.update_of_ne haddr _ _).trans
      · have hne : addr ≠ m.addr := by
          rintro rfl
          cases hnone.symm.trans hld
        exact ⟨ld, (Function.update_of_ne hne _ _).trans hld, rfl, rfl⟩
    · have hinsert : ∀ l (x : Except Fault Activation),
          Ensures (Serves (a.setPendingDirectorySharedReads m.addr l)) x →
            Ensures (Serves a) x := by
        refine fun l x hx => hx.mono fun c hc => hc.after (fun ha addr => ?_)
          fun addr ld hld => ⟨ld, hld, rfl, rfl⟩
        by_cases haddr : addr = m.addr
        · exact .inr (haddr ▸ hnone)
        · exact (ha addr).imp_left (Function.update_of_ne haddr _ _).trans
      dsimp only
      split
      · exact hinsert _ _ (ensures_ok.2 (.of_view hquiet rfl))
      · exact hinsert _ _ (serves_performDirectoryFetch hquiet)

/-! ## Answers -/

/-- What an answer to a read changes: some local reads are no longer pending, and the line is
granted to the node if the answer is exclusive. -/
structure Answered (isExclusive : Bool) (addr : Address) (node : NodeID) (a b : Activation) :
    Prop where
  shared : b.dir.pendingDirectorySharedReads = a.dir.pendingDirectorySharedReads
  exclusive : b.dir.pendingDirectoryExclusiveReads = a.dir.pendingDirectoryExclusiveReads
  record : b.dir.directoryData = a.dir.directoryData
  reads : ∀ id ref, b.dir.pendingLocalReads id = some ref → a.dir.pendingLocalReads id = some ref
  decided : ∀ d ∈ b.decisions, d ∈ a.decisions ∨ isExclusive = true ∧ d = .grant addr node

/-- A satisfied response is passed on to the local cache. -/
lemma answered_onDirectoryBlockResponse {m : ReadResponseMsg} (hsatisfied : m.satisfied = true)
    (hnamed : ∀ ref, a.dir.pendingLocalReads m.solicitingMessage = some ref → ref.addr = m.addr) :
    Ensures (Answered m.exclusiveOwnership m.addr self.nodeID a)
      (self.onDirectoryBlockResponse m a) := by
  refine Ensures.elim fun ref href => ?_
  dsimp only
  rw [if_pos hsatisfied]
  refine ensures_ok.2 ?_
  have hreads : ∀ id ref', Function.update a.dir.pendingLocalReads m.solicitingMessage none id =
      some ref' → a.dir.pendingLocalReads id = some ref' := by
    intro id ref' hid
    by_cases heq : id = m.solicitingMessage
    · rw [heq, Function.update_self] at hid
      cases hid
    · rwa [Function.update_of_ne heq] at hid
  have hdecided : ∀ b : Activation, b.decisions = a.decisions →
      ∀ d ∈ (self.answerLocalRead m ref b).decisions,
        d ∈ a.decisions ∨ m.exclusiveOwnership = true ∧ d = .grant m.addr self.nodeID := by
    intro b hb d hd
    rw [answerLocalRead, sendLocalCache, Activation.decisions_send, List.mem_append] at hd
    refine hd.imp (fun hold => hb ▸ hold) fun hnew => ?_
    rw [Option.mem_toList] at hnew
    have hgrant : (if m.exclusiveOwnership then some (Decision.grant ref.addr self.nodeID)
      else none) = some d := hnew
    split at hgrant
    · rename_i hexclusive
      cases hgrant
      rw [hnamed ref href]
      exact ⟨hexclusive, rfl⟩
    · cases hgrant
  split
  · exact ⟨rfl, rfl, rfl, hreads, hdecided _ rfl⟩
  · exact ⟨rfl, rfl, rfl, hreads, hdecided _ rfl⟩

/-- A response for a pending request goes to its node. -/
lemma answered_sendNetwork {m : ReadResponseMsg} (hlookup : m.directoryLookup = true) :
    Answered m.exclusiveOwnership m.addr id a (self.sendNetwork id (.readResponse m) a) := by
  refine ⟨rfl, rfl, rfl, fun _ _ h => h, fun d hd => ?_⟩
  rw [sendNetwork, Activation.decisions_send, List.mem_append] at hd
  refine hd.imp_right fun hnew => ?_
  rw [Option.mem_toList] at hnew
  have hgrant : (if m.directoryLookup && m.exclusiveOwnership then
    some (Decision.grant m.addr id) else none) = some d := hnew
  rw [hlookup, Bool.true_and] at hgrant
  split at hgrant
  · rename_i hexclusive
    cases hgrant
    exact ⟨hexclusive, rfl⟩
  · cases hgrant

lemma answered_answerSharedRead {isOneReader : Bool}
    (hnamed : ∀ ref, a.dir.pendingLocalReads ld.msg.msgID = some ref → ref.addr = addr) :
    Ensures (Answered isOneReader addr ld.sourceNode a)
      (self.answerSharedRead addr isOneReader ld a) := by
  rw [answerSharedRead]
  split
  · rename_i hsource
    rw [hsource]
    refine (answered_onDirectoryBlockResponse (by rfl) hnamed).mono fun b hb => ?_
    exact ⟨hb.shared, hb.exclusive, hb.record, hb.reads, hb.decided⟩
  · have hsent : Answered isOneReader addr ld.sourceNode a.stamped (self.sendNetwork
        ld.sourceNode (.readResponse { ReadResponseMsg.ofRead a.currentMsgStamp ld.msg with
          addr := addr
          blockAttached := true
          directoryLookup := true
          exclusiveOwnership := isOneReader
          satisfied := true }) a.stamped) :=
      answered_sendNetwork (m := { ReadResponseMsg.ofRead a.currentMsgStamp ld.msg with
          addr := addr
          blockAttached := true
          directoryLookup := true
          exclusiveOwnership := isOneReader
          satisfied := true }) rfl
    exact ensures_ok.2 ⟨rfl, rfl, rfl, fun _ _ h => h, hsent.decided⟩

lemma answered_answerExclusiveRead {m : ReadResponseMsg} (hsatisfied : m.satisfied = true)
    (hnamed : ∀ ref, a.dir.pendingLocalReads m.solicitingMessage = some ref → ref.addr = m.addr) :
    Ensures (Answered m.exclusiveOwnership m.addr ld.sourceNode a)
      (self.answerExclusiveRead m ld a) := by
  rw [answerExclusiveRead]
  split
  · have hsent : Answered m.exclusiveOwnership m.addr ld.sourceNode a (self.sendNetwork
        ld.sourceNode (.readResponse { m with directoryLookup := true }) a) :=
      answered_sendNetwork (m := { m with directoryLookup := true }) rfl
    exact ensures_ok.2 hsent
  · rename_i hsource
    rw [not_not.1 hsource]
    exact answered_onDirectoryBlockResponse hsatisfied hnamed

/-! ## Completing shared reads -/

end Device

/-- A node is recorded for a block that has an owner. -/
def BlockData.HeldBy (d : BlockData) (id : NodeID) : Prop :=
  d.owner ≠ InvalidNodeID ∧ (d.owner = id ∨ id ∈ d.sharers)

/-- If a block is held by one node only, the node is its owner. -/
lemma BlockData.HeldBy.eq_of_numberOfSharers {d : BlockData} (h : d.HeldBy id)
    (hone : d.numberOfSharers = 1) : d = { sharers := ∅, owner := id } := by
  obtain ⟨howner, hid⟩ := h
  rw [BlockData.numberOfSharers, if_pos howner] at hone
  have hempty : d.sharers = ∅ := ListSet.eq_empty_of_size (by omega)
  rw [hempty] at hid
  obtain ⟨sharers, owner⟩ := d
  dsimp only at hempty hid
  rw [hempty, hid.resolve_right (ListSet.not_mem_empty id)]

/-- A node is recorded for a line that has an owner. -/
def Activation.Held (a : Activation) (addr : Address) (id : NodeID) : Prop :=
  ∃ d, a.dir.directoryData addr = some d ∧ d.HeldBy id

namespace Device

/-- A new share is recorded, and no recorded node is lost. -/
lemma held_addDirectoryShare (hid : id ≠ InvalidNodeID) : Ensures (fun b =>
    b.Held addr id ∧ ∀ id', a.Held addr id' → b.Held addr id')
    (addDirectoryShare addr id false a) := by
  rw [addDirectoryShare]
  split
  · exact ensures_error
  · rename_i d hd
    refine ensures_check_bind.2 fun _ => ensures_ok.2 ?_
    split
    · rename_i howner
      refine ⟨⟨_, Function.update_self _ _ _, hid, .inl rfl⟩, fun id' hid' => ?_⟩
      obtain ⟨d', hd', hvalid, hheld⟩ := hid'
      cases hd.symm.trans hd'
      have howner' : d.owner = id := howner.resolve_right hvalid
      exact ⟨_, Function.update_self _ _ _, hid, hheld.imp_left (howner'.symm.trans ·)⟩
    · rename_i howner
      rw [not_or] at howner
      refine ⟨⟨_, Function.update_self _ _ _, howner.2, .inr (ListSet.mem_insert.2 (.inl rfl))⟩,
        fun id' hid' => ?_⟩
      obtain ⟨d', hd', hvalid, hheld⟩ := hid'
      cases hd.symm.trans hd'
      exact ⟨_, Function.update_self _ _ _, hvalid,
        hheld.imp_right fun hmem => ListSet.mem_insert.2 (.inr hmem)⟩

/-- The nodes of all pending shared reads are recorded. -/
lemma held_addDirectoryShares {l : List (LookupData ReadMsg)}
    (hl : ∀ ld ∈ l, ld.sourceNode ≠ InvalidNodeID) : Ensures (fun b =>
      (∀ ld ∈ l, b.Held addr ld.sourceNode) ∧ ∀ id, a.Held addr id → b.Held addr id)
    (l.foldlM (fun a ld => addDirectoryShare addr ld.sourceNode false a) a) := by
  induction l generalizing a with
  | nil => exact ensures_ok.2 ⟨fun ld hld => absurd hld List.not_mem_nil, fun _ h => h⟩
  | cons ld l ih =>
    rw [List.foldlM_cons]
    refine (held_addDirectoryShare (hl ld List.mem_cons_self)).bind fun b ⟨hnew, hold⟩ => ?_
    refine (ih fun ld' hld' => hl ld' (List.mem_cons_of_mem ld hld')).mono fun c ⟨hl, hc⟩ => ?_
    refine ⟨fun ld' hld' => ?_, fun id hid => hc id (hold id hid)⟩
    rcases List.mem_cons.1 hld' with rfl | hmem
    · exact hc _ hnew
    · exact hl ld' hmem

/-- The pending shared reads of a line are answered, exclusively only if one node has asked and
no other node is recorded. -/
lemma serves_satisfySharedReads (hquiet : a.decisions = [])
    (hsource : ∀ ld ∈ a.dir.pendingDirectorySharedReads addr, ld.sourceNode ≠ InvalidNodeID)
    (hnamed : ∀ ld ∈ a.dir.pendingDirectorySharedReads addr, ∀ ref,
      a.dir.pendingLocalReads ld.msg.msgID = some ref → ref.addr = addr) :
    Ensures (Serves a) (self.satisfySharedReads addr a) := by
  have hshares : Ensures (fun b => b.homeView = a.homeView ∧
      ∀ ld ∈ a.dir.pendingDirectorySharedReads addr, b.Held addr ld.sourceNode)
      ((a.dir.pendingDirectorySharedReads addr).foldlM
        (fun a ld => addDirectoryShare addr ld.sourceNode false a) a) := by
    intro b hb
    have hview : Keeps Activation.homeView a ((a.dir.pendingDirectorySharedReads addr).foldlM
        (fun a ld => addDirectoryShare addr ld.sourceNode false a) a) :=
      Ensures.foldlM rfl fun ld _ c hc => keeps_addDirectoryShare.of_eq hc
    exact ⟨hview b hb, (held_addDirectoryShares hsource b hb).1⟩
  refine hshares.bind fun b ⟨hview, hheld⟩ => ?_
  obtain ⟨hshared, hexclusive, hreads, hdecisions⟩ : _ ∧ _ ∧ _ ∧ _ := by
    simpa only [Activation.homeView, Prod.mk.injEq] using hview
  -- every answer leaves the record as it is and grants the line to a node that has asked
  have hanswers : Ensures (fun c =>
      c.dir.pendingDirectorySharedReads = b.dir.pendingDirectorySharedReads ∧
      c.dir.pendingDirectoryExclusiveReads = b.dir.pendingDirectoryExclusiveReads ∧
      (∀ id ref, c.dir.pendingLocalReads id = some ref → a.dir.pendingLocalReads id = some ref) ∧
      ∀ d ∈ c.decisions, d.Justified c.dir.directoryData)
      ((a.dir.pendingDirectorySharedReads addr).foldlM (fun a ld => self.answerSharedRead addr
        (((b.dir.directoryData addr).getD .new).numberOfSharers = 1) ld a) b) := by
    have hfold : Ensures (fun c => c.dir.directoryData = b.dir.directoryData ∧
        c.dir.pendingDirectorySharedReads = b.dir.pendingDirectorySharedReads ∧
        c.dir.pendingDirectoryExclusiveReads = b.dir.pendingDirectoryExclusiveReads ∧
        (∀ id ref, c.dir.pendingLocalReads id = some ref → a.dir.pendingLocalReads id = some ref) ∧
        ∀ d ∈ c.decisions, d.Justified b.dir.directoryData)
        ((a.dir.pendingDirectorySharedReads addr).foldlM (fun a ld => self.answerSharedRead addr
          (((b.dir.directoryData addr).getD .new).numberOfSharers = 1) ld a) b) := by
      refine Ensures.foldlM ⟨rfl, rfl, rfl, fun id ref href => hreads ▸ href, fun d hd => ?_⟩
        fun ld hld c ⟨hrecord, hshared', hexclusive', hreads', hdecided⟩ => ?_
      · rw [hdecisions, hquiet] at hd
        cases hd
      · refine (answered_answerSharedRead fun ref href =>
          hnamed ld hld ref (hreads' _ ref href)).mono fun e he => ?_
        refine ⟨he.record.trans hrecord, he.shared.trans hshared', he.exclusive.trans hexclusive',
          fun id ref href => hreads' id ref (he.reads id ref href), fun d hd => ?_⟩
        rcases he.decided d hd with hold | ⟨hone, rfl⟩
        · exact hdecided d hold
        · obtain ⟨d, hd, hheld⟩ := hheld ld hld
          rw [decide_eq_true_eq, hd] at hone
          rw [Decision.Justified, hd, hheld.eq_of_numberOfSharers hone]
    exact hfold.mono fun c ⟨hrecord, hshared', hexclusive', hreads', hdecided⟩ =>
      ⟨hshared', hexclusive', hreads', hrecord ▸ hdecided⟩
  refine hanswers.bind fun c ⟨hshared', hexclusive', _, hdecided⟩ => ensures_ok.2 ?_
  refine ⟨fun ha addr' => ?_, fun addr' ld ld' hld hld' => ?_, hdecided⟩
  · by_cases haddr : addr' = addr
    · rw [haddr]
      exact .inl (Function.update_self _ _ _)
    · refine (ha addr').imp (fun hnil => ?_) fun hnone => ?_
      · refine (Function.update_of_ne haddr _ _).trans ?_
        rw [hshared', hshared, hnil]
      · refine (congrFun hexclusive' addr').trans ?_
        rw [hexclusive, hnone]
  · have hsame : c.dir.pendingDirectoryExclusiveReads addr' = some ld' := hld'
    rw [hexclusive', hexclusive, hld] at hsame
    cases hsame
    exact ⟨rfl, rfl⟩

/-! ## Completing exclusive reads -/

/-- The record after an exclusive share has been added. -/
lemma record_addDirectoryShare : Ensures (fun b =>
    b.dir.directoryData addr = some { sharers := ∅, owner := id } ∧ b.homeView = a.homeView)
    (addDirectoryShare addr id true a) := by
  rw [addDirectoryShare]
  split
  · exact ensures_error
  · rename_i d hd
    refine ensures_check_bind.2 fun hcheck => ensures_ok.2 ⟨?_, rfl⟩
    obtain ⟨hsize, howner⟩ := (of_decide_eq_true hcheck).resolve_left Bool.noConfusion
    rw [if_pos howner, ← ListSet.eq_empty_of_size hsize]
    exact Function.update_self _ _ _

/-- The request has been granted: it is no longer pending, and its node is the only one that is
recorded. -/
lemma serves_granted (hquiet : a.decisions = [])
    (hshared : b.dir.pendingDirectorySharedReads = a.dir.pendingDirectorySharedReads)
    (hexclusive : b.dir.pendingDirectoryExclusiveReads = a.dir.pendingDirectoryExclusiveReads)
    (hdecided : ∀ d ∈ b.decisions, d ∈ a.decisions ∨ d = .grant addr id) :
    Ensures (Serves a) (do
      let b ← addDirectoryShare addr id true b
      return b.setPendingDirectoryExclusiveRead addr none) := by
  refine record_addDirectoryShare.bind fun c ⟨hrecord, hview⟩ => ensures_ok.2 ?_
  obtain ⟨hshared', hexclusive', -, hdecisions⟩ : _ ∧ _ ∧ _ ∧ _ := by
    simpa only [Activation.homeView, Prod.mk.injEq] using hview
  refine ⟨fun ha addr' => ?_, fun addr' ld ld' hld hld' => ?_, fun d hd => ?_⟩
  · by_cases haddr : addr' = addr
    · rw [haddr]
      exact .inr (Function.update_self _ _ _)
    · refine (ha addr').imp (fun hnil => ?_) fun hnone => ?_
      · refine (congrFun hshared' addr').trans ?_
        rw [hshared, hnil]
      · refine (Function.update_of_ne haddr _ _).trans ?_
        rw [hexclusive', hexclusive, hnone]
  · have hset : Function.update c.dir.pendingDirectoryExclusiveReads addr none addr' = some ld' :=
      hld'
    by_cases haddr : addr' = addr
    · rw [haddr, Function.update_self] at hset
      cases hset
    · rw [Function.update_of_ne haddr, hexclusive', hexclusive, hld] at hset
      cases hset
      exact ⟨rfl, rfl⟩
  · have hb : d ∈ b.decisions := hdecisions ▸ hd
    rcases hdecided d hb with hold | rfl
    · rw [hquiet] at hold
      cases hold
    · exact hrecord

lemma serves_invalidateSharers {d : BlockData} (hquiet : a.decisions = [])
    (hld : a.dir.pendingDirectoryExclusiveReads addr = some ld) :
    Ensures (Serves a) (self.invalidateSharers addr d ld a) := by
  obtain ⟨ld', hld', hsame⟩ : ∃ ld' : LookupData ReadMsg, ld' = { ld with
      invalidateResponsesReceived := 0
      invalidateResponsesExpected := d.sharers.size } ∧ ld.SameRequest ld' := ⟨_, rfl, rfl, rfl⟩
  have hview : Keeps Activation.homeView (a.setPendingDirectoryExclusiveRead addr (some ld'))
      (d.sharers.toList.foldlM (fun a dest => self.sendInvalidate addr dest a)
        (a.setPendingDirectoryExclusiveRead addr (some ld'))) :=
    Ensures.foldlM rfl fun dest _ c hc => keeps_sendInvalidate.of_eq hc
  rw [invalidateSharers, ← hld']
  exact hview.mono fun c hc => (Serves.of_view (a := a.setPendingDirectoryExclusiveRead addr
    (some ld')) hquiet hc).restate hld hsame

lemma serves_satisfyExclusiveReads {m : ReadResponseMsg} (hquiet : a.decisions = [])
    (hsatisfied : m.satisfied = true)
    (hnamed : ∀ ref, a.dir.pendingLocalReads m.solicitingMessage = some ref → ref.addr = m.addr) :
    Ensures (Serves a) (self.satisfyExclusiveReads m src a) := by
  refine ensures_check_bind.2 fun _ => ensures_check_bind.2 fun _ => ensures_check_bind.2 fun _ =>
    Ensures.elim fun ld hld => ?_
  split
  · refine (answered_answerExclusiveRead hsatisfied hnamed).bind fun b hb => ?_
    exact serves_granted hquiet hb.shared hb.exclusive fun d hd => (hb.decided d hd).imp_right And.right
  · exact serves_invalidateSharers hquiet hld

lemma serves_onRemoteReadResponse {m : ReadResponseMsg} (hquiet : a.decisions = [])
    (hsource : ∀ ld ∈ a.dir.pendingDirectorySharedReads m.addr, ld.sourceNode ≠ InvalidNodeID)
    (hshared : ∀ ld ∈ a.dir.pendingDirectorySharedReads m.addr, ∀ ref,
      a.dir.pendingLocalReads ld.msg.msgID = some ref → ref.addr = m.addr)
    (hnamed : ∀ ref, a.dir.pendingLocalReads m.solicitingMessage = some ref → ref.addr = m.addr) :
    Ensures (Serves a) (self.onRemoteReadResponse m src a) := by
  refine ensures_check_bind.2 fun _ => ensures_check_bind.2 fun _ => ensures_check_bind.2 fun _ =>
    ensures_check_bind.2 fun _ => ?_
  split
  · rename_i hsatisfied
    have herase : Keeps Activation.homeView a (eraseExclusiveShare m src a) := by
      rw [eraseExclusiveShare]
      split
      · exact keeps_eraseDirectoryShare
      · exact keeps_ok.2 rfl
    refine herase.ensures_bind fun b hb => ?_
    obtain ⟨hshared', -, hreads', hdecisions'⟩ : _ ∧ _ ∧ _ ∧ _ := by
      simpa only [Activation.homeView, Prod.mk.injEq] using hb
    have hquiet' : b.decisions = [] := hdecisions'.trans hquiet
    split
    · refine (serves_satisfySharedReads hquiet' ?_ ?_).mono fun c hc => hc.after_view hb
      · rw [hshared']
        exact hsource
      · rw [hshared', hreads']
        exact hshared
    · refine (serves_satisfyExclusiveReads hquiet' hsatisfied ?_).mono fun c hc => hc.after_view hb
      rw [hreads']
      exact hnamed
  · refine keeps_eraseDirectoryShare.ensures_bind fun b hb => ensures_check_bind.2 fun _ => ?_
    have hquiet' : b.decisions = [] := (congrArg (fun v => v.2.2.2) hb).trans hquiet
    exact (serves_performDirectoryFetch hquiet').mono fun c hc => hc.after_view hb

/-- The block is given away with the last invalidate response. -/
lemma serves_grantExclusive (hquiet : a.decisions = []) :
    Ensures (Serves a) (self.grantExclusive addr ld a) := by
  obtain ⟨rm, hrm, hlookup, hexclusive, haddr⟩ : ∃ rm : ReadResponseMsg,
      rm = { ReadResponseMsg.ofRead a.currentMsgStamp ld.msg with
        addr := addr
        blockAttached := true
        directoryLookup := true
        exclusiveOwnership := true
        satisfied := true } ∧ rm.directoryLookup = true ∧ rm.exclusiveOwnership = true ∧
      rm.addr = addr := ⟨_, rfl, rfl, rfl, rfl⟩
  have hdecided : ∀ p : Packet, p.decision = some (.grant addr ld.sourceNode) →
      ∀ d ∈ (((a.setDirectoryData addr ⟨∅, ld.sourceNode⟩).stamped).send p).decisions,
        d ∈ a.decisions ∨ d = .grant addr ld.sourceNode := by
    intro p hp d hd
    rw [Activation.decisions_send_of_some hp] at hd
    exact (List.mem_append.1 hd).imp_right List.mem_singleton.1
  show Ensures (Serves a) (addDirectoryShare addr ld.sourceNode true
    (if ld.sourceNode = self.nodeID then self.sendLocalCache _ _
      else self.sendNetwork ld.sourceNode _ _) >>= _)
  split
  · rename_i hsource
    refine serves_granted hquiet rfl rfl (hdecided _ ?_)
    rw [hsource]
    rfl
  · exact serves_granted hquiet rfl rfl (hdecided _ rfl)

lemma serves_countInvalidateResponse {d : BlockData} (hquiet : a.decisions = []) :
    Ensures (Serves a) (self.countInvalidateResponse addr d a) := by
  rw [countInvalidateResponse]
  split
  · exact ensures_error
  · rename_i ld hld
    have hcounted : ∀ n, ∀ x : Except Fault Activation,
        Ensures (Serves (a.setPendingDirectoryExclusiveRead addr
          (some { ld with invalidateResponsesReceived := n }))) x → Ensures (Serves a) x :=
      fun n x hx => hx.mono fun c hc => hc.restate hld ⟨rfl, rfl⟩
    dsimp only
    split
    · refine hcounted (ld.invalidateResponsesReceived + 1) _ ?_
      exact serves_grantExclusive hquiet
    · refine hcounted (ld.invalidateResponsesReceived + 1) _ ?_
      exact ensures_ok.2 (.of_view hquiet rfl)

lemma serves_onRemoteInvalidateResponse {m : InvalidateResponseMsg} (hquiet : a.decisions = []) :
    Ensures (Serves a) (self.onRemoteInvalidateResponse m src a) := by
  rw [onRemoteInvalidateResponse]
  split
  · exact ensures_error
  · refine ensures_check_bind.2 fun _ => ensures_check_bind.2 fun _ => ?_
    refine (keeps_writeBlock.of_eq rfl).ensures_bind fun b hb => ?_
    have hquiet' : b.decisions = [] := (congrArg (fun v => v.2.2.2) hb).trans hquiet
    exact (serves_countInvalidateResponse hquiet').mono fun c hc => hc.after_view hb

lemma serves_onLocalInvalidateResponse {m : InvalidateResponseMsg} (hquiet : a.decisions = []) :
    Ensures (Serves a) (self.onLocalInvalidateResponse m a) := by
  refine Ensures.elim fun ld _ => ensures_check_bind.2 fun _ => ?_
  have hpass : Ensures (Serves a) (self.passInvalidateResponse m ld.sourceNode a) := by
    rw [passInvalidateResponse]
    split
    · exact ensures_ok.2 (.of_view hquiet (Activation.homeView_send rfl))
    · exact serves_onRemoteInvalidateResponse hquiet
  exact hpass.bind fun b hb => ensures_ok.2 ⟨hb.apart, hb.same, hb.justified⟩

end Device

/-! ## Deliveries -/

/-- What the handler for a packet does to the requests at its node.  A decision that it sends
agrees with the record, or is the one that the packet carries. -/
structure Handles (p : Packet) (a b : Activation) : Prop where
  apart : (∀ addr, a.dir.Apart addr) → ∀ addr, b.dir.Apart addr
  same : ∀ addr ld ld', a.dir.pendingDirectoryExclusiveReads addr = some ld →
    b.dir.pendingDirectoryExclusiveReads addr = some ld' → ld.SameRequest ld'
  decided : ∀ d ∈ b.decisions, p.decision = some d ∨ d.Justified b.dir.directoryData

variable {p : Packet}

lemma Serves.handles (h : Serves a b) : Handles p a b :=
  ⟨h.apart, h.same, fun d hd => .inr (h.justified d hd)⟩

/-- A decision is passed on, with the requests left as they are. -/
lemma Handles.of_passed
    (hshared : b.dir.pendingDirectorySharedReads = a.dir.pendingDirectorySharedReads)
    (hexclusive : b.dir.pendingDirectoryExclusiveReads = a.dir.pendingDirectoryExclusiveReads)
    (hdecided : ∀ d ∈ b.decisions, p.decision = some d) : Handles p a b where
  apart h addr := by
    rw [BIPDirectory.Apart, hshared, hexclusive]
    exact h addr
  same addr ld ld' hld hld' := by
    rw [hexclusive, hld] at hld'
    cases hld'
    exact ⟨rfl, rfl⟩
  decided d hd := .inl (hdecided d hd)

lemma handles_recvMsg {cfg : Config} (hquiet : a.decisions = [])
    (hsource : ∀ addr, ∀ ld ∈ a.dir.pendingDirectorySharedReads addr,
      ld.sourceNode ≠ InvalidNodeID)
    (hshared : ∀ addr, ∀ ld ∈ a.dir.pendingDirectorySharedReads addr, ∀ ref,
      a.dir.pendingLocalReads ld.msg.msgID = some ref → ref.addr = addr)
    (hnamed : ∀ r, p.msg = .readResponse r → ∀ ref,
      a.dir.pendingLocalReads r.solicitingMessage = some ref → ref.addr = r.addr) :
    Ensures (Handles p a) (cfg.recvMsg p reply a) := by
  have hserves : ∀ x : Except Fault Activation, Ensures (Serves a) x → Ensures (Handles p a) x :=
    fun x hx => hx.mono fun b hb => hb.handles
  have hkeeps : ∀ x : Except Fault Activation, Keeps Activation.homeView a x →
      Ensures (Handles p a) x :=
    fun x hx => hx.mono fun b hb => (Serves.of_view hquiet hb).handles
  cases p with
  | network dest src msg =>
    cases msg with
    | directoryNak m => exact hserves _ (Device.serves_onRemoteDirectoryNak hquiet)
    | read m =>
      show Ensures _ (if m.directoryLookup then _ else _)
      split
      · exact hserves _ (Device.serves_onDirectoryBlockRequest hquiet)
      · rename_i hlookup
        refine Device.decisions_onRemoteReadCache.mono fun b ⟨hb, hshared', hexclusive', _⟩ =>
          .of_passed hshared' hexclusive' fun d hd => ?_
        rw [hb, hquiet, List.nil_append, List.mem_singleton] at hd
        rw [hd]
        exact if_neg hlookup
    | readResponse m =>
      show Ensures _ (if m.directoryLookup then _ else _)
      split
      · rename_i hlookup
        by_cases hsatisfied : m.satisfied = true
        · refine (Device.answered_onDirectoryBlockResponse hsatisfied (hnamed m rfl)).mono
            fun b hb => .of_passed hb.shared hb.exclusive fun d hd => ?_
          rcases hb.decided d hd with hold | ⟨hexclusive, rfl⟩
          · rw [hquiet] at hold
            cases hold
          · refine if_pos ?_
            rw [hlookup, hexclusive]
            rfl
        · -- the read is tried again
          refine Ensures.elim fun ref _ => ?_
          dsimp only
          rw [if_neg hsatisfied]
          refine hserves _ (Ensures.mono (Device.serves_onLocalRead ?_) fun b hb =>
            ⟨hb.apart, hb.same, hb.justified⟩)
          exact hquiet
      · exact hserves _ (Device.serves_onRemoteReadResponse hquiet (hsource m.addr)
          (hshared m.addr) (hnamed m rfl))
    | writeResponse m => exact hkeeps _ (keeps_ok.2 rfl)
    | eviction m => exact hkeeps _ Device.keeps_onRemoteEviction
    | evictionResponse m => exact hkeeps _ Device.keeps_onRemoteEvictionResponse
    | invalidate m => exact hkeeps _ Device.keeps_onRemoteInvalidate
    | invalidateResponse m => exact hserves _ (Device.serves_onRemoteInvalidateResponse hquiet)
    | _ => exact ensures_error
  | scheduled node msg =>
    cases msg with
    | read m => exact hserves _ (Device.serves_onDirectoryBlockRequest hquiet)
    | directoryNak m => exact hserves _ (Device.serves_onRemoteDirectoryNak hquiet)
    | _ => exact ensures_error
  | toLocalCache node msg =>
    cases msg with
    | read m => exact hkeeps _ (keeps_ok.2 (Activation.homeView_send rfl))
    | invalidate m => exact hkeeps _ (keeps_ok.2 (Activation.homeView_send rfl))
    | _ => exact hkeeps _ (keeps_ok.2 rfl)
  | fromLocalCache node msg =>
    cases msg with
    | read m => exact hserves _ (Device.serves_onLocalRead hquiet)
    | readResponse m => exact hkeeps _ Device.keeps_onLocalReadResponse
    | write m => exact hkeeps _ Device.keeps_onLocalWrite
    | eviction m => exact hkeeps _ Device.keeps_onLocalEviction
    | invalidateResponse m => exact hserves _ (Device.serves_onLocalInvalidateResponse hquiet)
    | _ => exact ensures_error
  | toMemory node msg =>
    cases msg with
    | read m => exact hkeeps _ (keeps_ok.2 (Activation.homeView_send rfl))
    | write m => exact hkeeps _ (keeps_ok.2 (Activation.homeView_send rfl))
    | _ => exact ensures_error
  | fromMemory node msg =>
    cases msg with
    | readResponse m =>
      refine ensures_check_bind.2 fun _ => hserves _ ?_
      have hresponse : Ensures (Serves (a.setPendingMemoryRead m.solicitingMessage none))
          ((cfg.device node).onRemoteReadResponse m InvalidNodeID
            (a.setPendingMemoryRead m.solicitingMessage none)) :=
        Device.serves_onRemoteReadResponse hquiet (hsource m.addr) (hshared m.addr) (hnamed m rfl)
      exact hresponse.mono fun b hb => hb.after_view rfl
    | writeResponse m => exact hkeeps _ (keeps_check_bind.2 fun _ => keeps_ok.2 rfl)
    | _ => exact ensures_error

/-- In a reachable state a packet in flight is handled in this way. -/
lemma handles_of_reachable {cfg : Config} {s : System} {k : ℕ} {order : HashOrder}
    (h : (machine cfg).Reachable s) (hp : s.flight[k]? = some p)
    (hrecv : cfg.recvMsg p reply (s.activation p.node order) = .ok a) :
    Handles p (s.activation p.node order) a := by
  have hnodes := nodesKnown_of_reachable h
  have hreads : ReadsInv s := h.invariant .new fun _ _ _ hs hstep => hs.step hstep
  have hunique : ReadContext.Unique (s.context p.node) := hreads.unique rfl
  have hbooked := hreads.booked p.node
  refine handles_recvMsg rfl (fun addr ld hld hinvalid => ?_) (fun addr ld hld ref href => ?_)
    (fun r hr ref href => ?_) a hrecv
  · exact cfg.invalid_notMem (hinvalid ▸ (hnodes.device p.node order).shared addr ld hld)
  · obtain ⟨-, hissued⟩ := hbooked.shared addr ld hld
    exact hunique _ _ _ (hbooked.recorded _ ref href).2.2 hissued
  · have hagrees := hreads.agrees p (List.mem_of_getElem? hp)
    rw [hr] at hagrees
    exact hunique _ _ _ (hbooked.recorded _ ref href).2.2 hagrees

end Sesc.Bip
