import Sesc.Origin.Frame

/-!
# The local reads of a handler

A read of the local cache is recorded twice until it is answered: in `pendingLocalReads`
under its identifier and in the list of pending reads of its line.  This file says what
each handler of the cache side does to the two records and which answers it sends.  The
handlers keep both, or answer the first pending read of the line and strike it out; a line
that is or becomes exclusive strikes out the others as well, without an answer.
-/

namespace Sesc.Origin

open Lib

/-- The node and the read, when the packet brings a read of a local cache. -/
def Packet.localRead : Packet → Option (NodeID × ReadMsg)
  | fromLocalCache node (.read m) => some (node, m)
  | _ => none

/-- The node and the identifier of the read, when the packet answers a read of a local
cache. -/
def Packet.localAnswer : Packet → Option (NodeID × MessageID)
  | toLocalCache node (.readResponse r) => some (node, r.solicitingMessage)
  | _ => none

/-- Whether a packet brings a read to the cache side of a device. -/
def Packet.isCacheRead : Packet → Bool
  | fromLocalCache _ (.read _) => true
  | toCache _ _ (.read _) => true
  | _ => false

/-- Whether the cache line becomes exclusive when the message is handled. -/
def CacheData.grantsExclusive (c : CacheData) (msg : Msg) : Bool :=
  match c.cacheState, msg with
  | .exclusiveWaitingForSpeculativeReply, .speculativeReply _ => true
  | .waitingForExclusiveReadResponse, .readReply m => m.pendingInvalidates = 0
  | .waitingForExclusiveResponseAck, .readResponse _ => true
  | .waitingForKInvalidatesJInvalidatesReceived, .invalidateAck _ =>
    match c.firstReply with
    | some (.readReply firstReply) => firstReply.pendingInvalidates = c.invalidAcksReceived + 1
    | _ => false
  | .waitingForKInvalidatesJInvalidatesReceived, .readReply m =>
    m.pendingInvalidates = c.invalidAcksReceived
  | .waitingForSharedReadResponse, .readReply m => m.exclusiveOwnership
  | _, _ => false

attribute [local simp] CacheData.grantsExclusive

/-- The table of pending reads without the given reads. -/
def eraseReads (l : List ReadMsg) (t : MessageID → Option ReadMsg) : MessageID → Option ReadMsg :=
  l.foldl (fun t m => Function.update t m.msgID none) t

lemma eraseReads_apply (l : List ReadMsg) (t : MessageID → Option ReadMsg) (id : MessageID) :
    eraseReads l t id = if id ∈ l.map ReadMsg.msgID then none else t id := by
  induction l generalizing t with
  | nil => simp [eraseReads]
  | cons m l ih =>
    have hcons : eraseReads (m :: l) t = eraseReads l (Function.update t m.msgID none) := rfl
    rw [hcons, ih]
    by_cases hl : id ∈ l.map ReadMsg.msgID
    · rw [if_pos hl, if_pos (by simpa using .inr (by simpa using hl))]
    · by_cases hm : id = m.msgID
      · subst hm
        simp
      · rw [if_neg hl, Function.update_of_ne hm, if_neg]
        rw [List.map_cons, List.mem_cons]
        exact not_or.2 ⟨hm, hl⟩

namespace Activation

/-- The pending reads of a line. -/
def pendingReads (a : Activation) (line : Address) : List ReadMsg :=
  (a.cacheData line).cacheDataPendingLocalReads

def sentAnswers (a : Activation) : List (NodeID × MessageID) :=
  a.sent.filterMap Packet.localAnswer

/-- The records of the local reads, the answers to them and the reads sent to a cache side. -/
def readsView (a : Activation) :=
  (a.dir.pendingLocalReads, a.pendingReads, sentAnswers a, a.sent.filter Packet.isCacheRead)

variable (a : Activation) {line : Address}

lemma pendingReads_modifyCacheData (f : CacheData → CacheData) :
    (a.modifyCacheData line f).pendingReads = Function.update a.pendingReads line
      (f (a.cacheData line)).cacheDataPendingLocalReads := by
  funext addr
  by_cases h : addr = line
  · subst h
    simp [pendingReads]
  · simp [pendingReads, cacheData_modifyCacheData_of_ne _ _ h, h]

@[simp] lemma readsView_modifyCacheData {f : CacheData → CacheData}
    (hf : ∀ c, (f c).cacheDataPendingLocalReads = c.cacheDataPendingLocalReads) :
    readsView (a.modifyCacheData line f) = readsView a := by
  have h : (a.modifyCacheData line f).pendingReads = a.pendingReads := by
    rw [pendingReads_modifyCacheData, hf]
    exact Function.update_eq_self line a.pendingReads
  rw [readsView, readsView, h]
  rfl

@[simp] lemma readsView_clearTemp : readsView (a.modifyCacheData line .clearTemp) = readsView a :=
  a.readsView_modifyCacheData fun _ => rfl

@[simp] lemma readsView_setCacheState (s : CacheState) :
    readsView (a.setCacheState line s) = readsView a :=
  a.readsView_modifyCacheData fun _ => rfl

@[simp] lemma readsView_setPendingRemoteRead (id : MessageID) (m : Option ReadMsg) :
    readsView (a.setPendingRemoteRead id m) = readsView a := rfl

@[simp] lemma readsView_setPendingRemoteInvalidate (id : MessageID) (m : Option InvalidateMsg) :
    readsView (a.setPendingRemoteInvalidate id m) = readsView a := rfl

@[simp] lemma readsView_setPendingEviction (addr : Address) (m : Option EvictionMsg) :
    readsView (a.setPendingEviction addr m) = readsView a := rfl

@[simp] lemma readsView_stamped : readsView a.stamped = readsView a := rfl

lemma readsView_send {p : Packet} (hp : p.localAnswer = none) (hp' : p.isCacheRead = false) :
    readsView (a.send p) = readsView a := by
  simp only [readsView, sentAnswers, send, List.filterMap_append, List.filter_append]
  simp only [List.filterMap_cons, List.filterMap_nil, List.filter_cons, List.filter_nil, hp, hp']
  simp only [List.append_nil, Bool.false_eq_true, if_false]
  rfl

@[simp] lemma readsView_send_toDirectory (dest src : NodeID) (msg : Msg) :
    readsView (a.send (.toDirectory dest src msg)) = readsView a := a.readsView_send rfl rfl

@[simp] lemma readsView_send_toCache (dest src : NodeID) {msg : Msg} (hmsg : ∀ m, msg ≠ .read m) :
    readsView (a.send (.toCache dest src msg)) = readsView a := by
  refine a.readsView_send rfl ?_
  cases msg <;> first | rfl | exact absurd rfl (hmsg _)

@[simp] lemma readsView_send_toLocalCache (node : NodeID) {msg : Msg}
    (hmsg : ∀ r, msg ≠ .readResponse r) :
    readsView (a.send (.toLocalCache node msg)) = readsView a := by
  refine a.readsView_send ?_ rfl
  cases msg <;> first | rfl | exact absurd rfl (hmsg _)

/-- An answer to a read of the local cache. -/
lemma readsView_send_readResponse (node : NodeID) (r : ReadResponseMsg) :
    readsView (a.send (.toLocalCache node (.readResponse r))) =
      (a.dir.pendingLocalReads, a.pendingReads, sentAnswers a ++ [(node, r.solicitingMessage)],
        a.sent.filter Packet.isCacheRead) := by
  simp only [readsView, sentAnswers, send, List.filterMap_append, List.filter_append]
  simp [Packet.localAnswer, Packet.isCacheRead]
  rfl

/-- An answer that is sent after changes that leave the local reads alone. -/
lemma readsView_answer {a b : Activation} (h : readsView b = readsView a) (node : NodeID)
    (r : ReadResponseMsg) : readsView (b.send (.toLocalCache node (.readResponse r))) =
      (a.dir.pendingLocalReads, a.pendingReads, sentAnswers a ++ [(node, r.solicitingMessage)],
        a.sent.filter Packet.isCacheRead) := by
  simp only [readsView, Prod.mk.injEq] at h
  rw [readsView_send_readResponse, h.1, h.2.1, h.2.2.1, h.2.2.2]

/-! ### The state of the line -/

/-- The state of a cache line. -/
def lineState (a : Activation) (line : Address) : CacheState := (a.cacheData line).cacheState

@[simp] lemma lineState_send (p : Packet) : (a.send p).lineState line = a.lineState line := rfl

@[simp] lemma lineState_stamped : a.stamped.lineState line = a.lineState line := rfl

@[simp] lemma lineState_setPendingEviction (addr : Address) (m : Option EvictionMsg) :
    (a.setPendingEviction addr m).lineState line = a.lineState line := rfl

@[simp] lemma lineState_clearTemp :
    (a.modifyCacheData line .clearTemp).lineState line = a.lineState line := by
  rw [lineState, cacheData_modifyCacheData]
  rfl

@[simp] lemma lineState_setCacheState (s : CacheState) :
    (a.setCacheState line s).lineState line = s := by
  rw [lineState, setCacheState, cacheData_modifyCacheData]

/-- The pending reads of a line are struck out from the front: those of `answered` with an
answer and those of `lost` without one; those of `left` stay. -/
structure Consumes (n : NodeID) (line : Address) (answered lost left : List ReadMsg)
    (a a' : Activation) : Prop where
  split : a.pendingReads line = answered ++ (lost ++ left)
  lists : a'.pendingReads = Function.update a.pendingReads line left
  table : a'.dir.pendingLocalReads = eraseReads (answered ++ lost) a.dir.pendingLocalReads
  answers : sentAnswers a' = sentAnswers a ++ answered.map fun m => (n, m.msgID)
  requests : a'.sent.filter Packet.isCacheRead = a.sent.filter Packet.isCacheRead

/-- The first pending read of a line is answered, and the others are lost when the line is
exclusive. -/
def AnswersHead (n : NodeID) (line : Address) (isExclusive : Bool) (a a' : Activation) : Prop :=
  ∃ ref rest, a.pendingReads line = ref :: rest ∧
    Consumes n line [ref] (if isExclusive then rest else []) (if isExclusive then [] else rest) a a'

/-- The effect of the further pending reads of a line: an exclusive line loses them. -/
def RemainingEffect (n : NodeID) (line : Address) (a a' : Activation) : Prop :=
  if a.lineState line = .exclusive then Consumes n line [] (a.pendingReads line) [] a a'
  else readsView a' = readsView a

/-- The effect of a message other than a read. -/
def LineEffect (n : NodeID) (line : Address) (msg : Msg) (a a' : Activation) : Prop :=
  readsView a' = readsView a ∧ (a.cacheData line).grantsExclusive msg = false ∨
    AnswersHead n line ((a.cacheData line).grantsExclusive msg) a a'

lemma Consumes.trans_answer {a b a' : Activation} {n : NodeID} {line : Address} {m : ReadMsg}
    {lost left : List ReadMsg} (h : Consumes n line [] (m :: lost) left b a')
    (hb : readsView b = (a.dir.pendingLocalReads, a.pendingReads, sentAnswers a ++ [(n, m.msgID)],
      a.sent.filter Packet.isCacheRead)) : Consumes n line [m] lost left a a' := by
  simp only [readsView, Prod.mk.injEq] at hb
  obtain ⟨htable, hlists, hanswers, hrequests⟩ := hb
  refine ⟨?_, ?_, ?_, ?_, h.requests.trans hrequests⟩
  · rw [← hlists, h.split]
    rfl
  · rw [h.lists, hlists]
  · rw [h.table, htable]
    rfl
  · rw [h.answers, hanswers]
    exact List.append_nil _

/-- The head of the pending reads is struck out before the others. -/
lemma Consumes.cons {a b a' : Activation} {n : NodeID} {line : Address} {m : ReadMsg}
    {rest lost left : List ReadMsg} (h : Consumes n line [] lost left b a')
    (ha : a.pendingReads line = m :: rest)
    (hb : readsView b = (Function.update a.dir.pendingLocalReads m.msgID none,
      Function.update a.pendingReads line rest, sentAnswers a,
      a.sent.filter Packet.isCacheRead)) : Consumes n line [] (m :: lost) left a a' := by
  simp only [readsView, Prod.mk.injEq] at hb
  obtain ⟨htable, hlists, hanswers, hrequests⟩ := hb
  refine ⟨?_, ?_, ?_, ?_, h.requests.trans hrequests⟩
  · have hsplit := h.split
    rw [hlists, Function.update_self] at hsplit
    rw [ha, hsplit]
    rfl
  · rw [h.lists, hlists, Function.update_idem]
  · rw [h.table, htable]
    rfl
  · rw [h.answers, hanswers]

lemma consumes_nil {a a' : Activation} {n : NodeID} {line : Address}
    (h : readsView a' = readsView a) : Consumes n line [] [] (a.pendingReads line) a a' := by
  simp only [readsView, Prod.mk.injEq] at h
  obtain ⟨htable, hlists, hanswers, hrequests⟩ := h
  refine ⟨rfl, ?_, htable, ?_, hrequests⟩
  · rw [hlists, Function.update_eq_self]
  · rw [hanswers]
    exact (List.append_nil _).symm

end Activation

namespace Device

open Activation

variable (self : Device) {a b : Activation}

section

variable (msg : Msg) (src : NodeID) (line : Address)

/-! ## Handlers that keep the pending reads -/

lemma readsView_processInterventionWhileInvalid (m : InterventionMsg) :
    Keeps readsView a (self.processInterventionWhileInvalid m src a) := by
  simp [processInterventionWhileInvalid]
  split <;> simp [sendInterventionResponse, sendTransfer, sendMessageToRemoteCache,
    sendMessageToDirectory]

lemma readsView_processInvalidateWhileInvalid (m : InvalidateMsg) :
    Keeps readsView a (self.processInvalidateWhileInvalid m src a) := by
  simp [processInvalidateWhileInvalid, sendMessageToRemoteCache]

lemma readsView_sendInterventionNaks (m : InterventionMsg) :
    Keeps readsView a (self.sendInterventionNaks m a) := by
  simp [sendInterventionNaks, sendDirectoryNak, sendCacheNakIntervention, sendMessageToRemoteCache,
    sendMessageToDirectory]

lemma readsView_resendPendingRead : Keeps readsView a (self.resendPendingRead line a) := by
  unfold resendPendingRead
  split <;> simp [resendRequestToDirectory]

/-- The pending read is sent again before the line changes. -/
lemma readsView_resendPendingRead_bind (g : Activation → Except Fault Activation)
    (hg : ∀ b, Keeps readsView b (g b)) :
    Keeps readsView a (self.resendPendingRead line a >>= g) :=
  (self.readsView_resendPendingRead line).bind fun b _ => hg b

lemma readsView_onCacheCleanExclusive :
    Keeps readsView a (self.onCacheCleanExclusive msg src line a) := by
  unfold onCacheCleanExclusive
  split
  · simp [sendMsgToLocalCache]
  · simp [sendInterventionResponse, sendTransfer, sendMessageToRemoteCache, sendMessageToDirectory]
    split <;> simp
  · simp

lemma readsView_onCacheDirtyExclusive :
    Keeps readsView a (self.onCacheDirtyExclusive msg src line a) := by
  simp only [onCacheDirtyExclusive, keeps_check_bind]
  intro _
  split
  · simp [sendMessageToDirectory]
  · simp [sendInterventionResponse, sendTransfer, sendWriteback, sendMessageToRemoteCache,
      sendMessageToDirectory]
    split <;> simp
  · simp

lemma readsView_onCacheFirstReply (isDirty : Bool) :
    Keeps readsView a (self.onCacheFirstReply isDirty line a) := by
  unfold onCacheFirstReply
  split
  · simp
  · split
    · exact self.readsView_onCacheDirtyExclusive _ _ _
    · exact self.readsView_onCacheCleanExclusive _ _ _

/-- An exclusive line keeps its pending reads unless it gets a read. -/
lemma readsView_onCacheExclusive (remaining : Activation → Except Fault Activation)
    (hmsg : ∀ m, msg ≠ .read m) :
    Keeps readsView a (self.onCacheExclusive remaining msg src line a) := by
  unfold onCacheExclusive
  split
  · simp
    split <;> simp [sendMsgToLocalCache]
  · simp only [keeps_check_bind]
    intro _
    split
    · split
      · exact self.readsView_onCacheDirtyExclusive _ _ _
      · exact self.readsView_onCacheCleanExclusive _ _ _
    · simp
    · simp
  · simp only [keeps_check_bind]
    exact fun _ _ _ => (self.readsView_onCacheFirstReply _ _).of_eq rfl
  · simp only [keeps_check_bind]
    exact fun _ _ _ => (self.readsView_onCacheFirstReply _ _).of_eq rfl
  · exact absurd rfl (hmsg _)
  · simp

lemma readsView_onCacheExclusiveInterventionEviction :
    Keeps readsView a (self.onCacheExclusiveInterventionEviction msg line a) := by
  unfold onCacheExclusiveInterventionEviction
  split
  · split
    · simp only [keeps_check_bind, sendMsgToLocalCache, sendInterventionResponse, sendTransfer,
        sendMessageToRemoteCache, sendMessageToDirectory, bind_assoc, pure_bind]
      intros
      simp
    · simp only [keeps_check_bind, sendMsgToLocalCache, sendInterventionResponse, sendTransfer,
        sendWriteback, sendMessageToRemoteCache, sendMessageToDirectory, bind_assoc, pure_bind]
      intros
      split <;> simp
    · simp
  · simp

lemma readsView_onCacheInvalid : Keeps readsView a (self.onCacheInvalid msg src line a) := by
  unfold onCacheInvalid
  split
  · exact self.readsView_processInterventionWhileInvalid _ _
  · simp [sendMessageToDirectory]
  · exact self.readsView_processInvalidateWhileInvalid _ _
  · simp

lemma readsView_onCacheShared : Keeps readsView a (self.onCacheShared msg src line a) := by
  unfold onCacheShared
  split
  · simp [sendMsgToLocalCache]
  · simp only [keeps_check_bind]
    intro _
    split <;> simp [sendMessageToRemoteCache]
  · simp [sendMessageToDirectory]
  · split <;> simp [sendMsgToLocalCache]
  · simp

end

/-! ## Striking out the answered read -/

section

variable (n : NodeID) {line : Address} {k : ℕ} {remaining : Activation → Except Fault Activation}
  (hrem : ∀ b, (b.pendingReads line).length ≤ k → Ensures (RemainingEffect n line b) (remaining b))

include hrem in
/-- The first pending read is struck out, and with it the others when the line is exclusive. -/
lemma consumes_processReadResponse (m : ReadResponseMsg)
    (hk : (b.pendingReads line).length ≤ k + 1) :
    Ensures (fun a' => ∃ ref rest, b.pendingReads line = ref :: rest ∧
        ref.msgID = m.solicitingMessage ∧
        Consumes n line [] (ref :: if b.lineState line = .exclusive then rest else [])
          (if b.lineState line = .exclusive then [] else rest) b a')
      (processReadResponse remaining m line b) := by
  unfold processReadResponse
  rw [ensures_check_bind]
  intro _
  have hpending : ((b.setPendingLocalRead m.solicitingMessage none).cacheData
      line).cacheDataPendingLocalReads = b.pendingReads line := rfl
  dsimp only
  rw [hpending]
  rcases hlist : b.pendingReads line with _ | ⟨ref, rest⟩
  · exact ensures_error
  · simp only [ensures_check_bind, decide_eq_true_eq]
    intro href
    let c := (b.setPendingLocalRead m.solicitingMessage none).modifyCacheData line fun d =>
      { d with cacheDataPendingLocalReads := rest }
    have hc : c.pendingReads = Function.update b.pendingReads line rest :=
      pendingReads_modifyCacheData _ _
    have hview : readsView c = (Function.update b.dir.pendingLocalReads ref.msgID none,
        Function.update b.pendingReads line rest, sentAnswers b,
        b.sent.filter Packet.isCacheRead) := by
      rw [readsView, hc, href]
      rfl
    have hstate : c.lineState line = b.lineState line := by
      rw [lineState, cacheData_modifyCacheData]
      rfl
    have hrest : c.pendingReads line = rest := by rw [hc, Function.update_self]
    have hlen : (c.pendingReads line).length ≤ k := by
      rw [hlist, List.length_cons] at hk
      rw [hrest]
      omega
    refine (hrem c hlen).mono fun a' ha' => ⟨ref, rest, rfl, href, ?_⟩
    rw [RemainingEffect, hstate] at ha'
    by_cases hex : b.lineState line = .exclusive
    · rw [if_pos hex, hrest] at ha'
      rw [if_pos hex, if_pos hex]
      exact ha'.cons hlist hview
    · rw [if_neg hex] at ha'
      rw [if_neg hex, if_neg hex]
      have hnil : Consumes n line [] [] (c.pendingReads line) c a' := consumes_nil ha'
      rw [hrest] at hnil
      exact hnil.cons hlist hview

include hrem in
/-- A reply answers the first pending read of its line and strikes it out. -/
lemma answersHead_processReadResponse (m : ReadResponseMsg) (isExclusive : Bool)
    (hk : (a.pendingReads line).length ≤ k + 1)
    (hb : readsView b = (a.dir.pendingLocalReads, a.pendingReads,
      sentAnswers a ++ [(n, m.solicitingMessage)], a.sent.filter Packet.isCacheRead))
    (hstate : b.lineState line = .exclusive ↔ isExclusive = true) :
    Ensures (AnswersHead n line isExclusive a) (processReadResponse remaining m line b) := by
  have hlists : b.pendingReads = a.pendingReads := by
    simp only [readsView, Prod.mk.injEq] at hb
    exact hb.2.1
  refine (consumes_processReadResponse n hrem m (by rwa [hlists])).mono fun a' h => ?_
  obtain ⟨ref, rest, hlist, href, h⟩ := h
  refine ⟨ref, rest, by rw [← hlists, hlist], Consumes.trans_answer ?_ (by rw [hb, href])⟩
  simpa only [hstate] using h

/-- An exclusive line loses all its pending reads when it gets a read. -/
lemma consumes_onCacheExclusive_read (m : ReadMsg) (src : NodeID)
    (hrem : ∀ b, (b.pendingReads line).length ≤ k →
      Ensures (RemainingEffect n line b) (remaining b))
    (hk : (a.pendingReads line).length ≤ k + 1)
    (hstate : a.lineState line = .exclusive) :
    Ensures (Consumes n line [] (a.pendingReads line) [] a)
      (self.onCacheExclusive remaining (.read m) src line a) := by
  have hstamped : a.stamped.lineState line = .exclusive := hstate
  refine (consumes_processReadResponse (b := a.stamped) n hrem _ hk).mono fun a' h => ?_
  obtain ⟨ref, rest, hlist, _, h⟩ := h
  rw [if_pos hstamped, if_pos hstamped] at h
  have hlist : a.pendingReads line = ref :: rest := hlist
  rw [hlist]
  exact ⟨h.split, h.lists, h.table, h.answers, h.requests⟩

/-- What a read does to the pending reads of its line: an exclusive line loses them. -/
lemma remainingEffect_onCacheWith_read (m : ReadMsg) (src : NodeID)
    (hrem : ∀ b, (b.pendingReads line).length ≤ k →
      Ensures (RemainingEffect n line b) (remaining b))
    (hk : (a.pendingReads line).length ≤ k + 1) :
    Ensures (RemainingEffect n line a) (self.onCacheWith remaining (.read m) src line a) := by
  unfold onCacheWith
  split
  case h_1 hstate =>
    have hstate : a.lineState line = .exclusive := hstate
    refine (self.consumes_onCacheExclusive_read n m src hrem hk hstate).mono fun a' h => ?_
    rw [RemainingEffect, if_pos hstate]
    exact h
  all_goals
    rename_i hstate
    suffices Keeps readsView a _ from this.mono fun a' h => by
      rw [RemainingEffect, lineState, if_neg (by rw [hstate]; decide)]
      exact h
  · unfold onCacheExclusiveInterventionEviction
    split <;> simp
  · unfold onCacheExclusiveWaitingForSpeculativeReply
    split <;> simp
  · exact self.readsView_onCacheInvalid _ _ _
  · exact self.readsView_onCacheShared _ _ _
  · unfold onCacheSharedWaitingForSpeculativeReply
    split <;> simp
  · unfold onCacheWaitingForIntervention
    split <;> simp
  · unfold onCacheWaitingForExclusiveReadResponse
    split <;> simp
  · simp [onCacheWaitingForExclusiveResponseAck]
  · simp [onCacheWaitingForKInvalidatesJInvalidatesReceived]
  · unfold onCacheWaitingForSharedReadResponse
    split <;> simp
  · simp [onCacheWaitingForSharedResponseAck]
  · unfold onCacheWaitingForWritebackBusyAck
    split <;> simp
  · simp [onCacheWaitingForWritebackResponse]

lemma remainingEffect_refl (h : a.pendingReads line = []) : RemainingEffect n line a a := by
  rw [RemainingEffect]
  split
  · have hnil : Consumes n line [] [] (a.pendingReads line) a a := consumes_nil rfl
    rwa [h] at hnil ⊢
  · rfl

lemma remainingEffect_processRemainingPendingLocalReads (k : ℕ) (a : Activation)
    (hk : (a.pendingReads line).length ≤ k) :
    Ensures (RemainingEffect n line a) (self.processRemainingPendingLocalReads line k a) := by
  induction k generalizing a with
  | zero =>
    rw [processRemainingPendingLocalReads, ensures_ok]
    exact remainingEffect_refl n (List.length_eq_zero_iff.1 (Nat.le_zero.1 hk))
  | succ k ih =>
    unfold processRemainingPendingLocalReads
    split
    · rename_i h
      exact ensures_ok.2 (remainingEffect_refl n h)
    · exact self.remainingEffect_onCacheWith_read n _ _ ih hk

lemma lineEffect_of_keeps {msg : Msg} {x : Except Fault Activation} (h : Keeps readsView a x)
    (hgrants : (a.cacheData line).grantsExclusive msg = false) :
    Ensures (LineEffect n line msg a) x :=
  h.mono fun _ hview => .inl ⟨hview, hgrants⟩

end

/-! ## The waiting states -/

section

variable (msg : Msg) (src : NodeID) {line : Address}
  {remaining : Activation → Except Fault Activation}
  (hrem : ∀ b, (b.pendingReads line).length ≤ (a.pendingReads line).length →
    Ensures (RemainingEffect self.nodeID line b) (remaining b))

include hrem in
/-- A reply that makes the line exclusive or shared answers the first pending read. -/
lemma lineEffect_answer (m : ReadResponseMsg) (isExclusive : Bool)
    (hb : readsView b = (a.dir.pendingLocalReads, a.pendingReads,
      sentAnswers a ++ [(self.nodeID, m.solicitingMessage)], a.sent.filter Packet.isCacheRead))
    (hstate : b.lineState line = .exclusive ↔ isExclusive = true)
    (hgrants : (a.cacheData line).grantsExclusive msg = isExclusive) :
    Ensures (LineEffect self.nodeID line msg a) (processReadResponse remaining m line b) := by
  subst hgrants
  exact (answersHead_processReadResponse self.nodeID hrem m _ (Nat.le_succ _) hb hstate).mono
    fun _ h => .inr h

include hrem in
lemma lineEffect_onCacheExclusiveWaitingForSpeculativeReply
    (hstate : (a.cacheData line).cacheState = .exclusiveWaitingForSpeculativeReply) :
    Ensures (LineEffect self.nodeID line msg a)
      (self.onCacheExclusiveWaitingForSpeculativeReply remaining msg src line a) := by
  unfold onCacheExclusiveWaitingForSpeculativeReply
  split
  · rename_i firstReply _
    simp only [ensures_check_bind]
    intro _
    split
    · simp only [ensures_check_bind, decide_eq_true_eq]
      intro hm
      refine self.lineEffect_answer _ hrem _ true ?_ (by simp [sendMsgToLocalCache])
        (by simp [hstate])
      rw [readsView_clearTemp, ← hm]
      exact readsView_answer (by simp) _ _
    · refine lineEffect_of_keeps _ (self.readsView_processInvalidateWhileInvalid _ _) ?_
      simp [hstate]
    · simp
  · simp

include hrem in
lemma lineEffect_onCacheSharedWaitingForSpeculativeReply
    (hstate : (a.cacheData line).cacheState = .sharedWaitingForSpeculativeReply) :
    Ensures (LineEffect self.nodeID line msg a)
      (self.onCacheSharedWaitingForSpeculativeReply remaining msg src line a) := by
  unfold onCacheSharedWaitingForSpeculativeReply
  split
  · rename_i firstReply _
    simp only [ensures_check_bind]
    intro _
    split
    · simp only [ensures_check_bind, decide_eq_true_eq]
      intro hm
      refine self.lineEffect_answer _ hrem _ false ?_ (by simp [sendMsgToLocalCache])
        (by simp [hstate])
      rw [readsView_clearTemp, ← hm]
      exact readsView_answer (by simp) _ _
    · refine lineEffect_of_keeps _ (self.readsView_processInvalidateWhileInvalid _ _) ?_
      simp [hstate]
    · simp
  · simp

include hrem in
lemma lineEffect_onCacheWaitingForExclusiveReadResponse
    (hstate : (a.cacheData line).cacheState = .waitingForExclusiveReadResponse) :
    Ensures (LineEffect self.nodeID line msg a)
      (self.onCacheWaitingForExclusiveReadResponse remaining msg src line a) := by
  have hkeeps : ∀ x : Except Fault Activation, Keeps readsView a x → (∀ m, msg ≠ .readReply m) →
      Ensures (LineEffect self.nodeID line msg a) x := by
    intro x hx hmsg
    refine lineEffect_of_keeps _ hx ?_
    cases msg <;> first | exact absurd rfl (hmsg _) | simp [hstate]
  unfold onCacheWaitingForExclusiveReadResponse
  split
  · simp
  split
  · refine hkeeps _ ?_ (by simp)
    simp only [keeps_check_bind]
    intro _
    split
    · simp only [keeps_check_bind]
      intro _
      split
      · exact self.readsView_resendPendingRead _
      · simp
    · simp
    · simp
  · exact hkeeps _ (by simp [sendMsgToLocalCache]) (by simp)
  · refine hkeeps _ ?_ (by simp)
    split
    · simp only [keeps_check_bind, sendMessageToRemoteCache, bind_assoc, pure_bind]
      intros
      split
      · exact (self.readsView_resendPendingRead _).of_eq (by simp)
      · simp
    · simp
  · rename_i m
    simp only [ensures_check_bind]
    intros
    split
    · rename_i hpending
      refine self.lineEffect_answer _ hrem _ true ?_
        (by simp [sendMessageToLocalCache, sendMsgToLocalCache])
        (by simp [hstate, hpending])
      exact readsView_answer (by simp) _ _
    · rename_i hpending
      refine lineEffect_of_keeps _ (by simp) ?_
      simp [hstate, hpending]
  · exact hkeeps _ (by simp) (by simp)
  · refine hkeeps _ ?_ (by simp)
    simp only [keeps_check_bind]
    intro _
    split
    · simp
    · exact self.readsView_resendPendingRead_bind _ _ fun b => by simp
    · simp
  · exact hkeeps _ (by simp) (by simp)
  · refine hkeeps _ ?_ (by simp)
    simp only [keeps_check_bind]
    exact fun _ _ => self.readsView_sendInterventionNaks _
  · simp

include hrem in
lemma lineEffect_onCacheWaitingForExclusiveResponseAck
    (hstate : (a.cacheData line).cacheState = .waitingForExclusiveResponseAck) :
    Ensures (LineEffect self.nodeID line msg a)
      (self.onCacheWaitingForExclusiveResponseAck remaining msg src line a) := by
  simp only [onCacheWaitingForExclusiveResponseAck, ensures_check_bind]
  intro _ _
  split
  · simp only [ensures_check_bind]
    intro _
    refine self.lineEffect_answer _ hrem _ true ?_ (by simp [sendMsgToLocalCache])
      (by simp [hstate])
    rw [readsView_clearTemp]
    exact readsView_answer (by simp) _ _
  · refine lineEffect_of_keeps _ ?_ (by simp [hstate])
    split
    · simp
    · simp only [keeps_check_bind]
      exact fun _ => self.readsView_resendPendingRead_bind _ _ fun b => by simp
  · exact lineEffect_of_keeps _ (self.readsView_sendInterventionNaks _)
      (by simp [hstate])
  · exact lineEffect_of_keeps _ (self.readsView_processInvalidateWhileInvalid _ _)
      (by simp [hstate])
  · simp

include hrem in
/-- The remaining pending reads of a line that has become invalid. -/
lemma keeps_remaining (hb : readsView b = readsView a) (hstate : b.lineState line = .invalid) :
    Keeps readsView a (remaining b) := by
  have hlists : b.pendingReads = a.pendingReads := by
    simp only [readsView, Prod.mk.injEq] at hb
    exact hb.2.1
  refine (hrem b (Nat.le_of_eq (by rw [hlists]))).mono fun a' h => ?_
  rw [RemainingEffect, if_neg (by rw [hstate]; decide)] at h
  exact h.trans hb

include hrem in
lemma lineEffect_onCacheWaitingForIntervention
    (hstate : (a.cacheData line).cacheState = .waitingForIntervention) :
    Ensures (LineEffect self.nodeID line msg a)
      (self.onCacheWaitingForIntervention remaining msg line a) := by
  refine lineEffect_of_keeps _ ?_ (by simp [hstate])
  unfold onCacheWaitingForIntervention
  split
  · simp only [keeps_check_bind]
    intro _ _
    split
    · simp only [keeps_check_bind]
      exact fun _ _ => self.keeps_remaining hrem (by simp [sendMsgToLocalCache])
        (by simp [sendMsgToLocalCache])
    · simp
  · simp

include hrem in
lemma lineEffect_onCacheWaitingForKInvalidatesJInvalidatesReceived
    (hstate : (a.cacheData line).cacheState = .waitingForKInvalidatesJInvalidatesReceived) :
    Ensures (LineEffect self.nodeID line msg a)
      (self.onCacheWaitingForKInvalidatesJInvalidatesReceived remaining msg src line a) := by
  unfold onCacheWaitingForKInvalidatesJInvalidatesReceived
  split
  · exact lineEffect_of_keeps _ (self.readsView_sendInterventionNaks _)
      (by simp [hstate])
  · split
    · rename_i hreply
      exact lineEffect_of_keeps _ (by simp) (by simp [hstate, hreply])
    · rename_i firstReply hreply
      simp only [ensures_check_bind]
      intro _ _
      split
      · rename_i hacks
        have hacks : firstReply.pendingInvalidates = (a.cacheData line).invalidAcksReceived + 1 := by
          simpa using hacks
        refine self.lineEffect_answer _ hrem _ true ?_
          (by simp [sendMessageToLocalCache, sendMsgToLocalCache])
          (by simp [hstate, hreply, hacks])
        rw [readsView_clearTemp]
        exact readsView_answer (by simp) _ _
      · rename_i hacks
        have hacks : firstReply.pendingInvalidates ≠ (a.cacheData line).invalidAcksReceived + 1 := by
          simpa using hacks
        exact lineEffect_of_keeps _ (by simp)
          (by simp [hstate, hreply, hacks])
    · simp
  · simp only [ensures_check_bind]
    intros
    split
    · rename_i hacks
      refine self.lineEffect_answer _ hrem _ true ?_
        (by simp [sendMessageToLocalCache, sendMsgToLocalCache])
        (by simp [hstate, hacks])
      rw [readsView_clearTemp]
      exact readsView_answer (by simp) _ _
    · rename_i hacks
      exact lineEffect_of_keeps _ (by simp) (by simp [hstate, hacks])
  · simp

include hrem in
lemma lineEffect_onCacheWaitingForSharedReadResponse
    (hstate : (a.cacheData line).cacheState = .waitingForSharedReadResponse) :
    Ensures (LineEffect self.nodeID line msg a)
      (self.onCacheWaitingForSharedReadResponse remaining msg src line a) := by
  have hkeeps : ∀ x : Except Fault Activation, Keeps readsView a x → (∀ m, msg ≠ .readReply m) →
      Ensures (LineEffect self.nodeID line msg a) x := by
    intro x hx hmsg
    refine lineEffect_of_keeps _ hx ?_
    cases msg <;> first | exact absurd rfl (hmsg _) | simp [hstate]
  unfold onCacheWaitingForSharedReadResponse
  split
  · simp
  split
  · refine hkeeps _ ?_ (by simp)
    simp only [keeps_check_bind]
    intros
    split
    · exact self.readsView_resendPendingRead _
    · simp
  · rename_i m
    simp only [ensures_check_bind]
    intro _ _
    refine self.lineEffect_answer _ hrem _ m.exclusiveOwnership ?_ ?_
      (by simp [hstate])
    · exact readsView_answer (by simp) _ _
    · cases hm : m.exclusiveOwnership <;> simp [sendMessageToLocalCache, sendMsgToLocalCache]
  · exact hkeeps _ (by simp) (by simp)
  · refine hkeeps _ ?_ (by simp)
    simp only [keeps_check_bind]
    intro _
    split
    · simp
    · exact self.readsView_resendPendingRead_bind _ _ fun b => by simp
    · simp
  · refine hkeeps _ ?_ (by simp)
    simp only [keeps_check_bind]
    exact fun _ _ => self.readsView_sendInterventionNaks _
  · exact hkeeps _ (self.readsView_processInvalidateWhileInvalid _ _) (by simp)
  · simp

include hrem in
lemma lineEffect_onCacheWaitingForSharedResponseAck
    (hstate : (a.cacheData line).cacheState = .waitingForSharedResponseAck) :
    Ensures (LineEffect self.nodeID line msg a)
      (self.onCacheWaitingForSharedResponseAck remaining msg src line a) := by
  simp only [onCacheWaitingForSharedResponseAck, ensures_check_bind]
  intro _ _
  split
  · simp only [ensures_check_bind]
    intro _
    refine self.lineEffect_answer _ hrem _ false ?_ (by simp [sendMsgToLocalCache])
      (by simp [hstate])
    rw [readsView_clearTemp]
    exact readsView_answer (by simp) _ _
  · refine lineEffect_of_keeps _ ?_ (by simp [hstate])
    split
    · simp
    · simp only [keeps_check_bind]
      exact fun _ => self.readsView_resendPendingRead_bind _ _ fun b => by simp
  · exact lineEffect_of_keeps _ (self.readsView_sendInterventionNaks _)
      (by simp [hstate])
  · exact lineEffect_of_keeps _ (self.readsView_processInvalidateWhileInvalid _ _)
      (by simp [hstate])
  · simp

include hrem in
lemma lineEffect_onCacheWaitingForWritebackBusyAck
    (hstate : (a.cacheData line).cacheState = .waitingForWritebackBusyAck) :
    Ensures (LineEffect self.nodeID line msg a)
      (self.onCacheWaitingForWritebackBusyAck remaining msg line a) := by
  refine lineEffect_of_keeps _ ?_ (by simp [hstate])
  unfold onCacheWaitingForWritebackBusyAck
  split
  · simp only [keeps_check_bind]
    intro _
    split
    · simp only [keeps_check_bind]
      exact fun _ _ => self.keeps_remaining hrem (by simp [sendMsgToLocalCache])
        (by simp [sendMsgToLocalCache])
    · simp
  · simp

include hrem in
lemma lineEffect_onCacheWaitingForWritebackResponse
    (hstate : (a.cacheData line).cacheState = .waitingForWritebackResponse) :
    Ensures (LineEffect self.nodeID line msg a)
      (self.onCacheWaitingForWritebackResponse remaining msg src line a) := by
  refine lineEffect_of_keeps _ ?_ (by simp [hstate])
  simp only [onCacheWaitingForWritebackResponse, keeps_check_bind]
  intro _ _ _
  split
  · simp only [keeps_check_bind]
    intro _
    split
    · exact self.keeps_remaining hrem (by simp [sendMsgToLocalCache])
        (by simp [sendMsgToLocalCache])
    · simp
  · simp
  · simp

include hrem in
/-- The effect of a message other than a read, whatever the state of its line. -/
lemma lineEffect_onCacheWith (hmsg : ∀ m, msg ≠ .read m) :
    Ensures (LineEffect self.nodeID line msg a) (self.onCacheWith remaining msg src line a) := by
  have hkeeps : ∀ {s : CacheState} {x : Except Fault Activation},
      (a.cacheData line).cacheState = s → s = .exclusive ∨ s = .exclusiveInterventionEviction ∨
        s = .invalid ∨ s = .shared →
      Keeps readsView a x → Ensures (LineEffect self.nodeID line msg a) x := by
    intro s x hs hstable hx
    refine lineEffect_of_keeps _ hx ?_
    rcases hstable with rfl | rfl | rfl | rfl <;> simp [hs]
  unfold onCacheWith
  split
  · exact hkeeps ‹_› (by simp) (self.readsView_onCacheExclusive _ _ _ _ hmsg)
  · exact hkeeps ‹_› (by simp) (self.readsView_onCacheExclusiveInterventionEviction _ _)
  · exact self.lineEffect_onCacheExclusiveWaitingForSpeculativeReply _ _ hrem ‹_›
  · exact hkeeps ‹_› (by simp) (self.readsView_onCacheInvalid _ _ _)
  · exact hkeeps ‹_› (by simp) (self.readsView_onCacheShared _ _ _)
  · exact self.lineEffect_onCacheSharedWaitingForSpeculativeReply _ _ hrem ‹_›
  · exact self.lineEffect_onCacheWaitingForIntervention _ hrem ‹_›
  · exact self.lineEffect_onCacheWaitingForExclusiveReadResponse _ _ hrem ‹_›
  · exact self.lineEffect_onCacheWaitingForExclusiveResponseAck _ _ hrem ‹_›
  · exact self.lineEffect_onCacheWaitingForKInvalidatesJInvalidatesReceived _ _ hrem ‹_›
  · exact self.lineEffect_onCacheWaitingForSharedReadResponse _ _ hrem ‹_›
  · exact self.lineEffect_onCacheWaitingForSharedResponseAck _ _ hrem ‹_›
  · exact self.lineEffect_onCacheWaitingForWritebackBusyAck _ hrem ‹_›
  · exact self.lineEffect_onCacheWaitingForWritebackResponse _ _ hrem ‹_›

end

/-- The effect of `OnCache` for a message other than a read. -/
lemma lineEffect_onCache (msg : Msg) (src : NodeID) (line : Address) (hmsg : ∀ m, msg ≠ .read m) :
    Ensures (LineEffect self.nodeID line msg a) (self.onCache msg src line a) :=
  self.lineEffect_onCacheWith msg src
    (self.remainingEffect_processRemainingPendingLocalReads self.nodeID _) hmsg

/-- The effect of `OnCache` for a read. -/
lemma remainingEffect_onCache_read (m : ReadMsg) (src : NodeID) (line : Address) :
    Ensures (RemainingEffect self.nodeID line a) (self.onCache (.read m) src line a) :=
  self.remainingEffect_onCacheWith_read self.nodeID m src
    (self.remainingEffect_processRemainingPendingLocalReads self.nodeID _) (Nat.le_succ _)

/-- A read of the local cache has been recorded. -/
def recordRead (m : ReadMsg) (a : Activation) : Activation :=
  (a.setPendingLocalRead m.msgID (some m)).modifyCacheData m.addr fun c =>
    { c with cacheDataPendingLocalReads := c.cacheDataPendingLocalReads ++ [m] }

/-- A read of the local cache is recorded, and lost when its line is exclusive. -/
lemma ensures_onCacheRead (m : ReadMsg) :
    Ensures (fun a' => a.dir.pendingLocalReads m.msgID = none ∧
      RemainingEffect self.nodeID m.addr (recordRead m a) a') (self.onCacheRead m a) := by
  simp only [onCacheRead, ensures_check_bind, decide_eq_true_eq]
  intro hfresh
  split
  · exact (self.remainingEffect_onCache_read m _ _).mono fun a' h => ⟨hfresh, h⟩
  · rename_i hstate
    rw [ensures_pure]
    refine ⟨hfresh, ?_⟩
    have hne : (recordRead m a).lineState m.addr ≠ .exclusive := by
      rw [lineState, recordRead, cacheData_modifyCacheData]
      exact fun h => hstate (.inr (.inl h))
    rw [RemainingEffect, if_neg hne]
    rfl

/-! ## The rounds of `ProcessRemainingPendingLocalReads` -/

section

variable {remaining remaining' : Activation → Except Fault Activation} {line : Address}

end

end Device

end Sesc.Origin
