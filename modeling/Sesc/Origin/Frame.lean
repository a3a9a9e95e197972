import Sesc.Origin.System

/-!
# What the two sides of a device leave alone

The cache side of a device neither changes the tables of the directory side nor talks to
the memory.  The directory side neither changes the tables of the cache side nor talks to
the local cache, and sends no read to a cache.  The stamp of the next message never goes
back.
-/

namespace Sesc.Origin

open Lib

/-- Whether a packet travels between a device and its memory. -/
def Packet.isMemory : Packet → Bool
  | toMemory _ _ => true
  | fromMemory _ _ => true
  | _ => false

/-- Whether a packet travels between a device and its local cache or is a read for the cache
side. -/
def Packet.isLocal : Packet → Bool
  | toLocalCache _ _ => true
  | fromLocalCache _ _ => true
  | toCache _ _ (.read _) => true
  | _ => false

namespace Activation

/-- What belongs to the directory side: its tables and the traffic with the memory. -/
def directorySide (a : Activation) :=
  (a.dir.directoryDataMap, a.dir.pendingMemoryReadAccesses, a.dir.pendingMemoryWriteAccesses,
    a.sent.filter Packet.isMemory)

/-- What belongs to the cache side: its tables and the traffic with the local cache. -/
def cacheSide (a : Activation) :=
  (a.dir.cacheDataMap, a.dir.pendingLocalReads, a.dir.pendingRemoteReads,
    a.dir.pendingRemoteInvalidates, a.dir.pendingEviction, a.sent.filter Packet.isLocal)

variable (a : Activation)

@[simp] lemma directorySide_modifyCacheData (line : Address) (f : CacheData → CacheData) :
    (a.modifyCacheData line f).directorySide = a.directorySide := rfl

@[simp] lemma directorySide_setCacheState (line : Address) (c : CacheState) :
    (a.setCacheState line c).directorySide = a.directorySide := rfl

@[simp] lemma directorySide_setPendingLocalRead (id : MessageID) (m : Option ReadMsg) :
    (a.setPendingLocalRead id m).directorySide = a.directorySide := rfl

@[simp] lemma directorySide_setPendingRemoteRead (id : MessageID) (m : Option ReadMsg) :
    (a.setPendingRemoteRead id m).directorySide = a.directorySide := rfl

@[simp] lemma directorySide_setPendingRemoteInvalidate (id : MessageID)
    (m : Option InvalidateMsg) :
    (a.setPendingRemoteInvalidate id m).directorySide = a.directorySide := rfl

@[simp] lemma directorySide_setPendingEviction (addr : Address) (m : Option EvictionMsg) :
    (a.setPendingEviction addr m).directorySide = a.directorySide := rfl

@[simp] lemma directorySide_stamped : a.stamped.directorySide = a.directorySide := rfl

lemma directorySide_send {p : Packet} (hp : p.isMemory = false) :
    (a.send p).directorySide = a.directorySide := by
  simp [directorySide, send, hp]

@[simp] lemma directorySide_send_toCache (dest src : NodeID) (msg : Msg) :
    (a.send (.toCache dest src msg)).directorySide = a.directorySide :=
  a.directorySide_send rfl

@[simp] lemma directorySide_send_toDirectory (dest src : NodeID) (msg : Msg) :
    (a.send (.toDirectory dest src msg)).directorySide = a.directorySide :=
  a.directorySide_send rfl

@[simp] lemma directorySide_send_toLocalCache (node : NodeID) (msg : Msg) :
    (a.send (.toLocalCache node msg)).directorySide = a.directorySide :=
  a.directorySide_send rfl

@[simp] lemma cacheSide_modifyDirectoryData (line : Address)
    (f : DirectoryData → DirectoryData) :
    (a.modifyDirectoryData line f).cacheSide = a.cacheSide := rfl

@[simp] lemma cacheSide_setPendingMemoryRead (id : MessageID) (m : Option ReadMsg) :
    (a.setPendingMemoryRead id m).cacheSide = a.cacheSide := rfl

@[simp] lemma cacheSide_setPendingMemoryWrite (id : MessageID) (m : Option WriteMsg) :
    (a.setPendingMemoryWrite id m).cacheSide = a.cacheSide := rfl

@[simp] lemma cacheSide_stamped : a.stamped.cacheSide = a.cacheSide := rfl

lemma cacheSide_send {p : Packet} (hp : p.isLocal = false) :
    (a.send p).cacheSide = a.cacheSide := by
  simp [cacheSide, send, hp]

@[simp] lemma cacheSide_send_toCache (dest src : NodeID) {msg : Msg}
    (hmsg : ∀ m, msg ≠ .read m) :
    (a.send (.toCache dest src msg)).cacheSide = a.cacheSide := by
  refine a.cacheSide_send ?_
  cases msg <;> first | rfl | exact absurd rfl (hmsg _)

@[simp] lemma cacheSide_send_toMemory (node : NodeID) (msg : Msg) :
    (a.send (.toMemory node msg)).cacheSide = a.cacheSide :=
  a.cacheSide_send rfl

/-- The stamp of `a` is not later than that of `b`. -/
def StampLE (a b : Activation) : Prop := a.currentMsgStamp ≤ b.currentMsgStamp

lemma StampLE.trans {a b c : Activation} (hab : StampLE a b) (hbc : StampLE b c) : StampLE a c :=
  Nat.le_trans hab hbc

@[simp] lemma stampLE_refl : StampLE a a := Nat.le_refl _

variable {a} {b : Activation}

@[simp] lemma stampLE_stamped :
    StampLE a b.stamped ↔ StampLE a b ∨ b.currentMsgStamp + 1 = a.currentMsgStamp := by
  show a.currentMsgStamp ≤ b.currentMsgStamp + 1 ↔ _
  rw [Nat.le_succ_iff, StampLE, eq_comm]

@[simp] lemma stampLE_send (p : Packet) : StampLE a (b.send p) ↔ StampLE a b := Iff.rfl

@[simp] lemma stampLE_modifyCacheData (line : Address) (f : CacheData → CacheData) :
    StampLE a (b.modifyCacheData line f) ↔ StampLE a b := Iff.rfl

@[simp] lemma stampLE_modifyDirectoryData (line : Address)
    (f : DirectoryData → DirectoryData) :
    StampLE a (b.modifyDirectoryData line f) ↔ StampLE a b := Iff.rfl

@[simp] lemma stampLE_setCacheState (line : Address) (c : CacheState) :
    StampLE a (b.setCacheState line c) ↔ StampLE a b := Iff.rfl

@[simp] lemma stampLE_setPendingLocalRead (id : MessageID) (m : Option ReadMsg) :
    StampLE a (b.setPendingLocalRead id m) ↔ StampLE a b := Iff.rfl

@[simp] lemma stampLE_setPendingRemoteRead (id : MessageID) (m : Option ReadMsg) :
    StampLE a (b.setPendingRemoteRead id m) ↔ StampLE a b := Iff.rfl

@[simp] lemma stampLE_setPendingRemoteInvalidate (id : MessageID) (m : Option InvalidateMsg) :
    StampLE a (b.setPendingRemoteInvalidate id m) ↔ StampLE a b := Iff.rfl

@[simp] lemma stampLE_setPendingEviction (addr : Address) (m : Option EvictionMsg) :
    StampLE a (b.setPendingEviction addr m) ↔ StampLE a b := Iff.rfl

@[simp] lemma stampLE_setPendingMemoryRead (id : MessageID) (m : Option ReadMsg) :
    StampLE a (b.setPendingMemoryRead id m) ↔ StampLE a b := Iff.rfl

@[simp] lemma stampLE_setPendingMemoryWrite (id : MessageID) (m : Option WriteMsg) :
    StampLE a (b.setPendingMemoryWrite id m) ↔ StampLE a b := Iff.rfl

end Activation

/-- Every successful result of `x` agrees with `a` on `f` and has no earlier stamp. -/
def Frames {γ : Type*} (f : Activation → γ) (a : Activation) (x : Except Fault Activation) : Prop :=
  Ensures (fun b => f b = f a ∧ a.StampLE b) x

section

variable {γ : Type*} {f : Activation → γ} {a b : Activation} {x : Except Fault Activation}

@[simp] lemma frames_ok :
    Frames f a (.ok b) ↔ f b = f a ∧ a.StampLE b := ensures_ok

@[simp] lemma frames_pure :
    Frames f a (pure b) ↔ f b = f a ∧ a.StampLE b := ensures_ok

@[simp] lemma frames_error {e : Fault} : Frames f a (.error e) := ensures_error

@[simp] lemma frames_check_bind {e : Fault} {p : Bool} {g : PUnit → Except Fault Activation} :
    Frames f a (check e p >>= g) ↔ (p = true → Frames f a (g ⟨⟩)) := ensures_check_bind

@[simp] lemma frames_map_check {e : Fault} {p : Bool} {h : PUnit → Activation} :
    Frames f a (h <$> check e p) ↔
      (p = true → f (h ⟨⟩) = f a ∧ a.StampLE (h ⟨⟩)) :=
  ensures_map_check

lemma Frames.of_eq (h : Frames f b x) (hba : f b = f a)
    (hstamp : a.StampLE b) : Frames f a x :=
  Ensures.mono h fun _ hc => ⟨hc.1.trans hba, hstamp.trans hc.2⟩

lemma Frames.bind {g : Activation → Except Fault Activation} (hx : Frames f a x)
    (hg : ∀ b, Frames f b (g b)) : Frames f a (x >>= g) :=
  Ensures.bind hx fun b hb => (hg b).of_eq hb.1 hb.2

end

namespace Device

variable (self : Device) {a b : Activation}

/-! ## The cache side -/

section

variable (msg : Msg) (src : NodeID) (line : Address)
  {remaining : Activation → Except Fault Activation}
  (hrem : ∀ a, Frames Activation.directorySide a (remaining a))

lemma keeps_processInterventionWhileInvalid (m : InterventionMsg) :
    Frames Activation.directorySide a (self.processInterventionWhileInvalid m src a) := by
  simp [processInterventionWhileInvalid]
  split <;> simp [sendInterventionResponse, sendTransfer, sendMessageToRemoteCache,
    sendMessageToDirectory]

lemma keeps_processInvalidateWhileInvalid (m : InvalidateMsg) :
    Frames Activation.directorySide a (self.processInvalidateWhileInvalid m src a) := by
  simp [processInvalidateWhileInvalid, sendMessageToRemoteCache]

lemma keeps_sendInterventionNaks (m : InterventionMsg) :
    Frames Activation.directorySide a (self.sendInterventionNaks m a) := by
  simp [sendInterventionNaks, sendDirectoryNak, sendCacheNakIntervention, sendMessageToRemoteCache,
    sendMessageToDirectory]

lemma keeps_resendPendingRead :
    Frames Activation.directorySide a (self.resendPendingRead line a) := by
  unfold resendPendingRead
  split <;> simp [resendRequestToDirectory]

include hrem in
lemma keeps_processReadResponse (m : ReadResponseMsg) (hb : b.directorySide = a.directorySide)
    (hstamp : a.StampLE b) :
    Frames Activation.directorySide a (processReadResponse remaining m line b) := by
  simp only [processReadResponse, frames_check_bind]
  intro _
  split
  · simp
  · simp only [frames_check_bind]
    intro _
    exact (hrem _).of_eq (by simpa using hb) (by simpa using hstamp)

lemma keeps_onCacheCleanExclusive :
    Frames Activation.directorySide a (self.onCacheCleanExclusive msg src line a) := by
  unfold onCacheCleanExclusive
  split
  · simp [sendMsgToLocalCache]
  · simp [sendInterventionResponse, sendTransfer, sendMessageToRemoteCache, sendMessageToDirectory]
    split <;> simp
  · simp

lemma keeps_onCacheDirtyExclusive :
    Frames Activation.directorySide a (self.onCacheDirtyExclusive msg src line a) := by
  simp only [onCacheDirtyExclusive, frames_check_bind]
  intro _
  split
  · simp [sendMessageToDirectory]
  · simp [sendInterventionResponse, sendTransfer, sendWriteback, sendMessageToRemoteCache,
      sendMessageToDirectory]
    split <;> simp
  · simp

lemma keeps_onCacheFirstReply (isDirty : Bool) :
    Frames Activation.directorySide a (self.onCacheFirstReply isDirty line a) := by
  unfold onCacheFirstReply
  split
  · simp
  · split
    · exact self.keeps_onCacheDirtyExclusive _ _ _
    · exact self.keeps_onCacheCleanExclusive _ _ _

include hrem in
lemma keeps_onCacheExclusive :
    Frames Activation.directorySide a (self.onCacheExclusive remaining msg src line a) := by
  unfold onCacheExclusive
  split
  · simp
    split <;> simp [sendMsgToLocalCache]
  · simp only [frames_check_bind]
    intro _
    split
    · split
      · exact self.keeps_onCacheDirtyExclusive _ _ _
      · exact self.keeps_onCacheCleanExclusive _ _ _
    · simp
    · simp
  · simp only [frames_check_bind]
    exact fun _ _ _ => (self.keeps_onCacheFirstReply _ _).of_eq rfl (by simp)
  · simp only [frames_check_bind]
    exact fun _ _ _ => (self.keeps_onCacheFirstReply _ _).of_eq rfl (by simp)
  · exact keeps_processReadResponse line hrem _ rfl (by simp)
  · simp

lemma keeps_onCacheExclusiveInterventionEviction : Frames Activation.directorySide a
    (self.onCacheExclusiveInterventionEviction msg line a) := by
  unfold onCacheExclusiveInterventionEviction
  split
  · split
    · simp only [frames_check_bind, sendMsgToLocalCache, sendInterventionResponse, sendTransfer,
        sendMessageToRemoteCache, sendMessageToDirectory, bind_assoc, pure_bind]
      intros
      simp
    · simp only [frames_check_bind, sendMsgToLocalCache, sendInterventionResponse, sendTransfer,
        sendWriteback, sendMessageToRemoteCache, sendMessageToDirectory, bind_assoc, pure_bind]
      intros
      split <;> simp
    · simp
  · simp

lemma keeps_onCacheInvalid :
    Frames Activation.directorySide a (self.onCacheInvalid msg src line a) := by
  unfold onCacheInvalid
  split
  · exact self.keeps_processInterventionWhileInvalid _ _
  · simp [sendMessageToDirectory]
  · exact self.keeps_processInvalidateWhileInvalid _ _
  · simp

lemma keeps_onCacheShared :
    Frames Activation.directorySide a (self.onCacheShared msg src line a) := by
  unfold onCacheShared
  split
  · simp [sendMsgToLocalCache]
  · simp only [frames_check_bind]
    intro _
    split <;> simp [sendMessageToRemoteCache]
  · simp [sendMessageToDirectory]
  · split <;> simp [sendMsgToLocalCache]
  · simp

include hrem in
lemma keeps_onCacheExclusiveWaitingForSpeculativeReply : Frames Activation.directorySide a
    (self.onCacheExclusiveWaitingForSpeculativeReply remaining msg src line a) := by
  unfold onCacheExclusiveWaitingForSpeculativeReply
  split
  · simp only [frames_check_bind]
    intro _
    split
    · simp only [frames_check_bind]
      exact fun _ => keeps_processReadResponse line hrem _ (by simp [sendMsgToLocalCache])
        (by simp [sendMsgToLocalCache])
    · exact self.keeps_processInvalidateWhileInvalid _ _
    · simp
  · simp

include hrem in
lemma keeps_onCacheSharedWaitingForSpeculativeReply : Frames Activation.directorySide a
    (self.onCacheSharedWaitingForSpeculativeReply remaining msg src line a) := by
  unfold onCacheSharedWaitingForSpeculativeReply
  split
  · simp only [frames_check_bind]
    intro _
    split
    · simp only [frames_check_bind]
      exact fun _ => keeps_processReadResponse line hrem _ (by simp [sendMsgToLocalCache])
        (by simp [sendMsgToLocalCache])
    · exact self.keeps_processInvalidateWhileInvalid _ _
    · simp
  · simp

/-- The pending read is sent again and the line forgets its temporaries. -/
lemma keeps_resendPendingRead_bind (g : Activation → Except Fault Activation)
    (hg : ∀ b, Frames Activation.directorySide b (g b)) :
    Frames Activation.directorySide a (self.resendPendingRead line a >>= g) :=
  (self.keeps_resendPendingRead line).bind hg

include hrem in
lemma keeps_onCacheWaitingForExclusiveReadResponse : Frames Activation.directorySide a
    (self.onCacheWaitingForExclusiveReadResponse remaining msg src line a) := by
  unfold onCacheWaitingForExclusiveReadResponse
  split
  · simp
  split
  · simp only [frames_check_bind]
    intro _
    split
    · simp only [frames_check_bind]
      intro _
      split
      · exact self.keeps_resendPendingRead _
      · simp
    · simp
    · simp
  · simp [sendMsgToLocalCache]
  · split
    · simp only [frames_check_bind, sendMessageToRemoteCache, bind_assoc, pure_bind]
      intros
      split
      · exact (self.keeps_resendPendingRead _).of_eq (by simp) (by simp)
      · simp
    · simp
  · simp only [frames_check_bind]
    intros
    split
    · exact keeps_processReadResponse line hrem _ (by simp [sendMessageToLocalCache,
        sendMsgToLocalCache]) (by simp [sendMessageToLocalCache,
        sendMsgToLocalCache])
    · simp
  · simp
  · simp only [frames_check_bind]
    intro _
    split
    · simp
    · exact self.keeps_resendPendingRead_bind _ _ fun b => by simp
    · simp
  · simp
  · simp only [frames_check_bind]
    exact fun _ _ => self.keeps_sendInterventionNaks _
  · simp

include hrem in
lemma keeps_onCacheWaitingForExclusiveResponseAck : Frames Activation.directorySide a
    (self.onCacheWaitingForExclusiveResponseAck remaining msg src line a) := by
  simp only [onCacheWaitingForExclusiveResponseAck, frames_check_bind]
  intro _ _
  split
  · simp only [frames_check_bind]
    exact fun _ => keeps_processReadResponse line hrem _ (by simp [sendMsgToLocalCache])
        (by simp [sendMsgToLocalCache])
  · split
    · simp
    · simp only [frames_check_bind]
      exact fun _ => self.keeps_resendPendingRead_bind _ _ fun b => by simp
  · exact self.keeps_sendInterventionNaks _
  · exact self.keeps_processInvalidateWhileInvalid _ _
  · simp

include hrem in
lemma keeps_onCacheWaitingForIntervention : Frames Activation.directorySide a
    (self.onCacheWaitingForIntervention remaining msg line a) := by
  unfold onCacheWaitingForIntervention
  split
  · simp only [frames_check_bind]
    intro _ _
    split
    · simp only [frames_check_bind]
      exact fun _ _ => (hrem _).of_eq (by simp [sendMsgToLocalCache])
        (by simp [sendMsgToLocalCache])
    · simp
  · simp

include hrem in
lemma keeps_onCacheWaitingForKInvalidatesJInvalidatesReceived : Frames Activation.directorySide a
    (self.onCacheWaitingForKInvalidatesJInvalidatesReceived remaining msg src line a) := by
  unfold onCacheWaitingForKInvalidatesJInvalidatesReceived
  split
  · exact self.keeps_sendInterventionNaks _
  · split
    · simp
    · simp only [frames_check_bind]
      intro _ _
      split
      · exact keeps_processReadResponse line hrem _ (by simp [sendMessageToLocalCache,
          sendMsgToLocalCache]) (by simp [sendMessageToLocalCache,
        sendMsgToLocalCache])
      · simp
    · simp
  · simp only [frames_check_bind]
    intros
    split
    · exact keeps_processReadResponse line hrem _ (by simp [sendMessageToLocalCache,
        sendMsgToLocalCache]) (by simp [sendMessageToLocalCache,
        sendMsgToLocalCache])
    · simp
  · simp

include hrem in
lemma keeps_onCacheWaitingForSharedReadResponse : Frames Activation.directorySide a
    (self.onCacheWaitingForSharedReadResponse remaining msg src line a) := by
  unfold onCacheWaitingForSharedReadResponse
  split
  · simp
  split
  · simp only [frames_check_bind]
    intros
    split
    · exact self.keeps_resendPendingRead _
    · simp
  · simp only [frames_check_bind]
    exact fun _ _ => keeps_processReadResponse line hrem _ (by simp [sendMessageToLocalCache,
      sendMsgToLocalCache]) (by simp [sendMessageToLocalCache, sendMsgToLocalCache])
  · simp
  · simp only [frames_check_bind]
    intro _
    split
    · simp
    · exact self.keeps_resendPendingRead_bind _ _ fun b => by simp
    · simp
  · simp only [frames_check_bind]
    exact fun _ _ => self.keeps_sendInterventionNaks _
  · exact self.keeps_processInvalidateWhileInvalid _ _
  · simp

include hrem in
lemma keeps_onCacheWaitingForSharedResponseAck : Frames Activation.directorySide a
    (self.onCacheWaitingForSharedResponseAck remaining msg src line a) := by
  simp only [onCacheWaitingForSharedResponseAck, frames_check_bind]
  intro _ _
  split
  · simp only [frames_check_bind]
    exact fun _ => keeps_processReadResponse line hrem _ (by simp [sendMsgToLocalCache])
        (by simp [sendMsgToLocalCache])
  · split
    · simp
    · simp only [frames_check_bind]
      exact fun _ => self.keeps_resendPendingRead_bind _ _ fun b => by simp
  · exact self.keeps_sendInterventionNaks _
  · exact self.keeps_processInvalidateWhileInvalid _ _
  · simp

include hrem in
lemma keeps_onCacheWaitingForWritebackBusyAck : Frames Activation.directorySide a
    (self.onCacheWaitingForWritebackBusyAck remaining msg line a) := by
  unfold onCacheWaitingForWritebackBusyAck
  split
  · simp only [frames_check_bind]
    intro _
    split
    · simp only [frames_check_bind]
      exact fun _ _ => (hrem _).of_eq (by simp [sendMsgToLocalCache])
        (by simp [sendMsgToLocalCache])
    · simp
  · simp

include hrem in
lemma keeps_onCacheWaitingForWritebackResponse : Frames Activation.directorySide a
    (self.onCacheWaitingForWritebackResponse remaining msg src line a) := by
  simp only [onCacheWaitingForWritebackResponse, frames_check_bind]
  intro _ _ _
  split
  · simp only [frames_check_bind]
    intro _
    split
    · exact (hrem _).of_eq (by simp [sendMsgToLocalCache])
        (by simp [sendMsgToLocalCache])
    · simp
  · simp
  · simp

include hrem in
lemma keeps_onCacheWith :
    Frames Activation.directorySide a (self.onCacheWith remaining msg src line a) := by
  unfold onCacheWith
  split
  · exact self.keeps_onCacheExclusive _ _ _ hrem
  · exact self.keeps_onCacheExclusiveInterventionEviction _ _
  · exact self.keeps_onCacheExclusiveWaitingForSpeculativeReply _ _ _ hrem
  · exact self.keeps_onCacheInvalid _ _ _
  · exact self.keeps_onCacheShared _ _ _
  · exact self.keeps_onCacheSharedWaitingForSpeculativeReply _ _ _ hrem
  · exact self.keeps_onCacheWaitingForIntervention _ _ hrem
  · exact self.keeps_onCacheWaitingForExclusiveReadResponse _ _ _ hrem
  · exact self.keeps_onCacheWaitingForExclusiveResponseAck _ _ _ hrem
  · exact self.keeps_onCacheWaitingForKInvalidatesJInvalidatesReceived _ _ _ hrem
  · exact self.keeps_onCacheWaitingForSharedReadResponse _ _ _ hrem
  · exact self.keeps_onCacheWaitingForSharedResponseAck _ _ _ hrem
  · exact self.keeps_onCacheWaitingForWritebackBusyAck _ _ hrem
  · exact self.keeps_onCacheWaitingForWritebackResponse _ _ _ hrem

end

lemma keeps_processRemainingPendingLocalReads (line : Address) (n : ℕ) (a : Activation) :
    Frames Activation.directorySide a (self.processRemainingPendingLocalReads line n a) := by
  induction n generalizing a with
  | zero => simp [processRemainingPendingLocalReads]
  | succ n ih =>
    unfold processRemainingPendingLocalReads
    split
    · simp
    · exact self.keeps_onCacheWith _ _ _ ih

lemma keeps_onCache (msg : Msg) (src : NodeID) (line : Address) :
    Frames Activation.directorySide a (self.onCache msg src line a) :=
  self.keeps_onCacheWith _ _ _ (self.keeps_processRemainingPendingLocalReads _ _)

/-- The cache side leaves the directory side alone. -/
theorem keeps_recvMsgCache (msg : Msg) (src : NodeID) :
    Frames Activation.directorySide a (self.recvMsgCache msg src a) := by
  unfold recvMsgCache
  split
  · simp only [frames_check_bind]
    exact fun _ => self.keeps_onCache _ _ _
  · simp only [frames_check_bind, onCacheRead]
    intro _ _
    split
    · exact (self.keeps_onCache _ _ _).of_eq rfl (by simp)
    · simp
  · exact self.keeps_onCache _ _ _

/-! ## The directory side -/

section

variable (msg : Msg) (src : NodeID) (line : Address) (isFromMemory : Bool)

lemma keeps_sendMessageToRemoteCache (dest : NodeID) (hmsg : ∀ m, msg ≠ .read m)
    (hb : b.cacheSide = a.cacheSide)
    (hstamp : a.StampLE b) :
    Frames Activation.cacheSide a (self.sendMessageToRemoteCache msg dest b) := by
  simp [sendMessageToRemoteCache, hmsg, hb, hstamp]

lemma keeps_performMemoryReadResponseCheck (m : ReadResponseMsg) :
    Frames Activation.cacheSide a (performMemoryReadResponseCheck m src a) := by
  simp [performMemoryReadResponseCheck]

lemma keeps_sendInvalidates (m : ReadMsg) (newOwner : NodeID) (l : List NodeID)
    (hb : b.cacheSide = a.cacheSide)
    (hstamp : a.StampLE b) :
    Frames Activation.cacheSide a (self.sendInvalidates m newOwner l b) := by
  induction l generalizing b with
  | nil => simp [sendInvalidates, hb, hstamp]
  | cons dest rest ih =>
    have hsend : Frames Activation.cacheSide a (self.sendInvalidateMsg m dest newOwner b) :=
      self.keeps_sendMessageToRemoteCache _ _ (by simp) (by simpa using hb) (by simp [hstamp])
    exact Ensures.bind hsend fun c hc => ih hc.1 hc.2

lemma keeps_sendSharedReplies (l : List LookupData) (hb : b.cacheSide = a.cacheSide)
    (hstamp : a.StampLE b) :
    Frames Activation.cacheSide a (self.sendSharedReplies l b) := by
  induction l generalizing b with
  | nil => simp [sendSharedReplies, hb, hstamp]
  | cons ld rest ih =>
    have hsend : Frames Activation.cacheSide a
        (self.sendReadReply ld.msg ld.sourceNode true false true 0 b) := by
      refine self.keeps_sendMessageToRemoteCache _ _ ?_ (by simpa using hb) (by simp [hstamp])
      exact fun _ => Msg.noConfusion
    exact Ensures.bind hsend fun c hc => ih hc.1 hc.2

lemma keeps_interveneAfterMemoryAccess (m : ReadResponseMsg) (firstRequest : ReadMsg)
    (requestingExclusive : Bool) (newState : DirectoryState) :
    Frames Activation.cacheSide a (self.interveneAfterMemoryAccess m src firstRequest
      requestingExclusive newState line a) := by
  refine (keeps_performMemoryReadResponseCheck _ _).bind fun b => ?_
  simp [sendIntervention, sendSpeculativeReply, sendMessageToRemoteCache]

lemma keeps_replyAfterWritebackRequest (m : ReadResponseMsg) (firstRequest : ReadMsg)
    (secondRequest : WritebackRequestMsg) (blockAttached exclusiveOwnership satisfied : Bool)
    (newState : DirectoryState) :
    Frames Activation.cacheSide a (self.replyAfterWritebackRequest m src firstRequest
      secondRequest blockAttached exclusiveOwnership satisfied newState line a) := by
  refine (keeps_performMemoryReadResponseCheck _ _).bind fun b => ?_
  simp [sendReadReply, sendWritebackAck, sendWriteToMemory, sendMessageToRemoteCache]

lemma keeps_onDirectoryBusyExclusive :
    Frames Activation.cacheSide a (self.onDirectoryBusyExclusive msg src line a) := by
  unfold onDirectoryBusyExclusive
  dsimp only
  split
  · simp
  · simp only [frames_check_bind]
    intro _ _ _
    split <;> simp [sendCacheNak, sendWritebackAck, sendWriteToMemory, sendMessageToRemoteCache]

lemma keeps_onDirectoryBusyExclusiveMemoryAccess : Frames Activation.cacheSide a
    (self.onDirectoryBusyExclusiveMemoryAccess msg src line isFromMemory a) := by
  unfold onDirectoryBusyExclusiveMemoryAccess
  dsimp only
  split
  · simp
  · simp only [frames_check_bind]
    intro _ _ _ _
    split
    · simp
    · simp [sendCacheNak, sendMessageToRemoteCache]
    · split
      · exact self.keeps_interveneAfterMemoryAccess _ _ _ _ _ _
      · simp
    · simp

lemma keeps_onDirectoryBusyExclusiveMemoryAccessWritebackRequest : Frames Activation.cacheSide a
    (self.onDirectoryBusyExclusiveMemoryAccessWritebackRequest msg src line isFromMemory a) := by
  unfold onDirectoryBusyExclusiveMemoryAccessWritebackRequest
  dsimp only
  split
  · simp only [frames_check_bind]
    intro _ _
    split
    · simp [sendCacheNak, sendMessageToRemoteCache]
    · split
      · exact self.keeps_replyAfterWritebackRequest _ _ _ _ _ _ _ _ _
      · simp
    · simp
  · simp

lemma keeps_onDirectoryBusyShared :
    Frames Activation.cacheSide a (self.onDirectoryBusyShared msg src line a) := by
  unfold onDirectoryBusyShared
  dsimp only
  split
  · simp
  · simp only [frames_check_bind]
    intro _ _
    split <;> simp [sendCacheNak, sendWritebackAck, sendWriteToMemory, sendMessageToRemoteCache]

lemma keeps_onDirectoryBusySharedMemoryAccess : Frames Activation.cacheSide a
    (self.onDirectoryBusySharedMemoryAccess msg src line isFromMemory a) := by
  unfold onDirectoryBusySharedMemoryAccess
  dsimp only
  split
  · simp
  · simp only [frames_check_bind]
    intro _ _ _
    split
    · split
      · exact self.keeps_interveneAfterMemoryAccess _ _ _ _ _ _
      · simp
    · split <;> simp [sendCacheNak, sendMessageToRemoteCache]

lemma keeps_onDirectoryBusySharedMemoryAccessWritebackRequest : Frames Activation.cacheSide a
    (self.onDirectoryBusySharedMemoryAccessWritebackRequest msg src line isFromMemory a) := by
  unfold onDirectoryBusySharedMemoryAccessWritebackRequest
  dsimp only
  split
  · simp only [frames_check_bind]
    intro _ _
    split
    · simp [sendCacheNak, sendMessageToRemoteCache]
    · split
      · exact self.keeps_replyAfterWritebackRequest _ _ _ _ _ _ _ _ _
      · simp
    · simp
  · simp

lemma keeps_onDirectoryExclusive :
    Frames Activation.cacheSide a (self.onDirectoryExclusive msg src line a) := by
  simp only [onDirectoryExclusive, frames_check_bind]
  intro _ _ _
  split
  · split
    · simp [sendReadToMemory]
    · split <;> simp [sendReadToMemory]
  · simp [sendWritebackAck, sendWriteToMemory, sendMessageToRemoteCache]
  · simp

lemma keeps_onDirectoryExclusiveMemoryAccess : Frames Activation.cacheSide a
    (self.onDirectoryExclusiveMemoryAccess msg src line isFromMemory a) := by
  unfold onDirectoryExclusiveMemoryAccess
  dsimp only
  split
  · simp
  · simp only [frames_check_bind]
    intro _
    split
    · simp [sendCacheNak, sendMessageToRemoteCache]
    · split <;> simp [sendReadReply, sendMessageToRemoteCache]
    · simp

lemma keeps_onDirectoryShared :
    Frames Activation.cacheSide a (self.onDirectoryShared msg src line a) := by
  simp only [onDirectoryShared, frames_check_bind]
  intro _ _ _ _ _
  split
  · split
    · simp [sendReadToMemory]
    · split
      · simp [sendReadToMemory]
      · simp only [frames_check_bind]
        intro _
        refine (self.keeps_sendInvalidates _ _ _ (by simp) (by simp)).bind fun b => ?_
        simp [sendReadReply, sendMessageToRemoteCache]
  · simp

lemma keeps_onDirectorySharedExclusiveMemoryAccess : Frames Activation.cacheSide a
    (self.onDirectorySharedExclusiveMemoryAccess msg src line isFromMemory a) := by
  unfold onDirectorySharedExclusiveMemoryAccess
  dsimp only
  split
  · simp
  · simp only [frames_check_bind]
    intro _
    split
    · split
      · refine (keeps_performMemoryReadResponseCheck _ _).bind fun b => ?_
        refine (self.keeps_sendInvalidates _ _ _ (by simp) (by simp)).bind fun c => ?_
        simp [sendReadReply, sendMessageToRemoteCache]
      · simp
    · split <;> simp [sendCacheNak, sendMessageToRemoteCache]

lemma keeps_onDirectorySharedMemoryAccess : Frames Activation.cacheSide a
    (self.onDirectorySharedMemoryAccess msg src line isFromMemory a) := by
  simp only [onDirectorySharedMemoryAccess, frames_check_bind]
  intro _ _
  split
  · split <;> simp [sendCacheNak, sendMessageToRemoteCache]
  · split
    · refine (keeps_performMemoryReadResponseCheck _ _).bind fun b => ?_
      refine (self.keeps_sendSharedReplies _ (by simp) (by simp)).bind fun c => ?_
      simp
    · simp
  · simp

lemma keeps_onDirectoryUnowned :
    Frames Activation.cacheSide a (self.onDirectoryUnowned msg src line a) := by
  simp only [onDirectoryUnowned, frames_check_bind]
  intro _ _
  split <;> simp [sendReadToMemory]

lemma keeps_onDirectory :
    Frames Activation.cacheSide a (self.onDirectory msg src line isFromMemory a) := by
  unfold onDirectory
  split
  · exact self.keeps_onDirectoryBusyExclusiveMemoryAccess _ _ _ _
  · exact self.keeps_onDirectoryBusyExclusive _ _ _
  · exact self.keeps_onDirectoryBusyExclusiveMemoryAccessWritebackRequest _ _ _ _
  · exact self.keeps_onDirectoryBusyShared _ _ _
  · exact self.keeps_onDirectoryBusySharedMemoryAccess _ _ _ _
  · exact self.keeps_onDirectoryBusySharedMemoryAccessWritebackRequest _ _ _ _
  · exact self.keeps_onDirectoryExclusiveMemoryAccess _ _ _ _
  · exact self.keeps_onDirectoryExclusive _ _ _
  · exact self.keeps_onDirectoryShared _ _ _
  · exact self.keeps_onDirectorySharedExclusiveMemoryAccess _ _ _ _
  · exact self.keeps_onDirectorySharedMemoryAccess _ _ _ _
  · exact self.keeps_onDirectoryUnowned _ _ _
  · simp

/-- The directory side leaves the cache side alone. -/
theorem keeps_recvMsgDirectory :
    Frames Activation.cacheSide a (self.recvMsgDirectory msg src isFromMemory a) := by
  unfold recvMsgDirectory
  split
  case h_6 => simp [performMemoryWriteResponseCheck]
  case h_7 => exact self.keeps_onDirectory _ _ _ _
  all_goals
    simp only [frames_check_bind]
    exact fun _ => self.keeps_onDirectory _ _ _ _

end

end Device

end Sesc.Origin
