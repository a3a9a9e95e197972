import Mathlib.Data.List.Count
import Mathlib.Data.List.Perm.Lattice
import Sesc.Origin.LocalReads

/-!
# No local read is lost

Every read that a local cache has sent is on its way to its `OriginDirectory`, recorded
there, or has been answered once.  A read is lost if and only if it reaches a line in
`cs_Exclusive`, or is still pending when its line becomes exclusive through the answer to
another read.
-/

namespace Sesc.Origin

open Lib

/-- The reads that the local cache of a node has sent. -/
def System.localReads (s : System) (n : NodeID) : List ReadMsg :=
  ofNode n (s.log.filterMap Packet.localRead)

/-- The reads of a node that have not reached its `OriginDirectory`. -/
def System.flyingReads (s : System) (n : NodeID) : List ReadMsg :=
  ofNode n (s.flight.filterMap Packet.localRead)

/-- The identifiers of the reads that the `OriginDirectory` of a node has answered. -/
def System.readAnswers (s : System) (n : NodeID) : List MessageID :=
  ofNode n (s.log.filterMap Packet.localAnswer)

/-- The read is on its way to the `OriginDirectory` or pending there. -/
def ReadRecorded (s : System) (n : NodeID) (m : ReadMsg) : Prop :=
  Packet.fromLocalCache n (.read m) ∈ s.flight ∨
    (s.nodes n).pendingLocalReads m.msgID = some m ∧
      m ∈ ((s.nodes n).cacheDataMap m.addr).cacheDataPendingLocalReads

/-- The read is recorded and has no answer, or has exactly one answer. -/
def ReadKept (s : System) (n : NodeID) (m : ReadMsg) : Prop :=
  ReadRecorded s n m ∧ (s.readAnswers n).count m.msgID = 0 ∨
    ¬ReadRecorded s n m ∧ (s.readAnswers n).count m.msgID = 1

/-- Whether the line loses a read when it gets the message. -/
def CacheData.losesRead (c : CacheData) (msg : Msg) : Bool :=
  match msg with
  | .read _ => c.cacheState = .exclusive
  | _ => c.grantsExclusive msg && decide (2 ≤ c.cacheDataPendingLocalReads.length)

/-- Whether a read is lost when the packet is delivered to the given device. -/
def Packet.losesRead (p : Packet) (d : OriginDirectory) : Bool :=
  match p with
  | toCache _ _ msg => (d.cacheDataMap msg.getAddress).losesRead msg
  | fromLocalCache _ msg => (d.cacheDataMap msg.getAddress).losesRead msg
  | _ => false

/-- A read is delivered to an exclusive line of the node `n`, or a line of this node becomes
exclusive while two of its reads are pending. -/
def LosesRead (n : NodeID) (s : System) (e : Event) : Prop :=
  ∃ k dirty p, e = .deliver k dirty ∧ s.flight[k]? = some p ∧ p.node = n ∧
    p.losesRead (s.nodes n) = true

/-! ## The accounts of a node -/

/-- The two records of a device agree with the list of reads that wait. -/
structure WaitingReads (table : MessageID → Option ReadMsg) (lists : Address → List ReadMsg)
    (waiting : List ReadMsg) : Prop where
  table_iff : ∀ id m, table id = some m ↔ m ∈ waiting ∧ m.msgID = id
  perm : ∀ line, (lists line).Perm (waiting.filter fun m => m.addr = line)

namespace WaitingReads

variable {table : MessageID → Option ReadMsg} {lists : Address → List ReadMsg}
  {waiting : List ReadMsg}

lemma arrive (h : WaitingReads table lists waiting) {m : ReadMsg}
    (hfresh : table m.msgID = none) :
    WaitingReads (Function.update table m.msgID (some m))
      (Function.update lists m.addr (lists m.addr ++ [m])) (m :: waiting) where
  table_iff id m' := by
    have hnew : ∀ r ∈ waiting, r.msgID ≠ m.msgID := by
      intro r hr hid
      have := (h.table_iff m.msgID r).2 ⟨hr, hid⟩
      rw [hfresh] at this
      cases this
    by_cases hid : id = m.msgID
    · subst hid
      rw [Function.update_self, Option.some.injEq, List.mem_cons]
      constructor
      · rintro rfl
        exact ⟨.inl rfl, rfl⟩
      · rintro ⟨rfl | hr, hr'⟩
        · rfl
        · exact absurd hr' (hnew _ hr)
    · rw [Function.update_of_ne hid, h.table_iff, List.mem_cons]
      constructor
      · rintro ⟨hr, rfl⟩
        exact ⟨.inr hr, rfl⟩
      · rintro ⟨rfl | hr, rfl⟩
        · exact absurd rfl hid
        · exact ⟨hr, rfl⟩
  perm line := by
    by_cases hline : line = m.addr
    · subst hline
      rw [Function.update_self, List.filter_cons_of_pos (by simp)]
      exact (List.perm_append_singleton _ _).trans ((h.perm _).cons _)
    · rw [Function.update_of_ne hline, List.filter_cons_of_neg (by simpa using Ne.symm hline)]
      exact h.perm line

/-- The reads `gone` are struck out of the list of their line and of the table. -/
lemma consume (h : WaitingReads table lists waiting) (hnodup : (waiting.map ReadMsg.msgID).Nodup)
    {line : Address} {gone left : List ReadMsg} (hsplit : lists line = gone ++ left) :
    ∃ waiting', waiting.Perm (gone ++ waiting') ∧
      WaitingReads (eraseReads gone table) (Function.update lists line left) waiting' := by
  have hperm : waiting.Perm (gone ++ (left ++ waiting.filter fun m => !decide (m.addr = line))) := by
    have hline := h.perm line
    rw [hsplit] at hline
    rw [← List.append_assoc]
    exact (List.filter_append_perm (fun m => decide (m.addr = line)) waiting).symm.trans
      (hline.symm.append_right _)
  have hleft : ∀ m ∈ left, m.addr = line := by
    intro m hm
    have hmem : m ∈ lists line := by simp [hsplit, hm]
    simpa using (List.mem_filter.1 ((h.perm line).mem_iff.1 hmem)).2
  refine ⟨_, hperm, fun id m => ?_, fun addr => ?_⟩
  · rw [eraseReads_apply]
    have hids := (hperm.map ReadMsg.msgID).nodup_iff.1 hnodup
    rw [List.map_append, List.nodup_append', List.disjoint_left] at hids
    obtain ⟨-, -, hdisj⟩ := hids
    split
    · rename_i hgone
      refine iff_of_false nofun ?_
      rintro ⟨hm, rfl⟩
      exact hdisj hgone (List.mem_map_of_mem hm)
    · rename_i hgone
      rw [h.table_iff, hperm.mem_iff, List.mem_append]
      constructor
      · rintro ⟨hm | hm, rfl⟩
        · exact absurd (List.mem_map_of_mem hm) hgone
        · exact ⟨hm, rfl⟩
      · rintro ⟨hm, rfl⟩
        exact ⟨.inr hm, rfl⟩
  · by_cases haddr : addr = line
    · subst haddr
      rw [Function.update_self, List.filter_append, List.filter_eq_self.2 (by simpa using hleft),
        List.filter_filter]
      simp
    · rw [Function.update_of_ne haddr, List.filter_append, List.filter_filter]
      have hnil : left.filter (fun m => decide (m.addr = addr)) = [] := by
        rw [List.filter_eq_nil_iff]
        intro m hm
        rw [hleft m hm]
        simpa using Ne.symm haddr
      rw [hnil, List.nil_append]
      refine (h.perm addr).trans (.of_eq (List.filter_congr fun m _ => ?_))
      by_cases hm : m.addr = addr
      · simp [hm, haddr]
      · simp [hm]

end WaitingReads

/-- The reads of a node are in flight, waiting, answered or lost. -/
structure ReadAccounts (s : System) (n : NodeID) (waiting answered lost : List ReadMsg) :
    Prop where
  reads : (s.localReads n).Perm (s.flyingReads n ++ (waiting ++ (answered ++ lost)))
  nodup : ((s.localReads n).map ReadMsg.msgID).Nodup
  stamps : ∀ m ∈ s.localReads n, m.msgID < s.currentMsgStamp
  answers : s.readAnswers n = answered.map ReadMsg.msgID
  records : WaitingReads (s.nodes n).pendingLocalReads
    (fun line => ((s.nodes n).cacheDataMap line).cacheDataPendingLocalReads) waiting

namespace ReadAccounts

variable {s : System} {n : NodeID} {waiting answered lost : List ReadMsg}

lemma new : ReadAccounts .new n [] [] [] where
  reads := .refl _
  nodup := List.nodup_nil
  stamps _ h := absurd h List.not_mem_nil
  answers := rfl
  records :=
    { table_iff := fun _ _ => iff_of_false nofun fun h => List.not_mem_nil h.1
      perm := fun _ => .refl _ }

/-- The identifiers of the reads in the four parts are different. -/
lemma nodup_parts (h : ReadAccounts s n waiting answered lost) :
    ((s.flyingReads n ++ (waiting ++ (answered ++ lost))).map ReadMsg.msgID).Nodup :=
  (h.reads.map _).nodup_iff.1 h.nodup

lemma recorded_iff (h : ReadAccounts s n waiting answered lost) (m : ReadMsg) :
    ReadRecorded s n m ↔ m ∈ s.flyingReads n ∨ m ∈ waiting := by
  have hflight : Packet.fromLocalCache n (.read m) ∈ s.flight ↔ m ∈ s.flyingReads n := by
    rw [System.flyingReads, mem_ofNode, List.mem_filterMap]
    constructor
    · intro hp
      exact ⟨_, hp, rfl⟩
    · rintro ⟨p, hp, hread⟩
      unfold Packet.localRead at hread
      split at hread <;> cases hread
      exact hp
  rw [ReadRecorded, hflight, h.records.table_iff, (h.records.perm m.addr).mem_iff,
    List.mem_filter]
  simp

/-- All reads are kept when none is lost, and a lost read is not kept. -/
lemma kept_iff (h : ReadAccounts s n waiting answered lost) :
    (∀ m ∈ s.localReads n, ReadKept s n m) ↔ lost = [] := by
  have hnodup := h.nodup_parts
  simp only [List.map_append, List.nodup_append', List.disjoint_left, List.mem_append] at hnodup
  obtain ⟨-, ⟨-, ⟨hanswered, -, hal⟩, hw⟩, hf⟩ := hnodup
  have hmem : ∀ {l : List ReadMsg} {m}, m ∈ l → m.msgID ∈ l.map ReadMsg.msgID :=
    fun hm => List.mem_map_of_mem hm
  constructor
  · intro hkept
    rw [List.eq_nil_iff_forall_not_mem]
    intro m hm
    have hcount : (s.readAnswers n).count m.msgID = 0 := by
      rw [h.answers, List.count_eq_zero]
      exact fun ha => hal ha (hmem hm)
    have hlocal : m ∈ s.localReads n := by
      rw [h.reads.mem_iff]
      simp [hm]
    rcases hkept m hlocal with ⟨hrec, -⟩ | ⟨-, hone⟩
    · rcases (h.recorded_iff m).1 hrec with hfly | hwait
      · exact hf (hmem hfly) (.inr (.inr (hmem hm)))
      · exact hw (hmem hwait) (.inr (hmem hm))
    · omega
  · rintro rfl m hm
    rw [h.reads.mem_iff, List.append_nil, List.mem_append, List.mem_append] at hm
    rcases hm with hfly | hwait | hans
    · refine .inl ⟨(h.recorded_iff m).2 (.inl hfly), ?_⟩
      rw [h.answers, List.count_eq_zero]
      exact fun ha => hf (hmem hfly) (.inr (.inl ha))
    · refine .inl ⟨(h.recorded_iff m).2 (.inr hwait), ?_⟩
      rw [h.answers, List.count_eq_zero]
      exact fun ha => hw (hmem hwait) (.inl ha)
    · refine .inr ⟨fun hrec => ?_, ?_⟩
      · rcases (h.recorded_iff m).1 hrec with hfly | hwait
        · exact hf (hmem hfly) (.inr (.inl (hmem hans)))
        · exact hw (hmem hwait) (.inl (hmem hans))
      · rw [h.answers, List.count_eq_one_of_mem hanswered (hmem hans)]

end ReadAccounts

/-! ## The handlers -/

section

open Activation

/-- The read that a packet brings has been recorded. -/
def Packet.arrive (p : Packet) (a : Activation) : Activation :=
  match p with
  | fromLocalCache _ (.read m) => Device.recordRead m a
  | _ => a

variable {p : Packet} {a a' : Activation}

/-- What the handler for a packet does to the local reads of its node. -/
structure ReadsEffect (p : Packet) (a a' : Activation) (line : Address)
    (answered lost left : List ReadMsg) : Prop where
  fresh : ∀ n m, p.localRead = some (n, m) → a.dir.pendingLocalReads m.msgID = none
  consumes : Consumes p.node line answered lost left (p.arrive a) a'
  lost_iff : lost = [] ↔ p.losesRead a.dir = false

lemma readsEffect_of_keeps (h : readsView a' = readsView a) (hp : p.localRead = none)
    (harrive : p.arrive a = a) (hloses : p.losesRead a.dir = false) (line : Address) :
    ReadsEffect p a a' line [] [] (a.pendingReads line) where
  fresh _ _ hread := nomatch hp.symm.trans hread
  consumes := harrive.symm ▸ consumes_nil h
  lost_iff := iff_of_true rfl hloses

/-- A message of the line other than a read. -/
lemma readsEffect_of_lineEffect {msg : Msg} {line : Address} (h : LineEffect p.node line msg a a')
    (hmsg : ∀ m, msg ≠ .read m) (hp : p.localRead = none) (harrive : p.arrive a = a)
    (hloses : p.losesRead a.dir = (a.cacheData line).losesRead msg) :
    ∃ answered lost left, ReadsEffect p a a' line answered lost left := by
  have hloses : p.losesRead a.dir = ((a.cacheData line).grantsExclusive msg &&
      decide (2 ≤ (a.pendingReads line).length)) := by
    rw [hloses]
    cases msg <;> first | exact absurd rfl (hmsg _) | rfl
  rcases h with ⟨hview, hgrants⟩ | ⟨ref, rest, hlist, hcons⟩
  · exact ⟨_, _, _, readsEffect_of_keeps hview hp harrive (by rw [hloses, hgrants]; rfl) line⟩
  · refine ⟨[ref], if (a.cacheData line).grantsExclusive msg then rest else [], _,
      ⟨fun _ _ hread => ?_, by rw [harrive]; exact hcons, ?_⟩⟩
    · exact nomatch hp.symm.trans hread
    · rw [hloses, hlist, List.length_cons]
      cases (a.cacheData line).grantsExclusive msg
      · exact iff_of_true rfl rfl
      · cases rest <;> simp

lemma readsEffect_recvMsgCache {self : Device} {msg : Msg} {src : NodeID}
    (h : self.recvMsgCache msg src a = .ok a') (hmsg : ∀ m, msg ≠ .read m)
    (hnode : p.node = self.nodeID) (hp : p.localRead = none) (harrive : p.arrive a = a)
    (hloses : p.losesRead a.dir = (a.cacheData msg.getAddress).losesRead msg) :
    ∃ line answered lost left, ReadsEffect p a a' line answered lost left := by
  have hline : LineEffect self.nodeID msg.getAddress msg a a' := by
    refine self.lineEffect_onCache msg src _ hmsg a' ?_
    cases msg with
    | read m => exact absurd rfl (hmsg m)
    | eviction m => exact (check_bind_eq_ok.1 h).2
    | _ => exact h
  rw [← hnode] at hline
  exact ⟨_, readsEffect_of_lineEffect hline hmsg hp harrive hloses⟩

lemma readsEffect_read {self : Device} {m : ReadMsg} {src : NodeID}
    (h : self.recvMsgCache (.read m) src a = .ok a') :
    ∃ line answered lost left,
      ReadsEffect (.fromLocalCache self.nodeID (.read m)) a a' line answered lost left := by
  obtain ⟨-, h⟩ := check_bind_eq_ok.1 h
  obtain ⟨hfresh, heffect⟩ := self.ensures_onCacheRead m a' h
  have hfresh : ∀ n m', (Packet.fromLocalCache self.nodeID (.read m)).localRead = some (n, m') →
      a.dir.pendingLocalReads m'.msgID = none := by
    rintro n m' ⟨⟩
    exact hfresh
  have hstate : (Device.recordRead m a).lineState m.addr = (a.cacheData m.addr).cacheState := by
    rw [lineState, Device.recordRead, cacheData_modifyCacheData]
    rfl
  have hlist : (Device.recordRead m a).pendingReads m.addr = a.pendingReads m.addr ++ [m] := by
    rw [Device.recordRead, pendingReads_modifyCacheData, Function.update_self]
    rfl
  have hloses : (Packet.fromLocalCache self.nodeID (.read m)).losesRead a.dir =
      decide ((a.cacheData m.addr).cacheState = .exclusive) := rfl
  rw [RemainingEffect, hstate] at heffect
  split at heffect
  · rename_i hex
    refine ⟨m.addr, _, _, _, hfresh, heffect, ?_⟩
    rw [hloses, hlist, decide_eq_true hex]
    simp
  · rename_i hex
    refine ⟨m.addr, _, _, _, hfresh, consumes_nil heffect, ?_⟩
    rw [hloses, decide_eq_false hex]
    exact iff_of_true rfl rfl

lemma readsView_of_cacheSide (h : a'.cacheSide = a.cacheSide) : readsView a' = readsView a := by
  simp only [cacheSide, Prod.mk.injEq] at h
  obtain ⟨hmap, htable, -, -, -, hsent⟩ := h
  have hlocal : ∀ {β : Type} {f : Packet → Option β} {l : List Packet},
      (∀ p, p.isLocal = false → f p = none) → l.filterMap f = (l.filter Packet.isLocal).filterMap f := by
    intro β f l hf
    rw [List.filterMap_filter]
    refine congrFun (congrArg _ (funext fun p => ?_)) l
    cases hp : p.isLocal
    · rw [hf p hp]
      rfl
    · rfl
  have hanswers : sentAnswers a' = sentAnswers a := by
    have hnone : ∀ p : Packet, p.isLocal = false → p.localAnswer = none := by
      intro p hp
      cases p <;> first | rfl | cases hp
    rw [sentAnswers, sentAnswers, hlocal hnone, hsent, ← hlocal hnone]
  have hreads : a'.sent.filter Packet.isCacheRead = a.sent.filter Packet.isCacheRead := by
    have himp : ∀ l : List Packet, l.filter Packet.isCacheRead =
        (l.filter Packet.isLocal).filter Packet.isCacheRead := by
      intro l
      rw [List.filter_filter]
      refine congrFun (congrArg _ (funext fun p => ?_)) l
      cases p <;> first | rfl | (rename_i msg; cases msg <;> rfl)
    rw [himp, hsent, ← himp]
  have hlists : a'.pendingReads = a.pendingReads := by
    funext line
    rw [pendingReads, pendingReads, cacheData, cacheData, hmap]
  rw [readsView, readsView, htable, hlists, hanswers, hreads]

/-- The effect of the handler for any packet other than a read from another node. -/
lemma readsEffect_recvMsg {cfg : Config} {dirty : Bool} (h : cfg.recvMsg p dirty a = .ok a')
    (hp : ∀ dest src m, p ≠ .toCache dest src (.read m)) :
    ∃ line answered lost left, ReadsEffect p a a' line answered lost left := by
  cases p with
  | toCache dest src msg =>
    have h : (cfg.device dest).recvMsgCache msg src a = .ok a' := h
    exact readsEffect_recvMsgCache h (fun m hm => hp dest src m (hm ▸ rfl)) rfl rfl rfl rfl
  | fromLocalCache n msg =>
    have h : (cfg.device n).recvMsgCache msg InvalidNodeID a = .ok a' := h
    by_cases hmsg : ∃ m, msg = .read m
    · obtain ⟨m, rfl⟩ := hmsg
      exact readsEffect_read h
    · have hmsg : ∀ m, msg ≠ .read m := fun m hm => hmsg ⟨m, hm⟩
      refine readsEffect_recvMsgCache h hmsg rfl ?_ ?_ rfl
      · cases msg <;> first | rfl | exact absurd rfl (hmsg _)
      · cases msg <;> first | rfl | exact absurd rfl (hmsg _)
  | toDirectory dest src msg =>
    have hkeeps := ((cfg.device dest).keeps_recvMsgDirectory msg src false a' h).1
    exact ⟨0, _, _, _, readsEffect_of_keeps (readsView_of_cacheSide hkeeps) rfl rfl rfl 0⟩
  | fromMemory n msg =>
    have hkeeps := ((cfg.device n).keeps_recvMsgDirectory msg InvalidNodeID true a' h).1
    exact ⟨0, _, _, _, readsEffect_of_keeps (readsView_of_cacheSide hkeeps) rfl rfl rfl 0⟩
  | toLocalCache n msg =>
    have hkeeps : readsView a' = readsView a := by
      have h : localCacheRecvMsg n msg dirty a = .ok a' := h
      unfold localCacheRecvMsg at h
      split at h <;> cases h
      · exact a.stamped.readsView_send rfl rfl
      · exact a.stamped.readsView_send rfl rfl
      · rfl
    exact ⟨0, _, _, _, readsEffect_of_keeps hkeeps rfl rfl rfl 0⟩
  | toMemory n msg =>
    have hkeeps : readsView a' = readsView a := by
      have h : testMemoryRecvMsg n msg a = .ok a' := h
      unfold testMemoryRecvMsg at h
      split at h <;> cases h <;> exact a.stamped.readsView_send rfl rfl
    exact ⟨0, _, _, _, readsEffect_of_keeps hkeeps rfl rfl rfl 0⟩

end

/-! ## The steps -/

section

open Activation

variable {cfg : Config} {s s' : System} {e : Event} {n : NodeID} {p : Packet} {a : Activation}
  {k : ℕ}

/-- No packet in flight brings a read of another node to a cache side. -/
def NoForeignReads (s : System) : Prop :=
  ∀ dest src m, Packet.toCache dest src (.read m) ∉ s.flight

lemma stampLE_recvMsg {dirty : Bool} {a a' : Activation} (h : cfg.recvMsg p dirty a = .ok a') :
    a.StampLE a' := by
  cases p with
  | toCache dest src msg => exact ((cfg.device dest).keeps_recvMsgCache msg src a' h).2
  | fromLocalCache n msg => exact ((cfg.device n).keeps_recvMsgCache msg _ a' h).2
  | toDirectory dest src msg =>
    exact ((cfg.device dest).keeps_recvMsgDirectory msg src false a' h).2
  | fromMemory n msg => exact ((cfg.device n).keeps_recvMsgDirectory msg _ true a' h).2
  | toLocalCache n msg =>
    have h : localCacheRecvMsg n msg dirty a = .ok a' := h
    unfold localCacheRecvMsg at h
    split at h <;> cases h <;> simp
  | toMemory n msg =>
    have h : testMemoryRecvMsg n msg a = .ok a' := h
    unfold testMemoryRecvMsg at h
    split at h <;> cases h <;> simp

lemma sent_arrive : (p.arrive a).sent = a.sent := by
  unfold Packet.arrive
  split <;> rfl

lemma node_eq_of_localRead {q : NodeID × ReadMsg} (h : p.localRead = some q) : q.1 = p.node := by
  unfold Packet.localRead at h
  split at h
  · cases h
    rfl
  · cases h

/-- A handler sends no reads to a cache side. -/
lemma ReadsEffect.not_mem_sent {line : Address} {answered lost left : List ReadMsg}
    (h : ReadsEffect p (s.activation p.node) a line answered lost left) :
    ∀ q ∈ a.sent, q.isCacheRead = false := by
  have hnil := h.consumes.requests
  rw [sent_arrive] at hnil
  intro q hq
  by_contra hread
  exact List.filter_eq_nil_iff.1 hnil q hq (by simpa using hread)

lemma ReadsEffect.sentAnswers_eq {line : Address} {answered lost left : List ReadMsg}
    (h : ReadsEffect p (s.activation p.node) a line answered lost left) :
    sentAnswers a = answered.map fun m => (p.node, m.msgID) := by
  rw [h.consumes.answers, sentAnswers, sent_arrive]
  rfl

lemma filterMap_localRead_eq_nil {l : List Packet} (h : ∀ q ∈ l, q.isCacheRead = false) :
    l.filterMap Packet.localRead = [] := by
  refine List.filterMap_eq_nil_iff.2 fun q hq => ?_
  have := h q hq
  unfold Packet.localRead
  split
  · cases this
  · rfl

/-- The local reads of a node are those before the delivery: no handler sends any. -/
lemma localReads_commit {line : Address} {answered lost left : List ReadMsg}
    (h : ReadsEffect p (s.activation p.node) a line answered lost left) (flight : List Packet) :
    (s.commit p.node flight a).localReads n = s.localReads n := by
  rw [System.localReads, System.commit, ofNode_append_filterMap,
    filterMap_localRead_eq_nil h.not_mem_sent, ofNode_nil, List.append_nil]
  rfl

lemma flyingReads_commit {line : Address} {answered lost left : List ReadMsg}
    (h : ReadsEffect p (s.activation p.node) a line answered lost left)
    (hk : s.flight[k]? = some p) :
    (s.flyingReads n).Perm (ofNode n p.localRead.toList ++
      (s.commit p.node (s.flight.eraseIdx k) a).flyingReads n) := by
  rw [System.flyingReads, System.flyingReads, System.commit, ofNode_append_filterMap,
    filterMap_localRead_eq_nil h.not_mem_sent, ofNode_nil, List.append_nil]
  exact ofNode_flight_perm _ hk

lemma NoForeignReads.step (h : NoForeignReads s) (hs : (machine cfg).step s e = .ok s') :
    NoForeignReads s' := by
  rcases step_eq_ok hs with ⟨node, addr, _, _, rfl, _, rfl⟩ | ⟨node, addr, _, rfl, _, rfl⟩ |
    ⟨k, dirty, p, a, rfl, hk, ha, rfl⟩
  · intro dest src m hm
    rcases List.mem_append.1 hm with hm | hm
    · exact h _ _ _ hm
    · cases List.mem_singleton.1 hm
  · intro dest src m hm
    rcases List.mem_append.1 hm with hm | hm
    · exact h _ _ _ hm
    · cases List.mem_singleton.1 hm
  · have hp : ∀ dest src m, p ≠ .toCache dest src (.read m) := by
      rintro dest src m rfl
      exact h _ _ _ (List.mem_of_getElem? hk)
    obtain ⟨line, answered, lost, left, heffect⟩ := readsEffect_recvMsg ha hp
    intro dest src m hm
    rcases List.mem_append.1 hm with hm | hm
    · exact h _ _ _ (List.mem_of_mem_eraseIdx hm)
    · cases heffect.not_mem_sent _ hm

/-- The waiting reads after the read of a packet has arrived. -/
lemma WaitingReads.arrive_packet {waiting : List ReadMsg}
    (h : WaitingReads a.dir.pendingLocalReads a.pendingReads waiting)
    (hfresh : ∀ n m, p.localRead = some (n, m) → a.dir.pendingLocalReads m.msgID = none) :
    WaitingReads (p.arrive a).dir.pendingLocalReads (p.arrive a).pendingReads
      (ofNode p.node p.localRead.toList ++ waiting) := by
  cases hp : p.localRead with
  | none =>
    have harrive : p.arrive a = a := by
      unfold Packet.arrive
      split
      · cases hp
      · rfl
    rw [harrive]
    exact h
  | some q =>
    obtain ⟨node, m⟩ := q
    unfold Packet.localRead at hp
    split at hp <;> cases hp
    have hlists : (Device.recordRead m a).pendingReads =
        Function.update a.pendingReads m.addr (a.pendingReads m.addr ++ [m]) := by
      rw [Device.recordRead, pendingReads_modifyCacheData]
      rfl
    have hone : ofNode (Packet.fromLocalCache node (.read m)).node
        (some (node, m)).toList = [m] := ofNode_singleton node m
    rw [hone, Packet.arrive, hlists]
    exact h.arrive (hfresh _ _ rfl)

/-- What a delivery does to the accounts of its node. -/
lemma ReadAccounts.commit_self {waiting answered lost : List ReadMsg} {line : Address}
    {answered' lost' left : List ReadMsg} (h : ReadAccounts s p.node waiting answered lost)
    (hk : s.flight[k]? = some p) (hstamp : (s.activation p.node).StampLE a)
    (heffect : ReadsEffect p (s.activation p.node) a line answered' lost' left) :
    ∃ waiting', ReadAccounts (s.commit p.node (s.flight.eraseIdx k) a) p.node waiting'
      (answered ++ answered') (lost ++ lost') := by
  have hfly := flyingReads_commit (n := p.node) heffect hk
  have hlocal := localReads_commit (n := p.node) heffect (s.flight.eraseIdx k)
  have hrecords := WaitingReads.arrive_packet (p := p) (a := s.activation p.node) h.records
    heffect.fresh
  generalize ofNode p.node p.localRead.toList = arrived at hfly hrecords
  have hreads : (s.localReads p.node).Perm ((arrived ++ waiting) ++
      ((s.commit p.node (s.flight.eraseIdx k) a).flyingReads p.node ++ (answered ++ lost))) := by
    rw [List.perm_iff_count]
    intro m
    have h₁ := h.reads.count_eq m
    have h₂ := hfly.count_eq m
    simp only [List.count_append] at h₁ h₂ ⊢
    omega
  have hnodup : ((arrived ++ waiting).map ReadMsg.msgID).Nodup := by
    have hids := (hreads.map ReadMsg.msgID).nodup_iff.1 h.nodup
    rw [List.map_append] at hids
    exact (List.nodup_append'.1 hids).1
  have hsplit : (p.arrive (s.activation p.node)).pendingReads line =
      (answered' ++ lost') ++ left := by
    rw [heffect.consumes.split, List.append_assoc]
  obtain ⟨waiting', hperm, hrecords'⟩ := hrecords.consume hnodup hsplit
  refine ⟨waiting', ?_, by rw [hlocal]; exact h.nodup, ?_, ?_, ?_⟩
  · rw [hlocal, List.perm_iff_count]
    intro m
    have h₁ := hreads.count_eq m
    have h₂ := hperm.count_eq m
    simp only [List.count_append] at h₁ h₂ ⊢
    omega
  · rw [hlocal]
    exact fun m hm => Nat.lt_of_lt_of_le (h.stamps m hm) hstamp
  · rw [System.readAnswers, System.commit, ofNode_append_filterMap, List.map_append]
    have hanswers : ofNode p.node (a.sent.filterMap Packet.localAnswer) =
        answered'.map ReadMsg.msgID := by
      rw [← sentAnswers, heffect.sentAnswers_eq, ofNode, List.filterMap_map]
      simp
    rw [hanswers]
    exact congrArg (· ++ _) h.answers
  · rw [nodes_commit_self, heffect.consumes.table]
    have hlists := heffect.consumes.lists
    rw [← hlists] at hrecords'
    exact hrecords'

/-- A delivery at another node leaves the accounts alone. -/
lemma ReadAccounts.commit_of_ne {waiting answered lost : List ReadMsg} {line : Address}
    {answered' lost' left : List ReadMsg} (h : ReadAccounts s n waiting answered lost)
    (hn : n ≠ p.node) (hk : s.flight[k]? = some p) (hstamp : (s.activation p.node).StampLE a)
    (heffect : ReadsEffect p (s.activation p.node) a line answered' lost' left) :
    ReadAccounts (s.commit p.node (s.flight.eraseIdx k) a) n waiting answered lost := by
  have hfly := flyingReads_commit (n := n) heffect hk
  have hlocal := localReads_commit (n := n) heffect (s.flight.eraseIdx k)
  have harrived : ofNode n p.localRead.toList = [] := by
    refine ofNode_eq_nil n fun q hq => ?_
    rw [node_eq_of_localRead (Option.mem_toList.1 hq)]
    exact Ne.symm hn
  rw [harrived, List.nil_append] at hfly
  refine ⟨?_, by rw [hlocal]; exact h.nodup, ?_, ?_, by rw [nodes_commit_of_ne hn]; exact h.records⟩
  · rw [hlocal]
    exact h.reads.trans (hfly.append_right _)
  · rw [hlocal]
    exact fun m hm => Nat.lt_of_lt_of_le (h.stamps m hm) hstamp
  · rw [System.readAnswers, System.commit, ofNode_append_filterMap]
    have hanswers : ofNode n (a.sent.filterMap Packet.localAnswer) = [] := by
      rw [← sentAnswers, heffect.sentAnswers_eq]
      refine ofNode_eq_nil n fun q hq => ?_
      obtain ⟨m, _, rfl⟩ := List.mem_map.1 hq
      exact Ne.symm hn
    rw [hanswers, List.append_nil]
    exact h.answers

/-- A message of a local cache other than a read leaves the accounts alone. -/
lemma ReadAccounts.localSend {waiting answered lost : List ReadMsg}
    (h : ReadAccounts s n waiting answered lost) (node : NodeID) (msg : Msg)
    (hmsg : ∀ m, msg ≠ .read m) : ReadAccounts (s.localSend node msg) n waiting answered lost := by
  have hnone : Packet.localRead (.fromLocalCache node msg) = none := by
    cases msg <;> first | rfl | exact absurd rfl (hmsg _)
  have hlocal : (s.localSend node msg).localReads n = s.localReads n := by
    rw [System.localReads, System.localSend, ofNode_append_filterMap]
    simp [hnone, ofNode_nil, System.localReads]
  have hfly : (s.localSend node msg).flyingReads n = s.flyingReads n := by
    rw [System.flyingReads, System.localSend, ofNode_append_filterMap]
    simp [hnone, ofNode_nil, System.flyingReads]
  have hanswers : (s.localSend node msg).readAnswers n = s.readAnswers n := by
    rw [System.readAnswers, System.localSend, ofNode_append_filterMap]
    exact List.append_nil _
  refine ⟨by rw [hlocal, hfly]; exact h.reads, by rw [hlocal]; exact h.nodup, ?_,
    by rw [hanswers]; exact h.answers, h.records⟩
  rw [hlocal]
  exact fun m hm => Nat.lt_succ_of_lt (h.stamps m hm)

/-- A read of a local cache begins its way. -/
lemma ReadAccounts.localSend_read {waiting answered lost : List ReadMsg}
    (h : ReadAccounts s n waiting answered lost) (node : NodeID) (m : ReadMsg)
    (hm : m.msgID = s.currentMsgStamp) :
    ReadAccounts (s.localSend node (.read m)) n waiting answered lost := by
  let new := ofNode n [(node, m)]
  have hlocal : (s.localSend node (.read m)).localReads n = s.localReads n ++ new :=
    ofNode_append_filterMap n Packet.localRead s.log [.fromLocalCache node (.read m)]
  have hfly : (s.localSend node (.read m)).flyingReads n = s.flyingReads n ++ new :=
    ofNode_append_filterMap n Packet.localRead s.flight [.fromLocalCache node (.read m)]
  have hanswers : (s.localSend node (.read m)).readAnswers n = s.readAnswers n := by
    rw [System.readAnswers, System.localSend, ofNode_append_filterMap]
    exact List.append_nil _
  have hnew : new = [m] ∨ new = [] := by
    by_cases hn : node = n
    · subst hn
      exact .inl (ofNode_singleton node m)
    · exact .inr (ofNode_eq_nil n fun q hq => by rw [List.mem_singleton.1 hq]; exact hn)
  refine ⟨?_, ?_, ?_, by rw [hanswers]; exact h.answers, h.records⟩
  · rw [hlocal, hfly, List.perm_iff_count]
    intro r
    have h₁ := h.reads.count_eq r
    simp only [List.count_append] at h₁ ⊢
    omega
  · rw [hlocal]
    rcases hnew with hnew | hnew
    · rw [hnew, List.map_append, List.nodup_append']
      refine ⟨h.nodup, List.nodup_singleton _, ?_⟩
      rw [List.disjoint_left]
      intro id hid hid'
      obtain ⟨r, hr, rfl⟩ := List.mem_map.1 hid
      rw [List.map_singleton, List.mem_singleton, hm] at hid'
      exact Nat.ne_of_lt (h.stamps r hr) hid'
    · rw [hnew, List.append_nil]
      exact h.nodup
  · rw [hlocal]
    intro r hr
    have hstamp : (s.localSend node (.read m)).currentMsgStamp = s.currentMsgStamp + 1 := rfl
    rw [hstamp]
    rcases List.mem_append.1 hr with hr | hr
    · exact Nat.lt_succ_of_lt (h.stamps r hr)
    · rcases hnew with hnew | hnew <;> rw [hnew] at hr
      · rw [List.mem_singleton.1 hr, hm]
        exact Nat.lt_succ_self _
      · cases hr

/-- What a step does to the accounts of a node: it loses reads exactly when it delivers a
packet that loses one. -/
lemma ReadAccounts.step {waiting answered lost : List ReadMsg}
    (h : ReadAccounts s n waiting answered lost) (hforeign : NoForeignReads s)
    (hs : (machine cfg).step s e = .ok s') : ∃ waiting' answered' lost',
      ReadAccounts s' n waiting' answered' lost' ∧ (lost' = [] ↔ lost = [] ∧ ¬LosesRead n s e) := by
  rcases step_eq_ok hs with ⟨node, addr, _, _, rfl, _, rfl⟩ | ⟨node, addr, _, rfl, _, rfl⟩ |
    ⟨k, dirty, p, a, rfl, hk, ha, rfl⟩
  · refine ⟨_, _, _, h.localSend_read node _ rfl, ?_⟩
    rw [and_iff_left]
    rintro ⟨k, dirty, p, he, _⟩
    cases he
  · refine ⟨_, _, _, h.localSend node _ (by simp), ?_⟩
    rw [and_iff_left]
    rintro ⟨k, dirty, p, he, _⟩
    cases he
  · have hp : ∀ dest src m, p ≠ .toCache dest src (.read m) := by
      rintro dest src m rfl
      exact hforeign _ _ _ (List.mem_of_getElem? hk)
    obtain ⟨line, answered', lost', left, heffect⟩ := readsEffect_recvMsg ha hp
    have hloses : LosesRead n s (.deliver k dirty) ↔ p.node = n ∧ p.losesRead (s.nodes n) = true := by
      constructor
      · rintro ⟨k', dirty', p', he, hk', hnode, hl⟩
        cases he
        cases hk.symm.trans hk'
        exact ⟨hnode, hl⟩
      · rintro ⟨hnode, hl⟩
        exact ⟨k, dirty, p, rfl, hk, hnode, hl⟩
    by_cases hn : n = p.node
    · subst hn
      obtain ⟨waiting', h'⟩ := h.commit_self hk (stampLE_recvMsg ha) heffect
      refine ⟨_, _, _, h', ?_⟩
      rw [List.append_eq_nil_iff, heffect.lost_iff, hloses, ← Bool.not_eq_true]
      exact and_congr_right fun _ => ⟨fun hl h => hl h.2, fun hl h => hl ⟨rfl, h⟩⟩
    · refine ⟨_, _, _, h.commit_of_ne hn hk (stampLE_recvMsg ha) heffect, ?_⟩
      rw [hloses, and_iff_left]
      exact fun h => hn h.1.symm

end

/-! ## The runs -/

section

variable {cfg : Config} {es : List Event} {s : System}

lemma noForeignReads_run (h : (machine cfg).Run es s) : NoForeignReads s :=
  Machine.RunWhere.invariant h (fun _ _ _ hm => nomatch hm) fun _ _ _ hI _ hs => hI.step hs

/-- The accounts of a node at the end of a run. -/
lemma readAccounts_run (h : (machine cfg).Run es s) (n : NodeID) :
    ∃ waiting answered lost, ReadAccounts s n waiting answered lost := by
  induction h with
  | nil => exact ⟨_, _, _, .new⟩
  | snoc e hrun _ hstep ih =>
    obtain ⟨waiting, answered, lost, hacc⟩ := ih
    obtain ⟨waiting', answered', lost', hacc', -⟩ := hacc.step (noForeignReads_run hrun) hstep
    exact ⟨waiting', answered', lost', hacc'⟩

/-- A step keeps all reads of a node exactly when it loses none. -/
lemma readKept_step_iff {s' : System} {e : Event} (h : (machine cfg).Run es s)
    (hs : (machine cfg).step s e = .ok s') (n : NodeID) :
    (∀ m ∈ s'.localReads n, ReadKept s' n m) ↔
      (∀ m ∈ s.localReads n, ReadKept s n m) ∧ ¬LosesRead n s e := by
  obtain ⟨waiting, answered, lost, hacc⟩ := readAccounts_run h n
  obtain ⟨waiting', answered', lost', hacc', hlost⟩ := hacc.step (noForeignReads_run h) hs
  rw [hacc.kept_iff, hacc'.kept_iff, hlost]

lemma mem_localReads {n : NodeID} {m : ReadMsg} :
    m ∈ s.localReads n ↔ Packet.fromLocalCache n (.read m) ∈ s.log := by
  rw [System.localReads, mem_ofNode, List.mem_filterMap]
  constructor
  · rintro ⟨p, hp, hread⟩
    unfold Packet.localRead at hread
    split at hread <;> cases hread
    exact hp
  · intro hp
    exact ⟨_, hp, rfl⟩

/-- Every local read is kept at the end of a run if and only if no step of the run has lost
one. -/
theorem readKept_iff_run (cfg : Config) (es : List Event) (s : System)
    (h : (machine cfg).Run es s) :
    (∀ n m, Packet.fromLocalCache n (.read m) ∈ s.log → ReadKept s n m) ↔
      (machine cfg).RunWhere (fun s e => ∀ n, ¬LosesRead n s e) es s := by
  simp only [← mem_localReads]
  refine Machine.Run.iff_runWhere (P := fun s => ∀ n, ∀ m ∈ s.localReads n, ReadKept s n m) h
    (fun n m hm => nomatch hm) fun es s e s' hrun hstep => ?_
  rw [← forall_and]
  exact forall_congr' fun n => readKept_step_iff hrun hstep n

end

/-! ### A read of an exclusive line

Node 1 reads line 0 exclusively and gets it; its local cache reads the line once more. -/

def exclusiveReadRun : List Event :=
  .localRead 1 0 true false :: List.replicate 6 (.deliver 0 false) ++
  [.localRead 1 0 false false, .deliver 0 false]

def exclusiveRead : ReadMsg where
  msgID := 5
  addr := 0
  requestingExclusive := false
  alreadyHasBlock := false
  directoryLookup := false

lemma exclusiveRead_reached : ∃ s, (machine .four).Run exclusiveReadRun s ∧
    Packet.fromLocalCache 1 (.read exclusiveRead) ∈ s.log ∧
    (s.nodes 1).pendingLocalReads 5 = none ∧ s.flight = [] ∧ (s.readAnswers 1).count 5 = 0 := by
  have hrun : succeeds ((machine .four).exec (machine .four).init exclusiveReadRun) (fun s =>
      decide (Packet.fromLocalCache 1 (.read exclusiveRead) ∈ s.log ∧
        (s.nodes 1).pendingLocalReads 5 = none ∧ s.flight = [] ∧
        (s.readAnswers 1).count 5 = 0)) = true := by
    decide +kernel
  obtain ⟨s, hs, htest⟩ := succeeds_iff.1 hrun
  exact ⟨s, Machine.run_of_exec hs, of_decide_eq_true htest⟩

/-- The second read is neither recorded nor answered. -/
theorem not_readKept_of_exclusiveRead : ∃ s, (machine .four).Run exclusiveReadRun s ∧
    Packet.fromLocalCache 1 (.read exclusiveRead) ∈ s.log ∧ ¬ReadKept s 1 exclusiveRead := by
  obtain ⟨s, hs, hlog, htable, hflight, hcount⟩ := exclusiveRead_reached
  refine ⟨s, hs, hlog, ?_⟩
  rintro (⟨hrec, -⟩ | ⟨-, hone⟩)
  · rcases hrec with hfly | ⟨hpending, -⟩
    · rw [hflight] at hfly
      cases hfly
    · rw [show exclusiveRead.msgID = 5 from rfl, htable] at hpending
      cases hpending
  · rw [show exclusiveRead.msgID = 5 from rfl, hcount] at hone
    cases hone

theorem readKept_iff_exclusiveRead : ∃ s, (machine .four).Run exclusiveReadRun s ∧
    ((∀ n m, Packet.fromLocalCache n (.read m) ∈ s.log → ReadKept s n m) ↔
      (machine .four).RunWhere (fun s e => ∀ n, ¬LosesRead n s e) exclusiveReadRun s) := by
  obtain ⟨s, hs, -⟩ := exclusiveRead_reached
  exact ⟨s, hs, readKept_iff_run .four exclusiveReadRun s hs⟩

end Sesc.Origin
