import Sesc.Bip.LocalReads

/-!
# The bookkeeping of local reads

`OnDirectoryBlockResponse` answers every local read at most once and erases it from both maps,
whether the home of the line is the same node or another one.  The answer that
`OnRemoteInvalidateResponse` of the home sends to its own local cache is not among the answers
considered here.

`reversePendingLocalReads` holds pending reads only, but not all: an exclusive answer erases all
reads of its line from it.
-/

namespace Sesc.Bip

open Lib

/-- The reads that a node has accepted, in order. -/
def acceptedReads (h : List Delivery) (n : NodeID) : List ReadMsg :=
  h.filterMap fun d => if d.packet.node = n then d.packet.cacheRead else none

/-- The answers to local reads that a node has sent when it received read responses. -/
def answers (h : List Delivery) (n : NodeID) : List ReadResponseMsg :=
  h.flatMap fun d =>
    if d.packet.node = n ∧ d.packet.isReadResponse = true then
      d.sent.filterMap Packet.localAnswer
    else []

/-- An exclusive answer for the line of a read has been sent since the read was accepted. -/
def LostRead (h : List Delivery) (n : NodeID) (m : ReadMsg) : Prop :=
  ∃ pre post, h = pre ++ post ∧ m ∈ acceptedReads pre n ∧
    ∃ r ∈ answers post n, r.exclusiveOwnership = true ∧ r.addr = m.addr

/-- What holds of the local reads of all nodes. -/
structure LocalReadsAnswered (s : System) : Prop where
  /-- A read is answered at most once. -/
  once : ∀ n id, (answers s.history n).countP (fun r => r.solicitingMessage = id) ≤ 1
  /-- A read that has been answered is in neither map. -/
  closed : ∀ n, ∀ r ∈ answers s.history n,
    (s.nodes n).pendingLocalReads r.solicitingMessage = none ∧
      ∀ addr, ∀ m ∈ (s.nodes n).reversePendingLocalReads addr, m.msgID ≠ r.solicitingMessage
  /-- A read that has been accepted is pending or has been answered. -/
  accepted : ∀ n, ∀ m ∈ acceptedReads s.history n,
    (s.nodes n).pendingLocalReads m.msgID = some m ∨
      ∃ r ∈ answers s.history n, r.solicitingMessage = m.msgID
  /-- The reverse map holds pending reads, each once and under its address. -/
  reverse : ∀ n addr, ((s.nodes n).reversePendingLocalReads addr).Nodup ∧
    ∀ m ∈ (s.nodes n).reversePendingLocalReads addr,
      m.addr = addr ∧ (s.nodes n).pendingLocalReads m.msgID = some m
  /-- A pending read is missing from the reverse map only after an exclusive answer. -/
  pending : ∀ n id m, (s.nodes n).pendingLocalReads id = some m →
    m.msgID = id ∧ m ∈ acceptedReads s.history n ∧
      (m ∈ (s.nodes n).reversePendingLocalReads m.addr ∨ LostRead s.history n m)

variable {cfg : Config} {s s' : System} {n : NodeID} {x y : ReadContext} {a b : Activation}
  {k : ℕ} {p : Packet} {order : HashOrder} {reply : CacheReply} {h : List Delivery} {d : Delivery}

/-! ## The reads of all caches -/

/-- The reads that the local caches have sent. -/
def System.cacheReads (s : System) : List ReadMsg :=
  s.flight.filterMap Packet.cacheRead ++ s.history.filterMap fun d => d.packet.cacheRead

/-- A read with an identifier has been sent for an address. -/
def System.Issued (s : System) (id : MessageID) (addr : Address) : Prop :=
  ∃ m ∈ s.cacheReads, m.msgID = id ∧ m.addr = addr

/-- What is known of a node in a state. -/
def System.context (s : System) (n : NodeID) : ReadContext where
  stamp := s.currentMsgStamp
  issued := s.Issued
  accepted := acceptedReads s.history n
  answered := answers s.history n
  lost := LostRead s.history n
  counts := true

/-- The books of all nodes. -/
structure ReadsInv (s : System) : Prop where
  nodup : (s.cacheReads.map ReadMsg.msgID).Nodup
  fresh : ∀ m ∈ s.cacheReads, m.msgID < s.currentMsgStamp
  agrees : ∀ p ∈ s.flight, Agrees s.Issued p.msg
  booked : ∀ n, Booked (s.context n) (s.activation n ⟨0, 0, 0⟩)

/-! ### The logs of a node -/

lemma acceptedReads_concat : acceptedReads (h ++ [d]) n = acceptedReads h n ++
    (if d.packet.node = n then d.packet.cacheRead else none).toList := by
  rw [acceptedReads, List.filterMap_append]
  refine congrArg _ ?_
  rw [List.filterMap_cons, List.filterMap_nil]
  split <;> rename_i heq <;> rw [heq] <;> rfl

lemma answers_concat : answers (h ++ [d]) n = answers h n ++
    if d.packet.node = n ∧ d.packet.isReadResponse = true then d.sent.filterMap Packet.localAnswer
    else [] := by
  rw [answers, List.flatMap_append, List.flatMap_singleton]
  rfl

lemma LostRead.concat {m : ReadMsg} (hm : LostRead h n m) : LostRead (h ++ [d]) n m := by
  obtain ⟨pre, post, rfl, haccepted, r, hr, hexclusive⟩ := hm
  refine ⟨pre, post ++ [d], List.append_assoc _ _ _, haccepted, r, ?_, hexclusive⟩
  rw [answers_concat]
  exact List.mem_append_left _ hr

lemma cacheRead_of_isReadResponse (hp : p.isReadResponse = true) : p.cacheRead = none := by
  cases p with
  | fromLocalCache node msg =>
    cases msg with
    | read m => cases hp
    | _ => rfl
  | _ => rfl

/-! ### Contexts -/

/-- The books in another context, in which at least as much is known. -/
lemma Booked.transfer (h : Booked x a)
    (hissued : ∀ id addr, x.issued id addr → y.issued id addr)
    (haccepted : y.accepted = x.accepted) (hanswered : y.answered = x.answered ++ x.answers a)
    (hlost : ∀ m ∈ x.accepted, x.lost m ∨
      (∃ r ∈ x.answers a, r.exclusiveOwnership = true ∧ r.addr = m.addr) → y.lost m)
    (hdir : b.dir = a.dir) (hsent : b.sent = []) (hstamp : y.stamp ≤ b.currentMsgStamp) :
    Booked y b := by
  have hanswers : y.answers b = [] := by
    rw [ReadContext.answers, hsent]
    exact ite_self _
  have hread : ∀ addr ld, x.IsRead addr ld → y.IsRead addr ld :=
    fun addr ld hld => ⟨hld.1, hissued _ _ hld.2⟩
  refine ⟨⟨fun id m hm => ?_, ?_, ?_, fun id m hm => ?_, fun addr ld hld => ?_,
    fun addr ld hld => ?_, ?_, hstamp⟩, fun id => ?_⟩
  · obtain ⟨hid, hmem, hm⟩ := h.recorded id m (hdir ▸ hm)
    exact ⟨hid, haccepted ▸ hmem, hissued _ _ hm⟩
  · exact hdir ▸ h.reverse
  · exact hdir ▸ h.nodup
  · rw [hdir] at hm ⊢
    exact (h.missing id m hm).imp_right fun hlost' =>
      .inl (hlost m (h.recorded id m hm).2.1 hlost')
  · exact hread addr ld (h.shared addr ld (hdir ▸ hld))
  · exact hread addr ld (h.exclusive addr ld (hdir ▸ hld))
  · rw [hsent]
    exact fun p hp => absurd hp List.not_mem_nil
  · rw [haccepted, h.once, ReadContext.account, ReadContext.account, hanswers, hanswered, hdir,
      List.append_nil]

lemma ReadsInv.unique (hs : ReadsInv s) (hx : x.issued = s.Issued) : x.Unique := by
  intro id addr addr' h h'
  rw [hx] at h h'
  obtain ⟨m, hm, rfl, rfl⟩ := h
  obtain ⟨m', hm', hid, rfl⟩ := h'
  rw [List.inj_on_of_nodup_map hs.nodup hm' hm hid]

/-! ## Steps -/

/-- A local cache sends a message. -/
lemma ReadsInv.localSend {msg : Msg} (hs : ReadsInv s)
    (hmsg : ∀ m, msg = .read m → m.msgID = s.currentMsgStamp)
    (hresponse : ∀ r, msg ≠ .readResponse r) : ReadsInv (s.localSend n msg) := by
  have hreads : (s.localSend n msg).cacheReads.Perm
      ((Packet.cacheRead (.fromLocalCache n msg)).toList ++ s.cacheReads) := by
    have hflight : (s.localSend n msg).flight.filterMap Packet.cacheRead =
        s.flight.filterMap Packet.cacheRead ++
          (Packet.cacheRead (.fromLocalCache n msg)).toList := by
      rw [System.localSend, List.filterMap_append, List.filterMap_cons, List.filterMap_nil]
      cases Packet.cacheRead (.fromLocalCache n msg) <;> rfl
    rw [System.cacheReads, hflight, List.append_assoc, System.cacheReads, ← List.append_assoc,
      ← List.append_assoc]
    exact (List.perm_append_comm.append_right _)
  have hissued : ∀ id addr, s.Issued id addr → (s.localSend n msg).Issued id addr := by
    rintro id addr ⟨m, hm, hid⟩
    exact ⟨m, hreads.mem_iff.2 (List.mem_append_right _ hm), hid⟩
  have hnew : ∀ m ∈ (Packet.cacheRead (.fromLocalCache n msg)).toList,
      m.msgID = s.currentMsgStamp ∧ msg = .read m := by
    intro m hm
    cases msg with
    | read m' =>
      cases List.mem_singleton.1 hm
      exact ⟨hmsg m rfl, rfl⟩
    | _ => cases hm
  refine ⟨?_, fun m hm => ?_, fun p hp => ?_, fun n' => ?_⟩
  · rw [(hreads.map _).nodup_iff, List.map_append]
    refine List.Nodup.append ?_ hs.nodup fun id hid hid' => ?_
    · cases Packet.cacheRead (.fromLocalCache n msg) with
      | none => exact List.nodup_nil
      | some m => exact List.nodup_singleton _
    · obtain ⟨m, hm, rfl⟩ := List.mem_map.1 hid
      obtain ⟨m', hm', hid'⟩ := List.mem_map.1 hid'
      have := hs.fresh m' hm'
      rw [hid', (hnew m hm).1] at this
      exact Nat.lt_irrefl _ this
  · rcases List.mem_append.1 (hreads.mem_iff.1 hm) with hm | hm
    · rw [(hnew m hm).1]
      exact Nat.lt_succ_self _
    · exact Nat.lt_succ_of_lt (hs.fresh m hm)
  · rcases List.mem_append.1 hp with hp | hp
    · exact (hs.agrees p hp).mono hissued
    · rw [List.mem_singleton.1 hp]
      cases msg with
      | read m =>
        exact ⟨m, hreads.mem_iff.2 (List.mem_append_left _ (List.mem_singleton_self m)), rfl, rfl⟩
      | readResponse r => exact absurd rfl (hresponse r)
      | _ => trivial
  · exact (hs.booked n').transfer hissued rfl (List.append_nil _).symm
      (fun m _ hm => hm.resolve_right (by rintro ⟨r, hr, -⟩; cases hr)) rfl rfl (Nat.le_refl _)

/-- A handler sends no read for a cache, so that a delivery keeps the reads of all caches. -/
lemma cacheReads_commit (hp : s.flight[k]? = some p) (hsent : ∀ q ∈ a.sent, q.cacheRead = none) :
    (s.commit k p a).cacheReads.Perm s.cacheReads := by
  have hflight := (flight_perm hp).filterMap Packet.cacheRead
  have hnone : a.sent.filterMap Packet.cacheRead = [] := List.filterMap_eq_nil_iff.2 hsent
  have hcommit : (s.commit k p a).cacheReads =
      (s.flight.eraseIdx k).filterMap Packet.cacheRead ++
        (s.history.filterMap (fun d => d.packet.cacheRead) ++ p.cacheRead.toList) := by
    rw [System.cacheReads, System.commit, List.filterMap_append, hnone, List.append_nil,
      List.filterMap_append, List.filterMap_cons, List.filterMap_nil]
    cases p.cacheRead <;> rfl
  have hcons : (p :: s.flight.eraseIdx k).filterMap Packet.cacheRead =
      p.cacheRead.toList ++ (s.flight.eraseIdx k).filterMap Packet.cacheRead := by
    rw [List.filterMap_cons]
    cases p.cacheRead <;> rfl
  rw [hcommit, System.cacheReads, ← List.append_assoc]
  rw [hcons] at hflight
  refine List.perm_append_comm.trans ?_
  rw [← List.append_assoc]
  exact hflight.symm.append_right _

/-- The books after a delivery, from those of the node at which it has been made. -/
lemma ReadsInv.commit (hs : ReadsInv s) (hp : s.flight[k]? = some p)
    (hx : Booked { s.context p.node with
      accepted := acceptedReads (s.history ++ [⟨p, a.sent⟩]) p.node
      counts := p.isReadResponse } a) : ReadsInv (s.commit k p a) := by
  have hreads := cacheReads_commit hp fun q hq => (hx.sent q hq).2
  have hissued : ∀ id addr, s.Issued id addr → (s.commit k p a).Issued id addr := by
    rintro id addr ⟨m, hm, hid⟩
    exact ⟨m, hreads.mem_iff.2 hm, hid⟩
  refine ⟨?_, fun m hm => ?_, fun q hq => ?_, fun n => ?_⟩
  · rw [(hreads.map _).nodup_iff]
    exact hs.nodup
  · exact Nat.lt_of_lt_of_le (hs.fresh m (hreads.mem_iff.1 hm)) hx.stamp
  · rcases List.mem_append.1 hq with hq | hq
    · exact (hs.agrees q (List.mem_of_mem_eraseIdx hq)).mono hissued
    · exact (hx.sent q hq).1.mono hissued
  · by_cases hn : p.node = n
    · subst hn
      have hanswers : answers (s.commit k p a).history p.node = answers s.history p.node ++
          ReadContext.answers { s.context p.node with
            accepted := acceptedReads (s.history ++ [⟨p, a.sent⟩]) p.node
            counts := p.isReadResponse } a := by
        rw [System.commit, answers_concat, ReadContext.answers]
        refine congrArg _ (if_congr ?_ rfl rfl)
        exact ⟨And.right, fun h => ⟨rfl, h⟩⟩
      refine hx.transfer hissued rfl hanswers (fun m hm hlost => ?_)
        (Function.update_self _ _ _) rfl (Nat.le_refl _)
      rcases hlost with hlost | ⟨r, hr, hexclusive⟩
      · exact hlost.concat
      · -- this handler has answered a read, so that its packet is a read response
        have hresponse : p.isReadResponse = true := by
          by_contra hne
          rw [ReadContext.answers, if_neg hne] at hr
          cases hr
        refine ⟨s.history, [⟨p, a.sent⟩], rfl, ?_, r, ?_, hexclusive⟩
        · have hm' : m ∈ acceptedReads (s.history ++ [⟨p, a.sent⟩]) p.node := hm
          rw [acceptedReads_concat, cacheRead_of_isReadResponse hresponse, ite_self,
            Option.toList_none, List.append_nil] at hm'
          exact hm'
        · have hanswer := answers_concat (h := []) (d := ⟨p, a.sent⟩) (n := p.node)
          rw [if_pos ⟨rfl, hresponse⟩] at hanswer
          rw [ReadContext.answers, if_pos hresponse] at hr
          exact hanswer ▸ hr
    · have hothers : (s.commit k p a).nodes n = s.nodes n :=
        Function.update_of_ne (Ne.symm hn) _ _
      refine (hs.booked n).transfer hissued ?_ ?_ (fun m _ hm => ?_) hothers rfl (Nat.le_refl _)
      · show acceptedReads (s.history ++ [⟨p, a.sent⟩]) n = acceptedReads s.history n
        rw [acceptedReads_concat, if_neg hn, Option.toList_none, List.append_nil]
      · show answers (s.history ++ [⟨p, a.sent⟩]) n = answers s.history n ++ []
        rw [answers_concat, if_neg fun h => hn h.1]
      · refine (hm.resolve_right ?_).concat
        rintro ⟨r, hr, -⟩
        cases hr

/-- A packet in flight is delivered. -/
lemma ReadsInv.deliver (hs : ReadsInv s) (hp : s.flight[k]? = some p)
    (h : cfg.recvMsg p reply (s.activation p.node order) = .ok a) :
    ReadsInv (s.commit k p a) := by
  refine hs.commit hp ?_
  have hagrees := hs.agrees p (List.mem_of_getElem? hp)
  have hstart : ∀ x : ReadContext, x.issued = s.Issued →
      x.accepted = acceptedReads s.history p.node → x.answered = answers s.history p.node →
      x.lost = LostRead s.history p.node → x.stamp = s.currentMsgStamp →
      Booked x (s.activation p.node order) := by
    rintro ⟨stamp, issued, accepted, answered, lost, counts⟩ rfl rfl rfl rfl rfl
    refine (hs.booked p.node).transfer (fun _ _ h => h) rfl (List.append_nil _).symm
      (fun m _ hm => hm.resolve_right ?_) rfl rfl (Nat.le_refl _)
    rintro ⟨r, hr, -⟩
    cases hr
  rcases hread : p.cacheRead with _ | m
  · have haccepted : acceptedReads (s.history ++ [⟨p, a.sent⟩]) p.node =
        acceptedReads s.history p.node := by
      rw [acceptedReads_concat, hread, ite_self, Option.toList_none, List.append_nil]
    rw [haccepted]
    have hbooked := hstart { s.context p.node with counts := p.isReadResponse } rfl rfl rfl rfl rfl
    exact booked_recvMsg hbooked rfl (hs.unique rfl) hagrees hread a h
  · -- a new read arrives
    obtain ⟨node, rfl⟩ : ∃ node, p = .fromLocalCache node (.read m) := by
      cases p with
      | fromLocalCache node msg =>
        cases msg with
        | read m' =>
          cases hread
          exact ⟨node, rfl⟩
        | _ => cases hread
      | _ => cases hread
    have hbooked := hstart { s.context node with counts := false } rfl rfl rfl rfl rfl
    have haccepted : acceptedReads (s.history ++ [⟨.fromLocalCache node (.read m), a.sent⟩]) node =
        acceptedReads s.history node ++ [m] := by
      rw [acceptedReads_concat]
      show _ ++ (if node = node then some m else none).toList = _
      rw [if_pos rfl]
      rfl
    rw [show Packet.node (.fromLocalCache node (.read m)) = node from rfl, haccepted]
    have hrecorded : Recorded { s.context node with
        accepted := acceptedReads s.history node ++ [m]
        counts := false } (s.activation node order) := by
      refine ⟨fun id m' hm' => ?_, hbooked.reverse, hbooked.nodup, hbooked.missing,
        hbooked.shared, hbooked.exclusive, hbooked.sent, hbooked.stamp⟩
      obtain ⟨hid, hmem, hissued⟩ := hbooked.recorded id m' hm'
      exact ⟨hid, List.mem_append_left _ hmem, hissued⟩
    refine Device.booked_onLocalRead hrecorded
      (List.mem_append_right _ (List.mem_singleton_self m)) hagrees (fun id => ?_) a h
    have hsingle : [m].countP (fun m => decide (m.msgID = id)) = if id = m.msgID then 1 else 0 := by
      rw [List.countP_singleton]
      exact if_congr (by rw [decide_eq_true_eq, eq_comm]) rfl rfl
    rw [List.countP_append, hsingle]
    exact congrArg (· + _) (hbooked.once id)

lemma ReadsInv.new : ReadsInv .new where
  nodup := List.nodup_nil
  fresh _ h := nomatch h
  agrees _ h := nomatch h
  booked _ := by
    refine ⟨⟨fun _ _ h => (nomatch h), fun _ _ h => (nomatch h), fun _ => List.nodup_nil,
      fun _ _ h => (nomatch h), fun _ _ h => (nomatch h), fun _ _ h => (nomatch h),
      fun _ h => (nomatch h), Nat.le_refl _⟩, fun _ => rfl⟩

lemma ReadsInv.step {e : Event} (hs : ReadsInv s) (h : step cfg s e = .ok s') : ReadsInv s' := by
  obtain ⟨node, addr, requestingExclusive, alreadyHasBlock, -, rfl⟩ |
    ⟨node, addr, dirty, -, rfl⟩ | ⟨k, order, reply, p, a, rfl, hp, ha, rfl⟩ := step_eq_ok h
  · refine hs.localSend (fun m hm => ?_) fun r hr => nomatch hr
    cases hm
    rfl
  · exact hs.localSend (fun m hm => (nomatch hm)) fun r hr => nomatch hr
  · exact hs.deliver hp ha

/-! ## Runs -/

/-- The reads that a node has accepted have different identifiers. -/
lemma ReadsInv.nodup_acceptedReads (hs : ReadsInv s) :
    ((acceptedReads s.history n).map ReadMsg.msgID).Nodup := by
  have hsublist : (acceptedReads s.history n).Sublist
      (s.history.filterMap fun d => d.packet.cacheRead) := by
    have hfilter : acceptedReads s.history n =
        (s.history.filter fun d => d.packet.node = n).filterMap fun d => d.packet.cacheRead := by
      rw [List.filterMap_filter]
      exact congrFun (congrArg _ (funext fun d => if_congr decide_eq_true_iff.symm rfl rfl)) _
    rw [hfilter]
    exact List.filter_sublist.filterMap _
  refine hs.nodup.sublist (List.Sublist.map _ (hsublist.trans ?_))
  exact List.sublist_append_right _ _

lemma ReadsInv.answered (hs : ReadsInv s) : LocalReadsAnswered s := by
  have honce : ∀ n id, (acceptedReads s.history n).countP (fun m => m.msgID = id) =
      (answers s.history n).countP (fun r => r.solicitingMessage = id) +
        if (s.nodes n).pendingLocalReads id = none then 0 else 1 := by
    intro n id
    have hbooked := (hs.booked n).once id
    rw [ReadContext.account, show ReadContext.answers _ _ = [] from rfl, List.append_nil] at hbooked
    exact hbooked
  have hone : ∀ n id, (acceptedReads s.history n).countP (fun m => m.msgID = id) ≤ 1 := by
    intro n id
    have hcount := List.nodup_iff_count_le_one.1 (hs.nodup_acceptedReads (n := n)) id
    rw [List.count_eq_countP, List.countP_map] at hcount
    exact Nat.le_trans (List.countP_mono_left fun m _ hm => by simpa using hm) hcount
  refine ⟨fun n id => ?_, fun n r hr => ?_, fun n m hm => ?_, fun n addr => ?_, fun n id m hm => ?_⟩
  · have := honce n id
    have := hone n id
    omega
  · have hpos : 0 < (answers s.history n).countP
        (fun r' => r'.solicitingMessage = r.solicitingMessage) :=
      List.countP_pos_iff.2 ⟨r, hr, decide_eq_true rfl⟩
    have hnone : (s.nodes n).pendingLocalReads r.solicitingMessage = none := by
      by_contra hsome
      have hcount := honce n r.solicitingMessage
      have := hone n r.solicitingMessage
      rw [if_neg hsome] at hcount
      omega
    refine ⟨hnone, fun addr m hm hid => ?_⟩
    have hsome := ((hs.booked n).reverse addr m hm).2
    rw [hid] at hsome
    cases hnone.symm.trans hsome
  · have hpos : 0 < (acceptedReads s.history n).countP (fun m' => m'.msgID = m.msgID) :=
      List.countP_pos_iff.2 ⟨m, hm, decide_eq_true rfl⟩
    rcases hpending : (s.nodes n).pendingLocalReads m.msgID with _ | m'
    · rw [honce, if_pos hpending, Nat.add_zero, List.countP_pos_iff] at hpos
      obtain ⟨r, hr, hid⟩ := hpos
      exact .inr ⟨r, hr, of_decide_eq_true hid⟩
    · -- the pending read is the only accepted one with its identifier
      obtain ⟨hid, hm', -⟩ := (hs.booked n).recorded _ m' hpending
      rw [List.inj_on_of_nodup_map hs.nodup_acceptedReads hm' hm hid]
      exact .inl rfl
  · exact ⟨(hs.booked n).nodup addr, (hs.booked n).reverse addr⟩
  · obtain ⟨hid, haccepted, -⟩ := (hs.booked n).recorded id m hm
    refine ⟨hid, haccepted, ((hs.booked n).missing id m hm).imp_right fun hlost => ?_⟩
    refine hlost.resolve_right ?_
    rintro ⟨r, hr, -⟩
    cases hr

/-- In every run the local reads are answered once and their bookkeeping is closed. -/
theorem localReadsAnswered_of_run (cfg : Config) (es : List Event) (s : System)
    (h : (machine cfg).Run es s) : LocalReadsAnswered s :=
  ReadsInv.answered (h.invariant ReadsInv.new fun _ _ _ hs _ hstep => hs.step hstep)

/-! ### A second read of a line -/

/-- The delivery of a packet, to a cache that has a clean block. -/
def cleanDelivery (k : ℕ) : Event := .deliver k ⟨0, 0, 0⟩ ⟨true, false⟩

/-- Nodes 1 and 2 read line 0 of node 0. -/
def sharedRun : List Event :=
  [.localRead 1 0 false false, cleanDelivery 0, cleanDelivery 0, cleanDelivery 0, cleanDelivery 0,
    cleanDelivery 0, cleanDelivery 0, .localRead 2 0 false false, cleanDelivery 0,
    cleanDelivery 0, cleanDelivery 0, cleanDelivery 0, cleanDelivery 0, cleanDelivery 0,
    cleanDelivery 0, cleanDelivery 0]

/-- Both nodes ask for the line again, to write it.  The request of node 1 is first, so that the
cache of node 2 has to give its block up and sends another read, as in `RespondInvalidate`; then
the request of node 2 is answered. -/
def secondReadRun : List Event :=
  sharedRun ++
  [.localRead 2 0 true true, cleanDelivery 0, .localRead 1 0 true true, cleanDelivery 1,
    cleanDelivery 1, cleanDelivery 1, cleanDelivery 1, cleanDelivery 1, cleanDelivery 1,
    cleanDelivery 1, cleanDelivery 1, .localRead 2 0 false false, cleanDelivery 2,
    cleanDelivery 1, cleanDelivery 2, cleanDelivery 2, cleanDelivery 2, cleanDelivery 0,
    cleanDelivery 1, cleanDelivery 1, cleanDelivery 1, cleanDelivery 1, cleanDelivery 1]

/-- Both reads have been answered. -/
theorem localReadsAnswered_sharedRun : ∃ s, (machine .three).Run sharedRun s ∧
    (answers s.history 1).map ReadResponseMsg.solicitingMessage = [1] ∧
    (answers s.history 2).map ReadResponseMsg.solicitingMessage = [5] ∧
    LocalReadsAnswered s := by
  have hrun : succeeds ((machine .three).exec (machine .three).init sharedRun) (fun s =>
      decide ((answers s.history 1).map ReadResponseMsg.solicitingMessage = [1] ∧
        (answers s.history 2).map ReadResponseMsg.solicitingMessage = [5])) = true := by
    decide +kernel
  obtain ⟨s, hs, htest⟩ := succeeds_iff.1 hrun
  obtain ⟨hone, htwo⟩ := of_decide_eq_true htest
  exact ⟨s, Machine.run_of_exec hs, hone, htwo,
    localReadsAnswered_of_run .three sharedRun s (Machine.run_of_exec hs)⟩

/-- The two maps of a device are inverse to each other. -/
def InverseMaps (d : BIPDirectory) : Prop :=
  ∀ m, d.pendingLocalReads m.msgID = some m ↔ m ∈ d.reversePendingLocalReads m.addr

/-- The second read of node 2 is pending, but the exclusive answer to the first has erased it from
the reverse map. -/
theorem not_inverseMaps_secondReadRun : ∃ s, (machine .three).Run secondReadRun s ∧
    (s.nodes 2).pendingLocalReads 14 = some ⟨14, 0, false, false, false⟩ ∧
    (s.nodes 2).reversePendingLocalReads 0 = [] ∧ ¬InverseMaps (s.nodes 2) := by
  have hrun : succeeds ((machine .three).exec (machine .three).init secondReadRun) (fun s =>
      decide ((s.nodes 2).pendingLocalReads 14 = some ⟨14, 0, false, false, false⟩ ∧
        (s.nodes 2).reversePendingLocalReads 0 = [])) = true := by
    decide +kernel
  obtain ⟨s, hs, htest⟩ := succeeds_iff.1 hrun
  obtain ⟨hpending, hnil⟩ := of_decide_eq_true htest
  refine ⟨s, Machine.run_of_exec hs, hpending, hnil, fun h => ?_⟩
  have hmem := (h ⟨14, 0, false, false, false⟩).1 hpending
  rw [hnil] at hmem
  cases hmem

end Sesc.Bip
