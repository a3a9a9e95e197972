import Mathlib.Data.List.Count
import Sesc.Bip.System

/-!
# The local reads of a device

A local read is recorded in `pendingLocalReads` and in `reversePendingLocalReads` until
`OnDirectoryBlockResponse` answers it.  The messages and the tables of a device that are about
a read name the address that the read had when its cache sent it.
-/

namespace Sesc.Bip

open Lib

/-- The answer to a local read that a packet is. -/
def Packet.localAnswer : Packet → Option ReadResponseMsg
  | toLocalCache _ (.readResponse r) => some r
  | _ => none

/-- The read of a local cache that a packet is. -/
def Packet.cacheRead : Packet → Option ReadMsg
  | fromLocalCache _ (.read m) => some m
  | _ => none

/-- A message about a read names an address for which the read was issued. -/
def Agrees (issued : MessageID → Address → Prop) : Msg → Prop
  | .read m => issued m.msgID m.addr
  | .readResponse r => issued r.solicitingMessage r.addr
  | _ => True

lemma Agrees.mono {issued issued' : MessageID → Address → Prop} {msg : Msg}
    (h : Agrees issued msg) (hmono : ∀ id addr, issued id addr → issued' id addr) :
    Agrees issued' msg := by
  cases msg <;> first | exact hmono _ _ h | trivial

/-- What is known of a node when a handler starts: the stamp of the next message, the reads
issued by all caches, the reads that the node has accepted and answered, the reads that may be
missing from `reversePendingLocalReads`, and whether the handler's own answers are counted. -/
structure ReadContext where
  stamp : MessageID
  issued : MessageID → Address → Prop
  accepted : List ReadMsg
  answered : List ReadResponseMsg
  lost : ReadMsg → Prop
  counts : Bool

variable {x y : ReadContext} {a b : Activation} {self : Device} {addr : Address} {src : NodeID}
  {ld : LookupData ReadMsg} {reply : CacheReply}

/-- The answers that a handler has sent so far. -/
def ReadContext.answers (x : ReadContext) (a : Activation) : List ReadResponseMsg :=
  if x.counts then a.sent.filterMap Packet.localAnswer else []

/-- A pending read of the home is about the line under which it is kept. -/
def ReadContext.IsRead (x : ReadContext) (addr : Address) (ld : LookupData ReadMsg) : Prop :=
  ld.msg.addr = addr ∧ x.issued ld.msg.msgID addr

/-- Every identifier is issued for one address. -/
def ReadContext.Unique (x : ReadContext) : Prop :=
  ∀ id addr addr', x.issued id addr → x.issued id addr' → addr = addr'

/-- What the tables and messages of a node say about its local reads while a handler runs. -/
structure Recorded (x : ReadContext) (a : Activation) : Prop where
  recorded : ∀ id m, a.dir.pendingLocalReads id = some m →
    m.msgID = id ∧ m ∈ x.accepted ∧ x.issued id m.addr
  reverse : ∀ addr m, m ∈ a.dir.reversePendingLocalReads addr →
    m.addr = addr ∧ a.dir.pendingLocalReads m.msgID = some m
  nodup : ∀ addr, (a.dir.reversePendingLocalReads addr).Nodup
  missing : ∀ id m, a.dir.pendingLocalReads id = some m →
    m ∈ a.dir.reversePendingLocalReads m.addr ∨ x.lost m ∨
      ∃ r ∈ x.answers a, r.exclusiveOwnership = true ∧ r.addr = m.addr
  shared : ∀ addr ld, ld ∈ a.dir.pendingDirectorySharedReads addr → x.IsRead addr ld
  exclusive : ∀ addr ld, a.dir.pendingDirectoryExclusiveReads addr = some ld → x.IsRead addr ld
  sent : ∀ p ∈ a.sent, Agrees x.issued p.msg ∧ p.cacheRead = none
  stamp : x.stamp ≤ a.currentMsgStamp

/-- The number of answers to a read and of its entries in `pendingLocalReads`. -/
def ReadContext.account (x : ReadContext) (a : Activation) (id : MessageID) : ℕ :=
  (x.answered ++ x.answers a).countP (fun r => r.solicitingMessage = id) +
    if a.dir.pendingLocalReads id = none then 0 else 1

/-- The books of the local reads of a node: every read that has been accepted is answered or
pending. -/
structure Booked (x : ReadContext) (a : Activation) : Prop extends Recorded x a where
  once : ∀ id, x.accepted.countP (fun m => m.msgID = id) = x.account a id

namespace Booked

/-- The part of an activation that the books are about. -/
def view (a : Activation) :=
  (a.dir.pendingLocalReads, a.dir.reversePendingLocalReads, a.dir.pendingDirectorySharedReads,
    a.dir.pendingDirectoryExclusiveReads, a.sent, a.currentMsgStamp)

lemma congr (h : Booked x a) (hab : view b = view a) : Booked x b := by
  obtain ⟨⟨pendingLocalReads, pr, pri, ps, pe, pev, pm, pw, reverse, dd⟩, stamp, sent, order⟩ := b
  obtain ⟨⟨pendingLocalReads', pr', pri', ps', pe', pev', pm', pw', reverse', dd'⟩, stamp', sent',
    order'⟩ := a
  simp only [view, Prod.mk.injEq] at hab
  obtain ⟨rfl, rfl, rfl, rfl, rfl, rfl⟩ := hab
  exact ⟨⟨h.recorded, h.reverse, h.nodup, h.missing, h.shared, h.exclusive, h.sent, h.stamp⟩,
    h.once⟩

/-- A packet is sent that is no answer of `OnDirectoryBlockResponse`. -/
lemma send {p : Packet} (h : Booked x a) (hp : Agrees x.issued p.msg ∧ p.cacheRead = none)
    (hanswer : x.counts = false ∨ p.localAnswer = none) : Booked x (a.send p) := by
  have hanswers : x.answers (a.send p) = x.answers a := by
    rcases hanswer with hcounts | hnone
    · rw [ReadContext.answers, ReadContext.answers, hcounts]
      rfl
    · rw [ReadContext.answers, ReadContext.answers, Activation.send, List.filterMap_append,
        List.filterMap_cons_none hnone, List.filterMap_nil, List.append_nil]
  refine ⟨⟨h.recorded, h.reverse, h.nodup, ?_, h.shared, h.exclusive, fun q hq => ?_, h.stamp⟩,
    fun id => ?_⟩
  · rw [hanswers]
    exact h.missing
  · rcases List.mem_append.1 hq with hmem | hmem
    · exact h.sent q hmem
    · rw [List.mem_singleton.1 hmem]
      exact hp
  · rw [h.once, ReadContext.account, ReadContext.account, hanswers]
    rfl

lemma stamped (h : Booked x a) : Booked x a.stamped :=
  ⟨⟨h.recorded, h.reverse, h.nodup, h.missing, h.shared, h.exclusive, h.sent,
    Nat.le_succ_of_le h.stamp⟩, h.once⟩

lemma setDirectoryData {block : BlockData} (h : Booked x a) :
    Booked x (a.setDirectoryData addr block) := h.congr rfl

lemma setPendingDirectorySharedReads {l : List (LookupData ReadMsg)} (h : Booked x a)
    (hl : ∀ ld ∈ l, x.IsRead addr ld) : Booked x (a.setPendingDirectorySharedReads addr l) where
  __ := h
  shared addr' ld hld := by
    change ld ∈ Function.update a.dir.pendingDirectorySharedReads addr l addr' at hld
    by_cases haddr : addr' = addr
    · rw [haddr, Function.update_self] at hld
      rw [haddr]
      exact hl ld hld
    · rw [Function.update_of_ne haddr] at hld
      exact h.shared addr' ld hld

lemma setPendingDirectoryExclusiveRead {o : Option (LookupData ReadMsg)} (h : Booked x a)
    (ho : ∀ ld, o = some ld → x.IsRead addr ld) :
    Booked x (a.setPendingDirectoryExclusiveRead addr o) where
  __ := h
  exclusive addr' ld hld := by
    change Function.update a.dir.pendingDirectoryExclusiveReads addr o addr' = some ld at hld
    by_cases haddr : addr' = addr
    · rw [haddr, Function.update_self] at hld
      rw [haddr]
      exact ho ld hld
    · rw [Function.update_of_ne haddr] at hld
      exact h.exclusive addr' ld hld

end Booked

/-! ## The handlers that leave the local reads alone -/

namespace Device

lemma booked_sendNetwork {dest : NodeID} {msg : Msg} (h : Booked x a)
    (hmsg : Agrees x.issued msg) : Booked x (self.sendNetwork dest msg a) :=
  h.send ⟨hmsg, rfl⟩ (.inr rfl)

/-- A message other than an answer is sent to the local cache. -/
lemma booked_sendLocalCache {msg : Msg} (h : Booked x a) (hmsg : Agrees x.issued msg)
    (hne : ∀ r, msg ≠ .readResponse r) : Booked x (self.sendLocalCache msg a) := by
  refine h.send ⟨hmsg, rfl⟩ (.inr ?_)
  cases msg <;> first | rfl | exact absurd rfl (hne _)

lemma booked_sendReadRequestToMemory {m : ReadMsg} (h : Booked x a)
    (hm : x.issued m.msgID m.addr) : Ensures (Booked x) (self.sendReadRequestToMemory m a) := by
  refine ensures_check_bind.2 fun _ => ensures_ok.2 ?_
  exact (h.congr rfl : Booked x (a.setPendingMemoryRead m.msgID (some m))).send ⟨hm, rfl⟩ (.inr rfl)

lemma booked_sendWriteRequestToMemory {m : WriteMsg} (h : Booked x a) :
    Ensures (Booked x) (self.sendWriteRequestToMemory m a) := by
  refine ensures_check_bind.2 fun _ => ensures_ok.2 ?_
  exact (h.congr rfl : Booked x (a.setPendingMemoryWrite m.msgID (some m))).send ⟨trivial, rfl⟩ (.inr rfl)

lemma booked_writeBlock {blockAttached : Bool} (h : Booked x a) :
    Ensures (Booked x) (self.writeBlock blockAttached addr a) := by
  rw [writeBlock]
  split
  · exact booked_sendWriteRequestToMemory h.stamped
  · exact ensures_ok.2 h

lemma booked_eraseDirectoryShare {id : NodeID} (h : Booked x a) :
    Ensures (Booked x) (eraseDirectoryShare addr id a) := by
  rw [eraseDirectoryShare]
  split
  · exact ensures_error
  · exact ensures_ok.2 h.setDirectoryData

lemma booked_addDirectoryShare {id : NodeID} {exclusive : Bool} (h : Booked x a) :
    Ensures (Booked x) (addDirectoryShare addr id exclusive a) := by
  rw [addDirectoryShare]
  split
  · exact ensures_error
  · exact ensures_check_bind.2 fun _ => ensures_ok.2 h.setDirectoryData

lemma booked_onRemoteReadCache {m : ReadMsg} (h : Booked x a) (hm : x.issued m.msgID m.addr) :
    Ensures (Booked x) (self.onRemoteReadCache m src a) := by
  refine ensures_check_bind.2 fun _ => ensures_check_bind.2 fun _ => ensures_ok.2 ?_
  exact booked_sendLocalCache (h.congr rfl) hm fun _ hr => nomatch hr

lemma fetchedRead_eq_some (h : fetchedRead addr a = some ld) :
    ld ∈ a.dir.pendingDirectorySharedReads addr ∨
      a.dir.pendingDirectoryExclusiveReads addr = some ld := by
  rw [fetchedRead] at h
  split at h
  · rename_i ld' hld
    cases h
    exact .inl (List.mem_of_getElem? hld)
  · exact .inr h

lemma booked_performDirectoryFetch (h : Booked x a) :
    Ensures (Booked x) (self.performDirectoryFetch addr a) := by
  refine ensures_check_bind.2 fun _ => ensures_check_bind.2 fun _ => Ensures.elim fun ld hld => ?_
  -- the read that is fetched for is pending for the line
  have hread : x.IsRead addr ld :=
    (fetchedRead_eq_some hld).elim (h.shared addr ld) (h.exclusive addr ld)
  have hm : x.issued ld.msg.msgID ld.msg.addr := by
    rw [hread.1]
    exact hread.2
  dsimp only
  split
  · split
    · exact booked_onRemoteReadCache (h.congr rfl) hm
    · exact ensures_ok.2 (booked_sendNetwork (h.congr rfl) hm)
  · split
    · exact booked_sendReadRequestToMemory (h.congr rfl) hm
    · exact ensures_ok.2 (h.congr rfl)

lemma booked_onDirectoryBlockRequest {m : ReadMsg} (h : Booked x a)
    (hm : x.issued m.msgID m.addr) :
    Ensures (Booked x) (self.onDirectoryBlockRequest m src a) := by
  rw [onDirectoryBlockRequest]
  split
  · refine ensures_ok.2 ?_
    split
    · exact h.send ⟨hm, rfl⟩ (.inr rfl)
    · exact booked_sendNetwork h.stamped hm
  · split
    · refine booked_performDirectoryFetch (h.setPendingDirectoryExclusiveRead fun ld hld => ?_)
      cases hld
      exact ⟨rfl, hm⟩
    · dsimp only
      have hinsert : Booked x (a.setPendingDirectorySharedReads m.addr
          ((a.dir.pendingDirectorySharedReads m.addr).insertIdx
            (a.order.position % ((a.dir.pendingDirectorySharedReads m.addr).length + 1))
            (.new m src))) := by
        refine h.setPendingDirectorySharedReads fun ld hld => ?_
        rcases List.eq_or_mem_of_mem_insertIdx hld with rfl | hmem
        · exact ⟨rfl, hm⟩
        · exact h.shared m.addr ld hmem
      split
      · exact ensures_ok.2 hinsert
      · exact booked_performDirectoryFetch hinsert

lemma booked_onRemoteInvalidate {m : InvalidateMsg} (h : Booked x a) :
    Ensures (Booked x) (self.onRemoteInvalidate m src a) := by
  refine ensures_check_bind.2 fun _ => ensures_ok.2 ?_
  exact booked_sendLocalCache (h.congr rfl) trivial fun _ hr => nomatch hr

lemma booked_sendInvalidate {dest : NodeID} (h : Booked x a) :
    Ensures (Booked x) (self.sendInvalidate addr dest a) := by
  rw [sendInvalidate]
  split
  · exact ensures_ok.2 (booked_sendNetwork h.stamped trivial)
  · exact booked_onRemoteInvalidate h.stamped

lemma booked_invalidateSharers {block : BlockData} (h : Booked x a) (hld : x.IsRead addr ld) :
    Ensures (Booked x) (self.invalidateSharers addr block ld a) := by
  refine Ensures.foldlM (h.setPendingDirectoryExclusiveRead fun ld' hld' => ?_)
    fun dest _ b hb => booked_sendInvalidate hb
  cases hld'
  exact hld

lemma booked_onRemoteDirectoryNak {m : DirectoryNakMsg} (h : Booked x a) :
    Ensures (Booked x) (self.onRemoteDirectoryNak m src a) := by
  rw [onRemoteDirectoryNak]
  split
  · split
    · exact booked_performDirectoryFetch h
    · exact ensures_ok.2 h
  · split
    · exact booked_sendInvalidate h
    · exact ensures_error

lemma booked_onRemoteEviction {m : EvictionMsg} (h : Booked x a) :
    Ensures (Booked x) (self.onRemoteEviction m src a) := by
  rw [onRemoteEviction]
  split
  · exact ensures_error
  · have hanswer : ∀ b, Booked x b → Ensures (Booked x) (self.answerEviction m src b) := by
      intro b hb
      rw [answerEviction]
      split
      · exact ensures_check_bind.2 fun _ => ensures_ok.2 (hb.congr rfl)
      · exact ensures_ok.2 (booked_sendNetwork hb.stamped trivial)
    exact (hanswer _ h.setDirectoryData).bind fun b hb => booked_writeBlock hb

lemma booked_onRemoteEvictionResponse {m : EvictionResponseMsg} (h : Booked x a) :
    Ensures (Booked x) (self.onRemoteEvictionResponse m a) := by
  refine ensures_check_bind.2 fun _ => ensures_ok.2 ?_
  exact booked_sendLocalCache (h.congr rfl) trivial fun _ hr => nomatch hr

/-- The home gives the block away; only here an answer is sent that is not counted. -/
lemma booked_grantExclusive (h : Booked x a) (hcounts : x.counts = false)
    (hld : x.IsRead addr ld) : Ensures (Booked x) (self.grantExclusive addr ld a) := by
  have hsent : ∀ b, Booked x b → ∀ rm : ReadResponseMsg,
      rm.solicitingMessage = ld.msg.msgID → rm.addr = addr →
      Booked x (if ld.sourceNode = self.nodeID then self.sendLocalCache (.readResponse rm) b
        else self.sendNetwork ld.sourceNode (.readResponse rm) b) := by
    intro b hb rm hid haddr
    have hagrees : Agrees x.issued (.readResponse rm) := by
      rw [Agrees, hid, haddr]
      exact hld.2
    split
    · exact hb.send ⟨hagrees, rfl⟩ (.inl hcounts)
    · exact booked_sendNetwork hb hagrees
  refine (booked_addDirectoryShare (hsent _ ?_ _ rfl rfl)).bind fun b hb =>
    ensures_ok.2 (hb.setPendingDirectoryExclusiveRead fun _ hnone => nomatch hnone)
  exact h.setDirectoryData.stamped

lemma booked_countInvalidateResponse {block : BlockData} (h : Booked x a)
    (hcounts : x.counts = false) :
    Ensures (Booked x) (self.countInvalidateResponse addr block a) := by
  rw [countInvalidateResponse]
  split
  · exact ensures_error
  · rename_i ld hld
    have hread := h.exclusive addr ld hld
    have hcounted : ∀ n, x.IsRead addr { ld with invalidateResponsesReceived := n } :=
      fun _ => hread
    have hset : Booked x (a.setPendingDirectoryExclusiveRead addr (some { ld with
        invalidateResponsesReceived := ld.invalidateResponsesReceived + 1 })) := by
      refine h.setPendingDirectoryExclusiveRead fun ld' hld' => ?_
      cases hld'
      exact hread
    dsimp only
    split
    · exact booked_grantExclusive hset hcounts (hcounted _)
    · exact ensures_ok.2 hset

lemma booked_onRemoteInvalidateResponse {m : InvalidateResponseMsg} (h : Booked x a)
    (hcounts : x.counts = false) :
    Ensures (Booked x) (self.onRemoteInvalidateResponse m src a) := by
  rw [onRemoteInvalidateResponse]
  split
  · exact ensures_error
  · refine ensures_check_bind.2 fun _ => ensures_check_bind.2 fun _ => ?_
    exact (booked_writeBlock h.setDirectoryData).bind fun b hb =>
      booked_countInvalidateResponse hb hcounts

/-! ## Answers to local reads -/

/-- If one element at most passes a test, none is left when the first has been erased. -/
lemma not_of_mem_eraseP {α : Type*} {p : α → Bool} {l : List α} {c : α} (hl : l.Nodup)
    (hp : ∀ d ∈ l, ∀ e ∈ l, p d → p e → d = e) (hc : c ∈ l.eraseP p) : ¬p c := by
  induction l with
  | nil => cases hc
  | cons d l ih =>
    intro hpc
    have hmem : c ∈ d :: l := List.mem_of_mem_eraseP hc
    by_cases hd : p d
    · rw [List.eraseP_cons_of_pos hd] at hc
      have hcd := hp c hmem d List.mem_cons_self hpc hd
      exact (List.nodup_cons.1 hl).1 (hcd ▸ hc)
    · rw [List.eraseP_cons_of_neg hd, List.mem_cons] at hc
      rcases hc with rfl | hc
      · exact hd hpc
      · exact ih (List.nodup_cons.1 hl).2 (fun d hd e he =>
          hp d (List.mem_cons_of_mem _ hd) e (List.mem_cons_of_mem _ he)) hc hpc

/-- A local read is recorded, when it arrives or when it is tried again. -/
lemma booked_onLocalRead {m : ReadMsg} (h : Recorded x a) (haccepted : m ∈ x.accepted)
    (hissued : x.issued m.msgID m.addr) (honce : ∀ id, x.accepted.countP (fun m => m.msgID = id) =
      x.account a id + if id = m.msgID then 1 else 0) :
    Ensures (Booked x) (self.onLocalRead m a) := by
  refine ensures_check_bind.2 fun hcheck => ensures_ok.2 ?_
  have hnone : a.dir.pendingLocalReads m.msgID = none := of_decide_eq_true hcheck
  have hother : ∀ id m', a.dir.pendingLocalReads id = some m' → id ≠ m.msgID := by
    rintro id m' hm' rfl
    cases hnone.symm.trans hm'
  have hrecord : Booked x ((a.setPendingLocalRead m.msgID (some m)).modifyReversePendingLocalReads
      m.addr (· ++ [m])) := by
    obtain ⟨b, hb⟩ : ∃ b, b = (a.setPendingLocalRead m.msgID
      (some m)).modifyReversePendingLocalReads m.addr (· ++ [m]) := ⟨_, rfl⟩
    have hpending : b.dir.pendingLocalReads =
        Function.update a.dir.pendingLocalReads m.msgID (some m) := by rw [hb]; rfl
    have hreverse : b.dir.reversePendingLocalReads =
        Function.update a.dir.reversePendingLocalReads m.addr
          (a.dir.reversePendingLocalReads m.addr ++ [m]) := by rw [hb]; rfl
    have hanswers : x.answers b = x.answers a := by rw [hb]; rfl
    have hkept : b.dir.pendingDirectorySharedReads = a.dir.pendingDirectorySharedReads ∧
        b.dir.pendingDirectoryExclusiveReads = a.dir.pendingDirectoryExclusiveReads ∧
        b.sent = a.sent ∧ b.currentMsgStamp = a.currentMsgStamp := by
      rw [hb]
      exact ⟨rfl, rfl, rfl, rfl⟩
    rw [← hb]
    clear hb
    have hmem : ∀ addr m', m' ∈ b.dir.reversePendingLocalReads addr ↔
        m' ∈ a.dir.reversePendingLocalReads addr ∨ addr = m.addr ∧ m' = m := by
      intro addr m'
      rw [hreverse]
      by_cases haddr : addr = m.addr
      · rw [haddr, Function.update_self, List.mem_append, List.mem_singleton]
        simp
      · rw [Function.update_of_ne haddr]
        simp [haddr]
    refine ⟨⟨fun id m' hm' => ?_, fun addr m' hm' => ?_, fun addr => ?_, fun id m' hm' => ?_,
      ?_, ?_, ?_, ?_⟩, fun id => ?_⟩
    · rw [hpending] at hm'
      by_cases hid : id = m.msgID
      · rw [hid, Function.update_self] at hm'
        cases hm'
        exact ⟨hid.symm, haccepted, hid ▸ hissued⟩
      · rw [Function.update_of_ne hid] at hm'
        exact h.recorded id m' hm'
    · rcases (hmem addr m').1 hm' with hold | ⟨rfl, rfl⟩
      · obtain ⟨haddr, hm'⟩ := h.reverse addr m' hold
        rw [hpending, Function.update_of_ne (hother _ m' hm')]
        exact ⟨haddr, hm'⟩
      · rw [hpending, Function.update_self]
        exact ⟨rfl, rfl⟩
    · rw [hreverse]
      by_cases haddr : addr = m.addr
      · rw [haddr, Function.update_self]
        refine (h.nodup m.addr).append (List.nodup_singleton m) fun m' hm' heq => ?_
        rw [List.mem_singleton.1 heq] at hm'
        exact hother _ m (h.reverse m.addr m hm').2 rfl
      · rw [Function.update_of_ne haddr]
        exact h.nodup addr
    · rw [hanswers, hmem]
      rw [hpending] at hm'
      by_cases hid : id = m.msgID
      · rw [hid, Function.update_self] at hm'
        cases hm'
        exact .inl (.inr ⟨rfl, rfl⟩)
      · rw [Function.update_of_ne hid] at hm'
        exact (h.missing id m' hm').imp_left .inl
    · rw [hkept.1]
      exact h.shared
    · rw [hkept.2.1]
      exact h.exclusive
    · rw [hkept.2.2.1]
      exact h.sent
    · rw [hkept.2.2.2]
      exact h.stamp
    · rw [honce, ReadContext.account, ReadContext.account, hanswers, hpending]
      by_cases hid : id = m.msgID
      · rw [hid, Function.update_self, hnone, if_pos rfl, if_pos rfl,
          if_neg (Option.some_ne_none m)]
      · rw [Function.update_of_ne hid, if_neg hid, Nat.add_zero]
  split
  · exact hrecord.send ⟨hissued, rfl⟩ (.inr rfl)
  · exact booked_sendNetwork hrecord hissued

/-- An answered read has been erased from both maps. -/
lemma recorded_erase {id : MessageID} {ref : ReadMsg} (h : Booked x a)
    (href : a.dir.pendingLocalReads id = some ref) :
    Recorded x ((a.setPendingLocalRead id none).modifyReversePendingLocalReads ref.addr
      (·.eraseP fun read => read.msgID = id)) ∧
    ∀ id', x.accepted.countP (fun m => m.msgID = id') =
      x.account ((a.setPendingLocalRead id none).modifyReversePendingLocalReads ref.addr
        (·.eraseP fun read => read.msgID = id)) id' + if id' = id then 1 else 0 := by
  obtain ⟨b, hb⟩ : ∃ b, b = (a.setPendingLocalRead id none).modifyReversePendingLocalReads
    ref.addr (·.eraseP fun read => read.msgID = id) := ⟨_, rfl⟩
  have hpending : b.dir.pendingLocalReads = Function.update a.dir.pendingLocalReads id none := by
    rw [hb]; rfl
  have hreverse : b.dir.reversePendingLocalReads =
      Function.update a.dir.reversePendingLocalReads ref.addr
        ((a.dir.reversePendingLocalReads ref.addr).eraseP fun read => read.msgID = id) := by
    rw [hb]; rfl
  have hanswers : x.answers b = x.answers a := by rw [hb]; rfl
  have hkept : b.dir.pendingDirectorySharedReads = a.dir.pendingDirectorySharedReads ∧
      b.dir.pendingDirectoryExclusiveReads = a.dir.pendingDirectoryExclusiveReads ∧
      b.sent = a.sent ∧ b.currentMsgStamp = a.currentMsgStamp := by
    rw [hb]
    exact ⟨rfl, rfl, rfl, rfl⟩
  rw [← hb]
  clear hb
  obtain ⟨hid, -, -⟩ := h.recorded id ref href
  -- the read is the only entry of the reverse map with its identifier
  have hunique : ∀ addr m, m ∈ a.dir.reversePendingLocalReads addr → m.msgID = id →
      m = ref ∧ addr = ref.addr := by
    intro addr m hm hmid
    obtain ⟨haddr, hsome⟩ := h.reverse addr m hm
    rw [hmid, href] at hsome
    cases hsome
    exact ⟨rfl, haddr.symm⟩
  have hmem : ∀ addr m, m ∈ b.dir.reversePendingLocalReads addr ↔
      m ∈ a.dir.reversePendingLocalReads addr ∧ m.msgID ≠ id := by
    intro addr m
    rw [hreverse]
    by_cases haddr : addr = ref.addr
    · rw [haddr, Function.update_self]
      constructor
      · intro hm
        refine ⟨List.mem_of_mem_eraseP hm, fun hmid => ?_⟩
        refine not_of_mem_eraseP (h.nodup ref.addr) (fun c hc d hd hpc hpd => ?_) hm
          (decide_eq_true hmid)
        rw [(hunique _ c hc (of_decide_eq_true hpc)).1, (hunique _ d hd (of_decide_eq_true hpd)).1]
      · rintro ⟨hm, hmid⟩
        have hneg : ¬decide (m.msgID = id) = true := fun h => hmid (of_decide_eq_true h)
        exact (List.mem_eraseP_of_neg (p := fun read => decide (read.msgID = id)) hneg).2 hm
    · rw [Function.update_of_ne haddr]
      exact ⟨fun hm => ⟨hm, fun hmid => haddr (hunique addr m hm hmid).2⟩, And.left⟩
  refine ⟨⟨fun id' m hm => ?_, fun addr m hm => ?_, fun addr => ?_, fun id' m hm => ?_, ?_, ?_, ?_,
    ?_⟩, fun id' => ?_⟩
  · rw [hpending] at hm
    by_cases hid' : id' = id
    · rw [hid', Function.update_self] at hm
      cases hm
    · rw [Function.update_of_ne hid'] at hm
      exact h.recorded id' m hm
  · obtain ⟨hold, hmid⟩ := (hmem addr m).1 hm
    rw [hpending, Function.update_of_ne hmid]
    exact h.reverse addr m hold
  · rw [hreverse]
    by_cases haddr : addr = ref.addr
    · rw [haddr, Function.update_self]
      exact (h.nodup ref.addr).sublist List.eraseP_sublist
    · rw [Function.update_of_ne haddr]
      exact h.nodup addr
  · rw [hpending] at hm
    by_cases hid' : id' = id
    · rw [hid', Function.update_self] at hm
      cases hm
    · rw [Function.update_of_ne hid'] at hm
      rw [hanswers, hmem]
      refine (h.missing id' m hm).imp_left fun hold => ⟨hold, ?_⟩
      rw [(h.recorded id' m hm).1]
      exact hid'
  · rw [hkept.1]
    exact h.shared
  · rw [hkept.2.1]
    exact h.exclusive
  · rw [hkept.2.2.1]
    exact h.sent
  · rw [hkept.2.2.2]
    exact h.stamp
  · rw [h.once, ReadContext.account, ReadContext.account, hanswers, hpending]
    by_cases hid' : id' = id
    · rw [hid', Function.update_self, href, if_pos rfl, if_pos rfl,
        if_neg (Option.some_ne_none ref)]
    · rw [Function.update_of_ne hid', if_neg hid', Nat.add_zero]

/-- An answer is sent to the local cache; an exclusive one erases the reads of the line from the
reverse map. -/
lemma booked_answerLocalRead {m : ReadResponseMsg} {ref : ReadMsg} (h : Recorded x a)
    (hcounts : x.counts = true) (hissued : x.issued ref.msgID ref.addr)
    (honce : ∀ id, x.accepted.countP (fun m => m.msgID = id) =
      x.account a id + if id = ref.msgID then 1 else 0) :
    Booked x (self.answerLocalRead m ref
      (if m.exclusiveOwnership then a.modifyReversePendingLocalReads ref.addr fun _ => []
        else a)) := by
  obtain ⟨c, hc⟩ : ∃ c, c = (if m.exclusiveOwnership then
    a.modifyReversePendingLocalReads ref.addr fun _ => [] else a) := ⟨_, rfl⟩
  have hkept : c.dir.pendingLocalReads = a.dir.pendingLocalReads ∧
      c.dir.pendingDirectorySharedReads = a.dir.pendingDirectorySharedReads ∧
      c.dir.pendingDirectoryExclusiveReads = a.dir.pendingDirectoryExclusiveReads ∧
      c.sent = a.sent ∧ c.currentMsgStamp = a.currentMsgStamp := by
    rw [hc]
    split <;> exact ⟨rfl, rfl, rfl, rfl, rfl⟩
  obtain ⟨hpending, hshared, hexclusive, hsent, hstamp⟩ := hkept
  have hreverse : ∀ addr, c.dir.reversePendingLocalReads addr =
      a.dir.reversePendingLocalReads addr ∨ c.dir.reversePendingLocalReads addr = [] ∧
        addr = ref.addr ∧ m.exclusiveOwnership = true := by
    intro addr
    rw [hc]
    split
    · rename_i hm
      by_cases haddr : addr = ref.addr
      · refine .inr ⟨?_, haddr, hm⟩
        rw [haddr]
        exact Function.update_self _ _ _
      · exact .inl (Function.update_of_ne haddr _ _)
    · exact .inl rfl
  rw [← hc]
  clear hc
  obtain ⟨r, hr, hid, haddr, hexcl⟩ : ∃ r : ReadResponseMsg,
      self.answerLocalRead m ref c = self.sendLocalCache (.readResponse r) c.stamped ∧
      r.solicitingMessage = ref.msgID ∧ r.addr = ref.addr ∧
      r.exclusiveOwnership = m.exclusiveOwnership := ⟨_, rfl, rfl, rfl, rfl⟩
  have hanswers : x.answers (self.sendLocalCache (.readResponse r) c.stamped) =
      x.answers a ++ [r] := by
    rw [ReadContext.answers, ReadContext.answers, if_pos hcounts, if_pos hcounts, ← hsent]
    exact List.filterMap_append
  rw [hr]
  refine ⟨⟨?_, fun addr m' hm' => ?_, fun addr => ?_, fun id m' hm' => ?_, ?_, ?_, ?_, ?_⟩,
    fun id => ?_⟩
  · exact hpending ▸ h.recorded
  · rcases hreverse addr with heq | ⟨hnil, -⟩
    · exact hpending ▸ h.reverse addr m' (heq ▸ hm')
    · have hmem : m' ∈ c.dir.reversePendingLocalReads addr := hm'
      rw [hnil] at hmem
      cases hmem
  · rcases hreverse addr with heq | ⟨hnil, -⟩
    · exact heq ▸ h.nodup addr
    · exact hnil ▸ List.nodup_nil
  · rw [hanswers]
    rcases h.missing id m' (hpending ▸ hm') with hold | hlost | ⟨r', hr', hmissing⟩
    · rcases hreverse m'.addr with heq | ⟨-, haddr', hm⟩
      · exact .inl (heq ▸ hold)
      · -- the read has been erased by this answer
        refine .inr (.inr ⟨r, List.mem_append_right _ (List.mem_singleton_self r), ?_, ?_⟩)
        · rw [hexcl, hm]
        · rw [haddr, haddr']
    · exact .inr (.inl hlost)
    · exact .inr (.inr ⟨r', List.mem_append_left _ hr', hmissing⟩)
  · exact hshared ▸ h.shared
  · exact hexclusive ▸ h.exclusive
  · intro p hp
    rcases List.mem_append.1 hp with hold | hnew
    · exact h.sent p (hsent ▸ hold)
    · rw [List.mem_singleton.1 hnew]
      refine ⟨?_, rfl⟩
      show x.issued r.solicitingMessage r.addr
      rw [hid, haddr]
      exact hissued
  · exact Nat.le_succ_of_le (hstamp ▸ h.stamp)
  · have happend : (x.answered ++ x.answers a ++ [r]).countP (fun r => r.solicitingMessage = id) =
        (x.answered ++ x.answers a).countP (fun r => r.solicitingMessage = id) +
          if id = ref.msgID then 1 else 0 := by
      have hsingle : [r].countP (fun r => decide (r.solicitingMessage = id)) =
          if decide (ref.msgID = id) = true then 1 else 0 := by
        rw [List.countP_singleton, hid]
      rw [List.countP_append, hsingle]
      by_cases hidr : id = ref.msgID
      · rw [if_pos hidr, if_pos (decide_eq_true hidr.symm)]
      · rw [if_neg hidr, if_neg fun h => hidr (of_decide_eq_true h).symm]
    have hpend : (self.sendLocalCache (.readResponse r) c.stamped).dir.pendingLocalReads =
        a.dir.pendingLocalReads := hpending
    rw [honce, ReadContext.account, ReadContext.account, hanswers, ← List.append_assoc, happend,
      hpend]
    omega

lemma booked_onDirectoryBlockResponse {m : ReadResponseMsg} (h : Booked x a)
    (hcounts : x.counts = true) (hunique : x.Unique) (hm : x.issued m.solicitingMessage m.addr) :
    Ensures (Booked x) (self.onDirectoryBlockResponse m a) := by
  refine Ensures.elim fun ref href => ?_
  obtain ⟨hid, haccepted, hissued⟩ := h.recorded _ ref href
  obtain ⟨herased, honce⟩ := recorded_erase h href
  rw [hunique _ _ _ hm hissued]
  rw [← hid] at hissued
  dsimp only
  split
  · exact ensures_ok.2 (booked_answerLocalRead herased hcounts hissued (hid ▸ honce))
  · exact booked_onLocalRead herased haccepted hissued (hid ▸ honce)

/-! ## Responses at the home -/

lemma booked_answerSharedRead {isOneReader : Bool} (h : Booked x a) (hcounts : x.counts = true)
    (hunique : x.Unique) (hld : x.IsRead addr ld) :
    Ensures (Booked x) (self.answerSharedRead addr isOneReader ld a) := by
  rw [answerSharedRead]
  split
  · exact booked_onDirectoryBlockResponse h.stamped hcounts hunique hld.2
  · exact ensures_ok.2 (booked_sendNetwork h.stamped hld.2)

lemma booked_satisfySharedReads (h : Booked x a) (hcounts : x.counts = true)
    (hunique : x.Unique) : Ensures (Booked x) (self.satisfySharedReads addr a) := by
  refine (Ensures.foldlM h fun ld _ b hb => booked_addDirectoryShare hb).bind fun b hb => ?_
  refine (Ensures.foldlM hb fun ld hld c hc => ?_).bind fun c hc => ensures_ok.2 ?_
  · exact booked_answerSharedRead hc hcounts hunique (h.shared addr ld hld)
  · exact hc.setPendingDirectorySharedReads fun ld hld => nomatch hld

lemma booked_answerExclusiveRead {m : ReadResponseMsg} (h : Booked x a)
    (hcounts : x.counts = true) (hunique : x.Unique)
    (hm : x.issued m.solicitingMessage m.addr) :
    Ensures (Booked x) (self.answerExclusiveRead m ld a) := by
  rw [answerExclusiveRead]
  split
  · exact ensures_ok.2 (booked_sendNetwork h hm)
  · exact booked_onDirectoryBlockResponse h hcounts hunique hm

lemma booked_satisfyExclusiveReads {m : ReadResponseMsg} (h : Booked x a)
    (hcounts : x.counts = true) (hunique : x.Unique)
    (hm : x.issued m.solicitingMessage m.addr) :
    Ensures (Booked x) (self.satisfyExclusiveReads m src a) := by
  refine ensures_check_bind.2 fun _ => ensures_check_bind.2 fun _ => ensures_check_bind.2 fun _ =>
    Ensures.elim fun ld hld => ?_
  split
  · refine (booked_answerExclusiveRead h hcounts hunique hm).bind fun b hb => ?_
    refine (booked_addDirectoryShare hb).bind fun c hc => ensures_ok.2 ?_
    exact hc.setPendingDirectoryExclusiveRead fun _ hnone => nomatch hnone
  · exact booked_invalidateSharers h (h.exclusive m.addr ld hld)

lemma booked_onRemoteReadResponse {m : ReadResponseMsg} (h : Booked x a)
    (hcounts : x.counts = true) (hunique : x.Unique)
    (hm : x.issued m.solicitingMessage m.addr) :
    Ensures (Booked x) (self.onRemoteReadResponse m src a) := by
  refine ensures_check_bind.2 fun _ => ensures_check_bind.2 fun _ => ensures_check_bind.2 fun _ =>
    ensures_check_bind.2 fun _ => ?_
  split
  · have herase : Ensures (Booked x) (eraseExclusiveShare m src a) := by
      rw [eraseExclusiveShare]
      split
      · exact booked_eraseDirectoryShare h
      · exact ensures_ok.2 h
    refine herase.bind fun b hb => ?_
    split
    · exact booked_satisfySharedReads hb hcounts hunique
    · exact booked_satisfyExclusiveReads hb hcounts hunique hm
  · exact (booked_eraseDirectoryShare h).bind fun b hb =>
      ensures_check_bind.2 fun _ => booked_performDirectoryFetch hb

/-! ## The messages of the local cache -/

lemma booked_onLocalReadResponse {m : ReadResponseMsg} (h : Booked x a)
    (hm : x.issued m.solicitingMessage m.addr) :
    Ensures (Booked x) (self.onLocalReadResponse m a) := by
  refine Ensures.elim fun ld _ => ensures_check_bind.2 fun _ => ?_
  have hset : Booked x (a.setPendingRemoteRead ld.msg.msgID none) := h.congr rfl
  dsimp only
  split
  · exact ensures_ok.2 (booked_sendNetwork hset hm)
  · refine ensures_check_bind.2 fun _ => ensures_ok.2 ?_
    split
    · exact hset.stamped.send ⟨trivial, rfl⟩ (.inr rfl)
    · exact booked_sendNetwork hset.stamped trivial

lemma booked_onLocalWrite {m : WriteMsg} (h : Booked x a) :
    Ensures (Booked x) (self.onLocalWrite m a) := by
  have hsend : Booked x (self.sendLocalCache (.writeResponse
      { msgID := a.currentMsgStamp, addr := m.addr, solicitingMessage := m.msgID }) a.stamped) :=
    booked_sendLocalCache h.stamped trivial fun _ hr => nomatch hr
  rw [onLocalWrite]
  split
  · exact ensures_check_bind.2 fun _ => booked_sendWriteRequestToMemory hsend
  · exact ensures_ok.2 (booked_sendNetwork hsend trivial)

lemma booked_onLocalEviction {m : EvictionMsg} (h : Booked x a) :
    Ensures (Booked x) (self.onLocalEviction m a) := by
  rw [onLocalEviction]
  split
  · exact ensures_ok.2 h
  · have hset : Booked x (a.setPendingEviction m.addr true) := h.congr rfl
    have hsend : Booked x (self.sendLocalCache (.evictionResponse (.ofEviction
        (a.setPendingEviction m.addr true).currentMsgStamp m))
        (a.setPendingEviction m.addr true).stamped) :=
      booked_sendLocalCache hset.stamped trivial fun _ hr => nomatch hr
    dsimp only
    split
    · exact booked_onRemoteEviction hsend
    · exact ensures_ok.2 (booked_sendNetwork hsend trivial)

lemma booked_onLocalInvalidateResponse {m : InvalidateResponseMsg} (h : Booked x a)
    (hcounts : x.counts = false) :
    Ensures (Booked x) (self.onLocalInvalidateResponse m a) := by
  refine Ensures.elim fun ld _ => ensures_check_bind.2 fun _ => ?_
  have hpass : Ensures (Booked x) (self.passInvalidateResponse m ld.sourceNode a) := by
    rw [passInvalidateResponse]
    split
    · exact ensures_ok.2 (booked_sendNetwork h trivial)
    · exact booked_onRemoteInvalidateResponse h hcounts
  exact hpass.bind fun b hb => ensures_ok.2 (hb.congr rfl)

end Device

/-! ## Deliveries -/

/-- Whether a packet is a read response. -/
def Packet.isReadResponse (p : Packet) : Bool :=
  match p.msg with
  | .readResponse _ => true
  | _ => false

lemma booked_testMemoryRecvMsg {node : NodeID} {msg : Msg} (h : Booked x a)
    (hmsg : Agrees x.issued msg) : Ensures (Booked x) (testMemoryRecvMsg node msg a) := by
  cases msg with
  | read m => exact ensures_ok.2 (h.stamped.send ⟨hmsg, rfl⟩ (.inr rfl))
  | write m => exact ensures_ok.2 (h.stamped.send ⟨trivial, rfl⟩ (.inr rfl))
  | _ => exact ensures_error

lemma booked_localCacheRecvMsg {node : NodeID} {msg : Msg} (h : Booked x a)
    (hmsg : Agrees x.issued msg) : Ensures (Booked x) (localCacheRecvMsg node msg reply a) := by
  cases msg with
  | read m => exact ensures_ok.2 (h.stamped.send ⟨hmsg, rfl⟩ (.inr rfl))
  | invalidate m => exact ensures_ok.2 (h.stamped.send ⟨trivial, rfl⟩ (.inr rfl))
  | _ => exact ensures_ok.2 h

/-- The handler for a packet other than a new read keeps the books, with its answers counted if
the packet is a read response. -/
lemma booked_recvMsg {cfg : Config} {p : Packet} (h : Booked x a)
    (hcounts : x.counts = p.isReadResponse) (hunique : x.Unique) (hp : Agrees x.issued p.msg)
    (hread : p.cacheRead = none) : Ensures (Booked x) (cfg.recvMsg p reply a) := by
  cases p with
  | network dest src msg =>
    cases msg with
    | directoryNak m => exact Device.booked_onRemoteDirectoryNak h
    | read m =>
      show Ensures _ (if m.directoryLookup then _ else _)
      split
      · exact Device.booked_onDirectoryBlockRequest h hp
      · exact Device.booked_onRemoteReadCache h hp
    | readResponse m =>
      show Ensures _ (if m.directoryLookup then _ else _)
      split
      · exact Device.booked_onDirectoryBlockResponse h hcounts hunique hp
      · exact Device.booked_onRemoteReadResponse h hcounts hunique hp
    | writeResponse m => exact ensures_ok.2 h
    | eviction m => exact Device.booked_onRemoteEviction h
    | evictionResponse m => exact Device.booked_onRemoteEvictionResponse h
    | invalidate m => exact Device.booked_onRemoteInvalidate h
    | invalidateResponse m => exact Device.booked_onRemoteInvalidateResponse h hcounts
    | _ => exact ensures_error
  | scheduled node msg =>
    cases msg with
    | read m => exact Device.booked_onDirectoryBlockRequest h hp
    | directoryNak m => exact Device.booked_onRemoteDirectoryNak h
    | _ => exact ensures_error
  | toLocalCache node msg => exact booked_localCacheRecvMsg h hp
  | fromLocalCache node msg =>
    cases msg with
    | read m => cases hread
    | readResponse m => exact Device.booked_onLocalReadResponse h hp
    | write m => exact Device.booked_onLocalWrite h
    | eviction m => exact Device.booked_onLocalEviction h
    | invalidateResponse m => exact Device.booked_onLocalInvalidateResponse h hcounts
    | _ => exact ensures_error
  | toMemory node msg => exact booked_testMemoryRecvMsg h hp
  | fromMemory node msg =>
    cases msg with
    | readResponse m =>
      refine ensures_check_bind.2 fun _ => ?_
      exact Device.booked_onRemoteReadResponse (h.congr rfl) hcounts hunique hp
    | writeResponse m => exact ensures_check_bind.2 fun _ => ensures_ok.2 (h.congr rfl)
    | _ => exact ensures_error

end Sesc.Bip
