import Mathlib.Data.Finset.Card
import Sesc.Origin.System

/-!
# The invalidates of an exclusive grant

When the home node grants a shared line exclusively, it must invalidate every other node
of its record once, and tell the new owner how many acknowledgements to wait for.
`OnDirectoryShared` does so in any state of the record; the loop of
`OnDirectorySharedExclusiveMemoryAccess` does not leave the owner out, so that an owner
that is also a sharer is invalidated twice.
-/

namespace Sesc.Origin

open Lib

/-- The nodes other than `src` that an entry records as owner or as sharers. -/
def DirectoryData.others (d : DirectoryData) (src : NodeID) : Finset NodeID :=
  (insert d.owner d.sharers.toList.toFinset).erase src

lemma DirectoryData.mem_others {d : DirectoryData} {src n : NodeID} :
    n ∈ d.others src ↔ n ≠ src ∧ (n = d.owner ∨ n ∈ d.sharers) := by
  simp [others, ListSet.mem_iff]

/-- Whether a packet is an invalidate for the cache of a node. -/
def Packet.isInvalidateTo (n : NodeID) : Packet → Bool
  | toCache dest _ (.invalidate _) => dest = n
  | _ => false

/-- A packet is an invalidate of the line of `m`, on behalf of `src`. -/
def Packet.IsInvalidateFor (home : Device) (m : ReadMsg) (src : NodeID) (p : Packet) : Prop :=
  ∃ dest im, p = toCache dest home.nodeID (.invalidate im) ∧ im.addr = m.addr ∧
    im.newOwner = src

/-- A handler that changes an entry from `d` to `d'` grants the read `m` of `src` exclusively:
it invalidates the other recorded nodes, each once, and answers with their number. -/
structure FanOut (home : Device) (d d' : DirectoryData) (m : ReadMsg) (src : NodeID)
    (sent invalidates : List Packet) (reply : ReadReplyMsg) : Prop where
  sent_eq : sent = invalidates ++ [.toCache src home.nodeID (.readReply reply)]
  isInvalidate : ∀ p ∈ invalidates, p.IsInvalidateFor home m src
  once : ∀ n, invalidates.countP (Packet.isInvalidateTo n) = if n ∈ d.others src then 1 else 0
  solicitingMessage : reply.solicitingMessage = m.msgID
  exclusiveOwnership : reply.exclusiveOwnership = true
  pendingInvalidates : reply.pendingInvalidates = (d.others src).card
  owner : d'.owner = src
  sharers : d'.sharers = ∅

/-- A packet makes the home node grant the read `m` of `src` on the shared line with the
entry `d`: it is the read itself, from a recorded node, or the answer of the memory to it. -/
inductive Grants (d : DirectoryData) (m : ReadMsg) (src : NodeID) : Packet → Prop
  | immediate (home : NodeID) : d.state = .shared → m.requestingExclusive = true →
      d.owner = src ∨ src ∈ d.sharers → Grants d m src (.toDirectory home src (.read m))
  | afterMemoryAccess (home : NodeID) (r : ReadResponseMsg) :
      d.state = .sharedExclusiveMemoryAccess → d.firstRequest = some m →
      d.firstRequestSrc = src → Grants d m src (.fromMemory home (.readResponse r))

/-- The entry that a packet for a home node is about. -/
def System.entry (s : System) (p : Packet) : DirectoryData :=
  (s.nodes p.node).directoryDataMap p.msg.getAddress

section

variable (home : Device) {d d' : DirectoryData} {m : ReadMsg} {src : NodeID}
  {line : Address} {a a' : Activation}

/-- The loop sends one invalidate to every node of its list. -/
lemma sendInvalidates_sent {l : List NodeID} (h : home.sendInvalidates m src l a = .ok a') :
    a'.dir = a.dir ∧ ∃ invalidates, a'.sent = a.sent ++ invalidates ∧
      (∀ p ∈ invalidates, p.IsInvalidateFor home m src) ∧
      ∀ n, invalidates.countP (Packet.isInvalidateTo n) = l.count n := by
  induction l generalizing a with
  | nil =>
    cases h
    exact ⟨rfl, [], by simp⟩
  | cons dest rest ih =>
    obtain ⟨b, hb, h⟩ := bind_eq_ok.1 h
    rw [Device.sendInvalidateMsg, Device.sendMessageToRemoteCache_eq_ok] at hb
    obtain ⟨-, rfl⟩ := hb
    obtain ⟨hdir, invalidates, hsent, hinv, hcount⟩ := ih h
    refine ⟨hdir, .toCache dest home.nodeID (.invalidate
      { InvalidateMsg.ofRead a.currentMsgStamp m with newOwner := src }) :: invalidates, ?_, ?_, ?_⟩
    · rw [hsent]
      simp [Activation.send, Activation.stamped]
    · rintro p (_ | ⟨_, hp⟩)
      · exact ⟨dest, _, rfl, rfl, rfl⟩
      · exact hinv p hp
    · intro n
      rw [List.countP_cons, List.count_cons, hcount]
      simp [Packet.isInvalidateTo]

/-- A list of the elements of a finite set has each of them once when it has no repetition,
and then has as many entries as the set has elements. -/
lemma count_eq_iff_nodup {l : List NodeID} {S : Finset NodeID} (h : ∀ n, n ∈ l ↔ n ∈ S) :
    (∀ n, l.count n = if n ∈ S then 1 else 0) ↔ l.Nodup := by
  rw [List.nodup_iff_count_eq_one]
  constructor
  · intro hcount n hn
    rw [hcount, if_pos ((h n).1 hn)]
  · intro hone n
    split
    · exact hone n ((h n).2 ‹_›)
    · exact List.count_eq_zero.2 fun hn => ‹n ∉ S› ((h n).1 hn)

lemma length_eq_card {l : List NodeID} {S : Finset NodeID} (h : ∀ n, n ∈ l ↔ n ∈ S)
    (hl : l.Nodup) : l.length = S.card := by
  rw [← List.toFinset_card_of_nodup hl]
  congr 1
  ext n
  rw [List.mem_toFinset, h]

/-- The nodes to which `OnDirectoryShared` sends invalidates. -/
def sharedTargets (d : DirectoryData) (src : NodeID) : List NodeID :=
  (if d.owner ≠ src then [d.owner] else []) ++
    d.sharers.toList.filter fun i => i ≠ src ∧ i ≠ d.owner

/-- The nodes to which `OnDirectorySharedExclusiveMemoryAccess` sends invalidates. -/
def memoryTargets (d : DirectoryData) (src : NodeID) : List NodeID :=
  (if d.owner ≠ src then [d.owner] else []) ++ d.sharers.toList.filter fun i => i ≠ src

lemma mem_sharedTargets (d : DirectoryData) (src n : NodeID) :
    n ∈ sharedTargets d src ↔ n ∈ d.others src := by
  rw [sharedTargets, DirectoryData.mem_others, List.mem_append]
  by_cases ho : d.owner = src <;> by_cases hn : n = d.owner <;>
    simp_all [ListSet.mem_iff, and_comm]

lemma nodup_sharedTargets (d : DirectoryData) (src : NodeID) : (sharedTargets d src).Nodup := by
  have hfilter : (d.sharers.toList.filter fun i => i ≠ src ∧ i ≠ d.owner).Nodup :=
    d.sharers.nodup.filter _
  rw [sharedTargets]
  split
  · rw [List.nodup_append_comm, List.nodup_append]
    refine ⟨hfilter, List.nodup_singleton _, fun i hi j hj => ?_⟩
    rw [List.mem_filter] at hi
    rw [List.mem_singleton] at hj
    subst hj
    exact (of_decide_eq_true hi.2).2
  · exact hfilter

lemma mem_memoryTargets (d : DirectoryData) (src n : NodeID) :
    n ∈ memoryTargets d src ↔ n ∈ d.others src := by
  rw [memoryTargets, DirectoryData.mem_others, List.mem_append]
  by_cases ho : d.owner = src <;> by_cases hn : n = d.owner <;>
    simp_all [ListSet.mem_iff, and_comm]

/-- The loop over the sharers meets an owner that is also a sharer a second time. -/
lemma nodup_memoryTargets_iff (d : DirectoryData) (src : NodeID) :
    (memoryTargets d src).Nodup ↔ d.owner = src ∨ d.owner ∉ d.sharers := by
  have hfilter : (d.sharers.toList.filter fun i => i ≠ src).Nodup := d.sharers.nodup.filter _
  rw [memoryTargets]
  by_cases ho : d.owner = src
  · simpa [ho] using hfilter
  · rw [if_pos ho, List.singleton_append, List.nodup_cons]
    simp only [ho, false_or, and_iff_left hfilter, List.mem_filter, ListSet.mem_iff]
    simp [ho]

/-- After invalidates for the nodes of a list and a reply with its length, a grant is as it
should be when the list has no repetition. -/
lemma fanOut_iff_nodup {l : List NodeID} {b c : Activation} {blockAttached satisfied : Bool}
    (hl : ∀ n, n ∈ l ↔ n ∈ d.others src) (hsent : a.sent = [])
    (hb : home.sendInvalidates m src l a = .ok b)
    (hc : home.sendReadReply m src blockAttached true satisfied l.length b = .ok c)
    (howner : d'.owner = src) (hsharers : d'.sharers = ∅) :
    (∃ invalidates reply, FanOut home d d' m src c.sent invalidates reply) ↔ l.Nodup := by
  obtain ⟨-, invalidates, hinv, hfor, hcount⟩ := sendInvalidates_sent home hb
  rw [Device.sendReadReply, Device.sendMessageToRemoteCache_eq_ok] at hc
  obtain ⟨-, rfl⟩ := hc
  rw [hsent, List.nil_append] at hinv
  rw [← count_eq_iff_nodup hl, Activation.send, Activation.stamped, hinv]
  constructor
  · rintro ⟨invalidates', reply', h⟩ n
    obtain ⟨rfl, -⟩ := List.append_inj' h.sent_eq rfl
    rw [← hcount, h.once]
  · intro hone
    refine ⟨invalidates, _, rfl, hfor, fun n => ?_, rfl, rfl, ?_, howner, hsharers⟩
    · rw [hcount, hone]
    · exact length_eq_card hl ((count_eq_iff_nodup hl).1 hone)

/-- The grant of `OnDirectoryShared` is right in any state of the record. -/
lemma fanOut_onDirectoryShared (hrec : (a.directoryData line).owner = src ∨
      src ∈ (a.directoryData line).sharers)
    (hex : m.requestingExclusive = true) (hsent : a.sent = [])
    (h : home.onDirectoryShared (.read m) src line a = .ok a') :
    ∃ invalidates reply, FanOut home (a.directoryData line) (a'.directoryData line) m src a'.sent
      invalidates reply := by
  have hrec' : ¬((a.directoryData line).owner ≠ src ∧ src ∉ (a.directoryData line).sharers) := by
    tauto
  simp only [Device.onDirectoryShared, check_bind_eq_ok, hex, if_neg hrec', Bool.true_eq_false,
    if_false] at h
  obtain ⟨-, -, -, -, -, -, h⟩ := h
  obtain ⟨b, hb, h⟩ := bind_eq_ok.1 h
  obtain ⟨c, hc, h⟩ := bind_eq_ok.1 h
  cases h
  rw [← List.length_append] at hc
  have hsent' : (a.modifyDirectoryData line fun d => { d with state := .exclusive }).sent = [] :=
    hsent
  exact (fanOut_iff_nodup home (mem_sharedTargets _ src) hsent' hb hc (by simp) (by simp)).2
    (nodup_sharedTargets _ src)

/-- The grant after the memory access is right unless the owner is one of the sharers and
is not the requester. -/
lemma fanOut_onDirectorySharedExclusiveMemoryAccess {r : ReadResponseMsg} {memory : NodeID}
    (hm : (a.directoryData line).firstRequest = some m)
    (hsrc : (a.directoryData line).firstRequestSrc = src) (hsent : a.sent = [])
    (h : home.onDirectorySharedExclusiveMemoryAccess (.readResponse r) memory line true a =
      .ok a') :
    (∃ invalidates reply, FanOut home (a.directoryData line) (a'.directoryData line) m src a'.sent
      invalidates reply) ↔
      (a.directoryData line).owner = src ∨
        (a.directoryData line).owner ∉ (a.directoryData line).sharers := by
  simp only [Device.onDirectorySharedExclusiveMemoryAccess, hm, hsrc, check_bind_eq_ok,
    if_true] at h
  obtain ⟨-, h⟩ := h
  obtain ⟨b, hb, h⟩ := bind_eq_ok.1 h
  obtain ⟨c, hc, h⟩ := bind_eq_ok.1 h
  obtain ⟨e, he, h⟩ := bind_eq_ok.1 h
  cases h
  simp only [Device.performMemoryReadResponseCheck, check_bind_eq_ok] at hb
  obtain ⟨-, -, hb⟩ := hb
  cases hb
  rw [← List.length_append] at he
  have hsent' : ((a.setPendingMemoryRead r.solicitingMessage none).modifyDirectoryData line
    fun d => { d with state := .exclusive }).sent = [] := hsent
  -- the entry still has the source of the first request when the owner is set from it
  have hsrc' : (e.directoryData line).firstRequestSrc = src := by
    rw [Device.sendReadReply, Device.sendMessageToRemoteCache_eq_ok] at he
    obtain ⟨-, rfl⟩ := he
    have hdir := (sendInvalidates_sent home hc).1
    calc (c.directoryData line).firstRequestSrc
      _ = (((a.setPendingMemoryRead r.solicitingMessage none).modifyDirectoryData line
            fun d => { d with state := .exclusive }).directoryData line).firstRequestSrc := by
          rw [Activation.directoryData, hdir, ← Activation.directoryData]
      _ = (a.directoryData line).firstRequestSrc := by
          rw [Activation.directoryData_modifyDirectoryData]
          rfl
      _ = src := hsrc
  rw [← nodup_memoryTargets_iff]
  show (∃ invalidates reply, FanOut home _ _ m src e.sent invalidates reply) ↔ _
  exact fanOut_iff_nodup home (mem_memoryTargets _ src) hsent' hc he (by simpa using hsrc')
    (by simp)

end

/-- When a packet makes a home node grant an exclusive read on a shared line, every other
recorded node is sent one invalidate and the requester is told their number, if and only if
the read is granted at once, or the owner is the requester or is not among the sharers. -/
theorem exclusive_fanOut_iff (cfg : Config) (s : System) (p : Packet) (dirty : Bool)
    (m : ReadMsg) (src : NodeID) (a : Activation) (hg : Grants (s.entry p) m src p)
    (h : cfg.recvMsg p dirty (s.activation p.node) = .ok a) :
    (∃ invalidates reply, FanOut (cfg.device p.node) (s.entry p)
      (a.directoryData p.msg.getAddress) m src a.sent invalidates reply) ↔
      (s.entry p).state = .shared ∨ (s.entry p).owner = src ∨
        (s.entry p).owner ∉ (s.entry p).sharers := by
  cases hg with
  | immediate home hstate hex hrec =>
    refine iff_of_true ?_ (.inl hstate)
    simp only [Config.recvMsg, Device.recvMsgDirectory, check_bind_eq_ok] at h
    replace h : (cfg.device home).onDirectory (.read m) src m.addr false (s.activation home) =
      .ok a := h.2
    have hstate' : ((s.activation home).directoryData m.addr).state = .shared := hstate
    have hrec' : ((s.activation home).directoryData m.addr).owner = src ∨
      src ∈ ((s.activation home).directoryData m.addr).sharers := hrec
    rw [Device.onDirectory, hstate'] at h
    exact fanOut_onDirectoryShared (cfg.device home) hrec' hex rfl h
  | afterMemoryAccess home r hstate hm hsrc =>
    simp only [hstate, reduceCtorEq, false_or]
    simp only [Config.recvMsg, Device.recvMsgDirectory, check_bind_eq_ok] at h
    replace h : (cfg.device home).onDirectory (.readResponse r) InvalidNodeID r.addr true
      (s.activation home) = .ok a := h.2
    have hstate' : ((s.activation home).directoryData r.addr).state =
      .sharedExclusiveMemoryAccess := hstate
    have hm' : ((s.activation home).directoryData r.addr).firstRequest = some m := hm
    rw [Device.onDirectory, hstate'] at h
    exact fanOut_onDirectorySharedExclusiveMemoryAccess (cfg.device home) hm' hsrc rfl h

lemma FanOut.countP_le {home : Device} {d d' : DirectoryData} {m : ReadMsg} {src n : NodeID}
    {sent invalidates : List Packet} {reply : ReadReplyMsg}
    (h : FanOut home d d' m src sent invalidates reply) :
    sent.countP (Packet.isInvalidateTo n) ≤ 1 := by
  rw [h.sent_eq, List.countP_append, h.once]
  have : [Packet.toCache src home.nodeID (.readReply reply)].countP (Packet.isInvalidateTo n) = 0 :=
    rfl
  split <;> omega

/-! ### An owner among the sharers

Node 1 reads line 0 exclusively; node 2 reads it, so that it becomes the owner and node 1 a
sharer, drops it and reads it again; then node 3 reads it exclusively. -/

def ownerSharesRun : List Event :=
  Event.localRead 1 0 true false :: List.replicate 6 (Event.deliver 0 false) ++
  Event.localRead 2 0 false false :: List.replicate 5 (Event.deliver 0 false) ++
  List.replicate 2 (Event.deliver 1 false) ++ List.replicate 4 (Event.deliver 0 false) ++
  Event.localEviction 2 0 false :: List.replicate 2 (Event.deliver 0 false) ++
  Event.localRead 2 0 false false :: List.replicate 6 (Event.deliver 0 false) ++
  Event.localRead 3 0 true false :: List.replicate 3 (Event.deliver 0 false)

/-- The exclusive read of node 3. -/
def ownerSharesRead : ReadMsg where
  msgID := 19
  addr := 0
  requestingExclusive := true
  alreadyHasBlock := false
  directoryLookup := false

/-- The answer of the memory of node 0 to it. -/
def ownerSharesPacket : Packet :=
  .fromMemory 0 (.readResponse
    { ReadResponseMsg.ofRead 20 ownerSharesRead with
      blockAttached := true
      exclusiveOwnership := true
      satisfied := true })

lemma ownerShares_reached : ∃ s a, (machine .four).Run ownerSharesRun s ∧
    ownerSharesPacket ∈ s.flight ∧ Grants (s.entry ownerSharesPacket) ownerSharesRead 3
      ownerSharesPacket ∧
    Config.four.recvMsg ownerSharesPacket false (s.activation 0) = .ok a ∧
    1 < a.sent.countP (Packet.isInvalidateTo 2) := by
  have hrun : succeeds ((machine .four).exec (machine .four).init ownerSharesRun) (fun s =>
      decide (ownerSharesPacket ∈ s.flight ∧
        (s.entry ownerSharesPacket).state = .sharedExclusiveMemoryAccess ∧
        (s.entry ownerSharesPacket).firstRequest = some ownerSharesRead ∧
        (s.entry ownerSharesPacket).firstRequestSrc = 3) &&
      succeeds (Config.four.recvMsg ownerSharesPacket false (s.activation 0)) fun a =>
        decide (1 < a.sent.countP (Packet.isInvalidateTo 2))) = true := by
    decide +kernel
  obtain ⟨s, hs, htest⟩ := succeeds_iff.1 hrun
  obtain ⟨hfacts, hstep⟩ := (Bool.and_eq_true _ _).mp htest
  obtain ⟨hp, hstate, hm, hsrc⟩ := of_decide_eq_true hfacts
  obtain ⟨a, ha, hcount⟩ := succeeds_iff.1 hstep
  exact ⟨s, a, Machine.run_of_exec hs, hp, .afterMemoryAccess 0 _ hstate hm hsrc, ha,
    of_decide_eq_true hcount⟩

/-- The grant of node 3's read on this run invalidates node 2 twice. -/
theorem not_fanOut_of_owner_shares : ∃ s a, (machine .four).Run ownerSharesRun s ∧
    ownerSharesPacket ∈ s.flight ∧ Grants (s.entry ownerSharesPacket) ownerSharesRead 3
      ownerSharesPacket ∧
    Config.four.recvMsg ownerSharesPacket false (s.activation 0) = .ok a ∧
    ¬∃ invalidates reply, FanOut (Config.four.device 0) (s.entry ownerSharesPacket)
      (a.directoryData 0) ownerSharesRead 3 a.sent invalidates reply := by
  obtain ⟨s, a, hs, hp, hg, ha, hcount⟩ := ownerShares_reached
  refine ⟨s, a, hs, hp, hg, ha, ?_⟩
  rintro ⟨invalidates, reply, h⟩
  exact absurd hcount (not_lt.2 h.countP_le)

theorem exclusive_fanOut_iff_ownerShares : ∃ s, ∃ a : Activation, (machine .four).Run ownerSharesRun s ∧
    ((∃ invalidates reply, FanOut (Config.four.device 0) (s.entry ownerSharesPacket)
      (a.directoryData 0) ownerSharesRead 3 a.sent invalidates reply) ↔
      (s.entry ownerSharesPacket).state = .shared ∨ (s.entry ownerSharesPacket).owner = 3 ∨
        (s.entry ownerSharesPacket).owner ∉ (s.entry ownerSharesPacket).sharers) := by
  obtain ⟨s, a, hs, -, hg, ha, -⟩ := ownerShares_reached
  exact ⟨s, a, hs, exclusive_fanOut_iff .four s ownerSharesPacket false ownerSharesRead 3 a hg ha⟩

end Sesc.Origin
