import Sesc.Lib.Enumerates
import Sesc.Origin.MemoryAccess

/-!
# The memory bookkeeping of the home nodes

In every run the waiting lines of a home node are those of its reads in flight, and its
table of writes has the writes in flight.  Its table of reads has the reads in flight as
well, but `OnDirectoryExclusiveMemoryAccess` leaves an answered read in it: the table is
exact if and only if this handler has not received an answer of the memory.
-/

namespace Sesc.Origin

open Lib

/-- The reads of the memory of a node whose answers have not been delivered. -/
def System.outstandingReads (s : System) (n : NodeID) : List (Address × MessageID) :=
  ofNode n (s.flight.filterMap Packet.memoryRead)

/-- The writes to the memory of a node whose answers have not been delivered. -/
def System.outstandingWrites (s : System) (n : NodeID) : List MessageID :=
  ofNode n (s.flight.filterMap Packet.memoryWrite)

/-- The lines of a home node that wait for the memory. -/
def System.accessing (s : System) (n : NodeID) (addr : Address) : Bool :=
  ((s.nodes n).directoryDataMap addr).state.isMemoryAccess

/-- The tables and the states of a home node agree with the requests that are outstanding. -/
structure MemoryBookkeeping (s : System) (n : NodeID) : Prop where
  reads : ∀ id, (s.nodes n).pendingMemoryReadAccesses id ≠ none ↔
    id ∈ (s.outstandingReads n).map Prod.snd
  writes : ∀ id, (s.nodes n).pendingMemoryWriteAccesses id ≠ none ↔ id ∈ s.outstandingWrites n
  states : ∀ addr, s.accessing n addr = true ↔ addr ∈ (s.outstandingReads n).map Prod.fst
  idle : s.flight = [] → (∀ id, (s.nodes n).pendingMemoryReadAccesses id = none) ∧
    (∀ id, (s.nodes n).pendingMemoryWriteAccesses id = none) ∧
    ∀ addr, s.accessing n addr = false

/-- The memory's answer to a read is delivered to a line in `ds_ExclusiveMemoryAccess` of the
home node `n`. -/
def AnswersExclusiveMemoryAccess (n : NodeID) (s : System) (e : Event) : Prop :=
  ∃ k dirty r, e = .deliver k dirty ∧ s.flight[k]? = some (.fromMemory n (.readResponse r)) ∧
    ((s.nodes n).directoryDataMap r.addr).state = .exclusiveMemoryAccess

/-! ## What a step does to the accesses of a node -/

/-- The reads of the memory of a node before and after a step: no read begins or ends, one
begins, or one ends and, unless `stale`, leaves its table. -/
inductive ReadStep (n : NodeID) (s s' : System) (stale : Prop) : Prop
  | keep (hacc : s'.accessing n = s.accessing n)
      (hreads : (s'.nodes n).pendingMemoryReadAccesses = (s.nodes n).pendingMemoryReadAccesses)
      (hout : (s'.outstandingReads n).Perm (s.outstandingReads n)) (hstale : ¬stale)
  | start (line : Address) (m : ReadMsg) (hline : s.accessing n line = false)
      (hfresh : (s.nodes n).pendingMemoryReadAccesses m.msgID = none)
      (hacc : s'.accessing n = Function.update (s.accessing n) line true)
      (hreads : (s'.nodes n).pendingMemoryReadAccesses =
        Function.update (s.nodes n).pendingMemoryReadAccesses m.msgID (some m))
      (hout : (s'.outstandingReads n).Perm ((line, m.msgID) :: s.outstandingReads n))
      (hstale : ¬stale)
  | finish (line : Address) (id : MessageID)
      (hacc : s'.accessing n = Function.update (s.accessing n) line false)
      (hreads : (s'.nodes n).pendingMemoryReadAccesses =
        Function.update (s.nodes n).pendingMemoryReadAccesses id none)
      (hout : (s.outstandingReads n).Perm ((line, id) :: s'.outstandingReads n)) (hstale : ¬stale)
  | leave (line : Address) (id : MessageID)
      (hacc : s'.accessing n = Function.update (s.accessing n) line false)
      (hreads : (s'.nodes n).pendingMemoryReadAccesses = (s.nodes n).pendingMemoryReadAccesses)
      (hout : (s.outstandingReads n).Perm ((line, id) :: s'.outstandingReads n)) (hstale : stale)

/-- The writes to the memory of a node before and after a step. -/
inductive WriteStep (n : NodeID) (s s' : System) : Prop
  | keep (hwrites : (s'.nodes n).pendingMemoryWriteAccesses =
        (s.nodes n).pendingMemoryWriteAccesses)
      (hout : (s'.outstandingWrites n).Perm (s.outstandingWrites n))
  | start (m : WriteMsg) (hfresh : (s.nodes n).pendingMemoryWriteAccesses m.msgID = none)
      (hwrites : (s'.nodes n).pendingMemoryWriteAccesses =
        Function.update (s.nodes n).pendingMemoryWriteAccesses m.msgID (some m))
      (hout : (s'.outstandingWrites n).Perm (m.msgID :: s.outstandingWrites n))
  | finish (id : MessageID)
      (hwrites : (s'.nodes n).pendingMemoryWriteAccesses =
        Function.update (s.nodes n).pendingMemoryWriteAccesses id none)
      (hout : (s.outstandingWrites n).Perm (id :: s'.outstandingWrites n))

/-! ## The invariant -/

/-- What holds in every run: the waiting lines and the writes are those in flight, and the
reads in flight are in the table. -/
structure MemoryInv (s : System) (n : NodeID) : Prop where
  lines : Enumerates (fun addr => s.accessing n addr = true) ((s.outstandingReads n).map Prod.fst)
  ids : ((s.outstandingReads n).map Prod.snd).Nodup
  reads : ∀ id ∈ (s.outstandingReads n).map Prod.snd,
    (s.nodes n).pendingMemoryReadAccesses id ≠ none
  writes : Enumerates (fun id => (s.nodes n).pendingMemoryWriteAccesses id ≠ none)
    (s.outstandingWrites n)

/-- Some read is still in the table although its answer has been delivered. -/
def StaleRead (s : System) (n : NodeID) : Prop :=
  ∃ id, (s.nodes n).pendingMemoryReadAccesses id ≠ none ∧
    id ∉ (s.outstandingReads n).map Prod.snd

section

variable {n : NodeID} {s s' : System} {stale : Prop}

lemma MemoryInv.new : MemoryInv .new n where
  lines := .nil fun _ => Bool.false_ne_true
  ids := List.nodup_nil
  reads _ hid := absurd hid List.not_mem_nil
  writes := .nil fun _ h => h rfl

lemma enumerates_update_true {p : Address → Bool} {line : Address} {l : List Address}
    (h : Enumerates (fun addr => p addr = true) l) (hline : p line = false) :
    Enumerates (fun addr => Function.update p line true addr = true) (line :: l) := by
  refine h.cons (by simp [hline]) fun addr => ?_
  by_cases hadd : addr = line <;> simp [hadd]

lemma enumerates_update_false {p : Address → Bool} {line : Address} {l : List Address}
    (h : Enumerates (fun addr => p addr = true) (line :: l)) :
    Enumerates (fun addr => Function.update p line false addr = true) l := by
  refine h.tail fun addr => ?_
  by_cases hadd : addr = line <;> simp [hadd]

/-- The invariant is kept by the reads of a step. -/
lemma MemoryInv.step (h : MemoryInv s n) (hr : ReadStep n s s' stale) (hw : WriteStep n s s') :
    MemoryInv s' n := by
  have hwrites : Enumerates (fun id => (s'.nodes n).pendingMemoryWriteAccesses id ≠ none)
      (s'.outstandingWrites n) := by
    cases hw with
    | keep hwrites hout => exact h.writes.congr (fun id => by rw [hwrites]) hout
    | start m hfresh hwrites hout =>
      refine (h.writes.cons (not_not.2 hfresh) fun _ => ?_).congr (fun _ => Iff.rfl) hout
      rw [hwrites]
      exact update_some_ne_none
    | finish id hwrites hout =>
      refine (h.writes.congr (fun _ => Iff.rfl) hout.symm).tail fun _ => ?_
      rw [hwrites]
      exact update_none_ne_none
  cases hr with
  | keep hacc hreads hout _ =>
    refine ⟨h.lines.congr (fun addr => by rw [hacc]) (hout.map _), ?_, fun id hid => ?_, hwrites⟩
    · exact (hout.map _).nodup_iff.2 h.ids
    · rw [hreads]
      exact h.reads id ((hout.map _).mem_iff.1 hid)
  | start line m hline hfresh hacc hreads hout _ =>
    have hnew : m.msgID ∉ (s.outstandingReads n).map Prod.snd := fun hid => h.reads _ hid hfresh
    refine ⟨?_, ?_, fun id hid => ?_, hwrites⟩
    · rw [hacc]
      exact (enumerates_update_true h.lines hline).congr (fun _ => Iff.rfl) (hout.map _)
    · exact (hout.map _).nodup_iff.2 (List.nodup_cons.2 ⟨hnew, h.ids⟩)
    · rw [hreads, update_some_ne_none]
      rcases List.mem_cons.1 ((hout.map _).mem_iff.1 hid) with rfl | hid
      · exact .inl rfl
      · exact .inr (h.reads id hid)
  | finish line id hacc hreads hout _ =>
    have hids := (hout.map Prod.snd).nodup_iff.1 h.ids
    refine ⟨?_, hids.of_cons, fun id' hid => ?_, hwrites⟩
    · rw [hacc]
      exact enumerates_update_false (h.lines.congr (fun _ => Iff.rfl) (hout.map Prod.fst).symm)
    · rw [hreads, update_none_ne_none]
      refine ⟨?_, h.reads id' ((hout.map _).mem_iff.2 (List.mem_cons_of_mem _ hid))⟩
      rintro rfl
      exact (List.nodup_cons.1 hids).1 hid
  | leave line id hacc hreads hout _ =>
    have hids := (hout.map Prod.snd).nodup_iff.1 h.ids
    refine ⟨?_, hids.of_cons, fun id' hid => ?_, hwrites⟩
    · rw [hacc]
      exact enumerates_update_false (h.lines.congr (fun _ => Iff.rfl) (hout.map Prod.fst).symm)
    · rw [hreads]
      exact h.reads id' ((hout.map _).mem_iff.2 (List.mem_cons_of_mem _ hid))

/-- A stale read stays in its table for ever. -/
lemma StaleRead.step (hs : StaleRead s n) (hr : ReadStep n s s' stale) : StaleRead s' n := by
  obtain ⟨id, hid, hnot⟩ := hs
  cases hr with
  | keep hacc hreads hout _ =>
    exact ⟨id, by rwa [hreads], fun h => hnot ((hout.map _).mem_iff.1 h)⟩
  | start line m hline hfresh hacc hreads hout _ =>
    refine ⟨id, ?_, fun h => ?_⟩
    · rw [hreads, update_some_ne_none]
      exact .inr hid
    · rcases List.mem_cons.1 ((hout.map _).mem_iff.1 h) with rfl | h
      · exact hid hfresh
      · exact hnot h
  | finish line id' hacc hreads hout _ =>
    have hmem : ∀ j, j ∈ (s.outstandingReads n).map Prod.snd ↔
        j = id' ∨ j ∈ (s'.outstandingReads n).map Prod.snd := fun j => by
      rw [(hout.map Prod.snd).mem_iff, List.map_cons, List.mem_cons]
    refine ⟨id, ?_, fun h => hnot ((hmem id).2 (.inr h))⟩
    rw [hreads, update_none_ne_none]
    exact ⟨fun h => hnot ((hmem id).2 (.inl h)), hid⟩
  | leave line id' hacc hreads hout _ =>
    refine ⟨id, by rwa [hreads], fun h => hnot ?_⟩
    rw [(hout.map Prod.snd).mem_iff]
    exact List.mem_cons_of_mem _ h

/-- A step makes a read stale exactly when its answer is left in the table. -/
lemma staleRead_step_iff (h : MemoryInv s n) (hs : ¬StaleRead s n) (hr : ReadStep n s s' stale) :
    StaleRead s' n ↔ stale := by
  have htable : ∀ id, (s.nodes n).pendingMemoryReadAccesses id ≠ none →
      id ∈ (s.outstandingReads n).map Prod.snd := by
    intro id hid
    by_contra hnot
    exact hs ⟨id, hid, hnot⟩
  cases hr with
  | keep hacc hreads hout hstale =>
    refine iff_of_false ?_ hstale
    rintro ⟨id, hid, hnot⟩
    rw [hreads] at hid
    exact hnot ((hout.map _).mem_iff.2 (htable id hid))
  | start line m hline hfresh hacc hreads hout hstale =>
    refine iff_of_false ?_ hstale
    rintro ⟨id, hid, hnot⟩
    rw [hreads, update_some_ne_none] at hid
    rw [(hout.map _).mem_iff, List.map_cons, List.mem_cons] at hnot
    exact hnot (hid.imp (fun h => h) (htable _))
  | finish line id hacc hreads hout hstale =>
    refine iff_of_false ?_ hstale
    rintro ⟨id', hid, hnot⟩
    rw [hreads, update_none_ne_none] at hid
    have := htable id' hid.2
    rw [(hout.map _).mem_iff, List.map_cons, List.mem_cons] at this
    exact hnot (this.resolve_left hid.1)
  | leave line id hacc hreads hout hstale =>
    refine iff_of_true ⟨id, ?_, ?_⟩ hstale
    · rw [hreads]
      exact h.reads id ((hout.map _).mem_iff.2 List.mem_cons_self)
    · exact (List.nodup_cons.1 ((hout.map Prod.snd).nodup_iff.1 h.ids)).1

end

/-! ## The handlers -/

section

open Activation

/-- What the handler for a packet does to the reads of the memory of its node. -/
inductive ReadEffect (p : Packet) (a a' : Activation) : Prop
  | keep (hacc : a'.accessing = a.accessing)
      (hreads : a'.dir.pendingMemoryReadAccesses = a.dir.pendingMemoryReadAccesses)
      (hsent : sentReads a' = p.memoryRead.toList)
      (hp : ∀ n r, p ≠ .fromMemory n (.readResponse r))
  | start (line : Address) (hp : p.memoryRead = none) (h : StartsRead p.node line a a')
  | finish (n : NodeID) (r : ReadResponseMsg) (hp : p = .fromMemory n (.readResponse r))
      (h : FinishesRead r.addr r ((a.directoryData r.addr).state = .exclusiveMemoryAccess) a a')

/-- What the handler for a packet does to the writes to the memory of its node. -/
inductive WriteEffect (p : Packet) (a a' : Activation) : Prop
  | keep (hwrites : a'.dir.pendingMemoryWriteAccesses = a.dir.pendingMemoryWriteAccesses)
      (hsent : sentWrites a' = p.memoryWrite.toList)
  | start (m : WriteMsg) (hp : p.memoryWrite = none)
      (hfresh : a.dir.pendingMemoryWriteAccesses m.msgID = none)
      (hwrites : a'.dir.pendingMemoryWriteAccesses =
        Function.update a.dir.pendingMemoryWriteAccesses m.msgID (some m))
      (hsent : sentWrites a' = [(p.node, m.msgID)])
  | finish (n : NodeID) (r : WriteResponseMsg) (hp : p = .fromMemory n (.writeResponse r))
      (hwrites : a'.dir.pendingMemoryWriteAccesses =
        Function.update a.dir.pendingMemoryWriteAccesses r.solicitingMessage none)
      (hsent : sentWrites a' = [])

variable {a a' : Activation} {p : Packet}

lemma sentReads_eq_nil (ha : a.sent = []) : sentReads a = [] := by rw [sentReads, ha]; rfl

lemma sentWrites_eq_nil (ha : a.sent = []) : sentWrites a = [] := by rw [sentWrites, ha]; rfl

lemma isMemory_of_memoryRead_ne_none (h : p.memoryRead ≠ none) : p.isMemory = true := by
  cases p <;> first | rfl | exact absurd rfl h

lemma isMemory_of_memoryWrite_ne_none (h : p.memoryWrite ≠ none) : p.isMemory = true := by
  cases p <;> first | rfl | exact absurd rfl h

/-- A handler that keeps the directory side begins and ends no access. -/
lemma effects_of_directorySide (h : a'.directorySide = a.directorySide) (ha : a.sent = [])
    (hp : p.isMemory = false) : ReadEffect p a a' ∧ WriteEffect p a a' := by
  simp only [directorySide, Prod.mk.injEq, ha, List.filter_nil, List.filter_eq_nil_iff] at h
  obtain ⟨hmap, hreads, hwrites, hsent⟩ := h
  have hread : p.memoryRead = none := by
    by_contra hne
    simp [isMemory_of_memoryRead_ne_none hne] at hp
  have hwrite : p.memoryWrite = none := by
    by_contra hne
    simp [isMemory_of_memoryWrite_ne_none hne] at hp
  refine ⟨.keep ?_ hreads ?_ ?_, .keep hwrites ?_⟩
  · funext addr
    rw [accessing, accessing, directoryData, directoryData, hmap]
  · rw [hread, sentReads, Option.toList_none, List.filterMap_eq_nil_iff]
    intro q hq
    by_contra hne
    exact hsent q hq (isMemory_of_memoryRead_ne_none hne)
  · rintro n r rfl
    cases hp
  · rw [hwrite, sentWrites, Option.toList_none, List.filterMap_eq_nil_iff]
    intro q hq
    by_contra hne
    exact hsent q hq (isMemory_of_memoryWrite_ne_none hne)

lemma readEffect_of_keeps_or_starts {line : Address} (ha : a.sent = [])
    (h : KeepsReads a a' ∨ StartsRead p.node line a a') (hp : p.memoryRead = none) :
    ReadEffect p a a' := by
  rcases h with h | h
  · simp only [KeepsReads, readView, Prod.mk.injEq, sentReads_eq_nil ha] at h
    refine .keep h.1 h.2.1 (by rw [h.2.2, hp, Option.toList_none]) ?_
    rintro n r rfl
    cases hp
  · exact .start line hp h

lemma writeEffect_of_atMostStarts (ha : a.sent = []) (h : AtMostStartsWrite p.node a a')
    (hp : p.memoryWrite = none) : WriteEffect p a a' := by
  rcases h with h | ⟨m, hfresh, h⟩
  · simp only [writeView, Prod.mk.injEq, sentWrites_eq_nil ha] at h
    exact .keep h.1 (by rw [h.2, hp, Option.toList_none])
  · simp only [writeView, Prod.mk.injEq, sentWrites_eq_nil ha, List.nil_append] at h
    exact .start m hp hfresh h.1 h.2

lemma effects_toMemory {n : NodeID} {msg : Msg} (ha : a.sent = [])
    (h : testMemoryRecvMsg n msg a = .ok a') :
    ReadEffect (.toMemory n msg) a a' ∧ WriteEffect (.toMemory n msg) a a' := by
  unfold testMemoryRecvMsg at h
  split at h <;> cases h
  all_goals
    refine ⟨.keep (by simp) rfl ?_ (by simp), .keep rfl ?_⟩ <;>
      simp [sentReads, sentWrites, send, stamped, ha, Packet.memoryRead, Packet.memoryWrite,
        ReadResponseMsg.ofRead]

lemma effects_fromMemory {self : Device} {msg : Msg} {src : NodeID} (ha : a.sent = [])
    (h : self.recvMsgDirectory msg src true a = .ok a') :
    ReadEffect (.fromMemory self.nodeID msg) a a' ∧
      WriteEffect (.fromMemory self.nodeID msg) a a' := by
  have heffect : ∀ {m : Msg} {fromMemory : Bool},
      self.onDirectory m src m.getAddress fromMemory a = .ok a' →
      MemoryEffect self.nodeID m.getAddress m fromMemory a a' :=
    fun h => self.memoryEffect_onDirectory _ _ _ rfl _ h
  cases msg with
  | readResponse r =>
    obtain ⟨-, h⟩ := check_bind_eq_ok.1 h
    obtain ⟨hw, hr⟩ := heffect h
    exact ⟨.finish _ r rfl hr, writeEffect_of_atMostStarts ha hw rfl⟩
  | writeResponse r =>
    obtain ⟨-, h⟩ := check_bind_eq_ok.1 h
    obtain ⟨-, h⟩ := check_bind_eq_ok.1 h
    obtain ⟨-, h⟩ := check_bind_eq_ok.1 h
    cases h
    refine ⟨.keep (by simp) rfl (sentReads_eq_nil ha) (by simp), ?_⟩
    exact .finish _ r rfl rfl (sentWrites_eq_nil ha)
  | read m | directoryNak m | writeback m | writebackRequest m =>
    obtain ⟨hf, -⟩ := check_bind_eq_ok.1 h
    cases hf
  | _ =>
    obtain ⟨hw, hr⟩ := heffect h
    exact ⟨readEffect_of_keeps_or_starts ha hr rfl, writeEffect_of_atMostStarts ha hw rfl⟩

lemma effects_toDirectory {self : Device} {msg : Msg} {src : NodeID} (ha : a.sent = [])
    (h : self.recvMsgDirectory msg src false a = .ok a') :
    ReadEffect (.toDirectory self.nodeID src msg) a a' ∧
      WriteEffect (.toDirectory self.nodeID src msg) a a' := by
  have heffect : ∀ {m : Msg}, self.onDirectory m src m.getAddress false a = .ok a' →
      ReadEffect (.toDirectory self.nodeID src msg) a a' ∧
        WriteEffect (.toDirectory self.nodeID src msg) a a' := by
    intro m hm
    obtain ⟨hw, hr⟩ := self.memoryEffect_onDirectory _ _ _ rfl _ hm
    have hr : KeepsReads a a' ∨ StartsRead self.nodeID m.getAddress a a' := by
      cases m <;> exact hr
    exact ⟨readEffect_of_keeps_or_starts ha hr rfl, writeEffect_of_atMostStarts ha hw rfl⟩
  cases msg with
  | readResponse r | writeResponse r =>
    obtain ⟨hf, -⟩ := check_bind_eq_ok.1 h
    cases hf
  | read m | directoryNak m | writeback m | writebackRequest m =>
    exact heffect (check_bind_eq_ok.1 h).2
  | _ => exact heffect h

lemma effects_toLocalCache {n : NodeID} {msg : Msg} {dirty : Bool} (ha : a.sent = [])
    (h : localCacheRecvMsg n msg dirty a = .ok a') :
    ReadEffect (.toLocalCache n msg) a a' ∧ WriteEffect (.toLocalCache n msg) a a' := by
  refine effects_of_directorySide ?_ ha rfl
  unfold localCacheRecvMsg at h
  split at h <;> cases h
  · exact directorySide_send _ rfl
  · exact directorySide_send _ rfl
  · rfl

/-- The effects of the handler for any packet. -/
lemma effects_recvMsg {cfg : Config} {dirty : Bool} (ha : a.sent = [])
    (h : cfg.recvMsg p dirty a = .ok a') : ReadEffect p a a' ∧ WriteEffect p a a' := by
  cases p with
  | toCache dest src msg =>
    exact effects_of_directorySide ((cfg.device dest).keeps_recvMsgCache msg src a' h).1 ha rfl
  | fromLocalCache n msg =>
    exact effects_of_directorySide ((cfg.device n).keeps_recvMsgCache msg _ a' h).1 ha rfl
  | toDirectory dest src msg => exact effects_toDirectory ha h
  | fromMemory n msg => exact effects_fromMemory ha h
  | toLocalCache n msg => exact effects_toLocalCache ha h
  | toMemory n msg => exact effects_toMemory ha h

end

/-! ## The steps -/

section

open Activation

lemma node_eq_of_memoryRead {p : Packet} {q : NodeID × Address × MessageID}
    (h : p.memoryRead = some q) : q.1 = p.node := by
  unfold Packet.memoryRead at h
  split at h <;> cases h <;> rfl

lemma node_eq_of_memoryWrite {p : Packet} {q : NodeID × MessageID}
    (h : p.memoryWrite = some q) : q.1 = p.node := by
  unfold Packet.memoryWrite at h
  split at h <;> cases h <;> rfl

lemma ReadEffect.node_eq_of_mem_sentReads {p : Packet} {a a' : Activation}
    (h : ReadEffect p a a') (ha : a.sent = []) :
    ∀ q ∈ sentReads a', q.1 = p.node := by
  cases h with
  | keep _ _ hsent _ =>
    intro q hq
    rw [hsent, Option.mem_toList] at hq
    exact node_eq_of_memoryRead hq
  | start line _ h =>
    obtain ⟨m, _, _, _, hview⟩ := h
    simp only [readView, Prod.mk.injEq, sentReads_eq_nil ha, List.nil_append] at hview
    simp [hview.2.2]
  | finish n r _ h =>
    have hview := h.2
    simp only [readView, Prod.mk.injEq, sentReads_eq_nil ha] at hview
    simp [hview.2.2]

lemma WriteEffect.node_eq_of_mem_sentWrites {p : Packet} {a a' : Activation}
    (h : WriteEffect p a a') : ∀ q ∈ sentWrites a', q.1 = p.node := by
  cases h with
  | keep _ hsent =>
    intro q hq
    rw [hsent, Option.mem_toList] at hq
    exact node_eq_of_memoryWrite hq
  | start m _ _ _ hsent => simp [hsent]
  | finish n r _ _ hsent => simp [hsent]

variable {s : System} {k : ℕ} {p : Packet} {n : NodeID} {a : Activation}

/-- The reads in flight before a delivery: that of the delivered packet and the others. -/
lemma outstandingReads_perm (hk : s.flight[k]? = some p) : (s.outstandingReads n).Perm
    (ofNode n p.memoryRead.toList ++
      ofNode n ((s.flight.eraseIdx k).filterMap Packet.memoryRead)) :=
  ofNode_flight_perm _ hk

lemma outstandingWrites_perm (hk : s.flight[k]? = some p) : (s.outstandingWrites n).Perm
    (ofNode n p.memoryWrite.toList ++
      ofNode n ((s.flight.eraseIdx k).filterMap Packet.memoryWrite)) :=
  ofNode_flight_perm _ hk

lemma outstandingReads_commit (node : NodeID) (flight : List Packet) :
    (s.commit node flight a).outstandingReads n =
      ofNode n (flight.filterMap Packet.memoryRead) ++ ofNode n (sentReads a) :=
  ofNode_append_filterMap _ _ _ _

lemma outstandingWrites_commit (node : NodeID) (flight : List Packet) :
    (s.commit node flight a).outstandingWrites n =
      ofNode n (flight.filterMap Packet.memoryWrite) ++ ofNode n (sentWrites a) :=
  ofNode_append_filterMap _ _ _ _

lemma accessing_commit_self (flight : List Packet) :
    (s.commit n flight a).accessing n = a.accessing := by
  funext addr
  rw [System.accessing, nodes_commit_self]
  rfl

/-- What a delivery does to the reads of its node. -/
lemma readStep_commit_self (hk : s.flight[k]? = some p) {stale : Prop}
    (hstale : stale ↔ ∃ r, p = .fromMemory p.node (.readResponse r) ∧
      ((s.nodes p.node).directoryDataMap r.addr).state = .exclusiveMemoryAccess)
    (h : ReadEffect p (s.activation p.node) a) :
    ReadStep p.node s (s.commit p.node (s.flight.eraseIdx k) a) stale := by
  have hs := outstandingReads_perm (n := p.node) hk
  have hs' := outstandingReads_commit (s := s) (n := p.node) (a := a) p.node (s.flight.eraseIdx k)
  have hacc' := accessing_commit_self (s := s) (n := p.node) (a := a) (s.flight.eraseIdx k)
  have hnodes := nodes_commit_self (s := s) (n := p.node) (a := a) (s.flight.eraseIdx k)
  cases h with
  | keep hacc hreads hsent hp =>
    refine .keep (hacc'.trans hacc) (by rw [hnodes, hreads]; rfl) ?_ ?_
    · rw [hs', hsent]
      exact List.perm_append_comm.trans hs.symm
    · rw [hstale]
      rintro ⟨r, hr, _⟩
      exact hp _ r hr
  | start line hp h =>
    obtain ⟨m, hm, hline, hfresh, hview⟩ := h
    simp only [readView, Prod.mk.injEq] at hview
    obtain ⟨hacc, hreads, hsent⟩ := hview
    refine .start line m hline hfresh (hacc'.trans hacc) (by rw [hnodes, hreads]; rfl) ?_ ?_
    · rw [hs', hsent, sentReads_eq_nil rfl, List.nil_append, ofNode_singleton]
      rw [hp, Option.toList_none] at hs
      exact (List.perm_append_singleton _ _).trans (hs.symm.cons _)
    · rw [hstale]
      rintro ⟨r, hr, _⟩
      rw [hr] at hp
      cases hp
  | finish node r hp h =>
    subst hp
    obtain ⟨_, hview⟩ := h
    dsimp only [Packet.node] at hs hs' hacc' hnodes hstale hview ⊢
    simp only [readView, Prod.mk.injEq] at hview
    obtain ⟨hacc, hreads, hsent⟩ := hview
    have hout : (s.outstandingReads node).Perm ((r.addr, r.solicitingMessage) ::
        (s.commit node (s.flight.eraseIdx k) a).outstandingReads node) := by
      have hread : ofNode node (Packet.fromMemory node (.readResponse r)).memoryRead.toList =
          [(r.addr, r.solicitingMessage)] := ofNode_singleton node _
      rw [hread, List.singleton_append] at hs
      rw [hs', hsent, sentReads_eq_nil rfl, ofNode_nil, List.append_nil]
      exact hs
    by_cases hstate : ((s.nodes node).directoryDataMap r.addr).state = .exclusiveMemoryAccess
    · refine .leave r.addr r.solicitingMessage (hacc'.trans hacc) ?_ hout
        (hstale.2 ⟨r, rfl, hstate⟩)
      rw [hnodes, hreads]
      exact if_pos (decide_eq_true hstate)
    · refine .finish r.addr r.solicitingMessage (hacc'.trans hacc) ?_ hout ?_
      · rw [hnodes, hreads]
        exact if_neg fun h => hstate (of_decide_eq_true h)
      · rw [hstale]
        rintro ⟨r', hr, hstate'⟩
        cases hr
        exact hstate hstate'

/-- What a delivery does to the reads of a node. -/
lemma readStep_commit (hk : s.flight[k]? = some p) {dirty : Bool}
    (h : ReadEffect p (s.activation p.node) a) :
    ReadStep n s (s.commit p.node (s.flight.eraseIdx k) a)
      (AnswersExclusiveMemoryAccess n s (.deliver k dirty)) := by
  have hstale : AnswersExclusiveMemoryAccess n s (.deliver k dirty) ↔
      ∃ r, p = .fromMemory n (.readResponse r) ∧
        ((s.nodes n).directoryDataMap r.addr).state = .exclusiveMemoryAccess := by
    constructor
    · rintro ⟨k', dirty', r, he, hp, hr⟩
      cases he
      cases hk.symm.trans hp
      exact ⟨r, rfl, hr⟩
    · rintro ⟨r, rfl, hr⟩
      exact ⟨k, dirty, r, rfl, hk, hr⟩
  by_cases hn : n = p.node
  · subst hn
    exact readStep_commit_self hk hstale h
  · have hs := outstandingReads_perm (n := n) hk
    have hnodes := nodes_commit_of_ne (s := s) (a := a) hn (s.flight.eraseIdx k)
    have hsent : ofNode n (sentReads a) = [] := by
      refine ofNode_eq_nil n fun q hq => ?_
      rw [h.node_eq_of_mem_sentReads rfl q hq]
      exact fun h => hn h.symm
    have hread : ofNode n p.memoryRead.toList = [] := by
      refine ofNode_eq_nil n fun q hq => ?_
      rw [node_eq_of_memoryRead (Option.mem_toList.1 hq)]
      exact fun h => hn h.symm
    refine .keep ?_ (by rw [hnodes]) ?_ ?_
    · funext addr
      rw [System.accessing, System.accessing, hnodes]
    · rw [outstandingReads_commit, hsent, List.append_nil]
      rw [hread, List.nil_append] at hs
      exact hs.symm
    · rw [hstale]
      rintro ⟨r, rfl, _⟩
      exact hn rfl

/-- What a delivery does to the writes of a node. -/
lemma writeStep_commit (hk : s.flight[k]? = some p) (h : WriteEffect p (s.activation p.node) a) :
    WriteStep n s (s.commit p.node (s.flight.eraseIdx k) a) := by
  have hs := outstandingWrites_perm (n := n) hk
  have hs' := outstandingWrites_commit (s := s) (n := n) (a := a) p.node (s.flight.eraseIdx k)
  by_cases hn : n = p.node
  · subst hn
    have hnodes := nodes_commit_self (s := s) (n := p.node) (a := a) (s.flight.eraseIdx k)
    cases h with
    | keep hwrites hsent =>
      refine .keep (by rw [hnodes, hwrites]; rfl) ?_
      rw [hs', hsent]
      exact List.perm_append_comm.trans hs.symm
    | start m hp hfresh hwrites hsent =>
      refine .start m hfresh (by rw [hnodes, hwrites]; rfl) ?_
      rw [hs', hsent, ofNode_singleton]
      rw [hp, Option.toList_none] at hs
      exact (List.perm_append_singleton _ _).trans (hs.symm.cons _)
    | finish node r hp hwrites hsent =>
      subst hp
      dsimp only [Packet.node] at hs hs' hnodes ⊢
      refine .finish r.solicitingMessage (by rw [hnodes, hwrites]; rfl) ?_
      have hwrite : ofNode node (Packet.fromMemory node (.writeResponse r)).memoryWrite.toList =
          [r.solicitingMessage] := ofNode_singleton node _
      rw [hwrite, List.singleton_append] at hs
      rw [hs', hsent, ofNode_nil, List.append_nil]
      exact hs
  · have hnodes := nodes_commit_of_ne (s := s) (a := a) hn (s.flight.eraseIdx k)
    have hsent : ofNode n (sentWrites a) = [] := by
      refine ofNode_eq_nil n fun q hq => ?_
      rw [h.node_eq_of_mem_sentWrites q hq]
      exact fun h => hn h.symm
    have hwrite : ofNode n p.memoryWrite.toList = [] := by
      refine ofNode_eq_nil n fun q hq => ?_
      rw [node_eq_of_memoryWrite (Option.mem_toList.1 hq)]
      exact fun h => hn h.symm
    refine .keep (by rw [hnodes]) ?_
    rw [hs', hsent, List.append_nil]
    rw [hwrite, List.nil_append] at hs
    exact hs.symm

lemma accessSteps_localSend (node : NodeID) (msg : Msg) {stale : Prop} (hstale : ¬stale) :
    ReadStep n s (s.localSend node msg) stale ∧ WriteStep n s (s.localSend node msg) := by
  have hreads : (s.localSend node msg).outstandingReads n = s.outstandingReads n := by
    rw [System.outstandingReads, System.localSend, List.filterMap_append]
    exact congrArg _ (List.append_nil _)
  have hwrites : (s.localSend node msg).outstandingWrites n = s.outstandingWrites n := by
    rw [System.outstandingWrites, System.localSend, List.filterMap_append]
    exact congrArg _ (List.append_nil _)
  exact ⟨.keep rfl rfl (.of_eq hreads) hstale, .keep rfl (.of_eq hwrites)⟩

/-- What any step does to the accesses of a node. -/
lemma accessSteps {cfg : Config} {s' : System} {e : Event} (n : NodeID)
    (h : (machine cfg).step s e = .ok s') :
    ReadStep n s s' (AnswersExclusiveMemoryAccess n s e) ∧ WriteStep n s s' := by
  rcases step_eq_ok h with ⟨node, addr, _, _, rfl, _, rfl⟩ | ⟨node, addr, _, rfl, _, rfl⟩ |
    ⟨k, dirty, p, a, rfl, hk, ha, rfl⟩
  · exact accessSteps_localSend _ _ (by rintro ⟨k, dirty, r, he, _⟩; cases he)
  · exact accessSteps_localSend _ _ (by rintro ⟨k, dirty, r, he, _⟩; cases he)
  · obtain ⟨hr, hw⟩ := effects_recvMsg rfl ha
    exact ⟨readStep_commit hk hr, writeStep_commit hk hw⟩

end

/-! ## The runs -/

section

variable {cfg : Config} {es : List Event} {s : System}

lemma memoryInv_run (h : (machine cfg).Run es s) (n : NodeID) : MemoryInv s n := by
  refine Machine.RunWhere.invariant (I := (MemoryInv · n)) h .new fun s e s' hI _ hstep => ?_
  obtain ⟨hr, hw⟩ := accessSteps n hstep
  exact hI.step hr hw

lemma not_staleRead_new (n : NodeID) : ¬StaleRead .new n := by
  rintro ⟨id, hid, _⟩
  exact hid rfl

/-- No read is stale if and only if the answer of the memory was never delivered to a line in
`ds_ExclusiveMemoryAccess`. -/
lemma not_staleRead_iff (h : (machine cfg).Run es s) : (∀ n, ¬StaleRead s n) ↔
    (machine cfg).RunWhere (fun s e => ∀ n, ¬AnswersExclusiveMemoryAccess n s e) es s := by
  refine Machine.Run.iff_runWhere (P := fun s => ∀ n, ¬StaleRead s n) h not_staleRead_new fun es s e s' hrun hstep => ?_
  constructor
  · intro hs
    have hbefore : ∀ n, ¬StaleRead s n := fun n hstale => hs n (hstale.step (accessSteps n hstep).1)
    refine ⟨hbefore, fun n hanswers => hs n ?_⟩
    exact (staleRead_step_iff (memoryInv_run hrun n) (hbefore n) (accessSteps n hstep).1).2 hanswers
  · rintro ⟨hbefore, hC⟩ n
    rw [staleRead_step_iff (memoryInv_run hrun n) (hbefore n) (accessSteps n hstep).1]
    exact hC n

/-- The bookkeeping is right when the invariant holds and no read is stale. -/
lemma memoryBookkeeping_iff {n : NodeID} (h : MemoryInv s n) :
    MemoryBookkeeping s n ↔ ¬StaleRead s n := by
  constructor
  · rintro hbook ⟨id, hid, hnot⟩
    exact hnot ((hbook.reads id).1 hid)
  · intro hstale
    have hreads : ∀ id, (s.nodes n).pendingMemoryReadAccesses id ≠ none ↔
        id ∈ (s.outstandingReads n).map Prod.snd := by
      refine fun id => ⟨fun hid => ?_, h.reads id⟩
      by_contra hnot
      exact hstale ⟨id, hid, hnot⟩
    refine ⟨hreads, h.writes.mem_iff, h.lines.mem_iff, fun hflight => ⟨fun id => ?_, fun id => ?_,
      fun addr => ?_⟩⟩
    · by_contra hid
      have := (hreads id).1 hid
      simp [System.outstandingReads, hflight, ofNode] at this
    · by_contra hid
      have := (h.writes.mem_iff id).1 hid
      simp [System.outstandingWrites, hflight, ofNode] at this
    · by_contra hacc
      have := (h.lines.mem_iff addr).1 (eq_true_of_ne_false hacc)
      simp [System.outstandingReads, hflight, ofNode] at this

/-- The memory bookkeeping of every node is right at the end of a run if and only if no answer
of a memory was delivered to a line in `ds_ExclusiveMemoryAccess` during the run. -/
theorem memoryBookkeeping_iff_run (cfg : Config) (es : List Event) (s : System)
    (h : (machine cfg).Run es s) : (∀ n, MemoryBookkeeping s n) ↔
      (machine cfg).RunWhere (fun s e => ∀ n, ¬AnswersExclusiveMemoryAccess n s e) es s := by
  rw [← not_staleRead_iff h]
  exact forall_congr' fun n => memoryBookkeeping_iff (memoryInv_run h n)

end

/-! ### A read that stays in its table

Node 1 reads line 0, which nobody owns, and keeps it; its read goes through the state
`ds_ExclusiveMemoryAccess` and nothing is in flight at the end. -/

def ownedReadRun : List Event := .localRead 1 0 true false :: List.replicate 6 (.deliver 0 false)

lemma ownedRead_reached : ∃ s, (machine .four).Run ownedReadRun s ∧ s.flight = [] ∧
    (s.nodes 0).pendingMemoryReadAccesses 1 ≠ none := by
  have hrun : succeeds ((machine .four).exec (machine .four).init ownedReadRun) (fun s =>
      decide (s.flight = [] ∧ (s.nodes 0).pendingMemoryReadAccesses 1 ≠ none)) = true := by
    decide +kernel
  obtain ⟨s, hs, htest⟩ := succeeds_iff.1 hrun
  obtain ⟨hflight, hread⟩ := of_decide_eq_true htest
  exact ⟨s, Machine.run_of_exec hs, hflight, hread⟩

theorem not_memoryBookkeeping_of_ownedRead : ∃ s, (machine .four).Run ownedReadRun s ∧
    s.flight = [] ∧ ¬MemoryBookkeeping s 0 := by
  obtain ⟨s, hs, hflight, hread⟩ := ownedRead_reached
  exact ⟨s, hs, hflight, fun h => hread ((h.idle hflight).1 1)⟩

theorem memoryBookkeeping_iff_ownedRead : ∃ s, (machine .four).Run ownedReadRun s ∧
    ((∀ n, MemoryBookkeeping s n) ↔ (machine .four).RunWhere
      (fun s e => ∀ n, ¬AnswersExclusiveMemoryAccess n s e) ownedReadRun s) := by
  obtain ⟨s, hs, _⟩ := ownedRead_reached
  exact ⟨s, hs, memoryBookkeeping_iff_run .four ownedReadRun s hs⟩

end Sesc.Origin
