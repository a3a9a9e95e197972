import Sesc.Bip.Decisions

/-!
# The records of a home

An entry of `directoryData` names nodes of the system only, and a line is fetched from its owner
or, when the owner has gone, from one of the sharers that remain; this may be the node that asked.
-/

namespace Sesc.Bip

open Lib

variable {cfg : Config} {s s' : System} {a b : Activation} {addr : Address} {id : NodeID}

/-- The records of a home as they would be if an owner were always recorded first: the owner is
no sharer, there are no sharers without an owner, the recorded nodes are nodes of the system, and
no request is forwarded to the node that made it. -/
structure RecordsWellFormed (cfg : Config) (s : System) : Prop where
  separate : ∀ n addr d, (s.nodes n).directoryData addr = some d → d.owner ∉ d.sharers
  owned : ∀ n addr d, (s.nodes n).directoryData addr = some d → d.owner = InvalidNodeID →
    ∀ id, id ∉ d.sharers
  known : ∀ n addr d, (s.nodes n).directoryData addr = some d → d.Within cfg.nodeIDs
  others : ∀ d ∈ s.history, ∀ n src m, d.packet = .network n src (.read m) →
    m.directoryLookup = true → .fetch m.addr src ∉ d.sent.filterMap Packet.decision

/-- Every entry names nodes of the system only. -/
def RecordsWithin (nodes : List NodeID) (d : BIPDirectory) : Prop :=
  ∀ addr b, d.directoryData addr = some b → b.Within nodes

/-- The owner of a line is none of its sharers. -/
def RecordsSeparate (d : BIPDirectory) : Prop :=
  ∀ addr b, d.directoryData addr = some b → b.owner ∉ b.sharers

/-- What holds of the records of all homes, and what the two operations on them keep. -/
structure RecordsKept (cfg : Config) (s : System) : Prop where
  known : ∀ n, RecordsWithin cfg.nodeIDs (s.nodes n)
  erase : ∀ a addr id b, Device.eraseDirectoryShare addr id a = .ok b →
    RecordsWithin cfg.nodeIDs a.dir → RecordsWithin cfg.nodeIDs b.dir ∧
      (RecordsSeparate a.dir → RecordsSeparate b.dir)
  add : ∀ a addr id exclusive b, Device.addDirectoryShare addr id exclusive a = .ok b →
    id ∈ cfg.nodeIDs → RecordsWithin cfg.nodeIDs a.dir → RecordsWithin cfg.nodeIDs b.dir ∧
      ((∀ d, a.dir.directoryData addr = some d → d.owner = InvalidNodeID → id ∉ d.sharers) →
        RecordsSeparate a.dir → RecordsSeparate b.dir)
  /-- A fetch that a home sends goes to the recorded owner or, if there is none, to a recorded
  sharer. -/
  fetched : ∀ e s', step cfg s e = .ok s' → ∀ d, s'.history = s.history ++ [d] → ∀ addr node,
    .fetch addr node ∈ d.sent.filterMap Packet.decision →
    d.packet.decision = some (.fetch addr node) ∨
      ∃ b, (s'.nodes d.packet.node).directoryData addr = some b ∧ node ∈ cfg.nodeIDs ∧
        (b.owner = node ∨ b.owner = InvalidNodeID ∧ node ∈ b.sharers)

/-! ## The two operations -/

/-- An operation that replaces one entry. -/
lemma forall_setDirectoryData {P : BlockData → Prop} {d : BlockData}
    (h : ∀ addr' b, a.dir.directoryData addr' = some b → P b) (hd : P d) :
    ∀ addr' b, (a.setDirectoryData addr d).dir.directoryData addr' = some b → P b := by
  refine (Function.forall_update_iff _ (p := fun _ (o : Option BlockData) =>
    ∀ b, o = some b → P b)).2 ⟨fun b hb => ?_, fun addr' _ => h addr'⟩
  cases hb
  exact hd

/-- No node of the system is the missing owner. -/
lemma BlockData.Within.invalid_notMem {d : BlockData} (h : d.Within cfg.nodeIDs) :
    InvalidNodeID ∉ d.sharers :=
  fun hmem => cfg.invalid_notMem (h.sharers _ hmem)

lemma BlockData.separate_release {d : BlockData} (hwithin : d.Within cfg.nodeIDs)
    (h : d.owner ∉ d.sharers) : (d.release id).owner ∉ (d.release id).sharers := by
  rw [BlockData.release]
  split
  · exact hwithin.invalid_notMem
  · exact fun hmem => h (ListSet.mem_erase.1 hmem).2

lemma records_eraseDirectoryShare (hb : Device.eraseDirectoryShare addr id a = .ok b)
    (ha : RecordsWithin cfg.nodeIDs a.dir) : RecordsWithin cfg.nodeIDs b.dir ∧
      (RecordsSeparate a.dir → RecordsSeparate b.dir) := by
  rw [Device.eraseDirectoryShare] at hb
  split at hb
  · cases hb
  · rename_i d hd
    cases hb
    refine ⟨forall_setDirectoryData ha (ha addr d hd).release, fun hseparate => ?_⟩
    exact forall_setDirectoryData (P := fun b => b.owner ∉ b.sharers) hseparate
      (BlockData.separate_release (ha addr d hd) (hseparate addr d hd))

lemma records_addDirectoryShare {exclusive : Bool}
    (hb : Device.addDirectoryShare addr id exclusive a = .ok b) (hid : id ∈ cfg.nodeIDs)
    (ha : RecordsWithin cfg.nodeIDs a.dir) : RecordsWithin cfg.nodeIDs b.dir ∧
      ((∀ d, a.dir.directoryData addr = some d → d.owner = InvalidNodeID → id ∉ d.sharers) →
        RecordsSeparate a.dir → RecordsSeparate b.dir) := by
  rw [Device.addDirectoryShare] at hb
  split at hb
  · cases hb
  · rename_i d hd
    obtain ⟨-, hb⟩ := check_bind_eq_ok.1 hb
    cases hb
    have hwithin := ha addr d hd
    split
    · rename_i howner
      refine ⟨forall_setDirectoryData ha ⟨.inr hid, hwithin.sharers⟩, fun hnew hseparate => ?_⟩
      refine forall_setDirectoryData (P := fun b => b.owner ∉ b.sharers) hseparate ?_
      rcases howner with rfl | hinvalid
      · exact hseparate addr d hd
      · exact hnew d hd hinvalid
    · rename_i howner
      rw [not_or] at howner
      refine ⟨forall_setDirectoryData ha ⟨hwithin.owner, fun id' hid' => ?_⟩,
        fun _ hseparate => ?_⟩
      · rcases ListSet.mem_insert.1 hid' with rfl | hold
        · exact hid
        · exact hwithin.sharers id' hold
      · refine forall_setDirectoryData (P := fun b => b.owner ∉ b.sharers) hseparate
          fun hmem => ?_
        rcases ListSet.mem_insert.1 hmem with heq | hold
        · exact howner.1 heq
        · exact hseparate addr d hd hold

/-! ## Runs -/

/-- In every reachable state the records name nodes of the system, and lines are fetched from
recorded nodes. -/
theorem recordsKept_of_reachable (cfg : Config) (s : System) (h : (machine cfg).Reachable s) :
    RecordsKept cfg s where
  known n := ((nodesKnown_of_reachable h).device n ⟨0, 0, 0⟩).record
  erase _ _ _ _ hb ha := records_eraseDirectoryShare hb ha
  add _ _ _ _ _ hb hid ha := records_addDirectoryShare hb hid ha
  fetched e s' hstep d hd addr node hfetch := by
    have hnodes : NodesKnown cfg s' := (nodesKnown_of_reachable h).step hstep
    obtain ⟨_, _, _, _, -, rfl⟩ | ⟨_, _, _, -, rfl⟩ | ⟨k, order, reply, p, a, rfl, hp, ha, rfl⟩ :=
      step_eq_ok hstep
    · exact absurd (List.self_eq_append_right.1 hd) (List.cons_ne_nil d [])
    · exact absurd (List.self_eq_append_right.1 hd) (List.cons_ne_nil d [])
    · have hhistory : (s.commit k p a).history = s.history ++ [⟨p, a.sent⟩] := rfl
      cases List.append_cancel_left (hhistory.symm.trans hd)
      have hself : (s.commit k p a).nodes p.node = a.dir := Function.update_self _ _ _
      refine ((handles_of_reachable h hp ha).decided _ hfetch).imp_right fun hjustified => ?_
      obtain ⟨b, hb, hrecorded⟩ := hjustified
      have hrecord : ((s.commit k p a).nodes p.node).directoryData addr = some b := by
        rw [hself]
        exact hb
      have hwithin := (hnodes.device p.node ⟨0, 0, 0⟩).record addr b hrecord
      refine ⟨b, hrecord, ?_, hrecorded.imp_left And.left⟩
      rcases hrecorded with ⟨howner, hvalid⟩ | ⟨-, hmem⟩
      · exact howner ▸ hwithin.owner.resolve_left hvalid
      · exact hwithin.sharers node hmem

/-! ### A line without an owner -/

/-- Nodes 1 and 2 share line 0, node 1 evicts it, and node 2 asks for it again, to write it. -/
def ownerlessRun : List Event :=
  sharedRun ++
  [.localEviction 1 0 false, cleanDelivery 0, cleanDelivery 1, .localRead 2 0 true true,
    cleanDelivery 2, cleanDelivery 2]

/-- The line has been fetched from the sharer that remains. -/
theorem recordsKept_ownerlessRun : ∃ s, (machine .three).Reachable s ∧
    (s.history.getLast?.map fun d => d.sent.filterMap Packet.decision) = some [.fetch 0 2] ∧
    RecordsKept .three s := by
  have hrun : succeeds ((machine .three).exec (machine .three).init ownerlessRun) (fun s =>
      decide ((s.history.getLast?.map fun d => d.sent.filterMap Packet.decision) =
        some [.fetch 0 2])) = true := by
    decide +kernel
  obtain ⟨s, hs, htest⟩ := succeeds_iff.1 hrun
  have hreachable : (machine .three).Reachable s := ⟨_, Machine.run_of_exec hs⟩
  exact ⟨s, hreachable, of_decide_eq_true htest, recordsKept_of_reachable .three s hreachable⟩

/-- A sharer without an owner is recorded, and its own request is forwarded to it. -/
theorem not_recordsWellFormed_ownerlessRun : ∃ s, (machine .three).Reachable s ∧
    (s.nodes 0).directoryData 0 = some ⟨⟨[2], List.nodup_singleton 2⟩, InvalidNodeID⟩ ∧
    (∃ sent, s.history.getLast? = some ⟨.network 0 2 (.read ⟨12, 0, true, true, true⟩), sent⟩ ∧
      .fetch 0 2 ∈ sent.filterMap Packet.decision) ∧ ¬RecordsWellFormed .three s := by
  have hrun : succeeds ((machine .three).exec (machine .three).init ownerlessRun) (fun s =>
      decide ((s.nodes 0).directoryData 0 = some ⟨⟨[2], List.nodup_singleton 2⟩, InvalidNodeID⟩ ∧
        s.history.getLast? = some ⟨.network 0 2 (.read ⟨12, 0, true, true, true⟩),
          [.network 2 0 (.read ⟨12, 0, true, false, false⟩)]⟩)) = true := by
    decide +kernel
  obtain ⟨s, hs, htest⟩ := succeeds_iff.1 hrun
  obtain ⟨hrecord, hlast⟩ := of_decide_eq_true htest
  refine ⟨s, ⟨_, Machine.run_of_exec hs⟩, hrecord, ⟨_, hlast, List.mem_singleton_self _⟩,
    fun h => ?_⟩
  exact h.owned 0 0 _ hrecord rfl 2 (List.mem_singleton_self 2)

end Sesc.Bip
