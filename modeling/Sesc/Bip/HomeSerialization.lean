import Sesc.Bip.Decisions

/-!
# Serialization at the home

The home of a line completes one exclusive request at a time, never together with shared
requests, and gives the line to a node for itself only when it records no other node.
-/

namespace Sesc.Bip

open Lib

variable {cfg : Config} {s s' : System}

/-- What a step does to the exclusive requests of a node.  A request that is pending stays until
it is removed, and is never replaced by another one; and when a line is granted to a node, by the
home or by the node that passes the grant on to its cache, the home records no other node. -/
structure SerialStep (s s' : System) : Prop where
  unique : ∀ n addr ld ld', (s.nodes n).pendingDirectoryExclusiveReads addr = some ld →
    (s'.nodes n).pendingDirectoryExclusiveReads addr = some ld' → ld.SameRequest ld'
  granted : ∀ d, s'.history = s.history ++ [d] → ∀ addr node,
    .grant addr node ∈ d.sent.filterMap Packet.decision →
    d.packet.decision = some (.grant addr node) ∨
      (s'.nodes d.packet.node).directoryData addr = some { sharers := ∅, owner := node }

/-- Requests for a line are completed one after the other. -/
structure HomeSerialized (cfg : Config) (s : System) : Prop where
  apart : ∀ n addr, (s.nodes n).pendingDirectorySharedReads addr = [] ∨
    (s.nodes n).pendingDirectoryExclusiveReads addr = none
  step : ∀ e s', step cfg s e = .ok s' → SerialStep s s'

/-- A step that leaves the devices alone. -/
lemma SerialStep.of_nodes (hnodes : s'.nodes = s.nodes) (hhistory : s'.history = s.history) :
    SerialStep s s' where
  unique n addr ld ld' hld hld' := by
    rw [hnodes, hld] at hld'
    cases hld'
    exact ⟨rfl, rfl⟩
  granted d hd := by
    rw [hhistory] at hd
    exact absurd (List.self_eq_append_right.1 hd) (List.cons_ne_nil d [])

/-- A delivery, from what its handler does. -/
lemma SerialStep.commit {k : ℕ} {order : HashOrder} {p : Packet} {a : Activation}
    (h : Handles p (s.activation p.node order) a) : SerialStep s (s.commit k p a) where
  unique n addr ld ld' hld hld' := by
    by_cases hn : n = p.node
    · subst hn
      have hself : (s.commit k p a).nodes p.node = a.dir := Function.update_self _ _ _
      exact h.same addr ld ld' hld (hself ▸ hld')
    · have hother : (s.commit k p a).nodes n = s.nodes n := Function.update_of_ne hn _ _
      rw [hother, hld] at hld'
      cases hld'
      exact ⟨rfl, rfl⟩
  granted d hd addr node hgrant := by
    have hhistory : (s.commit k p a).history = s.history ++ [⟨p, a.sent⟩] := rfl
    cases List.append_cancel_left (hhistory.symm.trans hd)
    have hself : (s.commit k p a).nodes p.node = a.dir := Function.update_self _ _ _
    rw [hself]
    exact h.decided _ hgrant

/-- The requests for a line stay apart. -/
lemma apart_of_reachable (h : (machine cfg).Reachable s) (n : NodeID) (addr : Address) :
    (s.nodes n).Apart addr := by
  revert n addr
  refine h.induction (I := fun s => ∀ n addr, (s.nodes n).Apart addr) (fun n addr => .inl rfl)
    fun s e s' hreachable hs hstep n addr => ?_
  obtain ⟨_, _, _, _, -, rfl⟩ | ⟨_, _, _, -, rfl⟩ | ⟨k, order, reply, p, a, rfl, hp, ha, rfl⟩ :=
    step_eq_ok hstep
  · exact hs n addr
  · exact hs n addr
  · by_cases hn : n = p.node
    · have hself : (s.commit k p a).nodes n = a.dir := by
        rw [hn]
        exact Function.update_self _ _ _
      rw [hself]
      exact (handles_of_reachable hreachable hp ha).apart (hs p.node) addr
    · have hother : (s.commit k p a).nodes n = s.nodes n := Function.update_of_ne hn _ _
      rw [hother]
      exact hs n addr

/-- In every reachable state the home of a line serves one exclusive request at a time and grants
the line to a node only when no other node is recorded. -/
theorem homeSerialized_of_reachable (cfg : Config) (s : System)
    (h : (machine cfg).Reachable s) : HomeSerialized cfg s where
  apart := apart_of_reachable h
  step e s' hstep := by
    obtain ⟨_, _, _, _, -, rfl⟩ | ⟨_, _, _, -, rfl⟩ | ⟨k, order, reply, p, a, rfl, hp, ha, rfl⟩ :=
      step_eq_ok hstep
    · exact .of_nodes rfl rfl
    · exact .of_nodes rfl rfl
    · exact .commit (handles_of_reachable h hp ha)

/-- Three grants of line 0: when the memory has answered, after an invalidate, and when the owner
has given the block up. -/
theorem homeSerialized_secondReadRun : ∃ s, (machine .three).Reachable s ∧
    ((s.history.filter fun d => d.packet.node = 0).flatMap fun d =>
      d.sent.filterMap Packet.decision).filter (· ∈ [.grant 0 1, .grant 0 2]) =
      [.grant 0 1, .grant 0 1, .grant 0 2] ∧ HomeSerialized .three s := by
  have hrun : succeeds ((machine .three).exec (machine .three).init secondReadRun) (fun s =>
      decide (((s.history.filter fun d => d.packet.node = 0).flatMap fun d =>
        d.sent.filterMap Packet.decision).filter (· ∈ [.grant 0 1, .grant 0 2]) =
        [.grant 0 1, .grant 0 1, .grant 0 2])) = true := by
    decide +kernel
  obtain ⟨s, hs, htest⟩ := succeeds_iff.1 hrun
  have hreachable : (machine .three).Reachable s := ⟨_, Machine.run_of_exec hs⟩
  exact ⟨s, hreachable, of_decide_eq_true htest, homeSerialized_of_reachable .three s hreachable⟩

end Sesc.Bip
