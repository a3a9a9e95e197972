import Sesc.Trans.Deadlock

/-!
# When a reported conflict is resolved

An access with collisions is delayed, or its transaction is to be aborted, or all transactions
with which it collides are: so it is unless its process waits without a delay, the abort of the
process itself is asked for when the enemy waits for a third process or for nobody, or the abort
of the first enemy leaves another one.
-/

namespace Sesc.Trans

open Lib Relation

namespace PerfectCollisionManager

variable {procCount : ℕ} {s s' : PerfectCollisionManager} {pid : Pid} {transactionEntry : Level}
  {cs : List Collision}

/-- The condition under which the conflicts of an access are resolved: a process that waits has
a delay; where an abort is triggered, the enemy waits for the transaction of the access if that
is to be aborted, and is the only enemy otherwise. -/
def CanResolve (s : PerfectCollisionManager) (pid : Pid) (transactionEntry : Level)
    (cs : List Collision) : Prop :=
  (s.pidDependancy pid ≠ none → 0 < s.backoff pid) ∧
  (s.pidDependancy pid = none → ∀ c, cs.head? = some c → s.Triggers pid c.enemyPid →
    ((s.dependance pid c.enemyPid cs).abortsSelf pid c.enemyPid →
      transactionEntry ∈ s.levelDependancy c.enemyPid) ∧
    (¬(s.dependance pid c.enemyPid cs).abortsSelf pid c.enemyPid →
      ∀ x ∈ cs, x.enemyPid = c.enemyPid))

/-- An active level of a process is not among the levels on which the process depends. -/
lemma WaitInv.not_mem_levels (hs : s.WaitInv procCount) {level : Level}
    (hactive : s.activeTransResultSet level = some pid) : level ∉ s.levelDependancy pid := by
  intro hl
  rcases hdep : s.pidDependancy pid with _ | q
  · exact hs.sound.free pid hdep level hl
  · have howner := hs.sound.owned pid q hdep level hl
    have hq : some pid = some q := hactive.symm.trans howner
    have hself : s.pidDependancy pid = some pid := by
      rw [hdep, Option.some.inj hq]
    exact hs.acyclic pid (.single hself)

/-- What has been decided resolves the conflicts exactly under the condition. -/
lemma Decides.resolves_iff {delay : ℕ} {aborts : List Level} {w : WaitFor}
    (h : s.Decides pid cs delay aborts w) (hs : s.WaitInv procCount)
    (hentry : s.activeTransResultSet transactionEntry = some pid) (hcs : cs ≠ [])
    (hadmits : s.Admits pid cs) :
    (0 < delay ∨ transactionEntry ∈ aborts ∨ ∀ c ∈ cs, c.enemyLevel ∈ aborts) ↔
      s.CanResolve pid transactionEntry cs := by
  obtain ⟨d, hd⟩ := List.exists_mem_of_ne_nil cs hcs
  cases h with
  | alone hnil => exact absurd hnil hcs
  | waiting hwait =>
    constructor
    · rintro (hdelay | hentry | hall)
      · exact ⟨fun _ => hdelay, fun hfree => absurd hfree hwait⟩
      · cases hentry
      · cases hall d hd
    · intro hcan
      exact .inl (hcan.1 hwait)
  | stall c hc hfree htriggers =>
    refine iff_of_true (.inl Nat.one_pos) ⟨fun hwait => absurd hfree hwait, fun _ x hx ht => ?_⟩
    rw [hc] at hx
    cases hx
    exact absurd ht htriggers
  | abortSelf c hc hfree htriggers hself =>
    have hmem := List.mem_of_mem_head? (Option.mem_def.2 hc)
    constructor
    · rintro (hdelay | hentry | hall)
      · exact absurd hdelay (Nat.lt_irrefl 0)
      · refine ⟨fun hwait => absurd hfree hwait, fun _ x hx _ => ?_⟩
        rw [hc] at hx
        cases hx
        exact ⟨fun _ => hentry, fun hnot => absurd hself hnot⟩
      · -- the level of the enemy is none on which the enemy depends
        exact absurd (hall c hmem) (hs.not_mem_levels (hadmits c hmem).2.2.2)
    · intro hcan
      exact .inr (.inl ((hcan.2 hfree c hc htriggers).1 hself))
  | abortEnemy c hc hfree htriggers hself =>
    have hlevels : ∀ l, l ∈ (s.dependance pid c.enemyPid cs).levels.toList ↔
        ∃ x ∈ cs, x.enemyPid = c.enemyPid ∧ l = x.enemyLevel :=
      fun l => mem_levels_dependance hs.sound hfree
    constructor
    · rintro (hdelay | hown | hall)
      · exact absurd hdelay (Nat.lt_irrefl 0)
      · -- the levels of the enemy are not the transaction of the access
        obtain ⟨x, hx, -, rfl⟩ := (hlevels _).1 hown
        obtain ⟨-, -, hne, howner⟩ := hadmits x hx
        have hpid : some x.enemyPid = some pid := howner.symm.trans hentry
        exact absurd (Option.some.inj hpid) hne
      · refine ⟨fun hwait => absurd hfree hwait, fun _ x hx _ => ?_⟩
        rw [hc] at hx
        cases hx
        refine ⟨fun hyes => absurd hyes hself, fun _ y hy => ?_⟩
        obtain ⟨z, hz, henemy, hlevel⟩ := (hlevels _).1 (hall y hy)
        have howner := (hadmits y hy).2.2.2
        rw [hlevel, (hadmits z hz).2.2.2] at howner
        rw [← henemy]
        exact (Option.some.inj howner).symm
    · intro hcan
      have hone := (hcan.2 hfree c hc htriggers).2 hself
      exact .inr (.inr fun x hx => (hlevels _).2 ⟨x, hx, hone x hx, rfl⟩)

/-- The conflicts reported for a transactional access are resolved exactly under the
condition. -/
theorem conflict_resolved_iff (h : (machine procCount).Reachable s) (hpid : pid < procCount)
    (hentry : s.activeTransResultSet transactionEntry = some pid) (hcs : cs ≠ []) (hadmits : s.Admits pid cs) :
    ∃ delay aborts s', s.resolve procCount pid transactionEntry cs = .ok (delay, aborts, s') ∧
      ((0 < delay ∨ transactionEntry ∈ aborts ∨ ∀ c ∈ cs, c.enemyLevel ∈ aborts) ↔
        s.CanResolve pid transactionEntry cs) := by
  have hs := WaitInv.of_reachable h
  obtain ⟨delay, aborts, s', heq, hdecides, -⟩ := resolve_decides hs.sound hs.acyclic hpid
    (fun _ => hentry) hadmits
  exact ⟨delay, aborts, s', heq, hdecides.resolves_iff hs hentry hcs hadmits⟩

/-- Two transactions, none of which waits. -/
def beginRun : List Event :=
  [.transaction 0 0 1 .transBegin false false 0, .transaction 1 0 2 .transBegin false false 1]

/-- The first conflict is resolved by waiting. -/
theorem conflict_resolved_beginRun : ∃ s delay aborts s', (machine 2).Run beginRun s ∧
    s.resolve 2 0 1 [collision 0 1 1 2] = .ok (delay, aborts, s') ∧
    (0 < delay ∨ 1 ∈ aborts ∨ ∀ c ∈ [collision 0 1 1 2], c.enemyLevel ∈ aborts) := by
  have hrun : succeeds ((machine 2).exec (machine 2).init beginRun) (fun s =>
      decide (s.pidDependancy 0 = none ∧ s.pidDependancy 1 = none ∧ s.pidDominance 0 = ∅ ∧
        s.activeTransResultSet 1 = some 0 ∧ s.Admits 0 [collision 0 1 1 2])) = true := by
    decide +kernel
  obtain ⟨s, hs, htest⟩ := succeeds_iff.1 hrun
  obtain ⟨hzero, hone, hdominance, hactive, hadmits⟩ := of_decide_eq_true htest
  obtain ⟨delay, aborts, s', heq, hiff⟩ := conflict_resolved_iff
    ⟨beginRun, Machine.run_of_exec hs⟩ (by decide) hactive (List.cons_ne_nil _ _) hadmits
  refine ⟨s, delay, aborts, s', Machine.run_of_exec hs, heq, hiff.2 ?_⟩
  refine ⟨fun hwait => absurd hzero hwait, fun _ c hc htriggers => ?_⟩
  cases hc
  rcases htriggers with hdominates | hreaches
  · rw [hdominance] at hdominates
    exact absurd hdominates (ListSet.not_mem_empty _)
  · rcases ReflTransGen.cases_head hreaches with heq | ⟨c, hc, -⟩
    · cases heq
    · rw [ChainStep, show s.pidDependancy (collision 0 1 1 2).enemyPid = none from hone] at hc
      cases hc

/-- The youngest process closes a circle of three, and the transaction of the process for which
its enemy waits is aborted in place of its own. -/
theorem not_conflict_resolved_waitingRun : ∃ s delay aborts s', (machine 3).Run waitingRun s ∧
    s.activeTransResultSet 1 = some 0 ∧ s.Admits 0 [collision 0 1 1 2] ∧
    s.resolve 3 0 1 [collision 0 1 1 2] = .ok (delay, aborts, s') ∧ aborts = [3] ∧
    ¬(0 < delay ∨ 1 ∈ aborts ∨ ∀ c ∈ [collision 0 1 1 2], c.enemyLevel ∈ aborts) := by
  have hrun : succeeds ((machine 3).exec (machine 3).init waitingRun) (fun s =>
      decide (s.activeTransResultSet 1 = some 0 ∧ s.Admits 0 [collision 0 1 1 2]) &&
        succeeds (s.resolve 3 0 1 [collision 0 1 1 2]) fun r => decide (r.1 = 0 ∧ r.2.1 = [3]))
      = true := by
    decide +kernel
  obtain ⟨s, hs, htest⟩ := succeeds_iff.1 hrun
  rw [Bool.and_eq_true] at htest
  obtain ⟨hactive, hadmits⟩ := of_decide_eq_true htest.1
  obtain ⟨⟨delay, aborts, s'⟩, heq, hr⟩ := succeeds_iff.1 htest.2
  obtain ⟨hdelay, haborts⟩ := of_decide_eq_true hr
  dsimp only at hdelay haborts
  subst hdelay haborts
  exact ⟨s, 0, [3], s', Machine.run_of_exec hs, hactive, hadmits, heq, rfl, by decide⟩

end PerfectCollisionManager

end Sesc.Trans
