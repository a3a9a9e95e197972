import Sesc.Trans.AbortCount

/-!
# No process waits for itself

The aborts that an access reports free the enemy on which its process has come to depend, or
the process itself; so no execution closes a cycle of dependencies.
-/

namespace Sesc.Trans

open Lib Relation

namespace PerfectCollisionManager

variable {procCount : ℕ} {s s' : PerfectCollisionManager} {pid : Pid}

/-! ## What an instruction does to the dependencies -/

lemma waitFor_delayWaiting (s : PerfectCollisionManager) (pid : Pid) :
    (s.delayWaiting pid).waitFor = s.waitFor := by
  rw [delayWaiting]
  split <;> rfl

/-- The instruction that is finalized is an access, or a level begins or ends. -/
lemma finalizeInstruction_cases {procTime : ℕ} (h : s.finalizeInstruction procTime = .ok s') :
    s.transInstr = false ∧ s'.waitFor = s.waitFor ∨ s.transInstr = true ∧
      (s.opCode = .transBegin ∧ (∃ time, s'.waitFor = s.waitFor.begin s.pid s.newLevel time) ∨
        s.opCode ≠ .transBegin ∧ s'.waitFor = s.waitFor.finish s.pid s.oldLevel) := by
  obtain ⟨t, ht, hs'⟩ := bind_eq_ok.1 h
  have hwait : s'.waitFor = t.waitFor := by
    cases hs'
    rfl
  rw [hwait]
  rw [finalizeObserved] at ht
  split at ht
  · rename_i htrans
    refine .inr ⟨htrans, ?_⟩
    split at ht
    · rename_i hop
      cases ht
      exact .inl ⟨hop, _, rfl⟩
    · rename_i hop
      obtain ⟨-, ht⟩ := check_bind_eq_ok.1 ht
      cases ht
      exact .inr ⟨hop, rfl⟩
  · rename_i htrans
    obtain ⟨-, ht⟩ := check_bind_eq_ok.1 ht
    cases ht
    exact .inl ⟨eq_false_of_ne_true htrans, rfl⟩

/-- A transaction instruction is to be tried again, or a level begins or ends. -/
lemma executeTransactionInst_cases {old new : Level} {op : TMOpCode} {force delayed : Bool}
    {procTime : ℕ} (h : s.executeTransactionInst pid old new op force delayed procTime = .ok s') :
    force = false ∧ s'.waitFor = s.waitFor ∨
      op = .transBegin ∧ (∃ time, s'.waitFor = s.waitFor.begin pid new time) ∨
      op ≠ .transBegin ∧ s'.waitFor = s.waitFor.finish pid old := by
  rw [executeTransactionInst] at h
  generalize hr : (s.observeTransactionInst pid old new op).reportCollisions [] = r at h
  have hwait : r.waitFor = s.waitFor := by
    rw [← hr, ← waitFor_delayWaiting s pid]
    rfl
  have hfinal : ∀ t : PerfectCollisionManager, t.waitFor = r.waitFor → t.transInstr = true → t.opCode = op → t.pid = pid →
      t.newLevel = new → t.oldLevel = old → t.finalizeInstruction procTime = .ok s' →
      op = .transBegin ∧ (∃ time, s'.waitFor = s.waitFor.begin pid new time) ∨
        op ≠ .transBegin ∧ s'.waitFor = s.waitFor.finish pid old := by
    rintro t ht htrans rfl rfl rfl rfl hfinalize
    rw [← hwait, ← ht]
    rcases finalizeInstruction_cases hfinalize with ⟨hfalse, -⟩ | ⟨-, hcases⟩
    · rw [htrans] at hfalse
      cases hfalse
    · exact hcases
  split at h
  · exact .inr (hfinal r rfl (by rw [← hr]; rfl) (by rw [← hr]; rfl) (by rw [← hr]; rfl)
      (by rw [← hr]; rfl) (by rw [← hr]; rfl) h)
  · rename_i hforce
    rw [conclude] at h
    split at h
    · cases h
      exact .inl ⟨eq_false_of_ne_true hforce, hwait⟩
    · exact .inr (hfinal r.getDelay.2 rfl (by rw [← hr]; rfl) (by rw [← hr]; rfl)
        (by rw [← hr]; rfl) (by rw [← hr]; rfl) (by rw [← hr]; rfl) h)

/-- The end of an access leaves the dependencies as they are. -/
lemma conclude_access {retry : Bool} {procTime : ℕ} (htrans : s.transInstr = false)
    (h : s.conclude retry procTime = .ok s') : s'.waitFor = s.waitFor := by
  rw [conclude] at h
  split at h
  · cases h
    rfl
  · rcases finalizeInstruction_cases h with ⟨-, hwait⟩ | ⟨htrue, -⟩
    · exact hwait
    · rw [htrans] at htrue
      cases htrue

/-! ## Aborts -/

lemma executeAbort_cases {a : Abort} (h : s.executeAbort a = .ok s') :
    s.waitFor.active a.transID = some a.pid ∧ s'.waitFor = s.waitFor.finish a.pid a.transID := by
  obtain ⟨hactive, h⟩ := check_bind_eq_ok.1 h
  refine ⟨hactive, ?_⟩
  rcases executeTransactionInst_cases h with ⟨hforce, -⟩ | ⟨hop, -⟩ | ⟨-, hwait⟩
  · cases hforce
  · cases hop
  · exact hwait

/-- Aborts only take dependencies away. -/
lemma aborts_shrink {aborts : List Abort} (h : aborts.foldlM executeAbort s = .ok s')
    (hs : s.waitFor.Sound procCount) :
    s.waitFor.Shrinks s'.waitFor ∧ s'.waitFor.Sound procCount := by
  induction aborts generalizing s with
  | nil =>
    cases h
    exact ⟨.refl _, hs⟩
  | cons a aborts ih =>
    rw [List.foldlM_cons] at h
    obtain ⟨t, ht, h⟩ := bind_eq_ok.1 h
    obtain ⟨hactive, hwait⟩ := executeAbort_cases ht
    have hsound : t.waitFor.Sound procCount := by
      rw [hwait]
      exact hs.finish hactive
    obtain ⟨hshrinks, hsound'⟩ := ih h hsound
    have hfinish : s.waitFor.Shrinks t.waitFor := by
      rw [hwait]
      exact .finish hactive
    exact ⟨hfinish.trans hshrinks, hsound'⟩

/-! ## Every execution -/

/-- Processes wait for active levels of other processes, and not in a circle. -/
structure WaitInv (procCount : ℕ) (s : PerfectCollisionManager) : Prop where
  sound : s.waitFor.Sound procCount
  acyclic : Acyclic s.pidDependancy

lemma WaitInv.new : WaitInv procCount new where
  sound := by
    refine ⟨?_, ?_, ?_, fun _ _ l hl => List.not_mem_nil hl, ?_, rfl, ?_⟩ <;>
      exact fun _ _ h => nomatch h
  acyclic a ha := by
    obtain ⟨c, hc, -⟩ := TransGen.head'_iff.1 ha
    cases hc

/-- What an access adds is admissible. -/
lemma Decides.sound {delay : ℕ} {aborts : List Level} {w : WaitFor} {cs : List Collision}
    (h : s.Decides pid cs delay aborts w) (hs : s.waitFor.Sound procCount)
    (hpid : pid < procCount) (hadmits : s.Admits pid cs) : w.Sound procCount := by
  have hdepend : ∀ c, cs.head? = some c → s.pidDependancy pid = none →
      (s.waitFor.depend pid c.enemyPid (s.dependance pid c.enemyPid cs).levels).Sound
        procCount := by
    intro c hc hfree
    have hmem := List.mem_of_mem_head? (Option.mem_def.2 hc)
    refine hs.depend hpid (fun l hl => ?_) ⟨c.enemyLevel, ?_⟩
    · obtain ⟨x, hx, henemy, rfl⟩ := (mem_levels_dependance hs hfree).1 hl
      rw [← henemy]
      exact (hadmits x hx).2.2.2
    · exact (mem_levels_dependance hs hfree).2 ⟨c, hmem, rfl, rfl⟩
  cases h with
  | alone => exact hs
  | waiting => exact hs
  | stall c hc hfree => exact hdepend c hc hfree
  | abortSelf c hc hfree => exact hdepend c hc hfree
  | abortEnemy c hc hfree => exact hdepend c hc hfree

/-- When the reported aborts have been executed, the dependencies have no cycle. -/
lemma Decides.acyclic {delay : ℕ} {aborts : List Level} {w w' : WaitFor} {cs : List Collision}
    (h : s.Decides pid cs delay aborts w) (hs : s.waitFor.Sound procCount)
    (hacyclic : Acyclic s.pidDependancy) (hadmits : s.Admits pid cs) (hshrinks : w.Shrinks w')
    (hsound : w'.Sound procCount) (hgone : ∀ l ∈ aborts, w'.active l = none) :
    Acyclic w'.dependancy := by
  cases h with
  | alone => exact hacyclic.mono hshrinks.dependancy
  | waiting => exact hacyclic.mono hshrinks.dependancy
  | stall c hc hfree htriggers =>
    refine (hacyclic.update fun h => htriggers (.inr h)).mono hshrinks.dependancy
  | abortSelf c hc hfree =>
    -- all levels on which the enemy depends are gone
    have hne := (hadmits c (List.mem_of_mem_head? (Option.mem_def.2 hc))).2.2.1
    refine hshrinks.acyclic hacyclic (hshrinks.released hsound fun l hl => hgone l ?_)
    rw [WaitFor.depend_levels, Function.update_of_ne hne] at hl
    exact hl
  | abortEnemy c hc hfree =>
    -- a level of the enemy is gone
    have hmem := List.mem_of_mem_head? (Option.mem_def.2 hc)
    refine hshrinks.acyclic hacyclic (hshrinks.lost c.enemyLevel c.enemyPid ?_ (hgone _ ?_))
    · exact (hadmits c hmem).2.2.2
    · exact (mem_levels_dependance hs hfree).2 ⟨c, hmem, rfl, rfl⟩

lemma WaitInv.stepAccess {transactionEntry : Level} {cs : List Collision} {delayed : Bool}
    {aborts : List Abort} (hs : s.WaitInv procCount)
    (h : s.stepAccess procCount pid transactionEntry cs delayed aborts = .ok s') :
    s'.WaitInv procCount := by
  obtain ⟨hpid, h⟩ := check_bind_eq_ok.1 h
  obtain ⟨hentry, h⟩ := check_bind_eq_ok.1 h
  obtain ⟨hadmits, h⟩ := check_bind_eq_ok.1 h
  obtain ⟨delay, transIDs, t, hresolve, hdecides, htrans⟩ :=
    resolve_decides hs.sound hs.acyclic hpid hentry hadmits
  rw [hresolve, ok_bind] at h
  obtain ⟨u, hu, h⟩ := bind_eq_ok.1 h
  obtain ⟨v, hv, h⟩ := bind_eq_ok.1 h
  obtain ⟨hgone, h⟩ := check_bind_eq_ok.1 h
  cases h
  have hwait := conclude_access htrans hu
  have hbefore : u.waitFor.Sound procCount := hwait ▸ hdecides.sound hs.sound hpid hadmits
  obtain ⟨hshrinks, hsound⟩ := aborts_shrink hv hbefore
  rw [hwait] at hshrinks
  exact ⟨hsound, hdecides.acyclic hs.sound hs.acyclic hadmits hshrinks hsound hgone⟩

lemma WaitInv.stepTransaction {old new : Level} {op : TMOpCode} {force delayed : Bool}
    {procTime : ℕ} (hs : s.WaitInv procCount)
    (h : s.stepTransaction procCount pid old new op force delayed procTime = .ok s') :
    s'.WaitInv procCount := by
  obtain ⟨hpid, h⟩ := check_bind_eq_ok.1 h
  obtain ⟨hnew, h⟩ := check_bind_eq_ok.1 h
  obtain ⟨hold, h⟩ := check_bind_eq_ok.1 h
  have hdep : ∀ w : WaitFor, s'.waitFor = w → s'.pidDependancy = w.dependancy := by
    rintro w rfl
    rfl
  rcases executeTransactionInst_cases h with ⟨-, hwait⟩ | ⟨hop, time, hwait⟩ | ⟨hop, hwait⟩
  · refine ⟨hwait ▸ hs.sound, ?_⟩
    rw [hdep _ hwait]
    exact hs.acyclic
  · obtain ⟨hne, hnone⟩ := hnew hop
    refine ⟨hwait ▸ hs.sound.begin hpid hne hnone time, ?_⟩
    rw [hdep _ hwait]
    exact hs.acyclic
  · refine ⟨hwait ▸ hs.sound.finish (hold hop), ?_⟩
    rw [hdep _ hwait]
    exact hs.acyclic.mono fun _ _ h => (WaitFor.dependancy_of_finish h).1

theorem WaitInv.of_reachable (h : (machine procCount).Reachable s) : s.WaitInv procCount := by
  refine h.invariant .new fun s e s' hs hstep => ?_
  cases e with
  | access => exact hs.stepAccess hstep
  | transaction => exact hs.stepTransaction hstep

/-- The dependencies never have a cycle, and the loop that follows them ends. -/
theorem deadlock_free (h : (machine procCount).Reachable s) :
    Acyclic s.pidDependancy ∧ ∀ pid transactionEntry cs, pid < procCount →
      (transactionEntry ≠ 0 → s.activeTransResultSet transactionEntry = some pid) →
      s.Admits pid cs → ∃ r, s.resolve procCount pid transactionEntry cs = .ok r := by
  have hs := WaitInv.of_reachable h
  refine ⟨hs.acyclic, fun pid transactionEntry cs hpid hentry hadmits => ?_⟩
  obtain ⟨delay, aborts, s', heq, -⟩ := resolve_decides hs.sound hs.acyclic hpid hentry hadmits
  exact ⟨_, heq⟩

/-- The collision of an access of a level with a level of an enemy. -/
def collision (pid : Pid) (level : Level) (enemy : Pid) (enemyLevel : Level) : Collision where
  localPid := pid
  localLevel := level
  localIsDetermined := true
  localIsRead := false
  enemyPid := enemy
  enemyLevel := enemyLevel
  enemyIsDetermined := false
  enemyIsRead := false

/-- Three transactions, that of the process 0 the youngest; then the process 1 collides with 2
and the process 2 with 0, and both wait. -/
def waitingRun : List Event :=
  [.transaction 2 0 3 .transBegin false false 0, .transaction 1 0 2 .transBegin false false 1,
    .transaction 0 0 1 .transBegin false false 2, .access 1 2 [collision 1 2 2 3] false [],
    .access 2 3 [collision 2 3 0 1] false []]

/-- In a state in which two processes wait, an access of the third is decided. -/
theorem deadlock_free_waitingRun : ∃ s, (machine 3).Run waitingRun s ∧
    s.pidDependancy 1 = some 2 ∧ s.pidDependancy 2 = some 0 ∧ Acyclic s.pidDependancy ∧
    ∃ r, s.resolve 3 0 1 [collision 0 1 1 2] = .ok r := by
  have hrun : succeeds ((machine 3).exec (machine 3).init waitingRun) (fun s =>
      decide (s.pidDependancy 1 = some 2 ∧ s.pidDependancy 2 = some 0 ∧
        s.activeTransResultSet 1 = some 0 ∧ s.Admits 0 [collision 0 1 1 2])) = true := by
    decide +kernel
  obtain ⟨s, hs, htest⟩ := succeeds_iff.1 hrun
  obtain ⟨hone, htwo, hactive, hadmits⟩ := of_decide_eq_true htest
  obtain ⟨hacyclic, hresolve⟩ := deadlock_free ⟨waitingRun, Machine.run_of_exec hs⟩
  exact ⟨s, Machine.run_of_exec hs, hone, htwo, hacyclic,
    hresolve 0 1 _ (by decide) (fun _ => hactive) hadmits⟩

end PerfectCollisionManager

end Sesc.Trans
