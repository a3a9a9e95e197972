import Sesc.Trans.CollisionManager

/-!
# Who waits for whom

The tables of a `PerfectCollisionManager` that say which process waits for which levels of
which other process change in three ways only: a level begins, a level ends, and a process
that does not wait comes to depend on an enemy.  The handlers are described in these terms.
-/

namespace Sesc.Trans

open Lib Relation

/-- The dependencies of the processes, and the active levels. -/
structure WaitFor where
  dependancy : Pid → Option Pid
  levels : Pid → ListSet Level
  active : Level → Option Pid
  timeStamp : Level → Option ℕ

namespace WaitFor

variable {procCount : ℕ} {w w' : WaitFor} {pid enemy p q : Pid} {level l : Level}

/-- A new level of a process. -/
def begin (w : WaitFor) (pid : Pid) (level : Level) (time : ℕ) : WaitFor :=
  { w with
    timeStamp := Function.update w.timeStamp level (some time)
    active := Function.update w.active level (some pid) }

/-- The end of a level of a process. -/
def finish (w : WaitFor) (pid : Pid) (level : Level) : WaitFor where
  dependancy i :=
    if i = pid ∨ w.dependancy i = some pid ∧ level ∈ w.levels i ∧
      ((w.levels i).erase level).toList = [] then none
    else w.dependancy i
  levels i :=
    if i = pid then ∅
    else if w.dependancy i = some pid then (w.levels i).erase level
    else w.levels i
  active := Function.update w.active level none
  timeStamp := Function.update w.timeStamp level none

/-- A process comes to depend on levels of an enemy. -/
def depend (w : WaitFor) (pid enemy : Pid) (levels : ListSet Level) : WaitFor :=
  { w with
    dependancy := Function.update w.dependancy pid (some enemy)
    levels := Function.update w.levels pid levels }

@[simp] lemma begin_active {time : ℕ} :
    (w.begin pid level time).active = Function.update w.active level (some pid) := rfl

@[simp] lemma begin_timeStamp {time : ℕ} :
    (w.begin pid level time).timeStamp = Function.update w.timeStamp level (some time) := rfl

@[simp] lemma finish_active :
    (w.finish pid level).active = Function.update w.active level none := rfl

@[simp] lemma finish_timeStamp :
    (w.finish pid level).timeStamp = Function.update w.timeStamp level none := rfl

@[simp] lemma depend_dependancy {levels : ListSet Level} :
    (w.depend pid enemy levels).dependancy = Function.update w.dependancy pid (some enemy) := rfl

@[simp] lemma depend_levels {levels : ListSet Level} :
    (w.depend pid enemy levels).levels = Function.update w.levels pid levels := rfl

@[simp] lemma depend_active {levels : ListSet Level} :
    (w.depend pid enemy levels).active = w.active := rfl

/-- A process that waits does so for active levels of another process, at least for one. -/
structure Sound (procCount : ℕ) (w : WaitFor) : Prop where
  lt : ∀ p q, w.dependancy p = some q → p < procCount ∧ q < procCount
  owned : ∀ p q, w.dependancy p = some q → ∀ l ∈ w.levels p, w.active l = some q
  nonempty : ∀ p q, w.dependancy p = some q → ∃ l, l ∈ w.levels p
  free : ∀ p, w.dependancy p = none → ∀ l, l ∉ w.levels p
  active_lt : ∀ l p, w.active l = some p → p < procCount
  active_zero : w.active 0 = none
  timed : ∀ l p, w.active l = some p → ∃ t, w.timeStamp l = some t

/-! ## A level begins -/

lemma Sound.begin (h : w.Sound procCount) (hpid : pid < procCount) (hlevel : level ≠ 0)
    (hnew : w.active level = none) (time : ℕ) : (w.begin pid level time).Sound procCount := by
  have hactive : ∀ l p, (w.begin pid level time).active l = some p →
      l = level ∧ p = pid ∨ l ≠ level ∧ w.active l = some p := by
    intro l p hl
    by_cases heq : l = level
    · subst heq
      have hp : some pid = some p := by
        rw [← hl, begin_active, Function.update_self]
      exact .inl ⟨rfl, (Option.some.inj hp).symm⟩
    · rw [begin_active, Function.update_of_ne heq] at hl
      exact .inr ⟨heq, hl⟩
  refine ⟨h.lt, fun p q hpq l hl => ?_, h.nonempty, h.free, fun l p hl => ?_, ?_, fun l p hl => ?_⟩
  · have hold := h.owned p q hpq l hl
    have hne : l ≠ level := by
      rintro rfl
      rw [hnew] at hold
      cases hold
    rw [begin_active, Function.update_of_ne hne]
    exact hold
  · rcases hactive l p hl with ⟨-, rfl⟩ | ⟨-, hold⟩
    · exact hpid
    · exact h.active_lt l p hold
  · rw [begin_active, Function.update_of_ne hlevel.symm]
    exact h.active_zero
  · rcases hactive l p hl with ⟨rfl, -⟩ | ⟨hne, hold⟩
    · exact ⟨time, Function.update_self ..⟩
    · rw [begin_timeStamp, Function.update_of_ne hne]
      exact h.timed l p hold

/-! ## A level ends -/

/-- The end of a level adds no dependency. -/
lemma dependancy_of_finish (h : (w.finish pid level).dependancy p = some q) :
    w.dependancy p = some q ∧ p ≠ pid := by
  rw [finish] at h
  dsimp only at h
  split at h
  · cases h
  · rename_i hkeep
    exact ⟨h, fun hp => hkeep (.inl hp)⟩

lemma levels_of_finish (h : l ∈ (w.finish pid level).levels p) : l ∈ w.levels p := by
  rw [finish] at h
  dsimp only at h
  split at h
  · cases h
  · split at h
    · exact (ListSet.mem_erase.1 h).2
    · exact h

@[simp] lemma finish_dependancy_self : (w.finish pid level).dependancy pid = none :=
  if_pos (.inl rfl)

/-- What a process still depends on after the end of a level is not that level. -/
lemma Sound.ne_of_finish (h : w.Sound procCount) (hactive : w.active level = some pid)
    (hdep : w.dependancy p = some q) (hl : l ∈ (w.finish pid level).levels p) : l ≠ level := by
  rintro rfl
  have howner := h.owned p q hdep l (levels_of_finish hl)
  rw [hactive] at howner
  rw [finish] at hl
  dsimp only at hl
  split at hl
  · cases hl
  · rw [if_pos (hdep.trans howner.symm)] at hl
    exact (ListSet.mem_erase.1 hl).1 rfl

lemma Sound.finish (h : w.Sound procCount) (hactive : w.active level = some pid) :
    (w.finish pid level).Sound procCount := by
  have hkept : ∀ l p, (w.finish pid level).active l = some p → l ≠ level ∧ w.active l = some p := by
    intro l p hl
    have hne : l ≠ level := by
      rintro rfl
      rw [finish_active, Function.update_self] at hl
      cases hl
    rw [finish_active, Function.update_of_ne hne] at hl
    exact ⟨hne, hl⟩
  refine ⟨fun p q hpq => h.lt p q (dependancy_of_finish hpq).1, fun p q hpq l hl => ?_,
    fun p q hpq => ?_, fun p hp l hl => ?_, fun l p hl => h.active_lt l p (hkept l p hl).2, ?_,
    fun l p hl => ?_⟩
  · have hold := (dependancy_of_finish hpq).1
    have hne := h.ne_of_finish hactive hold hl
    rw [finish_active, Function.update_of_ne hne]
    exact h.owned p q hold l (levels_of_finish hl)
  · obtain ⟨hold, hp⟩ := dependancy_of_finish hpq
    obtain ⟨l, hl⟩ := h.nonempty p q hold
    rw [WaitFor.finish] at hpq ⊢
    dsimp only at hpq ⊢
    rw [if_neg hp]
    split
    · rename_i hdep
      by_cases hlevel : level ∈ w.levels p
      · -- the process is not released, so that a level is left
        have hleft : ((w.levels p).erase level).toList ≠ [] := by
          intro hempty
          rw [if_pos (.inr ⟨hdep, hlevel, hempty⟩)] at hpq
          cases hpq
        exact List.exists_mem_of_ne_nil _ hleft
      · exact ⟨l, ListSet.mem_erase.2 ⟨fun heq => hlevel (heq ▸ hl), hl⟩⟩
    · exact ⟨l, hl⟩
  · have hlold := levels_of_finish hl
    rw [WaitFor.finish] at hp hl
    dsimp only at hp hl
    split at hp
    · rename_i hreleased
      split at hl
      · cases hl
      · rename_i hne
        obtain ⟨hdep, -, hempty⟩ := hreleased.resolve_left hne
        rw [if_pos hdep, ListSet.mem_iff, hempty] at hl
        cases hl
    · exact h.free p hp l hlold
  · by_cases hzero : 0 = level
    · rw [finish_active, hzero, Function.update_self]
    · rw [finish_active, Function.update_of_ne hzero]
      exact h.active_zero
  · obtain ⟨hne, hold⟩ := hkept l p hl
    rw [finish_timeStamp, Function.update_of_ne hne]
    exact h.timed l p hold

/-! ## A process comes to depend on an enemy -/

lemma Sound.depend (h : w.Sound procCount) (hpid : pid < procCount) {levels : ListSet Level}
    (howned : ∀ l ∈ levels, w.active l = some enemy) (hnonempty : ∃ l, l ∈ levels) :
    (w.depend pid enemy levels).Sound procCount := by
  have henemy : enemy < procCount := by
    obtain ⟨l, hl⟩ := hnonempty
    exact h.active_lt l enemy (howned l hl)
  have hcases : ∀ p q, (w.depend pid enemy levels).dependancy p = some q →
      p = pid ∧ q = enemy ∧ (w.depend pid enemy levels).levels p = levels ∨
      w.dependancy p = some q ∧ (w.depend pid enemy levels).levels p = w.levels p := by
    intro p q hpq
    rw [depend_dependancy] at hpq
    rw [depend_levels]
    by_cases hp : p = pid
    · subst hp
      rw [Function.update_self] at hpq
      rw [Function.update_self]
      exact .inl ⟨rfl, (Option.some.inj hpq).symm, rfl⟩
    · rw [Function.update_of_ne hp] at hpq
      rw [Function.update_of_ne hp]
      exact .inr ⟨hpq, rfl⟩
  refine ⟨fun p q hpq => ?_, fun p q hpq l hl => ?_, fun p q hpq => ?_, fun p hp l hl => ?_,
    h.active_lt, h.active_zero, h.timed⟩
  · rcases hcases p q hpq with ⟨rfl, rfl, -⟩ | ⟨hold, -⟩
    · exact ⟨hpid, henemy⟩
    · exact h.lt p q hold
  · rcases hcases p q hpq with ⟨rfl, rfl, hlevels⟩ | ⟨hold, hlevels⟩
    · rw [hlevels] at hl
      exact howned l hl
    · rw [hlevels] at hl
      exact h.owned p q hold l hl
  · rcases hcases p q hpq with ⟨rfl, rfl, hlevels⟩ | ⟨hold, hlevels⟩
    · rw [hlevels]
      exact hnonempty
    · rw [hlevels]
      exact h.nonempty p q hold
  · rw [depend_dependancy] at hp
    rw [depend_levels] at hl
    by_cases heq : p = pid
    · rw [heq, Function.update_self] at hp
      cases hp
    · rw [Function.update_of_ne heq] at hp
      rw [Function.update_of_ne heq] at hl
      exact h.free p hp l hl

/-! ## Several levels end -/

/-- Dependencies and levels have gone only, and a process that has lost a level waits for
nobody. -/
structure Shrinks (w w' : WaitFor) : Prop where
  dependancy : ∀ p q, w'.dependancy p = some q → w.dependancy p = some q
  levels : ∀ p l, l ∈ w'.levels p → l ∈ w.levels p
  active : ∀ l, w'.active l = none ∨ w'.active l = w.active l
  lost : ∀ l p, w.active l = some p → w'.active l = none → w'.dependancy p = none

lemma Shrinks.refl (w : WaitFor) : w.Shrinks w where
  dependancy _ _ h := h
  levels _ _ h := h
  active _ := .inr rfl
  lost l p hp hnone := by
    rw [hp] at hnone
    cases hnone

lemma Shrinks.none_of_none {w w' : WaitFor} (h : w.Shrinks w') (hp : w.dependancy p = none) :
    w'.dependancy p = none := by
  rcases hq : w'.dependancy p with _ | q
  · rfl
  · have := h.dependancy p q hq
    rw [hp] at this
    cases this

lemma Shrinks.trans {w'' : WaitFor} (h : w.Shrinks w') (h' : w'.Shrinks w'') : w.Shrinks w'' where
  dependancy p q hpq := h.dependancy p q (h'.dependancy p q hpq)
  levels p l hl := h.levels p l (h'.levels p l hl)
  active l := by
    rcases h'.active l with hnone | heq
    · exact .inl hnone
    · rw [heq]
      exact h.active l
  lost l p hp hnone := by
    rcases h.active l with hgone | hkept
    · exact h'.none_of_none (h.lost l p hp hgone)
    · exact h'.lost l p (hkept.trans hp) hnone

lemma Shrinks.finish (hactive : w.active level = some pid) : w.Shrinks (w.finish pid level) where
  dependancy _ _ h := (dependancy_of_finish h).1
  levels _ _ h := levels_of_finish h
  active l := by
    by_cases hl : l = level
    · subst hl
      exact .inl (Function.update_self ..)
    · exact .inr (Function.update_of_ne hl ..)
  lost l p hp hnone := by
    by_cases hl : l = level
    · subst hl
      rw [hactive] at hp
      cases hp
      exact finish_dependancy_self
    · rw [finish_active, Function.update_of_ne hl, hp] at hnone
      cases hnone

/-- When all levels on which a process depended have ended, it waits for nobody. -/
lemma Shrinks.released (h : w.Shrinks w') (hw' : w'.Sound procCount)
    (hgone : ∀ l ∈ w.levels p, w'.active l = none) : w'.dependancy p = none := by
  rcases hq : w'.dependancy p with _ | q
  · rfl
  · obtain ⟨l, hl⟩ := hw'.nonempty p q hq
    have howner := hw'.owned p q hq l hl
    rw [hgone l (h.levels p l hl)] at howner
    cases howner

/-- A process has come to depend on an enemy, and then aborts have made the enemy wait for
nobody. -/
lemma Shrinks.acyclic {levels : ListSet Level} (hw : Acyclic w.dependancy)
    (h : (w.depend pid enemy levels).Shrinks w') (henemy : w'.dependancy enemy = none) :
    Acyclic w'.dependancy := by
  refine hw.of_sink (fun p q hpq => ?_) henemy
  have hold := h.dependancy p q hpq
  rw [depend_dependancy] at hold
  by_cases hp : p = pid
  · rw [hp, Function.update_self] at hold
    exact .inr (Option.some.inj hold).symm
  · rw [Function.update_of_ne hp] at hold
    exact .inl hold

end WaitFor

end Sesc.Trans
