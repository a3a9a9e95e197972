import Sesc.Trans.WaitFor

/-!
# The decision of `AbortCount`

For admissible collisions `AbortCount` does not fail: the loop that follows the chain of
dependencies ends.  An access and the aborts that it reports leave the dependencies without a
cycle.
-/

namespace Sesc.Trans

open Lib Relation

namespace PerfectCollisionManager

variable {procCount : ℕ} {s s' : PerfectCollisionManager} {pid enemy : Pid}

/-- The dependencies and the active levels of a manager. -/
def waitFor (s : PerfectCollisionManager) : WaitFor where
  dependancy := s.pidDependancy
  levels := s.levelDependancy
  active := s.activeTransResultSet
  timeStamp := s.timeStamp

/-! ## What the loop over the collisions collects -/

/-- What a collision with the enemy adds. -/
def note (s : PerfectCollisionManager) (d : Dependance) (c : Collision) : Dependance where
  localTimeStamp := min d.localTimeStamp ((s.timeStamp c.localLevel).getD 0)
  enemyTimeStamp := min d.enemyTimeStamp ((s.timeStamp c.enemyLevel).getD 0)
  levels := d.levels.insert c.enemyLevel

/-- The earliest timestamps in the collisions with an enemy, and the levels of the enemy. -/
def dependance (s : PerfectCollisionManager) (pid enemy : Pid) (collisions : List Collision) :
    Dependance :=
  (collisions.filter fun c => c.enemyPid = enemy).foldl s.note
    ⟨0xFFFFFFFFFFFFFFFF, 0xFFFFFFFFFFFFFFFF, s.levelDependancy pid⟩

lemma foldlM_noteCollision {cs : List Collision} {d : Dependance}
    (hcs : ∀ c ∈ cs, c.localPid = pid ∧ (∃ t, s.timeStamp c.localLevel = some t) ∧
      (∃ t, s.timeStamp c.enemyLevel = some t) ∧ c.enemyLevel ≠ 0) :
    cs.foldlM (s.noteCollision pid enemy) d =
      .ok ((cs.filter fun c => c.enemyPid = enemy).foldl s.note d) := by
  induction cs generalizing d with
  | nil => rfl
  | cons c cs ih =>
    obtain ⟨hpid, ⟨t, ht⟩, ⟨u, hu⟩, hlevel⟩ := hcs c (.head _)
    rw [List.foldlM_cons]
    by_cases henemy : c.enemyPid = enemy
    · have hnote : s.noteCollision pid enemy d c = .ok (s.note d c) := by
        rw [noteCollision, if_pos henemy, getTimeStamp, getTimeStamp, note, ht, hu]
        refine check_bind_eq_ok.2 ⟨hpid.symm, ?_⟩
        exact check_bind_eq_ok.2 ⟨.inr hlevel, rfl⟩
      rw [hnote, ok_bind, List.filter_cons_of_pos (by simpa using henemy), List.foldl_cons]
      exact ih fun c hc => hcs c (.tail _ hc)
    · have hnote : s.noteCollision pid enemy d c = .ok d := by
        rw [noteCollision, if_neg henemy]
        exact check_bind_eq_ok.2 ⟨hpid.symm, rfl⟩
      rw [hnote, ok_bind, List.filter_cons_of_neg (by simpa using henemy)]
      exact ih fun c hc => hcs c (.tail _ hc)

lemma mem_levels_foldl {cs : List Collision} {d : Dependance} {l : Level} :
    l ∈ (cs.foldl s.note d).levels ↔ l ∈ d.levels ∨ ∃ c ∈ cs, l = c.enemyLevel := by
  induction cs generalizing d with
  | nil => simp
  | cons c cs ih =>
    rw [List.foldl_cons, ih, note, ListSet.mem_insert]
    constructor
    · rintro ((hl | hl) | ⟨x, hx, hl⟩)
      · exact .inr ⟨c, .head _, hl⟩
      · exact .inl hl
      · exact .inr ⟨x, .tail _ hx, hl⟩
    · rintro (hl | ⟨x, hx, hl⟩)
      · exact .inl (.inr hl)
      · rcases List.mem_cons.1 hx with rfl | hx
        · exact .inl (.inl hl)
        · exact .inr ⟨x, hx, hl⟩

/-- A process that does not wait comes to depend on the levels reported of the enemy. -/
lemma mem_levels_dependance (hs : s.waitFor.Sound procCount) (hfree : s.pidDependancy pid = none)
    {cs : List Collision} {l : Level} : l ∈ (s.dependance pid enemy cs).levels ↔
      ∃ c ∈ cs, c.enemyPid = enemy ∧ l = c.enemyLevel := by
  rw [dependance, mem_levels_foldl]
  constructor
  · rintro (hl | ⟨c, hc, hl⟩)
    · exact absurd hl (hs.free pid hfree l)
    · obtain ⟨hc, henemy⟩ := List.mem_filter.1 hc
      exact ⟨c, hc, of_decide_eq_true henemy, hl⟩
  · rintro ⟨c, hc, henemy, hl⟩
    exact .inr ⟨c, List.mem_filter.2 ⟨hc, decide_eq_true henemy⟩, hl⟩

/-! ## The decision -/

/-- An abort is triggered: the process dominates the enemy, or the enemy waits for it, directly
or through others. -/
def Triggers (s : PerfectCollisionManager) (pid enemy : Pid) : Prop :=
  enemy ∈ s.pidDominance pid ∨ ReflTransGen (ChainStep s.pidDependancy) enemy pid

/-- The process depends on the levels of the enemy in the collisions. -/
def withDependance (s : PerfectCollisionManager) (pid enemy : Pid) (d : Dependance) :
    PerfectCollisionManager :=
  { s with
    pidDependancy := Function.update s.pidDependancy pid (some enemy)
    levelDependancy := Function.update s.levelDependancy pid d.levels }

/-- The decision for a process that does not wait. -/
lemma dependOn_eq (hs : s.waitFor.Sound procCount) (hacyclic : Acyclic s.pidDependancy)
    (hpid : pid < procCount) (henemy : enemy < procCount)
    (hadmits : s.Admits pid s.collisionSet) {d : Dependance}
    (hd : s.dependance pid enemy s.collisionSet = d) :
    (s.Triggers pid enemy →
      s.dependOn procCount pid enemy = .ok ((s.withDependance pid enemy d).chooseAborts pid enemy d)) ∧
    (¬s.Triggers pid enemy →
      s.dependOn procCount pid enemy = .ok ((s.withDependance pid enemy d).stall pid)) := by
  have hfold : s.collisionSet.foldlM (s.noteCollision pid enemy)
      ⟨0xFFFFFFFFFFFFFFFF, 0xFFFFFFFFFFFFFFFF, s.levelDependancy pid⟩ = .ok d := by
    rw [← hd]
    refine foldlM_noteCollision fun c hc => ?_
    obtain ⟨hlocal, hlevel, -, henemyLevel⟩ := hadmits c hc
    refine ⟨hlocal, hs.timed _ _ hlevel, hs.timed _ _ henemyLevel, fun hzero => ?_⟩
    rw [hzero] at henemyLevel
    have := hs.active_zero.symm.trans henemyLevel
    cases this
  obtain ⟨back, hback⟩ : ∃ back, comesBack (Function.update s.pidDependancy pid (some enemy))
      (procCount + 1) [pid] (some enemy) = some back := by
    refine Option.ne_none_iff_exists'.1 ?_
    refine comesBack_ne_none (l := List.range procCount) (fun a b hab => ?_) ?_
      (List.nodup_singleton pid) ?_ ?_
    · by_cases ha : a = pid
      · rw [ha, Function.update_self] at hab
        cases hab
        exact List.mem_range.2 henemy
      · rw [Function.update_of_ne ha] at hab
        exact List.mem_range.2 (hs.lt a b hab).2
    · rintro a ⟨⟩
      exact List.mem_range.2 henemy
    · simpa using hpid
    · rw [List.length_range, List.length_singleton]
      omega
  have hiff := hacyclic.comesBack_iff hback
  rw [dependOn, hfold, ok_bind]
  dsimp only
  rw [hback]
  by_cases hdominance : enemy ∈ s.pidDominance pid
  · rw [if_pos hdominance]
    exact ⟨fun _ => rfl, fun h => absurd (.inl hdominance) h⟩
  · rw [if_neg hdominance]
    cases back with
    | true => exact ⟨fun _ => rfl, fun h => absurd (.inr (hiff.1 rfl)) h⟩
    | false =>
      refine ⟨fun h => ?_, fun _ => rfl⟩
      rcases h with h | h
      · exact absurd h hdominance
      · exact absurd (hiff.2 h) Bool.false_ne_true

/-- The calls of `AbortID` return the abort set. -/
lemma abortIDs_eq (n i : ℕ) (hn : i + n = s.abortSet.length) :
    abortIDs n { s with abortIndex := i } =
      .ok (s.abortSet.drop i, { s with abortIndex := i + n }) := by
  induction n generalizing i with
  | zero =>
    rw [List.drop_eq_nil_of_le (by omega)]
    rfl
  | succ n ih =>
    have hi : i < s.abortSet.length := by omega
    have hid : abortID { s with abortIndex := i } =
        .ok (s.abortSet[i], { s with abortIndex := i + 1 }) := by
      rw [abortID, List.getElem?_eq_getElem hi]
      rfl
    have hrest := ih (i + 1) (by omega)
    rw [abortIDs, hid, ok_bind]
    dsimp only
    rw [hrest, ok_bind, List.drop_eq_getElem_cons hi, Nat.add_right_comm i 1 n]
    rfl

/-- What the manager decides for an access with its collisions: the delay, the transactions to
abort and the dependencies until they are aborted. -/
inductive Decides (s : PerfectCollisionManager) (pid : Pid) (cs : List Collision) :
    ℕ → List Level → WaitFor → Prop
  | alone : cs = [] → s.pidDependancy pid = none → Decides s pid cs 0 [] s.waitFor
  | waiting : s.pidDependancy pid ≠ none → Decides s pid cs (s.backoff pid) [] s.waitFor
  | stall (c : Collision) : cs.head? = some c → s.pidDependancy pid = none →
      ¬s.Triggers pid c.enemyPid → Decides s pid cs minBackoffTime []
        (s.waitFor.depend pid c.enemyPid (s.dependance pid c.enemyPid cs).levels)
  | abortSelf (c : Collision) : cs.head? = some c → s.pidDependancy pid = none →
      s.Triggers pid c.enemyPid → (s.dependance pid c.enemyPid cs).abortsSelf pid c.enemyPid →
      Decides s pid cs 0 (s.levelDependancy c.enemyPid).toList
        (s.waitFor.depend pid c.enemyPid (s.dependance pid c.enemyPid cs).levels)
  | abortEnemy (c : Collision) : cs.head? = some c → s.pidDependancy pid = none →
      s.Triggers pid c.enemyPid → ¬(s.dependance pid c.enemyPid cs).abortsSelf pid c.enemyPid →
      Decides s pid cs 0 (s.dependance pid c.enemyPid cs).levels.toList
        (s.waitFor.depend pid c.enemyPid (s.dependance pid c.enemyPid cs).levels)

/-- The registers of `AbortCount` before its decision. -/
def beforeDecision (s : PerfectCollisionManager) (c : Collision) (cs : List Collision) :
    PerfectCollisionManager :=
  { s with collisionSet := c :: cs, abortSet := [], pid := c.localPid }

/-- The decision of `AbortCount`, read out by `AbortID`. -/
lemma checkCollisions_eq {c : Collision} {cs : List Collision}
    (h : (s.beforeDecision c cs).dependOnFirst procCount c = .ok s') :
    s.checkCollisions procCount (c :: cs) =
      .ok (s'.abortSet, { s' with abortIndex := s'.abortSet.length }) := by
  have hcount : (s.reportCollisions (c :: cs)).abortCount procCount =
      .ok (s'.abortSet.length, { s' with abortIndex := 0 }) := by
    show (s.beforeDecision c cs).dependOnFirst procCount c >>= _ = _
    rw [h]
    rfl
  have hids := abortIDs_eq (s := s') s'.abortSet.length 0 (Nat.zero_add _)
  rw [Nat.zero_add, List.drop_zero] at hids
  rw [checkCollisions, if_neg (List.cons_ne_nil c cs), hcount, ok_bind]
  exact hids

/-- The choice of the transactions to abort leaves the dependencies as they are. -/
lemma chooseAborts_frame (s : PerfectCollisionManager) (pid enemy : Pid) (d : Dependance) :
    (s.chooseAborts pid enemy d).waitFor = s.waitFor ∧
    (s.chooseAborts pid enemy d).delay = s.delay ∧
    (s.chooseAborts pid enemy d).transInstr = s.transInstr := by
  rw [chooseAborts]
  split <;> exact ⟨rfl, rfl, rfl⟩

lemma abortSet_chooseAborts {d : Dependance} : (s.chooseAborts pid enemy d).abortSet =
    if d.abortsSelf pid enemy then (s.levelDependancy enemy).toList
    else (s.levelDependancy pid).toList := by
  rw [chooseAborts]
  split <;> rfl

/-- The collisions of a process that does not wait are decided. -/
lemma checkCollisions_decides (hs : s.waitFor.Sound procCount) (hacyclic : Acyclic s.pidDependancy)
    (hpid : pid < procCount) (hfree : s.pidDependancy pid = none) {c : Collision}
    {cs : List Collision} (hadmits : s.Admits pid (c :: cs)) (hdelay : s.delay = 0) :
    ∃ delay aborts w s', s.checkCollisions procCount (c :: cs) = .ok (aborts, s') ∧
      s.Decides pid (c :: cs) delay aborts w ∧ s'.delay = delay ∧ s'.waitFor = w ∧
      s'.transInstr = s.transInstr := by
  obtain ⟨hlocal, -, hne, henemyLevel⟩ := hadmits c (.head _)
  have henemy := hs.active_lt _ _ henemyLevel
  generalize hd : s.dependance pid c.enemyPid (c :: cs) = d
  obtain ⟨htrigger, hstall⟩ := dependOn_eq (s := s.beforeDecision c cs) hs hacyclic hpid henemy
    hadmits hd
  have hfirst : (s.beforeDecision c cs).dependOnFirst procCount c =
      (s.beforeDecision c cs).dependOn procCount pid c.enemyPid := by
    rw [dependOnFirst, if_pos (by rw [hlocal]; exact hfree), hlocal]
  by_cases htriggers : s.Triggers pid c.enemyPid
  · generalize ht : (s.beforeDecision c cs).withDependance pid c.enemyPid d = t at htrigger
    obtain ⟨hwait, hkept, htrans⟩ := chooseAborts_frame t pid c.enemyPid d
    have hwait' : (t.chooseAborts pid c.enemyPid d).waitFor =
        s.waitFor.depend pid c.enemyPid d.levels := by
      rw [hwait, ← ht]
      rfl
    have hdelay' : (t.chooseAborts pid c.enemyPid d).delay = 0 := by
      rw [hkept, ← ht]
      exact hdelay
    have htrans' : (t.chooseAborts pid c.enemyPid d).transInstr = s.transInstr := by
      rw [htrans, ← ht]
      rfl
    refine ⟨_, _, _, _, checkCollisions_eq (hfirst.trans (htrigger htriggers)), ?_, hdelay', hwait',
      htrans'⟩
    rw [abortSet_chooseAborts]
    split
    · rename_i hself
      have henemyLevels : t.levelDependancy c.enemyPid = s.levelDependancy c.enemyPid := by
        rw [← ht]
        exact Function.update_of_ne hne ..
      rw [henemyLevels, ← hd]
      exact .abortSelf c rfl hfree htriggers (hd ▸ hself)
    · rename_i hself
      have hlevels : t.levelDependancy pid = d.levels := by
        rw [← ht]
        exact Function.update_self ..
      rw [hlevels, ← hd]
      exact .abortEnemy c rfl hfree htriggers (hd ▸ hself)
  · refine ⟨_, _, _, _, checkCollisions_eq (hfirst.trans (hstall htriggers)), ?_, rfl, rfl, rfl⟩
    have hkept : ((s.beforeDecision c cs).withDependance pid c.enemyPid d).waitFor =
        s.waitFor.depend pid c.enemyPid d.levels := rfl
    show s.Decides pid (c :: cs) minBackoffTime []
      ((s.beforeDecision c cs).withDependance pid c.enemyPid d).waitFor
    rw [hkept, ← hd]
    exact .stall c rfl hfree htriggers

/-- An admissible access is decided. -/
lemma resolve_decides (hs : s.waitFor.Sound procCount) (hacyclic : Acyclic s.pidDependancy)
    (hpid : pid < procCount) {transactionEntry : Level}
    (hentry : transactionEntry ≠ 0 → s.activeTransResultSet transactionEntry = some pid)
    {cs : List Collision} (hadmits : s.Admits pid cs) :
    ∃ delay aborts s', s.resolve procCount pid transactionEntry cs = .ok (delay, aborts, s') ∧
      s.Decides pid cs delay aborts s'.waitFor ∧ s'.transInstr = false := by
  have hobserve : s.observeAccess pid transactionEntry = .ok { s.delayWaiting pid with
      transInstr := false, isAccess := true, oldLevel := transactionEntry } := by
    refine check_bind_eq_ok.2 ⟨fun _ hne => ?_, rfl⟩
    rw [hentry hne]
    simp
  rw [resolve, hobserve, ok_bind]
  by_cases hfree : s.pidDependancy pid = none
  · generalize hr : ({ s.delayWaiting pid with
      transInstr := false
      isAccess := true
      oldLevel := transactionEntry } : PerfectCollisionManager) = r
    rw [delayWaiting, if_neg (not_not.2 hfree)] at hr
    rcases cs with _ | ⟨c, cs⟩
    · subst hr
      exact ⟨_, _, _, rfl, .alone rfl hfree, rfl⟩
    · have hdelay₀ : r.delay = 0 := by rw [← hr]
      have hs' : r.waitFor.Sound procCount := by
        rw [← hr]
        exact hs
      have hacyclic' : Acyclic r.pidDependancy := by
        rw [← hr]
        exact hacyclic
      have hfree' : r.pidDependancy pid = none := by
        rw [← hr]
        exact hfree
      have hadmits' : r.Admits pid (c :: cs) := by
        rw [← hr]
        exact hadmits
      obtain ⟨delay, aborts, w, s', heq, hdecides, hdelay, hwait, htrans⟩ :=
        checkCollisions_decides hs' hacyclic' hpid hfree' hadmits' hdelay₀
      refine ⟨delay, aborts, s'.getDelay.2, ?_, ?_, ?_⟩
      · rw [heq, ← hdelay]
        rfl
      · have hwait' : s'.getDelay.2.waitFor = w := hwait
        rw [hwait']
        subst hr
        cases hdecides with
        | alone hnil => cases hnil
        | waiting h => exact absurd hfree h
        | stall c hc hf ht => exact .stall c hc hf ht
        | abortSelf c hc hf ht ha => exact .abortSelf c hc hf ht ha
        | abortEnemy c hc hf ht ha => exact .abortEnemy c hc hf ht ha
      · subst hr
        exact htrans
  · generalize hr : ({ s.delayWaiting pid with
      transInstr := false
      isAccess := true
      oldLevel := transactionEntry } : PerfectCollisionManager) = r
    rw [delayWaiting, if_pos hfree] at hr
    have hfree' : r.pidDependancy pid ≠ none := by
      rw [← hr]
      exact hfree
    rcases cs with _ | ⟨c, cs⟩
    · subst hr
      exact ⟨_, _, _, rfl, .waiting hfree, rfl⟩
    · obtain ⟨hlocal, -, -, -⟩ := hadmits c (.head _)
      have hfirst : (r.beforeDecision c cs).dependOnFirst procCount c =
          .ok (r.beforeDecision c cs) := if_neg (hlocal.symm ▸ hfree')
      rw [checkCollisions_eq hfirst]
      subst hr
      exact ⟨_, _, _, rfl, .waiting hfree, rfl⟩

end PerfectCollisionManager

end Sesc.Trans
