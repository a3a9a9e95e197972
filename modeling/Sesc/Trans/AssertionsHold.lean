import Sesc.Trans.FlattenForwards
import Sesc.Trans.NoBlendSteps

/-!
# When the assertions of the wrappers hold

A process has no open transaction, or one that is served while the begins of others are queued, or
one whose begin has been released with the wrong level.  In the last case, and for the queued ones,
nothing but a delay keeps an assertion from failing.
-/

namespace Sesc.Trans

open Lib

variable {τ : Type} {d : TableDetection τ} {o : Overlapping} {procCount : ℕ} {pid : Pid}
  {old new level : Level} {op : TMOpCode} {force : Bool} {delay : ℕ}

/-! ## The open transactions -/

/-- The begin of a queued transaction. -/
def queued (level : Level) : StoredTransOp := ⟨0, level, .transBegin⟩

/-- A process with its open transactions, its stack and its queue, and the transaction that it has
in the tables. -/
inductive Phase (late : List Level) : List (List Level) → List Level → List StoredTransOp → Level →
    Prop
  | idle : Phase late [] [] [] 0
  | served {top : Level} {levels : List Level} : top ∉ late → (∀ l ∈ levels, l ∈ late) →
      Phase late ([top] :: levels.map fun l => [l]) [top] (levels.map queued) top
  | released {top : Level} : top ∈ late → Phase late [[top]] [0] [] top

namespace Phase

variable {late late' : List Level} {towers : List (List Level)} {stack : List Level}
  {queue : List StoredTransOp} {current : Level}

lemma of_nil (h : Phase late [] stack queue current) : stack = [] ∧ queue = [] ∧ current = 0 := by
  cases h
  exact ⟨rfl, rfl, rfl⟩

/-- There are no transactions inside of others. -/
lemma eq_singleton (h : Phase late towers stack queue current) {t : List Level} (ht : t ∈ towers) :
    ∃ l, t = [l] := by
  cases h with
  | idle => cases ht
  | served =>
    rcases List.mem_cons.1 ht with rfl | ht
    · exact ⟨_, rfl⟩
    · obtain ⟨l, -, rfl⟩ := List.mem_map.1 ht
      exact ⟨l, rfl⟩
  | released => exact ⟨_, List.mem_singleton.1 ht⟩

/-- An open transaction that is not late is served. -/
lemma served_of_not_late (h : Phase late towers stack queue current) (ht : [level] ∈ towers)
    (hlate : level ∉ late) : ∃ levels : List Level, (∀ l ∈ levels, l ∈ late) ∧
      towers = [level] :: levels.map (fun l => [l]) ∧ stack = [level] ∧
      queue = levels.map queued ∧ current = level := by
  cases h with
  | idle => cases ht
  | @served level' levels hnot hlevels =>
    rcases List.mem_cons.1 ht with heq | hmem
    · cases heq
      exact ⟨levels, hlevels, rfl, rfl, rfl, rfl⟩
    · obtain ⟨l, hl, heq⟩ := List.mem_map.1 hmem
      cases heq
      exact absurd (hlevels level hl) hlate
  | released hmem =>
    cases List.mem_singleton.1 ht
    exact absurd hmem hlate

/-- What is on the stack is not late. -/
lemma stack_not_late (h : Phase late towers stack queue current) (hstack : stack = [level])
    (hne : level ≠ 0) : level ∉ late := by
  cases h with
  | idle => cases hstack
  | served hnot =>
    cases hstack
    exact hnot
  | released =>
    cases hstack
    exact absurd rfl hne

lemma mem_of_stack (h : Phase late towers stack queue current) (hstack : stack = [level])
    (hne : level ≠ 0) : [level] ∈ towers := by
  cases h with
  | idle => cases hstack
  | served =>
    cases hstack
    exact List.mem_cons_self
  | released =>
    cases hstack
    exact absurd rfl hne

/-- Another process has a new late transaction. -/
lemma mono (h : Phase late towers stack queue current) (hnew : [new] ∉ towers) :
    Phase (new :: late) towers stack queue current := by
  cases h with
  | idle => exact .idle
  | @served level levels hnot hlevels =>
    refine .served (fun hmem => ?_) fun l hl => List.mem_cons_of_mem _ (hlevels l hl)
    rcases List.mem_cons.1 hmem with rfl | hmem
    · exact hnew List.mem_cons_self
    · exact hnot hmem
  | released hmem => exact .released (List.mem_cons_of_mem _ hmem)

end Phase

namespace Overlapping

/-- The identifiers that have been used. -/
structure Numbered (o : Overlapping) (procCount : ℕ) : Prop where
  begun : ∀ pid level, [level] ∈ o.towers pid → level ∈ o.begun pid
  late : ∀ level ∈ o.late, ∃ pid, level ∈ o.begun pid
  nonzero : ∀ pid, 0 ∉ o.begun pid
  disjoint : ∀ p q level, level ∈ o.begun p → level ∈ o.begun q → p = q
  idle : ∀ pid, procCount ≤ pid → o.begun pid = []

namespace Numbered

variable (h : o.Numbered procCount)

include h

lemma ne_zero (ht : [level] ∈ o.towers pid) : level ≠ 0 := by
  rintro rfl
  exact h.nonzero pid (h.begun pid 0 ht)

lemma zero_not_late : 0 ∉ o.late := by
  intro hmem
  obtain ⟨pid, hpid⟩ := h.late 0 hmem
  exact h.nonzero pid hpid

/-- A new identifier has not been used. -/
lemma fresh (hnew : ∀ q < procCount, new ∉ o.begun q) (q : Pid) : new ∉ o.begun q := by
  by_cases hq : q < procCount
  · exact hnew q hq
  · rw [h.idle q (Nat.not_lt.1 hq)]
    exact List.not_mem_nil

lemma fresh_not_late (hnew : ∀ q, new ∉ o.begun q) : new ∉ o.late := by
  intro hmem
  obtain ⟨pid, hpid⟩ := h.late new hmem
  exact hnew pid hpid

end Numbered

lemma towers_afterBegin {q : Pid} : (o.afterBegin pid 0 new).towers q =
    if q = pid then o.towers pid ++ [[new]] else o.towers q := by
  rw [afterBegin, if_pos rfl]
  exact Function.update_apply _ _ _ _

lemma mem_towers_afterBegin {q : Pid} : [level] ∈ (o.afterBegin pid 0 new).towers q ↔
    [level] ∈ o.towers q ∨ q = pid ∧ level = new := by
  rw [towers_afterBegin]
  split
  · rename_i hq
    rw [List.mem_append, List.mem_singleton, List.singleton_inj, hq]
    exact or_congr_right ⟨fun h => ⟨rfl, h⟩, fun h => h.2⟩
  · rename_i hq
    exact (or_iff_left fun h => hq h.1).symm

/-- The identifiers of the begun transactions after a begin. -/
lemma mem_begun_afterBegin {q : Pid} : level ∈ (o.afterBegin pid old new).begun q ↔
    level ∈ o.begun q ∨ q = pid ∧ level = new := by
  show level ∈ Function.update o.begun pid (new :: o.begun pid) q ↔ _
  by_cases hq : q = pid
  · subst hq
    rw [Function.update_self, List.mem_cons, or_comm]
    exact or_congr_right ⟨fun h => ⟨rfl, h⟩, fun h => h.2⟩
  · rw [Function.update_of_ne hq]
    exact (or_iff_left fun h => hq h.1).symm

lemma Numbered.afterBegin (h : o.Numbered procCount) (hpid : pid < procCount) (hnew : new ≠ 0)
    (hfresh : ∀ q, new ∉ o.begun q) : (o.afterBegin pid 0 new).Numbered procCount where
  begun q level hlevel := by
    rw [mem_begun_afterBegin]
    rcases mem_towers_afterBegin.1 hlevel with hold | hnew
    · exact .inl (h.begun q level hold)
    · exact .inr hnew
  late level hlevel := by
    have hcases : level = new ∨ level ∈ o.late := by
      have hif : level ∈ if (0 : Level) = 0 ∧ o.towers pid ≠ [] then new :: o.late else o.late :=
        hlevel
      split at hif
      · exact List.mem_cons.1 hif
      · exact .inr hif
    rcases hcases with rfl | hold
    · exact ⟨pid, mem_begun_afterBegin.2 (.inr ⟨rfl, rfl⟩)⟩
    · obtain ⟨q, hq⟩ := h.late level hold
      exact ⟨q, mem_begun_afterBegin.2 (.inl hq)⟩
  nonzero q hq := by
    rcases mem_begun_afterBegin.1 hq with hold | ⟨-, hzero⟩
    · exact h.nonzero q hold
    · exact hnew hzero.symm
  disjoint p q level hp hq := by
    rcases mem_begun_afterBegin.1 hp with hp' | ⟨hp', hlevel⟩
    · rcases mem_begun_afterBegin.1 hq with hq' | ⟨-, hlevel⟩
      · exact h.disjoint p q level hp' hq'
      · exact absurd (hlevel ▸ hp') (hfresh p)
    · rcases mem_begun_afterBegin.1 hq with hq' | ⟨hq', -⟩
      · exact absurd (hlevel ▸ hq') (hfresh q)
      · exact hp'.trans hq'.symm
  idle q hq := by
    have hne : q ≠ pid := Nat.ne_of_gt (Nat.lt_of_lt_of_le hpid hq)
    show Function.update o.begun pid (new :: o.begun pid) q = []
    rw [Function.update_of_ne hne]
    exact h.idle q hq

/-- The first of the open transactions has ended. -/
lemma towers_afterEnd {levels : List Level} {q : Pid}
    (htowers : o.towers pid = [old] :: levels.map fun l => [l]) (hnot : old ∉ levels) :
    (o.afterEnd pid old).towers q = if q = pid then levels.map fun l => [l] else o.towers q := by
  have hrest : ((levels.map fun l => [l]).map fun t : List Level =>
      if t.head? = some old then t.tail else t) = levels.map fun l => [l] := by
    rw [List.map_map]
    refine List.map_congr_left fun l hl => ?_
    have hne : ([l] : List Level).head? ≠ some old := by
      intro heq
      exact hnot (Option.some.inj heq ▸ hl)
    exact if_neg hne
  have hfilter : (levels.map fun l => [l]).filter (· ≠ []) = levels.map fun l => [l] := by
    refine List.filter_eq_self.2 fun t ht => ?_
    obtain ⟨l, -, rfl⟩ := List.mem_map.1 ht
    exact decide_eq_true (List.cons_ne_nil l [])
  have hhead : (if ([old] : List Level).head? = some old then [old].tail else [old]) = [] :=
    if_pos rfl
  show Function.update o.towers pid _ q = _
  rw [Function.update_apply, htowers, List.map_cons, hrest, hhead]
  split
  · show ([] :: levels.map fun l => [l]).filter (· ≠ []) = _
    rw [List.filter_cons_of_neg (by simp), hfilter]
  · rfl

/-- The other open transactions are those that were open before. -/
lemma mem_towers_afterEnd {levels : List Level} {q : Pid} (h : o.Numbered procCount)
    (htowers : o.towers pid = [old] :: levels.map fun l => [l]) (hnot : old ∉ levels) :
    [level] ∈ (o.afterEnd pid old).towers q ↔ [level] ∈ o.towers q ∧ level ≠ old := by
  have hold : [old] ∈ o.towers pid := by
    rw [htowers]
    exact List.mem_cons_self
  rw [towers_afterEnd htowers hnot]
  split
  · rename_i hq
    rw [hq, htowers, List.mem_cons, List.singleton_inj]
    constructor
    · intro hmem
      obtain ⟨l, hl, heq⟩ := List.mem_map.1 hmem
      cases heq
      exact ⟨.inr hmem, fun heq => hnot (heq ▸ hl)⟩
    · rintro ⟨heq | hmem, hne⟩
      · exact absurd heq hne
      · exact hmem
  · rename_i hq
    refine ⟨fun hmem => ⟨hmem, ?_⟩, fun hmem => hmem.1⟩
    rintro rfl
    exact hq (h.disjoint q pid level (h.begun q level hmem) (h.begun pid level hold))

lemma Numbered.afterEnd {levels : List Level} (h : o.Numbered procCount)
    (htowers : o.towers pid = [old] :: levels.map fun l => [l]) (hnot : old ∉ levels) :
    (o.afterEnd pid old).Numbered procCount :=
  ⟨fun q level hlevel => h.begun q level ((mem_towers_afterEnd h htowers hnot).1 hlevel).1, h.late,
    h.nonzero, h.disjoint, h.idle⟩

end Overlapping

/-! ## The state of the wrappers -/

/-- The links, the stacks, the queues and the tables are those of the open transactions. -/
structure Consistent (procCount : ℕ) (o : Overlapping) (links : FinMap Level Level)
    (b : NoBlend (TableState τ)) : Prop where
  numbered : o.Numbered procCount
  phase : ∀ pid, Phase o.late (o.towers pid) (b.currentTrans pid) (b.forcedOps pid)
    (b.wrapped.currentTransaction pid)
  linked : ∀ pid level, [level] ∈ o.towers pid → links.find level = some 0
  only : ∀ level, links.find level ≠ none → ∃ pid, [level] ∈ o.towers pid
  active : ∀ level, level ∈ b.currentActiveTrans ↔ ∃ pid, b.currentTrans pid = [level]
  ready : b.wrapped.lastPid = none

namespace Consistent

variable {links : FinMap Level Level} {b b' b₁ : NoBlend (TableState τ)} {levels : List Level}

lemma init (d : TableDetection τ) : Consistent procCount .new ∅ (.new d.new) where
  numbered := ⟨fun _ _ h => absurd h List.not_mem_nil, fun _ h => absurd h List.not_mem_nil,
    fun _ => List.not_mem_nil, fun _ _ _ h => absurd h List.not_mem_nil, fun _ _ => rfl⟩
  phase _ := .idle
  linked _ _ h := absurd h List.not_mem_nil
  only _ h := absurd rfl h
  active level := by
    refine iff_of_false (ListSet.not_mem_empty level) ?_
    rintro ⟨pid, h⟩
    cases h
  ready := rfl

lemma keep (h : Consistent procCount o links b) (hb : NoBlend.Keeps b b') :
    Consistent procCount o links b' where
  numbered := h.numbered
  phase pid := by
    rw [hb.currentTrans, hb.forcedOps, hb.current]
    exact h.phase pid
  linked := h.linked
  only := h.only
  active level := by
    rw [hb.active, hb.currentTrans]
    exact h.active level
  ready := hb.idle

lemma find_zero (h : Consistent procCount o links b) : links.find 0 = none := by
  by_contra hsome
  obtain ⟨pid, hpid⟩ := h.only 0 hsome
  exact h.numbered.ne_zero hpid rfl

/-- A late transaction is not active. -/
lemma not_active (h : Consistent procCount o links b) (hlate : level ∈ o.late) :
    level ∉ b.currentActiveTrans := by
  intro hactive
  obtain ⟨q, hq⟩ := (h.active level).1 hactive
  have hne : level ≠ 0 := by
    rintro rfl
    exact h.numbered.zero_not_late hlate
  exact (h.phase q).stack_not_late hq hne hlate

/-! ## Begins -/

lemma linked_insert (h : Consistent procCount o links b) (q : Pid)
    (ht : [level] ∈ (o.afterBegin pid 0 new).towers q) :
    (links.insert new 0).find level = some 0 := by
  rw [FinMap.find_insert, Function.update_apply]
  split
  · rfl
  · rename_i hne
    rcases Overlapping.mem_towers_afterBegin.1 ht with hold | ⟨-, heq⟩
    · exact h.linked q level hold
    · exact absurd heq hne

lemma only_insert (h : Consistent procCount o links b)
    (hfind : (links.insert new 0).find level ≠ none) :
    ∃ q, [level] ∈ (o.afterBegin pid 0 new).towers q := by
  by_cases heq : level = new
  · exact ⟨pid, Overlapping.mem_towers_afterBegin.2 (.inr ⟨rfl, heq⟩)⟩
  · rw [FinMap.find_insert, Function.update_of_ne heq] at hfind
    obtain ⟨q, hq⟩ := h.only level hfind
    exact ⟨q, Overlapping.mem_towers_afterBegin.2 (.inl hq)⟩

/-- A process without transactions has begun one. -/
lemma begun (h : Consistent procCount o links b) (hpid : pid < procCount) (hnew : new ≠ 0)
    (hfresh : ∀ q, new ∉ o.begun q) (htowers : o.towers pid = [])
    (htrans : b'.currentTrans = Function.update b.currentTrans pid [new])
    (hops : b'.forcedOps = b.forcedOps)
    (hactive : b'.currentActiveTrans = b.currentActiveTrans.insert new)
    (hcur : b'.wrapped.currentTransaction =
      Function.update b.wrapped.currentTransaction pid new)
    (hidle : b'.wrapped.lastPid = none) :
    Consistent procCount (o.afterBegin pid 0 new) (links.insert new 0) b' where
  numbered := h.numbered.afterBegin hpid hnew hfresh
  phase q := by
    have hlate : (o.afterBegin pid 0 new).late = o.late := by
      show (if (0 : Level) = 0 ∧ o.towers pid ≠ [] then _ else _) = _
      exact if_neg fun hall => hall.2 htowers
    rw [hlate, Overlapping.towers_afterBegin, htrans, hops, hcur]
    by_cases hq : q = pid
    · subst hq
      have hphase := h.phase q
      rw [htowers] at hphase
      have hnil : b.forcedOps q = [] := hphase.of_nil.2.1
      rw [if_pos rfl, Function.update_self, Function.update_self, htowers, hnil]
      have hall : ∀ l ∈ ([] : List Level), l ∈ o.late := fun l hl => absurd hl List.not_mem_nil
      exact .served (h.numbered.fresh_not_late hfresh) hall
    · rw [if_neg hq, Function.update_of_ne hq, Function.update_of_ne hq]
      exact h.phase q
  linked q level ht := h.linked_insert q ht
  only level hfind := h.only_insert hfind
  active level := by
    have hnone : ∀ q, b.currentTrans q = [level] → q ≠ pid := by
      rintro q hq rfl
      have hphase := h.phase q
      rw [htowers, hq] at hphase
      exact absurd hphase.of_nil.1 (List.cons_ne_nil _ _)
    rw [hactive, ListSet.mem_insert, h.active, htrans]
    constructor
    · rintro (rfl | ⟨q, hq⟩)
      · exact ⟨pid, Function.update_self _ _ _⟩
      · exact ⟨q, (Function.update_of_ne (hnone q hq) _ _).trans hq⟩
    · rintro ⟨q, hq⟩
      by_cases hqp : q = pid
      · rw [hqp, Function.update_self, List.singleton_inj] at hq
        exact .inl hq.symm
      · rw [Function.update_of_ne hqp] at hq
        exact .inr ⟨q, hq⟩
  ready := hidle

/-- The begin of a transaction beside the one that is served has been queued. -/
lemma queued (h : Consistent procCount o links b) (hpid : pid < procCount) (hnew : new ≠ 0)
    (hfresh : ∀ q, new ∉ o.begun q) {top : Level} (hnot : top ∉ o.late)
    (hlevels : ∀ l ∈ levels, l ∈ o.late)
    (htowers : o.towers pid = [top] :: levels.map fun l => [l])
    (hstack : b.currentTrans pid = [top]) (hqueue : b.forcedOps pid = levels.map Trans.queued)
    (hcurrent : b.wrapped.currentTransaction pid = top)
    (htrans : b'.currentTrans = b.currentTrans)
    (hops : b'.forcedOps = Function.update b.forcedOps pid (b.forcedOps pid ++ [Trans.queued new]))
    (hactive : b'.currentActiveTrans = b.currentActiveTrans)
    (hcur : b'.wrapped.currentTransaction = b.wrapped.currentTransaction)
    (hidle : b'.wrapped.lastPid = none) :
    Consistent procCount (o.afterBegin pid 0 new) (links.insert new 0) b' where
  numbered := h.numbered.afterBegin hpid hnew hfresh
  phase q := by
    have hlate : (o.afterBegin pid 0 new).late = new :: o.late := by
      show (if (0 : Level) = 0 ∧ o.towers pid ≠ [] then _ else _) = _
      refine if_pos ⟨rfl, ?_⟩
      rw [htowers]
      exact List.cons_ne_nil _ _
    rw [hlate, Overlapping.towers_afterBegin, htrans, hops, hcur]
    by_cases hq : q = pid
    · subst hq
      have htop : top ∉ new :: o.late := by
        rw [List.mem_cons, not_or]
        refine ⟨?_, hnot⟩
        rintro rfl
        exact hfresh q (h.numbered.begun q top (htowers ▸ List.mem_cons_self))
      have hall : ∀ l ∈ levels ++ [new], l ∈ new :: o.late := by
        intro l hl
        rcases List.mem_append.1 hl with hl | hl
        · exact List.mem_cons_of_mem _ (hlevels l hl)
        · exact List.mem_singleton.1 hl ▸ List.mem_cons_self
      have hserved := Phase.served htop hall
      rw [List.map_append, List.map_append] at hserved
      rw [if_pos rfl, Function.update_self, htowers, hstack, hqueue, hcurrent]
      exact hserved
    · rw [if_neg hq, Function.update_of_ne hq]
      exact (h.phase q).mono fun hmem => hfresh q (h.numbered.begun q new hmem)
  linked q level ht := h.linked_insert q ht
  only level hfind := h.only_insert hfind
  active level := by
    rw [hactive, htrans]
    exact h.active level
  ready := hidle

/-! ## Ends -/

/-- The transaction that was served has ended, and the process has what was queued. -/
lemma ended (h : Consistent procCount o links b) (hnot : old ∉ levels)
    (htowers : o.towers pid = [old] :: levels.map fun l => [l])
    (hstack : b.currentTrans pid = [old])
    (hphase : Phase o.late (levels.map fun l => [l]) (b'.currentTrans pid) (b'.forcedOps pid)
      (b'.wrapped.currentTransaction pid))
    (hothers : ∀ q ≠ pid, b'.currentTrans q = b.currentTrans q ∧ b'.forcedOps q = b.forcedOps q ∧
      b'.wrapped.currentTransaction q = b.wrapped.currentTransaction q)
    (hactive : ∀ level, level ∈ b'.currentActiveTrans ↔
      b'.currentTrans pid = [level] ∨ level ≠ old ∧ level ∈ b.currentActiveTrans)
    (hidle : b'.wrapped.lastPid = none) :
    Consistent procCount (o.afterEnd pid old) (links.erase old) b' where
  numbered := h.numbered.afterEnd htowers hnot
  phase q := by
    rw [Overlapping.towers_afterEnd htowers hnot]
    by_cases hq : q = pid
    · rw [if_pos hq, hq]
      exact hphase
    · obtain ⟨htrans, hops, hcur⟩ := hothers q hq
      rw [if_neg hq, htrans, hops, hcur]
      exact h.phase q
  linked q level ht := by
    obtain ⟨hold, hne⟩ := (Overlapping.mem_towers_afterEnd h.numbered htowers hnot).1 ht
    rw [FinMap.find_erase, Function.update_of_ne hne]
    exact h.linked q level hold
  only level hfind := by
    have hne : level ≠ old := by
      rintro rfl
      exact hfind (Function.update_self _ _ _)
    rw [FinMap.find_erase, Function.update_of_ne hne] at hfind
    obtain ⟨q, hq⟩ := h.only level hfind
    exact ⟨q, (Overlapping.mem_towers_afterEnd h.numbered htowers hnot).2 ⟨hq, hne⟩⟩
  active level := by
    have hold : [old] ∈ o.towers pid := htowers ▸ List.mem_cons_self
    rw [hactive, h.active]
    constructor
    · rintro (hpid | ⟨hne, q, hq⟩)
      · exact ⟨pid, hpid⟩
      · have hqp : q ≠ pid := by
          rintro rfl
          rw [hstack, List.singleton_inj] at hq
          exact hne hq.symm
        exact ⟨q, (hothers q hqp).1.trans hq⟩
    · rintro ⟨q, hq⟩
      by_cases hqp : q = pid
      · exact .inl (hqp ▸ hq)
      · rw [(hothers q hqp).1] at hq
        refine .inr ⟨?_, q, hq⟩
        -- the transaction that has ended is on no other stack
        rintro rfl
        have hmem := (h.phase q).mem_of_stack hq (h.numbered.ne_zero hold)
        exact hqp (h.numbered.disjoint q pid level (h.numbered.begun q level hmem)
          (h.numbered.begun pid level hold))
  ready := hidle

end Consistent

/-! ## One request -/

/-- No assertion fails, and the state stays consistent, or the request is one on which an assertion
fails. -/
def Verdict (d : TableDetection τ) (s : Overlapped τ) (r : Request) : Prop :=
  s.transactions.Holds r ∧ (∃ out s', d.wrapped.execute r s.detector = .ok (out, s') ∧
    Consistent d.procCount
      (if out.retried then s.transactions else s.transactions.after r.instruction)
      s'.parentRelation s'.wrapped) ∨
  ¬s.transactions.Holds r ∧ d.wrapped.execute r s.detector = .error .assertion

section

variable {s : Overlapped τ} {r : Request} {links : FinMap Level Level}

/-- The execution of the detection that is wrapped decides. -/
lemma verdict_of_ok {out : Outcome} {b : NoBlend (TableState τ)} (hholds : s.transactions.Holds r)
    (hforwards : Flatten.Forwards d.blended true r s.detector links)
    (hexecute : d.blended.execute r s.detector.wrapped = .ok (out, b))
    (hconsistent : Consistent d.procCount
      (if out.retried then s.transactions else s.transactions.after r.instruction)
      (if out.retried then s.detector.parentRelation else links) b) : Verdict d s r := by
  obtain ⟨s', hs', hwrapped, hlinks⟩ := hforwards.ok out b hexecute
  refine .inl ⟨hholds, out, s', hs', ?_⟩
  rw [hwrapped, hlinks]
  exact hconsistent

lemma verdict_of_error (hholds : ¬s.transactions.Holds r)
    (hforwards : Flatten.Forwards d.blended true r s.detector links)
    (hexecute : d.blended.execute r s.detector.wrapped = .error .assertion) : Verdict d s r :=
  .inr ⟨hholds, hforwards.error _ hexecute⟩

variable {isRead : Bool} {entry : Level} {address : Address} {size : ℕ}

lemma verdict_access
    (h : Consistent d.procCount s.transactions s.detector.parentRelation s.detector.wrapped)
    (hallows : entry = 0 ∨ ∃ t ∈ s.transactions.towers pid, entry ∈ t) :
    Verdict d s ⟨.access isRead pid entry address size, force, delay⟩ := by
  have hopen : entry = 0 ∨ [entry] ∈ s.transactions.towers pid := by
    refine hallows.imp_right ?_
    rintro ⟨t, ht, hentry⟩
    obtain ⟨l, rfl⟩ := (h.phase pid).eq_singleton ht
    rw [List.mem_singleton.1 hentry]
    exact ht
  have hforwards : Flatten.Forwards d.blended true
      ⟨.access isRead pid entry address size, force, delay⟩ s.detector s.detector.parentRelation :=
    Flatten.forwards_access (hopen.imp_right (h.linked pid entry))
  by_cases hlate : entry ∈ s.transactions.late
  · have hne : entry ≠ 0 := by
      rintro rfl
      exact h.numbered.zero_not_late hlate
    exact verdict_of_error (fun hholds => hholds hlate) hforwards
      (NoBlend.execute_access_error hne (h.not_active hlate))
  · have hserved : entry = 0 ∨ entry ∈ s.detector.wrapped.currentActiveTrans ∧
        s.detector.wrapped.wrapped.currentTransaction pid = entry := by
      refine hopen.imp_right fun ht => ?_
      obtain ⟨levels, -, -, hstack, -, hcurrent⟩ := (h.phase pid).served_of_not_late ht hlate
      exact ⟨(h.active entry).2 ⟨pid, hstack⟩, hcurrent⟩
    obtain ⟨cs, b, hexecute, hkeeps⟩ : ∃ cs b, d.blended.execute
        ⟨.access isRead pid entry address size, force, delay⟩ s.detector.wrapped =
          .ok (⟨cs, decide (delay ≠ 0)⟩, b) ∧ NoBlend.Keeps s.detector.wrapped b :=
      NoBlend.execute_access (hserved.imp_right fun hs => hs.1) (hserved.imp_right fun hs => hs.2)
    refine verdict_of_ok hlate hforwards hexecute ?_
    have hafter : s.transactions.after (.access isRead pid entry address size) = s.transactions := rfl
    rw [hafter, ite_self, ite_self]
    exact h.keep hkeeps

lemma verdict_begin
    (h : Consistent d.procCount s.transactions s.detector.parentRelation s.detector.wrapped)
    (hpid : pid < d.procCount)
    (hallows : s.transactions.Allows d.procCount (.transaction pid old new .transBegin)) :
    Verdict d s ⟨.transaction pid old new .transBegin, force, delay⟩ := by
  obtain ⟨hnew, hlarger, hfresh, hold⟩ := hallows
  have hfresh := h.numbered.fresh hfresh
  by_cases hzero : old = 0
  · subst hzero
    have hforwards : Flatten.Forwards d.blended true
        ⟨.transaction pid 0 new .transBegin, force, delay⟩ s.detector
        (s.detector.parentRelation.insert new 0) := Flatten.forwards_begin h.find_zero
    have hphase := h.phase pid
    cases htowers : s.transactions.towers pid with
    | nil =>
      rw [htowers] at hphase
      obtain ⟨hstack, -, hcurrent⟩ := hphase.of_nil
      have hholds : s.transactions.Holds ⟨.transaction pid 0 new .transBegin, force, delay⟩ := by
        refine ⟨rfl, .inr fun t ht => ?_⟩
        rw [htowers] at ht
        cases ht
      cases hdelayed : !force && decide (delay ≠ 0) with
      | true =>
        have hhead : (s.detector.wrapped.currentTrans pid).headD 0 = 0 := by rw [hstack]; rfl
        obtain ⟨b, hexecute, hkeeps⟩ :=
          NoBlend.execute_delayed (d := d) (NoBlend.stalls_begin hhead) hdelayed
        exact verdict_of_ok hholds hforwards hexecute (h.keep hkeeps)
      | false =>
        obtain ⟨b, hexecute, htrans, hops, hactive, hcur, hidle⟩ :=
          NoBlend.execute_begin (d := d) hstack hcurrent hnew hdelayed
        exact verdict_of_ok hholds hforwards hexecute
          (h.begun hpid hnew hfresh htowers htrans hops hactive hcur hidle)
    | cons t rest =>
      obtain ⟨top, rfl⟩ := hphase.eq_singleton (htowers ▸ List.mem_cons_self)
      have hopen : [top] ∈ s.transactions.towers pid := htowers ▸ List.mem_cons_self
      have htop : top ≠ 0 := h.numbered.ne_zero hopen
      by_cases hlate : top ∈ s.transactions.late
      · -- the level 0 is on the stack
        have hstack : (s.detector.wrapped.currentTrans pid).headD 0 = 0 ∧
            s.detector.wrapped.wrapped.currentTransaction pid ≠ 0 := by
          generalize s.detector.wrapped.currentTrans pid = stack at hphase
          generalize s.detector.wrapped.forcedOps pid = queue at hphase
          generalize s.detector.wrapped.wrapped.currentTransaction pid = current at hphase
          rw [htowers] at hphase
          cases hphase with
          | served hnot => exact absurd hlate hnot
          | released => exact ⟨rfl, htop⟩
        cases hdelayed : !force && decide (delay ≠ 0) with
        | true =>
          obtain ⟨b, hexecute, hkeeps⟩ :=
            NoBlend.execute_delayed (d := d) (NoBlend.stalls_begin hstack.1) hdelayed
          exact verdict_of_ok ⟨rfl, .inl hdelayed⟩ hforwards hexecute (h.keep hkeeps)
        | false =>
          refine verdict_of_error ?_ hforwards
            (NoBlend.execute_begin_error hstack.1 hstack.2 hdelayed)
          rintro ⟨-, hd | hall⟩
          · have hd' : (!force && decide (delay ≠ 0)) = true := hd
            rw [hdelayed] at hd'
            cases hd'
          · refine hall [top] ?_ top List.mem_cons_self hlate
            rw [htowers]
            rfl
      · obtain ⟨levels, hlevels, htowers', hstack, hqueue, hcurrent⟩ :=
          hphase.served_of_not_late hopen hlate
        have hholds : s.transactions.Holds ⟨.transaction pid 0 new .transBegin, force, delay⟩ := by
          refine ⟨rfl, .inr fun t ht l hl => ?_⟩
          rw [htowers] at ht
          cases ht
          rw [List.mem_singleton.1 hl]
          exact hlate
        have hlt : top < new := hlarger top (h.numbered.begun pid top hopen)
        obtain ⟨b, hexecute, htrans, hops, hactive, hcur, hidle⟩ :=
          NoBlend.execute_begin_stalled (d := d) hstack htop hlt h.ready
        refine verdict_of_ok hholds hforwards hexecute ?_
        cases force with
        | true =>
          exact h.queued hpid hnew hfresh hlate hlevels htowers' hstack hqueue hcurrent htrans hops
            hactive hcur hidle
        | false => exact h.keep ⟨htrans, hops, hactive, hcur, hidle⟩
  · -- the begin is nested
    obtain ⟨t, ht, hhead⟩ := hold.resolve_left hzero
    obtain ⟨l, rfl⟩ := (h.phase pid).eq_singleton ht
    cases hhead
    have hsome : s.detector.parentRelation.find old ≠ none := by
      rw [h.linked pid old ht]
      exact Option.some_ne_none 0
    exact .inr ⟨fun hholds => hzero hholds.1, Flatten.execute_nested hsome⟩

lemma verdict_end
    (h : Consistent d.procCount s.transactions s.detector.parentRelation s.detector.wrapped)
    (hop : op ≠ .transBegin)
    (hallows : ∃ t ∈ s.transactions.towers pid, t.head? = some old ∧ new = t.tail.headD 0) :
    Verdict d s ⟨.transaction pid old new op, force, delay⟩ := by
  obtain ⟨t, ht, hhead, htail⟩ := hallows
  obtain ⟨l, rfl⟩ := (h.phase pid).eq_singleton ht
  cases hhead
  cases htail
  have hholds : s.transactions.Holds ⟨.transaction pid old 0 op, force, delay⟩ ↔
      old ∉ s.transactions.late ∧ ((!force && decide (delay ≠ 0)) = true ∨
        (s.transactions.towers pid).length ≤ 2) := by
    cases op with
    | transBegin => exact absurd rfl hop
    | _ => exact Iff.rfl
  have hforwards : Flatten.Forwards d.blended true ⟨.transaction pid old 0 op, force, delay⟩
      s.detector (s.detector.parentRelation.erase old) :=
    Flatten.forwards_end hop (h.linked pid old ht)
  by_cases hlate : old ∈ s.transactions.late
  · exact verdict_of_error (fun hall => (hholds.1 hall).1 hlate) hforwards
      (NoBlend.execute_end_error hop (h.not_active hlate))
  · obtain ⟨levels, hlevels, htowers, hstack, hqueue, hcurrent⟩ :=
      (h.phase pid).served_of_not_late ht hlate
    have hactive : old ∈ s.detector.wrapped.currentActiveTrans := (h.active old).2 ⟨pid, hstack⟩
    have hzero : old ≠ 0 := h.numbered.ne_zero ht
    cases hdelayed : !force && decide (delay ≠ 0) with
    | true =>
      obtain ⟨b, hexecute, hkeeps⟩ :=
        NoBlend.execute_delayed (d := d) (NoBlend.stalls_end hop hstack hactive) hdelayed
      exact verdict_of_ok (hholds.2 ⟨hlate, .inl hdelayed⟩) hforwards hexecute (h.keep hkeeps)
    | false =>
      have hafter : s.transactions.after (.transaction pid old 0 op) =
          s.transactions.afterEnd pid old := by
        cases op with
        | transBegin => exact absurd rfl hop
        | _ => rfl
      have hnot : old ∉ levels := fun hmem => hlate (hlevels old hmem)
      obtain ⟨b₁, hended, hexecute⟩ :=
        NoBlend.execute_end (d := d) hop hstack hactive hzero hcurrent hdelayed
      have hothers : ∀ q ≠ pid, b₁.currentTrans q = s.detector.wrapped.currentTrans q ∧
          b₁.forcedOps q = s.detector.wrapped.forcedOps q ∧
          b₁.wrapped.currentTransaction q = s.detector.wrapped.wrapped.currentTransaction q := by
        intro q hq
        rw [hended.currentTrans, hended.forcedOps, hended.current, Function.update_of_ne hq,
          Function.update_of_ne hq]
        exact ⟨rfl, rfl, rfl⟩
      have hempty : b₁.currentTrans b₁.currentPid = [] := by
        rw [hended.currentTrans, hended.currentPid, Function.update_self]
      have hnone : b₁.wrapped.currentTransaction b₁.currentPid = 0 := by
        rw [hended.current, hended.currentPid, Function.update_self]
      rw [hqueue] at hexecute
      cases levels with
      | nil =>
        -- no begin is queued
        have hlen : (s.transactions.towers pid).length ≤ 2 := by
          rw [htowers]
          exact Nat.le_succ 1
        refine verdict_of_ok (hholds.2 ⟨hlate, .inr hlen⟩) hforwards hexecute ?_
        show Consistent d.procCount (s.transactions.after (.transaction pid old 0 op))
          (s.detector.parentRelation.erase old) b₁
        rw [hafter]
        refine h.ended hnot htowers hstack ?_ hothers (fun level => ?_) hended.idle
        · rw [hended.currentPid] at hempty hnone
          rw [hempty, hnone, hended.forcedOps, hqueue]
          exact .idle
        · rw [hended.active, ListSet.mem_erase]
          rw [hended.currentPid] at hempty
          rw [hempty]
          exact (or_iff_right fun heq => List.cons_ne_nil _ _ heq.symm).symm
      | cons l rest =>
        have hl : [l] ∈ s.transactions.towers pid := by
          rw [htowers]
          exact List.mem_cons_of_mem _ List.mem_cons_self
        have hlzero : l ≠ 0 := h.numbered.ne_zero hl
        obtain ⟨b₂, hrelease, hpid₂, htrans₂, hops₂, hactive₂, hcur₂, hidle₂⟩ :=
          NoBlend.release_begin (d := d) (rest.map queued) hempty hlzero hnone
        rw [hended.currentPid] at hpid₂ htrans₂ hops₂ hcur₂
        rw [hended.newTrans] at htrans₂ hactive₂
        have hrelease' : NoBlend.release d.detection.detector ((l :: rest).map queued) b₁ =
            NoBlend.release d.detection.detector (rest.map queued) b₂ := hrelease
        rw [hrelease'] at hexecute
        cases rest with
        | nil =>
          -- the only queued begin is released
          have hlen : (s.transactions.towers pid).length ≤ 2 := by
            rw [htowers]
            exact Nat.le_refl 2
          refine verdict_of_ok (hholds.2 ⟨hlate, .inr hlen⟩) hforwards hexecute ?_
          show Consistent d.procCount (s.transactions.after (.transaction pid old 0 op))
            (s.detector.parentRelation.erase old) b₂
          rw [hafter]
          refine h.ended hnot htowers hstack ?_ (fun q hq => ?_) (fun level => ?_) hidle₂
          · rw [htrans₂, hops₂, hcur₂, Function.update_self, Function.update_self,
              Function.update_self]
            exact .released (hlevels l List.mem_cons_self)
          · rw [htrans₂, hops₂, hcur₂, Function.update_of_ne hq, Function.update_of_ne hq,
              Function.update_of_ne hq]
            exact hothers q hq
          · rw [hactive₂, ListSet.mem_insert, hended.active, ListSet.mem_erase, htrans₂,
              Function.update_self, List.singleton_inj]
            exact or_congr_left eq_comm
        | cons l' rest =>
          -- a second one is released inside the first
          have herror : NoBlend.release d.detection.detector ((l' :: rest).map queued) b₂ =
              .error .assertion := by
            refine NoBlend.release_error ?_ ?_
            · rw [hpid₂, htrans₂, Function.update_self]
              rfl
            · rw [hpid₂, hcur₂, Function.update_self]
              exact hlzero
          rw [herror, error_bind] at hexecute
          refine verdict_of_error (fun hall => ?_) hforwards hexecute
          rcases (hholds.1 hall).2 with hd | hlen
          · rw [hdelayed] at hd
            cases hd
          · rw [htowers] at hlen
            simp only [List.map_cons, List.length_cons] at hlen
            omega

/-- Every instruction that may come next is decided by the condition. -/
lemma verdict (h : Consistent d.procCount s.transactions s.detector.parentRelation s.detector.wrapped)
    (hpid : r.instruction.pid < d.procCount)
    (hallows : s.transactions.Allows d.procCount r.instruction) : Verdict d s r := by
  obtain ⟨i, force, delay⟩ := r
  cases i with
  | access isRead pid entry address size => exact verdict_access h hallows
  | transaction pid old new op =>
    cases op with
    | transBegin => exact verdict_begin h hpid hallows
    | transEnd => exact verdict_end h (fun hop => by cases hop) hallows
    | transAbort => exact verdict_end h (fun hop => by cases hop) hallows

end

/-! ## Runs -/

/-- The state after every run is consistent. -/
lemma consistent_of_run {rs : List Request} {s : Overlapped τ}
    (hrun : (overlappingMachine d).Run rs s) :
    Consistent d.procCount s.transactions s.detector.parentRelation s.detector.wrapped := by
  refine hrun.invariant (I := fun s : Overlapped τ => Consistent d.procCount s.transactions
    s.detector.parentRelation s.detector.wrapped) (Consistent.init d) fun s r s' h _ hstep => ?_
  obtain ⟨⟨hpid, hallows⟩, hstep⟩ := check_bind_eq_ok.1 hstep
  obtain ⟨⟨out, s₁⟩, hexecute, hret⟩ := bind_eq_ok.1 hstep
  cases Except.ok.inj hret
  rcases verdict h hpid hallows with ⟨-, out', s₂, hok, hconsistent⟩ | ⟨-, herror⟩
  · cases hexecute.symm.trans hok
    exact hconsistent
  · cases hexecute.symm.trans herror

/-- After every run of well-nested instructions, a request that may come next fails no assertion of
the wrappers or of the detection that is wrapped if and only if it meets the condition; then it is
executed. -/
theorem assertions_hold_iff (d : TableDetection τ) (rs : List Request) (s : Overlapped τ)
    (hrun : (overlappingMachine d).Run rs s) (r : Request)
    (hpid : r.instruction.pid < d.procCount)
    (hallows : s.transactions.Allows d.procCount r.instruction) :
    (d.wrapped.execute r s.detector ≠ .error .assertion ↔ s.transactions.Holds r) ∧
      (s.transactions.Holds r → ∃ result, d.wrapped.execute r s.detector = .ok result) := by
  rcases verdict (consistent_of_run hrun) hpid hallows with ⟨hholds, out, s', hok, -⟩ |
    ⟨hholds, herror⟩
  · refine ⟨iff_of_true (fun herror => ?_) hholds, fun _ => ⟨_, hok⟩⟩
    cases hok.symm.trans herror
  · exact ⟨iff_of_false (fun hne => hne herror) hholds, fun hall => absurd hall hholds⟩

/-! ## Three runs -/

/-- Process 0 begins transaction 1 and, beside it and by force, transaction 2. -/
def overlapRun : List Request :=
  [⟨.transaction 0 0 1 .transBegin, true, 0⟩, ⟨.access false 0 1 0 4, false, 0⟩,
    ⟨.transaction 0 0 2 .transBegin, true, 0⟩]

/-- Transaction 1 may end. -/
theorem assertions_hold_overlapRun : ∃ s,
    (overlappingMachine LogTMConfig.twoProcesses.logTM).Run overlapRun s ∧
      s.detector.wrapped.forcedOps 0 = [⟨0, 2, .transBegin⟩] ∧
      ∃ result, LogTMConfig.twoProcesses.logTM.wrapped.execute
        ⟨.transaction 0 1 0 .transEnd, true, 0⟩ s.detector = .ok result := by
  have hrun : succeeds ((overlappingMachine LogTMConfig.twoProcesses.logTM).exec
      (overlappingMachine LogTMConfig.twoProcesses.logTM).init overlapRun)
      (fun s => decide (s.detector.wrapped.forcedOps 0 = [⟨0, 2, .transBegin⟩] ∧
        s.transactions.towers 0 = [[1], [2]] ∧ s.transactions.late = [2])) = true := by
    decide +kernel
  obtain ⟨s, hs, htest⟩ := succeeds_iff.1 hrun
  obtain ⟨hqueue, htowers, hlate⟩ := of_decide_eq_true htest
  have hallows : s.transactions.Allows 2 (.transaction 0 1 0 .transEnd) := by
    refine ⟨[1], ?_, rfl, rfl⟩
    rw [htowers]
    decide
  have hholds : s.transactions.Holds ⟨.transaction 0 1 0 .transEnd, true, 0⟩ := by
    refine ⟨?_, .inr ?_⟩
    · rw [hlate]
      decide
    · rw [htowers]
      decide
  exact ⟨s, Machine.run_of_exec hs, hqueue,
    (assertions_hold_iff LogTMConfig.twoProcesses.logTM overlapRun s (Machine.run_of_exec hs)
      ⟨.transaction 0 1 0 .transEnd, true, 0⟩ (by decide) hallows).2 hholds⟩

/-- The begin of transaction 2 inside transaction 1 fails an assertion, and so does an access of
transaction 2 after its queued begin has been released by the end of transaction 1. -/
theorem not_assertions_hold :
    (∃ s, (overlappingMachine LogTMConfig.twoProcesses.logTM).Run
        [⟨.transaction 0 0 1 .transBegin, true, 0⟩] s ∧
      s.transactions.Allows 2 (.transaction 0 1 2 .transBegin) ∧
      LogTMConfig.twoProcesses.logTM.wrapped.execute
        ⟨.transaction 0 1 2 .transBegin, false, 0⟩ s.detector = .error .assertion) ∧
    ∃ s, (overlappingMachine LogTMConfig.twoProcesses.logTM).Run
        (overlapRun ++ [⟨.transaction 0 1 0 .transEnd, true, 0⟩]) s ∧
      s.transactions.Allows 2 (.access true 0 2 0 4) ∧
      LogTMConfig.twoProcesses.logTM.wrapped.execute
        ⟨.access true 0 2 0 4, false, 0⟩ s.detector = .error .assertion := by
  constructor
  · have hrun : succeeds ((overlappingMachine LogTMConfig.twoProcesses.logTM).exec
        (overlappingMachine LogTMConfig.twoProcesses.logTM).init
        [⟨.transaction 0 0 1 .transBegin, true, 0⟩])
        (fun s => decide (s.transactions.Allows 2 (.transaction 0 1 2 .transBegin))) = true := by
      decide +kernel
    obtain ⟨s, hs, hallows⟩ := succeeds_iff.1 hrun
    have hallows := of_decide_eq_true hallows
    refine ⟨s, Machine.run_of_exec hs, hallows, ?_⟩
    rcases verdict (r := ⟨.transaction 0 1 2 .transBegin, false, 0⟩)
      (consistent_of_run (Machine.run_of_exec hs)) (by decide) hallows with ⟨hholds, -⟩ | ⟨-, herror⟩
    · cases hholds.1
    · exact herror
  · have hrun : succeeds ((overlappingMachine LogTMConfig.twoProcesses.logTM).exec
        (overlappingMachine LogTMConfig.twoProcesses.logTM).init
        (overlapRun ++ [⟨.transaction 0 1 0 .transEnd, true, 0⟩]))
        (fun s => decide (s.transactions.Allows 2 (.access true 0 2 0 4) ∧
          2 ∈ s.transactions.late)) = true := by
      decide +kernel
    obtain ⟨s, hs, htest⟩ := succeeds_iff.1 hrun
    obtain ⟨hallows, hlate⟩ := of_decide_eq_true htest
    refine ⟨s, Machine.run_of_exec hs, hallows, ?_⟩
    rcases verdict (r := ⟨.access true 0 2 0 4, false, 0⟩)
      (consistent_of_run (Machine.run_of_exec hs)) (by decide) hallows with ⟨hholds, -⟩ | ⟨-, herror⟩
    · exact absurd hlate hholds
    · exact herror

end Sesc.Trans
