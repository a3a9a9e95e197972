import Sesc.Trans.Flatten
import Sesc.Trans.LogTMConflicts
import Sesc.Trans.Nesting

/-!
# Flattening is transparent

A `CollisionDetectionFlatten` that is given well-nested transactions gives the detection that it
wraps their outermost parts.  When it is compiled for debugging, a nested begin hits an
assertion.
-/

namespace Sesc.Trans

open Lib

variable {σ : Type} {T : Detector σ} {debug : Bool} {n : Nesting} {procCount : ℕ} {pid : Pid}
  {links : FinMap Level Level}

/-! ## The parent links -/

/-- Every transaction of a stack is linked to the one below it, the last one to 0. -/
def Linked (links : FinMap Level Level) : List Level → Prop
  | [] => True
  | level :: rest => links.find level = some (rest.headD 0) ∧ Linked links rest

lemma Linked.congr {links' : FinMap Level Level} {l : List Level} (h : Linked links l)
    (hsame : ∀ level ∈ l, links'.find level = links.find level) : Linked links' l := by
  induction l with
  | nil => trivial
  | cons level rest ih =>
    refine ⟨(hsame level List.mem_cons_self).trans h.1, ih h.2 fun level' hlevel' => ?_⟩
    exact hsame level' (List.mem_cons_of_mem level hlevel')

/-- Every transaction of a stack has an entry. -/
lemma Linked.length_le {l : List Level} (h : Linked links l) (hnodup : l.Nodup) :
    l.length ≤ links.keys.length := by
  have hkeys : ∀ level ∈ l, level ∈ links.keys := by
    clear hnodup
    induction l with
    | nil => exact fun level hlevel => absurd hlevel List.not_mem_nil
    | cons level rest ih =>
      intro level' hlevel'
      rcases List.mem_cons.1 hlevel' with rfl | hmem
      · rw [links.mem_keys, h.1]
        rfl
      · exact ih h.2 level' hmem
  exact hnodup.length_le_of_subset fun level hlevel => hkeys level hlevel

lemma entry_of_find {level parent : Level} (h : links.find level = some parent) :
    Flatten.entry links level = (parent, links) := by
  rw [Flatten.entry, h]

/-- From a transaction of a stack the links lead to the outermost one. -/
lemma climb_eq {l : List Level} {level : Level} {k : ℕ} (h : Linked links l) (hzero : 0 ∉ l)
    (hmem : level ∈ l) (hk : l.length ≤ k) :
    Flatten.climb debug k links level = .ok (l.getLastD 0, links) := by
  induction l generalizing level k with
  | nil => cases hmem
  | cons top rest ih =>
    rw [List.mem_cons, not_or] at hzero
    obtain ⟨hne, hzero⟩ := hzero
    rcases List.mem_cons.1 hmem with rfl | hrest
    · obtain ⟨hfind, hlinked⟩ := h
      obtain ⟨k, rfl⟩ : ∃ j, k = j + 1 := by
        rw [List.length_cons] at hk
        exact ⟨k - 1, by omega⟩
      rw [Flatten.climb, if_neg (Ne.symm hne), check_bind, entry_of_find hfind]
      · cases rest with
        | nil => rfl
        | cons next rest =>
          have hnext : next ≠ 0 := fun heq => hzero (heq ▸ List.mem_cons_self)
          dsimp only
          rw [List.headD_cons, if_neg hnext, List.getLastD_cons, List.getLastD_cons]
          refine (ih hlinked hzero List.mem_cons_self (Nat.le_of_succ_le_succ hk)).trans ?_
          rw [List.getLastD_cons]
      · refine .inr ?_
        rw [hfind]
        exact Option.some_ne_none _
    · refine (ih h.2 hzero hrest (Nat.le_of_succ_le hk)).trans ?_
      cases rest with
      | nil => cases hrest
      | cons next rest => rw [List.getLastD_cons, List.getLastD_cons, List.getLastD_cons]

/-- The parent links are those of the active transactions. -/
structure Mirrors (links : FinMap Level Level) (n : Nesting) : Prop where
  linked : ∀ pid, Linked links (n.stack pid)
  only : ∀ level, links.find level ≠ none → ∃ pid, level ∈ n.stack pid

namespace Mirrors

lemma new : Mirrors ∅ .new where
  linked _ := trivial
  only _ h := absurd rfl h

/-- A transaction has begun. -/
lemma push {level : Level} (h : Mirrors links n) (hfresh : ∀ q, level ∉ n.stack q) :
    Mirrors (links.insert level (n.level pid)) (n.set pid (level :: n.stack pid)) where
  linked q := by
    have hold : Linked (links.insert level (n.level pid)) (n.stack q) := by
      refine (h.linked q).congr fun level' hlevel' => ?_
      exact Function.update_of_ne (fun heq : level' = level => hfresh q (heq ▸ hlevel')) _ _
    rw [Nesting.stack_set]
    split
    · rename_i hq
      subst hq
      exact ⟨Function.update_self _ _ _, hold⟩
    · exact hold
  only level' hlevel' := by
    by_cases heq : level' = level
    · refine ⟨pid, ?_⟩
      rw [Nesting.stack_set, if_pos rfl, heq]
      exact List.mem_cons_self
    · rw [FinMap.find_insert, Function.update_of_ne heq] at hlevel'
      obtain ⟨q, hq⟩ := h.only level' hlevel'
      refine ⟨q, ?_⟩
      rw [Nesting.stack_set]
      split
      · rename_i hqp
        exact List.mem_cons_of_mem _ (hqp ▸ hq)
      · exact hq

/-- The innermost transaction has ended. -/
lemma pop {level : Level} {rest : List Level} (h : Mirrors links n)
    (hn : n.WellFormed procCount) (hstack : n.stack pid = level :: rest) :
    Mirrors (links.erase level) (n.set pid rest) where
  linked q := by
    rw [Nesting.stack_set]
    split
    · have hold := h.linked pid
      have hnodup := hn.nodup pid
      rw [hstack] at hold hnodup
      refine hold.2.congr fun level' hlevel' => Function.update_of_ne ?_ _ _
      rintro rfl
      exact (List.nodup_cons.1 hnodup).1 hlevel'
    · rename_i hq
      refine (h.linked q).congr fun level' hlevel' => Function.update_of_ne ?_ _ _
      rintro rfl
      refine hq (hn.disjoint q pid level' hlevel' ?_)
      rw [hstack]
      exact List.mem_cons_self
  only level' hlevel' := by
    have hne : level' ≠ level := by
      rintro rfl
      exact hlevel' (Function.update_self _ _ _)
    rw [FinMap.find_erase, Function.update_of_ne hne] at hlevel'
    obtain ⟨q, hq⟩ := h.only level' hlevel'
    refine ⟨q, ?_⟩
    rw [Nesting.stack_set]
    split
    · rename_i hqp
      rw [hqp, hstack] at hq
      exact (List.mem_cons.1 hq).resolve_left hne
    · exact hq

/-- No process links 0. -/
lemma find_zero (h : Mirrors links n) (hn : n.WellFormed procCount) : links.find 0 = none := by
  by_contra hsome
  obtain ⟨q, hq⟩ := h.only 0 hsome
  exact hn.nonzero q hq

end Mirrors

/-! ## Executions -/

namespace Flatten

/-- The end of the execution of an instruction that the wrapped detection has seen. -/
lemma conclude_forwarded {s : Flatten σ} {forced retried : Bool} {delay : ℕ} {w : σ}
    {l : FinMap Level Level} (hactions : s.suppressActions = false)
    (hlinks : finalizeLinks debug s = .ok l)
    (hw : T.conclude forced delay s.wrapped = .ok (retried, w)) :
    (detector T debug).conclude forced delay s = .ok (retried,
      { s with parentRelation := if retried then s.parentRelation else l, wrapped := w }) := by
  have hmay : (detector T debug).mayNotDelay s = (do
      let wrapped ← T.mayNotDelay s.wrapped
      return { s with wrapped := wrapped }) := by
    show mayNotDelay T s = _
    rw [mayNotDelay, hactions]
    rfl
  have hdelay : (detector T debug).getDelay s = T.getDelay s.wrapped := by
    show getDelay T s = _
    rw [getDelay, hactions]
    rfl
  have hfinal : ∀ w₁ w₂, T.finalizeInstruction w₁ = .ok w₂ →
      (detector T debug).finalizeInstruction { s with wrapped := w₁ } =
        .ok { s with parentRelation := l, wrapped := w₂ } := by
    intro w₁ w₂ hw₂
    have hlinks' : finalizeLinks debug { s with wrapped := w₁ } = .ok l := hlinks
    show finalizeInstruction T debug { s with wrapped := w₁ } = _
    rw [finalizeInstruction, hlinks', ok_bind]
    dsimp only
    rw [hactions, hw₂]
    rfl
  have hrollback : ∀ w', T.rollbackInstruction s.wrapped = .ok w' →
      (detector T debug).rollbackInstruction s = .ok { s with wrapped := w' } := by
    intro w' hw'
    show rollbackInstruction T s = _
    rw [rollbackInstruction, hactions, hw']
    rfl
  rw [Detector.conclude] at hw ⊢
  split at hw
  · rename_i hforced
    obtain ⟨w₁, hw₁, hw⟩ := bind_eq_ok.1 hw
    obtain ⟨w₂, hw₂, hret⟩ := bind_eq_ok.1 hw
    cases hret
    rw [if_pos hforced, hmay, hw₁, ok_bind, pure_bind, hfinal w₁ w hw₂]
    rfl
  · rename_i hforced
    obtain ⟨own, hown, hw⟩ := bind_eq_ok.1 hw
    rw [if_neg hforced, hdelay, hown, ok_bind]
    split at hw
    · rename_i hzero
      obtain ⟨w₂, hw₂, hret⟩ := bind_eq_ok.1 hw
      cases hret
      rw [if_pos hzero, hfinal s.wrapped w hw₂]
      rfl
    · rename_i hzero
      obtain ⟨w₂, hw₂, hret⟩ := bind_eq_ok.1 hw
      cases hret
      rw [if_neg hzero, hrollback w hw₂]
      rfl

/-- The execution of an instruction that the wrapped detection sees as another one. -/
lemma execute_forwarded {s g : Flatten σ} {l : FinMap Level Level} {r : Request} {i : Instruction} {out : Outcome} {w : σ}
    (hobserve : observe T debug r.instruction s = (do
      let wrapped ← T.observe i s.wrapped
      return { g with wrapped := wrapped }))
    (hactions : g.suppressActions = false) (hlinks : finalizeLinks debug g = .ok l)
    (hforced : r.forced = Request.forced { r with instruction := i })
    (hw : T.execute { r with instruction := i } s.wrapped = .ok (out, w)) :
    (detector T debug).execute r s = .ok (out, { g with
      parentRelation := if out.retried then g.parentRelation else l
      wrapped := w }) := by
  obtain ⟨w₁, hw₁, hw⟩ := bind_eq_ok.1 hw
  obtain ⟨⟨collisions, w₂⟩, hw₂, hw⟩ := bind_eq_ok.1 hw
  obtain ⟨⟨retried, w₃⟩, hw₃, hret⟩ := bind_eq_ok.1 hw
  cases hret
  have hcheck : (detector T debug).checkCollisions { g with wrapped := w₁ } =
      .ok (collisions, { g with wrapped := w₂ }) := by
    show checkCollisions T { g with wrapped := w₁ } = _
    rw [checkCollisions]
    dsimp only
    rw [hactions, hw₂]
    rfl
  have hconclude := conclude_forwarded (s := { g with wrapped := w₂ }) hactions hlinks hw₃
  rw [Detector.execute]
  show (observe T debug r.instruction s >>= _) = _
  rw [hobserve, hw₁, ok_bind, pure_bind, hcheck, ok_bind]
  dsimp only
  rw [hforced, hconclude]
  rfl

/-- The execution of an instruction that is suppressed. -/
lemma execute_suppressed {s g : Flatten σ} {l : FinMap Level Level} {r : Request}
    (hobserve : observe T debug r.instruction s = .ok g) (hactions : g.suppressActions = true)
    (hlinks : finalizeLinks debug g = .ok l) :
    (detector T debug).execute r s = .ok (⟨[], !r.forced && decide (r.delay ≠ 0)⟩,
      { g with
        parentRelation := if !r.forced && decide (r.delay ≠ 0) then g.parentRelation
          else l }) := by
  have hcheck : (detector T debug).checkCollisions g = .ok ([], g) := if_pos hactions
  have hmay : (detector T debug).mayNotDelay g = .ok g := if_pos hactions
  have hdelay : (detector T debug).getDelay g = .ok 0 := if_pos hactions
  have hrollback : (detector T debug).rollbackInstruction g = .ok g := if_pos hactions
  have hfinal : (detector T debug).finalizeInstruction g =
      .ok { g with parentRelation := l } := by
    show finalizeInstruction T debug g = _
    rw [finalizeInstruction, hlinks, ok_bind]
    exact if_pos hactions
  rw [Detector.execute]
  show (observe T debug r.instruction s >>= _) = _
  rw [hobserve, ok_bind, hcheck, ok_bind]
  dsimp only
  rw [Detector.conclude]
  by_cases hforced : r.forced = true
  · rw [if_pos hforced, hmay, ok_bind, hfinal, ok_bind, hforced]
    rfl
  · rw [if_neg hforced, hdelay, ok_bind, Nat.zero_max, Bool.eq_false_iff.2 hforced]
    by_cases hdelay : r.delay = 0
    · rw [if_pos hdelay, hfinal, ok_bind, hdelay]
      rfl
    · rw [if_neg hdelay, hrollback, ok_bind, decide_eq_true hdelay]
      rfl

end Flatten

/-- The begin of a transaction inside another one. -/
def Instruction.nestedBegin : Instruction → Bool
  | .access .. => false
  | .transaction _ oldLevel _ .transBegin => decide (oldLevel ≠ 0)
  | .transaction .. => false

namespace Flatten

variable {s : Flatten σ} {r : Request} {out : Outcome} {w : σ}

/-- What the execution of an instruction has done, seen from the detection that is wrapped. -/
def Executes (T : Detector σ) (debug : Bool) (n : Nesting) (r : Request) (s : Flatten σ)
    (out : Outcome) (w : σ) : Prop :=
  ∃ s', (detector T debug).execute r s = .ok (out, s') ∧ s'.wrapped = w ∧
    Mirrors s'.parentRelation (if out.retried then n else n.after r.instruction)

lemma executes_access {isRead : Bool} {level : Level} {address : Address} {size : ℕ}
    {force : Bool} {delay : ℕ} (hs : Mirrors s.parentRelation n) (hn : n.WellFormed procCount)
    (hallowed : level = 0 ∨ level ∈ n.stack pid)
    (hw : T.execute ⟨.access isRead pid (if level = 0 then 0 else n.outermost pid) address size,
      force, delay⟩ s.wrapped = .ok (out, w)) :
    Executes T debug n ⟨.access isRead pid level address size, force, delay⟩ s out w := by
  have hclimb : climb debug (s.parentRelation.keys.length + 1) s.parentRelation level =
      .ok (if level = 0 then 0 else n.outermost pid, s.parentRelation) := by
    split
    · rename_i hzero
      rw [climb, if_pos hzero]
    · rename_i hzero
      have hmem := hallowed.resolve_left hzero
      refine climb_eq (hs.linked pid) (hn.nonzero pid) hmem ?_
      exact Nat.le_succ_of_le ((hs.linked pid).length_le (hn.nodup pid))
  refine ⟨_, execute_forwarded
    (i := .access isRead pid (if level = 0 then 0 else n.outermost pid) address size)
    (g := { s with suppressActions := false, isTransInst := false })
    (l := s.parentRelation) ?_ rfl rfl rfl hw, rfl, ?_⟩
  · show observeAccess T debug isRead pid level address size s = _
    rw [observeAccess, hclimb]
    rfl
  · have hafter : (if out.retried then n else n.after (.access isRead pid level address size)) =
        n := ite_self _
    rw [hafter]
    show Mirrors (if out.retried then s.parentRelation else s.parentRelation) n
    rw [ite_self]
    exact hs

/-- The begin of an outermost transaction. -/
lemma executes_begin {new : Level} {force : Bool} {delay : ℕ} (hs : Mirrors s.parentRelation n)
    (hn : n.WellFormed procCount) (hfresh : ∀ q, new ∉ n.stack q) (hstack : n.stack pid = [])
    (hw : T.execute ⟨.transaction pid 0 new .transBegin, force, delay⟩ s.wrapped = .ok (out, w)) :
    Executes T debug n ⟨.transaction pid 0 new .transBegin, force, delay⟩ s out w := by
  have hzero := hs.find_zero hn
  refine ⟨_, execute_forwarded (g := { s with
      isTransInst := true, opCode := .transBegin, parent := 0, child := new,
      suppressActions := false }) (l := s.parentRelation.insert new 0) ?_ rfl ?_ rfl hw, rfl,
    ?_⟩
  · show observeTransactionInst T debug pid 0 new .transBegin s = _
    rw [observeTransactionInst]
    dsimp only
    rw [check_bind (.inr hzero)]
    rfl
  · rw [finalizeLinks]
    dsimp only
    rw [check_bind (.inr hzero)]
    rfl
  · dsimp only
    split
    · exact hs
    · have hpush : Mirrors (s.parentRelation.insert new (n.level pid))
          (n.set pid (new :: n.stack pid)) := hs.push hfresh
      have hlevel : n.level pid = 0 := by
        rw [Nesting.level, hstack]
        rfl
      rwa [hlevel] at hpush

/-- The begin of a nested transaction, when no assertion is made. -/
lemma executes_nestedBegin {old new : Level} {force : Bool} {delay : ℕ}
    (hs : Mirrors s.parentRelation n) (hfresh : ∀ q, new ∉ n.stack q) (hzero : old ≠ 0)
    (hold : old = n.level pid) :
    Executes T false n ⟨.transaction pid old new .transBegin, force, delay⟩ s
      ⟨[], !force && decide (delay ≠ 0)⟩ s.wrapped := by
  refine ⟨_, execute_suppressed (g := { s with
      isTransInst := true, opCode := .transBegin, parent := old, child := new,
      suppressActions := true }) (l := s.parentRelation.insert new old) ?_ rfl ?_, rfl, ?_⟩
  · show observeTransactionInst T false pid old new .transBegin s = _
    rw [observeTransactionInst]
    dsimp only
    rw [check_bind (.inl rfl), forward, decide_eq_true hzero]
    rfl
  · rw [finalizeLinks]
    dsimp only
    rw [check_bind (.inl rfl)]
    rfl
  · dsimp only
    show Mirrors (if (!force && decide (delay ≠ 0)) = true then _ else _) _
    split
    · exact hs
    · rw [hold]
      exact hs.push hfresh

/-- The end of a transaction, seen from the parent links. -/
lemma observe_end (T : Detector σ) (debug : Bool) {old : Level} {rest : List Level} {op : TMOpCode} (hop : op ≠ .transBegin)
    (hs : Mirrors s.parentRelation n) (hstack : n.stack pid = old :: rest) :
    observe T debug (.transaction pid old (rest.headD 0) op) s =
      forward T (.transaction pid old (rest.headD 0) op) { s with
        isTransInst := true, opCode := op, parent := rest.headD 0, child := old,
        suppressActions := decide (rest.headD 0 ≠ 0) } ∧
    finalizeLinks debug { s with
        isTransInst := true, opCode := op, parent := rest.headD 0, child := old,
        suppressActions := decide (rest.headD 0 ≠ 0) } = .ok (s.parentRelation.erase old) := by
  have hlinked := hs.linked pid
  rw [hstack] at hlinked
  have hfind : s.parentRelation.find old = some (rest.headD 0) := hlinked.1
  have hsome : s.parentRelation.find old ≠ none := by
    rw [hfind]
    exact Option.some_ne_none _
  constructor
  · show observeTransactionInst T debug pid old (rest.headD 0) op s = _
    cases op with
    | transBegin => exact absurd rfl hop
    | _ =>
      rw [observeTransactionInst]
      dsimp only
      rw [check_bind (.inr hsome), entry_of_find hfind]
      dsimp only
      rw [check_bind (.inr rfl), ite_self]
      exact hop
  · cases op with
    | transBegin => exact absurd rfl hop
    | _ =>
      rw [finalizeLinks]
      dsimp only
      rw [if_pos rfl, check_bind (.inr hsome), entry_of_find hfind, check_bind (.inr rfl)]
      rfl

/-- The end of a transaction. -/
lemma executes_end {old : Level} {rest : List Level} {op : TMOpCode} {force : Bool} {delay : ℕ}
    (hop : op ≠ .transBegin) (hs : Mirrors s.parentRelation n) (hn : n.WellFormed procCount)
    (hstack : n.stack pid = old :: rest)
    (hw : T.executeOutermost n ⟨.transaction pid old (rest.headD 0) op, force, delay⟩ s.wrapped =
      .ok (out, w)) :
    Executes T debug n ⟨.transaction pid old (rest.headD 0) op, force, delay⟩ s out w := by
  obtain ⟨hobserve, hlinks⟩ := observe_end T debug hop hs hstack
  have hmirrors : ∀ retried : Bool, Mirrors
      (if retried then s.parentRelation else s.parentRelation.erase old)
      (if retried then n else n.after (.transaction pid old (rest.headD 0) op)) := by
    intro retried
    have hafter : n.after (.transaction pid old (rest.headD 0) op) = n.set pid rest := by
      cases op with
      | transBegin => exact absurd rfl hop
      | _ =>
        show n.set pid (n.stack pid).tail = _
        rw [hstack]
        rfl
    rw [hafter]
    cases retried with
    | true => exact hs
    | false => exact hs.pop hn hstack
  have hpart : n.outermostPart (.transaction pid old (rest.headD 0) op) =
      if rest = [] then some (.transaction pid old (rest.headD 0) op) else none := by
    cases op with
    | transBegin => exact absurd rfl hop
    | _ =>
      show (if (n.stack pid).tail = [] then _ else _) = _
      rw [hstack]
      rfl
  rw [Detector.executeOutermost, hpart] at hw
  cases rest with
  | nil =>
    have hzero : ([] : List Level).headD 0 = 0 := rfl
    refine ⟨_, execute_forwarded (i := .transaction pid old 0 op) (g := { s with
        isTransInst := true, opCode := op, parent := 0, child := old,
        suppressActions := false }) (l := s.parentRelation.erase old) ?_ rfl hlinks rfl hw, rfl,
      hmirrors out.retried⟩
    exact hobserve
  | cons next rest =>
    have hne : next ≠ 0 := by
      rintro rfl
      refine hn.nonzero pid ?_
      rw [hstack]
      exact List.mem_cons_of_mem _ List.mem_cons_self
    have hactions : decide ((next :: rest).headD 0 ≠ 0) = true := decide_eq_true hne
    cases hw
    refine ⟨_, execute_suppressed (g := { s with
        isTransInst := true, opCode := op, parent := next, child := old,
        suppressActions := true }) (l := s.parentRelation.erase old) ?_ rfl ?_, rfl,
      hmirrors _⟩
    · rw [hobserve, hactions]
      rfl
    · rw [hactions] at hlinks
      exact hlinks

/-- An execution of what is left of an instruction is one of the flattened detection, unless it
is compiled for debugging and meets a nested begin. -/
lemma executes_of_allows (debug : Bool) (hs : Mirrors s.parentRelation n) (hn : n.WellFormed procCount)
    (hallows : n.Allows procCount r.instruction)
    (hnested : debug = false ∨ r.instruction.nestedBegin = false)
    (hw : T.executeOutermost n r s.wrapped = .ok (out, w)) : Executes T debug n r s out w := by
  obtain ⟨i, force, delay⟩ := r
  cases i with
  | access isRead pid level address size => exact executes_access hs hn hallows hw
  | transaction pid old new op =>
    cases op with
    | transBegin =>
      obtain ⟨hold, -, hfresh⟩ := hallows
      have hfresh := hn.fresh hfresh
      rcases hstack : n.stack pid with _ | ⟨top, rest⟩
      · have hzero : old = 0 := by
          rw [hold, Nesting.level, hstack]
          rfl
        subst hzero
        refine executes_begin hs hn hfresh hstack ?_
        have hpart : n.outermostPart (.transaction pid 0 new .transBegin) =
            some (.transaction pid 0 new .transBegin) := if_pos hstack
        rw [Detector.executeOutermost, hpart] at hw
        exact hw
      · have hne : old ≠ 0 := by
          rintro rfl
          refine hn.nonzero pid ?_
          rw [Nesting.level, hstack] at hold
          rw [hstack]
          exact hold ▸ List.mem_cons_self
        have hdebug : debug = false := by
          refine hnested.resolve_right fun hfalse => ?_
          exact absurd (of_decide_eq_false hfalse) (not_not.2 hne)
        subst hdebug
        have hpart : n.outermostPart (.transaction pid old new .transBegin) = none := by
          refine if_neg ?_
          rw [hstack]
          exact List.cons_ne_nil top rest
        rw [Detector.executeOutermost, hpart] at hw
        cases hw
        exact executes_nestedBegin hs hfresh hne hold
    | _ =>
      obtain ⟨hne, hold, hnew⟩ := hallows
      rcases hstack : n.stack pid with _ | ⟨top, rest⟩
      · exact absurd hstack hne
      · rw [Nesting.level, hstack] at hold
        rw [hstack] at hnew
        cases hold
        cases hnew
        exact executes_end (fun h => by cases h) hs hn hstack hw

/-- A nested begin hits the assertion. -/
lemma execute_nestedBegin (hs : Mirrors s.parentRelation n)
    (hallows : n.Allows procCount r.instruction)
    (hnested : r.instruction.nestedBegin = true) {s' : Flatten σ} :
    (detector T true).execute r s ≠ .ok (out, s') := by
  intro h
  obtain ⟨i, force, delay⟩ := r
  cases i with
  | access => cases hnested
  | transaction pid old new op =>
    cases op with
    | transBegin =>
      obtain ⟨hold, -, -⟩ := hallows
      have hne : old ≠ 0 := of_decide_eq_true hnested
      obtain ⟨s₁, hs₁, -⟩ := bind_eq_ok.1 h
      have hobserve : observeTransactionInst T true pid old new .transBegin s = .ok s₁ := hs₁
      rw [observeTransactionInst] at hobserve
      obtain ⟨hcheck, -⟩ := check_bind_eq_ok.1 hobserve
      have hnone := hcheck.resolve_left Bool.noConfusion
      have hlinked := hs.linked pid
      rcases hstack : n.stack pid with _ | ⟨top, rest⟩
      · rw [Nesting.level, hstack] at hold
        exact hne hold
      · rw [Nesting.level, hstack] at hold
        rw [hstack] at hlinked
        have hfind : s.parentRelation.find old = some (rest.headD 0) := hold ▸ hlinked.1
        exact Option.some_ne_none _ (hfind.symm.trans hnone)
    | _ => cases hnested

end Flatten

/-! ## The collisions of a wrapped detection -/

/-- A collision names transactions that its processes have. -/
structure Collision.Names (c : Collision) (live : Pid → Level) : Prop where
  localLevel : c.localLevel ≠ 0
  localPid : live c.localPid = c.localLevel
  enemyLevel : c.enemyLevel ≠ 0
  enemyPid : live c.enemyPid = c.enemyLevel

/-- An instruction that may come next when every process has at most one transaction. -/
def Instruction.FitsFlat (live : Pid → Level) : Instruction → Prop
  | .access _ pid level _ _ => level = 0 ∨ level = live pid
  | .transaction pid oldLevel newLevel .transBegin =>
    live pid = 0 ∧ oldLevel = 0 ∧ newLevel ≠ 0
  | .transaction pid oldLevel newLevel _ => oldLevel ≠ 0 ∧ live pid = oldLevel ∧ newLevel = 0

/-- The transactions of the processes after an instruction. -/
def Instruction.flatAfter (live : Pid → Level) : Instruction → Pid → Level
  | .access .. => live
  | .transaction pid _ newLevel _ => Function.update live pid newLevel

/-- A detection reports transactions that it has seen to begin and not to end: `I` is what it
knows of them. -/
structure Detector.NamesLive (T : Detector σ) (I : σ → (Pid → Level) → Prop) : Prop where
  names : ∀ s live r out s', I s live → r.instruction.FitsFlat live →
    T.execute r s = .ok (out, s') → ∀ c ∈ out.collisions, c.Names live
  keeps : ∀ s live r out s', I s live → r.instruction.FitsFlat live →
    T.execute r s = .ok (out, s') →
    I s' (if out.retried then live else r.instruction.flatAfter live)

/-- What is left of an instruction fits the outermost transactions. -/
lemma Nesting.fitsFlat_of_outermostPart {i j : Instruction} (hn : n.WellFormed procCount)
    (hallows : n.Allows procCount i) (hpart : n.outermostPart i = some j) :
    j.FitsFlat n.outermost ∧ (n.after i).outermost = j.flatAfter n.outermost := by
  have hset : ∀ pid l, (n.set pid l).outermost =
      Function.update n.outermost pid (l.getLastD 0) := by
    intro pid l
    funext q
    rw [Nesting.outermost, Nesting.stack_set, Function.update_apply]
    split <;> rfl
  cases i with
  | access isRead pid level address size =>
    cases hpart
    refine ⟨?_, rfl⟩
    show (if level = 0 then 0 else n.outermost pid) = 0 ∨ _ = n.outermost pid
    split
    · exact .inl rfl
    · exact .inr rfl
  | transaction pid old new op =>
    cases op with
    | transBegin =>
      obtain ⟨hold, hzero, -⟩ := hallows
      have hif : (if n.stack pid = [] then
        some (Instruction.transaction pid old new .transBegin) else none) = some j := hpart
      split at hif
      · rename_i hnil
        cases hif
        rw [Nesting.level, hnil] at hold
        refine ⟨⟨?_, hold, hzero⟩, ?_⟩
        · rw [Nesting.outermost, hnil]
          rfl
        · rw [Nesting.after, hset, hnil]
          rfl
      · cases hif
    | _ =>
      obtain ⟨hne, hold, hnew⟩ := hallows
      have hif : (if (n.stack pid).tail = [] then
        some (Instruction.transaction pid old new _) else none) = some j := hpart
      split at hif
      · rename_i hnil
        cases hif
        obtain ⟨top, htop⟩ : ∃ top, n.stack pid = [top] := by
          rcases hstack : n.stack pid with _ | ⟨top, rest⟩
          · exact absurd hstack hne
          · rw [hstack, List.tail_cons] at hnil
            exact ⟨top, by rw [hnil]⟩
        rw [hnil] at hnew
        rw [Nesting.level, htop] at hold
        have hzero : top ≠ 0 := by
          rintro rfl
          exact hn.nonzero pid (htop ▸ List.mem_singleton_self 0)
        refine ⟨⟨?_, ?_, hnew⟩, ?_⟩
        · rw [hold]
          exact hzero
        · rw [Nesting.outermost, htop, hold]
          rfl
        · show (n.set pid (n.stack pid).tail).outermost = _
          rw [hset, hnil, hnew]
          rfl
      · cases hif

/-- A suppressed instruction leaves the outermost transactions. -/
lemma Nesting.outermost_after {i : Instruction} (hpart : n.outermostPart i = none) :
    (n.after i).outermost = n.outermost := by
  have hset : ∀ pid l, l.getLastD 0 = n.outermost pid → (n.set pid l).outermost = n.outermost := by
    intro pid l hl
    funext q
    rw [Nesting.outermost, Nesting.stack_set]
    split
    · rename_i hq
      rw [hq, hl]
    · rfl
  cases i with
  | access => cases hpart
  | transaction pid old new op =>
    cases op with
    | transBegin =>
      have hif : (if n.stack pid = [] then
        some (Instruction.transaction pid old new .transBegin) else none) = none := hpart
      split at hif
      · cases hif
      · rename_i hne
        refine hset _ _ ?_
        obtain ⟨top, rest, hstack⟩ := List.exists_cons_of_ne_nil hne
        rw [Nesting.outermost, hstack, List.getLastD_cons, List.getLastD_cons, List.getLastD_cons]
    | _ =>
      have hif : (if (n.stack pid).tail = [] then
        some (Instruction.transaction pid old new _) else none) = none := hpart
      split at hif
      · cases hif
      · rename_i hne
        refine hset _ _ ?_
        rcases hstack : n.stack pid with _ | ⟨top, rest⟩
        · rw [hstack] at hne
          exact absurd rfl hne
        · rw [hstack, List.tail_cons] at hne
          obtain ⟨next, rest, rfl⟩ := List.exists_cons_of_ne_nil hne
          rw [Nesting.outermost, hstack, List.tail_cons, List.getLastD_cons, List.getLastD_cons,
            List.getLastD_cons]

/-! ## Runs -/

/-- The flattened detection has done with the instructions what the wrapped one has done with
their outermost parts. -/
structure Flattens (t : Nested σ) (f : Nested (Flatten σ)) : Prop where
  wrapped : f.detector.wrapped = t.detector
  nesting : f.nesting = t.nesting
  reported : f.reported = t.reported

/-- What holds between the two before and after every instruction. -/
structure Simulates (procCount : ℕ) (t : Nested σ) (f : Nested (Flatten σ)) : Prop
    extends Flattens t f where
  mirrors : Mirrors f.detector.parentRelation t.nesting
  wellFormed : t.nesting.WellFormed procCount

variable {t t' : Nested σ} {f f' : Nested (Flatten σ)} {r : Request} {init : σ}
  {rs : List Request}

lemma Nesting.WellFormed.after {i : Instruction} (h : n.WellFormed procCount)
    (hpid : i.pid < procCount) (hallows : n.Allows procCount i) :
    (n.after i).WellFormed procCount := by
  cases i with
  | access => exact h
  | transaction pid old new op =>
    cases op with
    | transBegin => exact h.push hpid hallows.2.1 (h.fresh hallows.2.2)
    | _ => exact h.pop

/-- A step of the outermost parts is one of the flattened detection. -/
lemma Simulates.step (debug : Bool) (h : Simulates procCount t f)
    (ht : (T.outermostMachine procCount init).step t r = .ok t')
    (hnested : debug = false ∨ r.instruction.nestedBegin = false) :
    ∃ f', ((Flatten.detector T debug).allMachine procCount (.new init)).step f r = .ok f' ∧
      Simulates procCount t' f' := by
  obtain ⟨⟨hpid, hallows⟩, ht⟩ := check_bind_eq_ok.1 ht
  obtain ⟨⟨out, w⟩, hw, hret⟩ := bind_eq_ok.1 ht
  cases hret
  rw [← h.wrapped] at hw
  obtain ⟨d, hd, hwrapped, hmirrors⟩ :=
    Flatten.executes_of_allows debug h.mirrors h.wellFormed hallows hnested hw
  refine ⟨f.commit r.instruction (out, d), ?_, ⟨hwrapped, ?_, ?_⟩, hmirrors, ?_⟩
  · refine check_bind_eq_ok.2 ⟨⟨hpid, ?_⟩, bind_eq_ok.2 ⟨_, hd, rfl⟩⟩
    rw [h.nesting]
    exact hallows
  · rw [Nested.commit, Nested.commit, h.nesting]
  · rw [Nested.commit, Nested.commit, h.nesting, h.reported]
  · rw [Nested.commit]
    dsimp only
    split
    · exact h.wellFormed
    · exact h.wellFormed.after hpid hallows

/-- Compiled for debugging, the flattened detection refuses a nested begin. -/
lemma Simulates.nested (h : Simulates procCount t f)
    (hf : ((Flatten.detector T true).allMachine procCount (.new init)).step f r = .ok f') :
    r.instruction.nestedBegin = false := by
  obtain ⟨⟨-, hallows⟩, hf⟩ := check_bind_eq_ok.1 hf
  obtain ⟨⟨out, d⟩, hd, -⟩ := bind_eq_ok.1 hf
  rw [h.nesting] at hallows
  by_contra hnested
  exact Flatten.execute_nestedBegin h.mirrors hallows
    (eq_true_of_ne_false hnested) hd

/-- The outermost parts are executed by the flattened detection, unless it is compiled for
debugging and there is a nested begin. -/
lemma Simulates.exec_iff (h : Simulates procCount t f)
    (ht : (T.outermostMachine procCount init).exec t rs = .ok t') :
    (∃ f', ((Flatten.detector T debug).allMachine procCount (.new init)).exec f rs = .ok f' ∧
      Flattens t' f') ↔ debug = false ∨ ∀ r ∈ rs, r.instruction.nestedBegin = false := by
  induction rs generalizing t f with
  | nil =>
    cases ht
    exact iff_of_true ⟨f, rfl, h.toFlattens⟩ (.inr fun r hr => absurd hr List.not_mem_nil)
  | cons r rs ih =>
    obtain ⟨t₁, ht₁, ht⟩ := Machine.exec_cons.1 ht
    constructor
    · rintro ⟨f', hf', hflattens⟩
      obtain ⟨f₁, hf₁, hf'⟩ := Machine.exec_cons.1 hf'
      cases debug with
      | false => exact .inl rfl
      | true =>
        have hnested := h.nested hf₁
        obtain ⟨f₂, hf₂, hsim⟩ := h.step true ht₁ (.inr hnested)
        cases hf₁.symm.trans hf₂
        refine .inr fun r' hr' => ?_
        rcases List.mem_cons.1 hr' with rfl | hmem
        · exact hnested
        · exact (((ih hsim ht).1 ⟨f', hf', hflattens⟩).resolve_left Bool.noConfusion) r' hmem
    · intro hcond
      obtain ⟨f₁, hf₁, hsim⟩ := h.step debug ht₁
        (hcond.imp_right fun hall => hall r List.mem_cons_self)
      obtain ⟨f', hf', hflattens⟩ := (ih hsim ht).2
        (hcond.imp_right fun hall r' hr' => hall r' (List.mem_cons_of_mem r hr'))
      exact ⟨f', Machine.exec_cons.2 ⟨f₁, hf₁, hf'⟩, hflattens⟩

/-- Every collision that has been reported names outermost transactions that were active. -/
def NamesOutermost (reported : List (Collision × Nesting)) : Prop :=
  ∀ p ∈ reported, p.1.Names p.2.outermost

/-- What is kept of the wrapped detection, by its contract. -/
lemma namesOutermost_of_exec {I : σ → (Pid → Level) → Prop} (hT : T.NamesLive I)
    (hI : I t.detector t.nesting.outermost) (hn : t.nesting.WellFormed procCount)
    (hnames : NamesOutermost t.reported)
    (ht : (T.outermostMachine procCount init).exec t rs = .ok t') :
    NamesOutermost t'.reported := by
  induction rs generalizing t with
  | nil =>
    cases ht
    exact hnames
  | cons r rs ih =>
    obtain ⟨t₁, ht₁, ht⟩ := Machine.exec_cons.1 ht
    obtain ⟨⟨hpid, hallows⟩, ht₁⟩ := check_bind_eq_ok.1 ht₁
    obtain ⟨⟨out, w⟩, hw, hret⟩ := bind_eq_ok.1 ht₁
    cases hret
    -- the detection has seen the outermost part, or nothing
    have hstep : I w (if out.retried then t.nesting else t.nesting.after r.instruction).outermost ∧
        ∀ c ∈ out.collisions, c.Names t.nesting.outermost := by
      rw [Detector.executeOutermost] at hw
      split at hw
      · rename_i i hpart
        obtain ⟨hfits, hafter⟩ := Nesting.fitsFlat_of_outermostPart hn hallows hpart
        refine ⟨?_, hT.names _ _ _ _ _ hI hfits hw⟩
        have hkeeps := hT.keeps _ _ _ _ _ hI hfits hw
        dsimp only at hkeeps
        split at hkeeps
        · rename_i hretried
          rwa [if_pos hretried]
        · rename_i hretried
          rwa [if_neg hretried, hafter]
      · rename_i hpart
        cases hw
        refine ⟨?_, fun c hc => absurd hc List.not_mem_nil⟩
        split
        · exact hI
        · rw [Nesting.outermost_after hpart]
          exact hI
    refine ih hstep.1 ?_ (fun p hp => ?_) ht
    · show (if out.retried then t.nesting else t.nesting.after r.instruction).WellFormed procCount
      split
      · exact hn
      · exact hn.after hpid hallows
    · rcases List.mem_append.1 hp with hold | hnew
      · exact hnames p hold
      · obtain ⟨c, hc, rfl⟩ := List.mem_map.1 hnew
        exact hstep.2 c hc

/-- Flattening is transparent for well-nested transactions, and only outermost transactions are
reported, if and only if no assertions are made or there is no nested begin. -/
theorem flatten_transparent_iff (T : Detector σ) (init : σ)
    (hT : ∃ I, T.NamesLive I ∧ I init fun _ => 0) (debug : Bool) (procCount : ℕ)
    (rs : List Request) (t : Nested σ)
    (ht : (T.outermostMachine procCount init).exec (.new init) rs = .ok t) :
    (∃ f, ((Flatten.detector T debug).allMachine procCount (.new init)).exec
      (.new (.new init)) rs = .ok f ∧ Flattens t f ∧ NamesOutermost f.reported) ↔
      debug = false ∨ ∀ r ∈ rs, r.instruction.nestedBegin = false := by
  obtain ⟨I, hnames, hI⟩ := hT
  have hstart : Simulates procCount (Nested.new init) (Nested.new (Flatten.new init)) :=
    ⟨⟨rfl, rfl, rfl⟩, .new, .new⟩
  rw [← hstart.exec_iff ht]
  refine exists_congr fun f => and_congr_right fun _ => and_iff_left_of_imp fun hflattens => ?_
  rw [hflattens.reported]
  exact namesOutermost_of_exec hnames hI .new (fun p hp => absurd hp List.not_mem_nil) ht

/-! ### The detections with tables -/

namespace TableDetection

variable {τ : Type} {d : TableDetection τ}

/-- The collisions that are reported have two processes with transactions. -/
lemma names_checkCollisions {s s' : TableState τ} {i : Instruction} {cs : List Collision}
    (hcheck : d.detection.checkCollisions (s.observe i) = .ok (cs, s')) :
    ∀ c ∈ cs, c.Names s.currentTransaction := by
  have hnone : ∀ s₁ : TableState τ, d.collisionCount s₁ = .ok (0, { s₁ with collisionPids := [] }) →
      d.detection.checkCollisions s₁ = .ok (cs, s') → cs = [] := by
    intro s₁ hs₁ hcheck
    rw [ITMCollisionDetection.checkCollisions] at hcheck
    have hcount : d.detection.collisionCount s₁ = .ok (0, { s₁ with collisionPids := [] }) := hs₁
    rw [hcount] at hcheck
    cases hcheck
    rfl
  cases i with
  | transaction pid old new op =>
    rw [hnone _ (by rfl) hcheck]
    exact fun c hc => absurd hc List.not_mem_nil
  | access isRead pid level addr size =>
    by_cases hactive : s.currentTransaction pid ≠ 0 ∧ level ≠ 0
    · have hcur : s.currentTransaction pid = level := by
        obtain ⟨⟨k, s₁⟩, hcount, -⟩ := bind_eq_ok.1 hcheck
        have hcount' : d.collisionCount (s.observe (.access isRead pid level addr size)) =
          .ok (k, s₁) := hcount
        rw [collisionCount] at hcount'
        have hguard : (s.observe (.access isRead pid level addr size)).isAccess = true ∧
            (s.observe (.access isRead pid level addr size)).currentTransaction pid ≠ 0 ∧
            (s.observe (.access isRead pid level addr size)).lastTransID ≠ 0 := ⟨rfl, hactive⟩
        rw [show (s.observe (.access isRead pid level addr size)).lastPid = some pid from rfl]
          at hcount'
        dsimp only at hcount'
        rw [if_pos hguard] at hcount'
        exact (check_bind_eq_ok.1 hcount').1.symm
      obtain ⟨s₁, hs₁⟩ := checkCollisions_access (d := d) isRead addr size hactive.2 hcur
      cases hs₁.symm.trans hcheck
      intro c hc
      obtain ⟨enemy, henemy, rfl⟩ := List.mem_map.1 hc
      obtain ⟨-, henemy⟩ := List.mem_filter.1 henemy
      rw [Bool.and_eq_true, Bool.and_eq_true, decide_eq_true_eq, decide_eq_true_eq] at henemy
      exact ⟨hactive.1, rfl, henemy.1.2, rfl⟩
    · rw [hnone _ ?_ hcheck]
      · exact fun c hc => absurd hc List.not_mem_nil
      · rw [collisionCount]
        exact if_neg fun h => hactive h.2

/-- A detection with tables meets the contract of a wrapped detection. -/
lemma namesLive : d.detection.detector.NamesLive fun s live => s.currentTransaction = live := by
  have hexecute : ∀ {s s' : TableState τ} {r : Request} {out : Outcome},
      d.detection.detector.execute r s = .ok (out, s') →
      d.detection.execute r.instruction out.retried s = .ok s' ∧
      ∃ s₁, d.detection.checkCollisions (s.observe r.instruction) = .ok (out.collisions, s₁) := by
    intro s s' r out h
    obtain ⟨s₀, hs₀, h⟩ := bind_eq_ok.1 h
    cases hs₀
    obtain ⟨⟨cs, s₁⟩, hcheck, h⟩ := bind_eq_ok.1 h
    obtain ⟨⟨retried, s₂⟩, hconclude, hret⟩ := bind_eq_ok.1 h
    cases hret
    refine ⟨bind_eq_ok.2 ⟨_, hcheck, ?_⟩, s₁, hcheck⟩
    rw [Detector.conclude] at hconclude
    split at hconclude
    · obtain ⟨s₃, hs₃, hfinal⟩ := bind_eq_ok.1 hconclude
      obtain ⟨s₄, hs₄, hret⟩ := bind_eq_ok.1 hfinal
      cases hs₃
      cases hret
      exact hs₄
    · obtain ⟨own, -, hfinal⟩ := bind_eq_ok.1 hconclude
      split at hfinal
      · obtain ⟨s₄, hs₄, hret⟩ := bind_eq_ok.1 hfinal
        cases hret
        exact hs₄
      · obtain ⟨s₄, hs₄, hret⟩ := bind_eq_ok.1 hfinal
        cases hret
        exact hs₄
  constructor
  · rintro s live r out s' rfl - h
    obtain ⟨s₁, hcheck⟩ := (hexecute h).2
    exact names_checkCollisions hcheck
  · rintro s live r out s' rfl hfits h
    rcases execute_eq_ok (hexecute h).1 with ⟨-, hcurrent, hidle⟩ |
      ⟨isRead, pid, level, addr, size, hi, -, -, -, -, hcurrent⟩ |
      ⟨pid, old, new, op, hi, hfalse, -, -, hcurrent⟩
    · rw [hcurrent]
      rcases hidle with hretry | ⟨isRead, pid, addr, size, hi⟩
      · have hretry' : out.retried = true := hretry
        rw [if_pos hretry']
      · have hi' : r.instruction = .access isRead pid 0 addr size := hi
        rw [hi']
        exact (ite_self _).symm
    · rw [hcurrent, hi]
      exact (ite_self _).symm
    · rw [hcurrent, hfalse, hi]
      rfl

end TableDetection

/-- A transaction of process 0 with another one inside, and an access of process 1 to the line
that the inner one has written. -/
def nestedRun : List Request :=
  [⟨.transaction 0 0 1 .transBegin, true, 0⟩, ⟨.transaction 0 1 2 .transBegin, true, 0⟩,
    ⟨.access false 0 2 0 4, false, 0⟩, ⟨.transaction 1 0 3 .transBegin, true, 0⟩,
    ⟨.access true 1 3 0 4, false, 0⟩, ⟨.transaction 0 2 1 .transEnd, true, 0⟩,
    ⟨.transaction 0 1 0 .transEnd, true, 0⟩]

open LogTMConfig in
/-- Without assertions the collision with the outer transaction is reported. -/
theorem flatten_transparent_iff_nestedRun : ∃ t,
    (twoProcesses.logTM.detection.detector.outermostMachine 2 twoProcesses.logTM.new).exec
      (.new twoProcesses.logTM.new) nestedRun = .ok t ∧
    t.reported.map (fun p => p.1.enemyLevel) = [1] ∧
    ((∃ f, ((Flatten.detector twoProcesses.logTM.detection.detector false).allMachine 2
      (.new twoProcesses.logTM.new)).exec (.new (.new twoProcesses.logTM.new)) nestedRun = .ok f ∧
      Flattens t f ∧ NamesOutermost f.reported) ↔
      false = false ∨ ∀ r ∈ nestedRun, r.instruction.nestedBegin = false) := by
  have hrun : succeeds ((twoProcesses.logTM.detection.detector.outermostMachine 2
      twoProcesses.logTM.new).exec (.new twoProcesses.logTM.new) nestedRun)
      (fun t => decide (t.reported.map (fun p => p.1.enemyLevel) = [1])) = true := by
    decide +kernel
  obtain ⟨t, ht, hreported⟩ := succeeds_iff.1 hrun
  refine ⟨t, ht, of_decide_eq_true hreported, ?_⟩
  exact flatten_transparent_iff twoProcesses.logTM.detection.detector twoProcesses.logTM.new
    ⟨_, TableDetection.namesLive, rfl⟩ false 2 nestedRun t ht

open LogTMConfig in
/-- Compiled for debugging, the nested begin stops the simulator. -/
theorem not_flatten_transparent_nestedRun : ∃ t,
    (twoProcesses.logTM.detection.detector.outermostMachine 2 twoProcesses.logTM.new).exec
      (.new twoProcesses.logTM.new) nestedRun = .ok t ∧
    ((Flatten.detector twoProcesses.logTM.detection.detector true).allMachine 2
      (.new twoProcesses.logTM.new)).exec (.new (.new twoProcesses.logTM.new)) nestedRun =
      .error .assertion ∧
    ¬∃ f, ((Flatten.detector twoProcesses.logTM.detection.detector true).allMachine 2
      (.new twoProcesses.logTM.new)).exec (.new (.new twoProcesses.logTM.new)) nestedRun = .ok f ∧
      Flattens t f ∧ NamesOutermost f.reported := by
  have hrun : succeeds ((twoProcesses.logTM.detection.detector.outermostMachine 2
      twoProcesses.logTM.new).exec (.new twoProcesses.logTM.new) nestedRun)
      (fun _ => true) = true := by
    decide +kernel
  have hfails : failsWith (((Flatten.detector twoProcesses.logTM.detection.detector true).allMachine
      2 (.new twoProcesses.logTM.new)).exec (.new (.new twoProcesses.logTM.new)) nestedRun)
      .assertion = true := by
    decide +kernel
  obtain ⟨t, ht, -⟩ := succeeds_iff.1 hrun
  have herror := failsWith_iff.1 hfails
  refine ⟨t, ht, herror, ?_⟩
  rintro ⟨f, hf, -⟩
  cases herror.symm.trans hf

end Sesc.Trans
