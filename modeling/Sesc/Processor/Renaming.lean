import Sesc.Processor.Accounting

/-!
# The rename table

An entry of the table is the youngest instruction with the register as its destination, until that
instruction executes.  An event does not clear its entry when it executes; the entry is right after that
only when a younger instruction has replaced it.
-/

namespace Sesc.Processor

open Lib

namespace GProcessor

variable (cfg : CoreConfig) (s : GProcessor)

/-- The youngest instruction with a destination, unless it has executed. -/
def youngest (r : RegType) : Option Ptr :=
  (s.inserted.find? fun d => d.dest = r).bind fun d => if d.executed then none else some d.dinst

/-- The rename table has no stale entries. -/
def RATExact : Prop := ∀ r, s.RAT r = s.youngest r

/-- The step does not execute an event that is still in the table. -/
def ClearsRAT : ProcessorEvent → Prop
  | .execute p => (s.inst p).opcode = .iEvent → s.RAT (s.inst p).dest ≠ some p
  | _ => True

instance : ∀ e, Decidable (s.ClearsRAT e)
  | .execute p => inferInstanceAs (Decidable ((s.inst p).opcode = .iEvent → _))
  | .addInst _ _ _ | .retire _ | .storeCompleted _ => inferInstanceAs (Decidable True)

/-- The table is exact, and the instructions that have not executed are in the reorder buffer. -/
structure Renamed : Prop where
  exact : s.RATExact
  nodup : s.ROB.Nodup
  pending : ∀ d ∈ s.inserted, d.executed = false →
    d.dinst ∈ s.ROB ∧ (s.dinst d.dinst).executed = false ∧ (s.inst d.dinst).dest = d.dest

/-- An entry of the table that no execution clears any more. -/
def Stuck (r : RegType) : Prop :=
  (s.RAT r).isSome ∧ ∀ p ∈ s.ROB, (s.inst p).dest = r → (s.dinst p).executed = true

variable {cfg s} {s' : GProcessor} {p : Ptr} {r : RegType} {res : Resource} {inst : Instruction}
  {pendEvent : Bool} {c : Cluster}

lemma youngest_eq_some (h : s.youngest r = some p) :
    ∃ d ∈ s.inserted, d.dest = r ∧ d.executed = false ∧ d.dinst = p := by
  obtain ⟨d, hd, hif⟩ := Option.bind_eq_some_iff.1 h
  have hdest := List.find?_some hd
  split at hif
  · cases hif
  · rename_i hexecuted
    exact ⟨d, List.mem_of_find?_eq_some hd, by simpa using hdest, by simpa using hexecuted,
      Option.some.inj hif⟩

lemma Renamed.of_RAT (hs : s.Renamed) (h : s.RAT r = some p) :
    p ∈ s.ROB ∧ (s.dinst p).executed = false ∧ (s.inst p).dest = r := by
  obtain ⟨d, hd, hdest, hexecuted, rfl⟩ := youngest_eq_some ((hs.exact r).symm.trans h)
  rw [← hdest]
  exact hs.pending d hd hexecuted

/-- Nothing that concerns the table changes. -/
lemma Renamed.of_eq (hs : s.Renamed) (hRAT : s'.RAT = s.RAT) (hinserted : s'.inserted = s.inserted)
    (hROB : s'.ROB = s.ROB) (hdinst : ∀ p, (s'.dinst p).inst = (s.dinst p).inst ∧
      (s'.dinst p).executed = (s.dinst p).executed) : s'.Renamed where
  exact r := by
    rw [hRAT, youngest, hinserted]
    exact hs.exact r
  nodup := hROB ▸ hs.nodup
  pending d hd hexecuted := by
    rw [hinserted] at hd
    rw [hROB, inst, (hdinst _).1, (hdinst _).2]
    exact hs.pending d hd hexecuted

lemma Renamed.insert (hs : s.Renamed) (hp : p ∉ s.ROB) :
    ((s.issued c res).insert p inst pendEvent).Renamed where
  exact r := by
    show Function.update s.RAT inst.dest (some p) r =
      ((⟨p, inst.dest, false⟩ :: s.inserted).find? fun d => d.dest = r).bind _
    rw [List.find?_cons]
    by_cases hr : inst.dest = r
    · subst hr
      simp only [Function.update_self, decide_true, Option.bind_some, Bool.false_eq_true, if_false]
    · rw [Function.update_of_ne fun h => hr h.symm]
      simp only [hr, decide_false]
      exact hs.exact r
  nodup := List.nodup_append.2 ⟨hs.nodup, List.nodup_singleton p, by
    rintro x hx y hy rfl
    exact hp (List.mem_singleton.1 hy ▸ hx)⟩
  pending d hd hexecuted := by
    show d.dinst ∈ s.ROB ++ [p] ∧ (Function.update s.dinst p _ d.dinst).executed = false ∧
      (Function.update s.dinst p _ d.dinst).inst.dest = d.dest
    rcases List.mem_cons.1 hd with rfl | hd
    · simp only [Function.update_self]
      exact ⟨List.mem_append_right _ (List.mem_singleton_self _), trivial, trivial⟩
    · obtain ⟨hmem, hfalse, hdest⟩ := hs.pending d hd hexecuted
      have hne : d.dinst ≠ p := fun heq => hp (heq ▸ hmem)
      rw [Function.update_of_ne hne]
      exact ⟨List.mem_append_left _ hmem, hfalse, hdest⟩

/-- Marking an instruction as executed takes it out of the table. -/
lemma youngest_done : (s.done cfg p res).youngest r =
    (s.youngest r).filter fun q => q ≠ p := by
  have hfind : ((s.markExecuted p).find? fun d => d.dest = r) =
      (s.inserted.find? fun d => d.dest = r).map fun d =>
        if d.dinst = p ∧ d.executed = false then { d with executed := true } else d := by
    rw [markExecuted, List.find?_map]
    refine congrArg (Option.map _) (congrArg (fun q => s.inserted.find? q) (funext fun d => ?_))
    rw [Function.comp]
    split <;> rfl
  show ((s.markExecuted p).find? fun d => d.dest = r).bind _ = _
  rw [hfind, youngest]
  cases s.inserted.find? fun d => d.dest = r with
  | none => rfl
  | some d =>
    rw [Option.map_some, Option.bind_some, Option.bind_some]
    cases hexecuted : d.executed
    · by_cases hd : d.dinst = p
      · simp [hd, Option.filter]
      · simp [hd, hexecuted, Option.filter]
    · simp [hexecuted]

lemma RAT_clearRAT : (s.clearRAT p).RAT r =
    if r = (s.inst p).dest then (s.RAT r).filter fun q => q ≠ p else s.RAT r := by
  rw [clearRAT]
  by_cases hRAT : s.RAT (s.inst p).dest = some p
  · rw [if_pos hRAT]
    show Function.update s.RAT (s.inst p).dest none r = _
    by_cases hr : r = (s.inst p).dest
    · subst hr
      rw [Function.update_self, if_pos rfl, hRAT]
      simp [Option.filter]
    · rw [Function.update_of_ne hr, if_neg hr]
  · rw [if_neg hRAT]
    split
    · rename_i hr
      subst hr
      cases hq : s.RAT (s.inst p).dest with
      | none => rfl
      | some q =>
        have hne : q ≠ p := fun heq => hRAT (heq ▸ hq)
        simp [Option.filter, hne]
    · rfl

lemma RAT_done : (s.done cfg p res).RAT r =
    if res ≠ .FUEvent ∧ r = (s.inst p).dest then (s.RAT r).filter fun q => q ≠ p else s.RAT r := by
  show (if res = .FUEvent then s.RAT else (s.clearRAT p).RAT) r = _
  by_cases hevent : res = .FUEvent
  · rw [if_pos hevent, if_neg fun h => h.1 hevent]
  · rw [if_neg hevent, RAT_clearRAT]
    simp only [ne_eq, hevent, not_false_eq_true, true_and]

lemma Renamed.done (hs : s.Renamed) (hres : (s.inst p).opcode.resource = some res)
    (hclears : s.ClearsRAT (.execute p)) : (s.done cfg p res).Renamed where
  exact r := by
    rw [RAT_done, youngest_done, hs.exact r]
    split
    · rfl
    · rename_i hnot
      cases hq : s.youngest r with
      | none => rfl
      | some q =>
        have hRAT := (hs.exact r).trans hq
        have hne : q ≠ p := by
          rintro rfl
          have hdest := (hs.of_RAT hRAT).2.2
          -- an event that is in the table does not execute
          have hevent : res = .FUEvent := by
            by_contra hne
            exact hnot ⟨hne, hdest.symm⟩
          refine hclears ((resource_eq_iff hres).2.2.2.1.1 hevent) ?_
          rw [hdest]
          exact hRAT
        simp [Option.filter, hne]
  nodup := hs.nodup
  pending d hd hexecuted := by
    obtain ⟨d', hd', heq⟩ := List.mem_map.1 hd
    split at heq
    · rw [← heq] at hexecuted
      cases hexecuted
    · rename_i hnot
      subst heq
      have hne : d'.dinst ≠ p := fun heq => hnot ⟨heq, hexecuted⟩
      show d'.dinst ∈ s.ROB ∧ (Function.update s.dinst p _ d'.dinst).executed = false ∧
        (Function.update s.dinst p _ d'.dinst).inst.dest = d'.dest
      rw [Function.update_of_ne hne]
      exact hs.pending d' hd' hexecuted

lemma Renamed.retires (hs : s.Renamed) (h : Retires cfg s p res s')
    (hexecuted : (s.dinst p).executed = true) : s'.Renamed where
  exact r := by
    rw [h.RAT, youngest, h.inserted]
    exact hs.exact r
  nodup := by
    have hnodup := hs.nodup
    rw [h.ROB] at hnodup
    exact hnodup.of_cons
  pending d hd hpending := by
    rw [h.inserted] at hd
    obtain ⟨hmem, hfalse, hdest⟩ := hs.pending d hd hpending
    have hne : d.dinst ≠ p := by
      intro heq
      rw [heq, hexecuted] at hfalse
      cases hfalse
    rw [h.ROB, List.mem_cons] at hmem
    rw [inst, h.dinst _ hne]
    exact ⟨hmem.resolve_left hne, hfalse, hdest⟩

lemma Renamed.act {e : ProcessorEvent} (hs : s.Renamed) (hclears : s.ClearsRAT e)
    (h : s.act cfg e = .ok s') : s'.Renamed := by
  cases e with
  | addInst p inst pendEvent =>
    obtain ⟨hROB, -, ⟨rfl, -⟩ | ⟨res, hres, hstalls, rfl⟩⟩ := act_addInst h
    · exact hs
    · exact hs.insert hROB
  | execute p =>
    obtain ⟨hmem, hexecuted, res, hres, rfl⟩ := act_execute h
    exact hs.done hres hclears
  | retire m =>
    obtain ⟨outcome, hretire⟩ := act_retire h
    obtain ⟨p, rest, hROB, ⟨-, rfl⟩ | ⟨-, rfl, -⟩ | ⟨rfl, hexecuted, res, hres, hretires⟩⟩ :=
      retire_spec hretire
    · exact hs
    · exact hs.of_eq rfl rfl rfl dinst_tryStore
    · exact hs.retires hretires hexecuted
  | storeCompleted p =>
    obtain ⟨-, t, ht, rfl⟩ := act_storeCompleted h
    have hsame := sameCore_storeCompleted ht
    refine hs.of_eq hsame.RAT hsame.inserted hsame.ROB fun x => ?_
    show (t.dinst x).inst = _ ∧ (t.dinst x).executed = _
    rw [hsame.dinst]
    exact ⟨rfl, rfl⟩

/-- An event that executes while it is in the table leaves a stale entry. -/
lemma Renamed.not_exact {e : ProcessorEvent} (hs : s.Renamed) (hclears : ¬s.ClearsRAT e)
    (h : s.act cfg e = .ok s') : ¬s'.RATExact := by
  intro hs'
  cases e with
  | addInst p inst pendEvent => exact hclears trivial
  | execute p =>
    rw [ClearsRAT] at hclears
    push Not at hclears
    obtain ⟨hevent, hRAT⟩ := hclears
    obtain ⟨hmem, hexecuted, res, hres, rfl⟩ := act_execute h
    have hres' : res = .FUEvent := (resource_eq_iff hres).2.2.2.1.2 hevent
    have heq := hs' (s.inst p).dest
    rw [RAT_done, if_neg fun h => h.1 hres', youngest_done, ← hs.exact, hRAT] at heq
    simp [Option.filter] at heq
  | retire m => exact hclears trivial
  | storeCompleted p => exact hclears trivial

/-! ### Stale entries -/

/-- The instructions with the destination `r` have executed, and no instruction with it is added. -/
lemma Stuck.act {e : ProcessorEvent} (hs : s.Stuck r) (hinorder : cfg.InOrderCore = true)
    (h : s.act cfg e = .ok s') : s'.Stuck r := by
  obtain ⟨hRAT, hROB⟩ := hs
  cases e with
  | addInst p inst pendEvent =>
    obtain ⟨hp, -, ⟨rfl, -⟩ | ⟨res, hres, hstalls, rfl⟩⟩ := act_addInst h
    · exact ⟨hRAT, hROB⟩
    · -- the core waits for the destination
      have hne : r ≠ inst.dest := by
        rintro rfl
        refine hstalls (.inl ?_)
        rw [waitsForRAT, hinorder, hRAT, Bool.or_true]
        rfl
      constructor
      · show (Function.update s.RAT inst.dest (some p) r).isSome
        rw [Function.update_of_ne hne]
        exact hRAT
      · intro x hx hdest
        rcases List.mem_append.1 hx with hx | hx
        · have hxp : x ≠ p := fun heq => hp (heq ▸ hx)
          have hsame : ((s.issued (cfg.clusterOf inst.opcode) res).insert p inst pendEvent).dinst x =
              s.dinst x := Function.update_of_ne hxp _ _
          rw [hsame]
          rw [GProcessor.inst, hsame] at hdest
          exact hROB x hx hdest
        · cases List.mem_singleton.1 hx
          have hself : ((s.issued (cfg.clusterOf inst.opcode) res).insert p inst pendEvent).dinst p =
              ⟨inst, pendEvent, false, 0, 0⟩ := Function.update_self _ _ _
          rw [GProcessor.inst, hself] at hdest
          exact absurd hdest.symm hne
  | execute p =>
    obtain ⟨hmem, hexecuted, res, hres, rfl⟩ := act_execute h
    have hne : r ≠ (s.inst p).dest := by
      rintro rfl
      have htrue := hROB p hmem rfl
      rw [hexecuted] at htrue
      cases htrue
    constructor
    · rw [RAT_done, if_neg fun h => hne h.2]
      exact hRAT
    · intro x hx hdest
      show (Function.update s.dinst p _ x).executed = true
      by_cases hxp : x = p
      · subst hxp
        rw [Function.update_self]
      · rw [Function.update_of_ne hxp]
        refine hROB x hx ?_
        have hsame : (s.done cfg p res).dinst x = s.dinst x := Function.update_of_ne hxp _ _
        rw [inst, hsame] at hdest
        exact hdest
  | retire m =>
    obtain ⟨outcome, hretire⟩ := act_retire h
    obtain ⟨p, rest, -, ⟨-, rfl⟩ | ⟨-, rfl, -⟩ | ⟨-, hexecuted, res, hres, hretires⟩⟩ :=
      retire_spec hretire
    · exact ⟨hRAT, hROB⟩
    · refine ⟨hRAT, fun x hx hdest => ?_⟩
      rw [(dinst_tryStore x).2]
      rw [inst, (dinst_tryStore x).1] at hdest
      exact hROB x hx hdest
    · refine ⟨hretires.RAT ▸ hRAT, fun x hx hdest => ?_⟩
      rw [(hretires.kept x).2]
      rw [inst, (hretires.kept x).1] at hdest
      exact hROB x (hretires.ROB ▸ List.mem_cons_of_mem _ hx) hdest
  | storeCompleted p =>
    obtain ⟨-, t, ht, rfl⟩ := act_storeCompleted h
    have hsame := sameCore_storeCompleted ht
    refine ⟨hsame.RAT ▸ hRAT, fun x hx hdest => ?_⟩
    have hdinst : t.dinst x = s.dinst x := congrFun hsame.dinst x
    show (t.dinst x).executed = true
    rw [hdinst]
    refine hROB x (hsame.ROB ▸ hx) ?_
    have hdest' : (t.dinst x).inst.dest = r := hdest
    rwa [hdinst] at hdest'

/-- In an in-order core, a stale entry keeps all instructions with its destination back for ever. -/
lemma Stuck.exec {es : List ProcessorEvent} (hs : s.Stuck r) (hinorder : cfg.InOrderCore = true)
    (h : (processor cfg).exec s es = .ok s') (hdest : inst.dest = r) :
    s'.waitsForRAT cfg inst = true := by
  induction es generalizing s with
  | nil =>
    cases h
    rw [waitsForRAT, hinorder, hdest, hs.1, Bool.or_true]
    rfl
  | cons e es ih =>
    obtain ⟨t, ht, h⟩ := Machine.exec_cons.1 h
    exact ih (hs.act hinorder ht) h

end GProcessor

open GProcessor

/-- All along a run, the rename table is exact if and only if no step executes an event that is still in
the table.  Then it is empty when all instructions have executed, its entries are in the reorder buffer,
and an in-order core waits for it only while some instruction has not executed. -/
theorem ratExact_iff (cfg : CoreConfig) (es : List ProcessorEvent) (s : GProcessor)
    (hrun : (processor cfg).Run es s) :
    ((∀ es' s', es' <+: es → (processor cfg).Run es' s' → s'.RATExact) ↔
      (processor cfg).RunWhere ClearsRAT es s) ∧
    ((processor cfg).RunWhere ClearsRAT es s →
      ((∀ d ∈ s.inserted, d.executed = true) → ∀ r, s.RAT r = none) ∧
      (∀ r p, s.RAT r = some p →
        p ∈ s.ROB ∧ (s.dinst p).executed = false ∧ (s.inst p).dest = r) ∧
      ∀ inst, s.waitsForRAT cfg inst = true → ∃ p ∈ s.ROB, (s.dinst p).executed = false) := by
  have hinit : (processor cfg).init.Renamed :=
    ⟨fun _ => rfl, List.nodup_nil, fun d hd => absurd hd List.not_mem_nil⟩
  have hgood : ∀ s e s', s.Renamed → s.ClearsRAT e → (processor cfg).step s e = .ok s' →
      s'.Renamed := fun s e s' hs hclears hstep => hs.act hclears hstep
  refine ⟨hrun.always_iff_runWhere hinit (fun s hs => hs.exact) hgood
    fun s e s' hs hclears hstep => hs.not_exact hclears hstep, fun hwhere => ?_⟩
  have hs := hwhere.invariant hinit hgood
  refine ⟨fun hall r => ?_, fun r p => hs.of_RAT, fun inst hwait => ?_⟩
  · rw [hs.exact r]
    by_contra hsome
    obtain ⟨p, hp⟩ := Option.ne_none_iff_exists'.1 hsome
    obtain ⟨d, hd, -, hfalse, -⟩ := youngest_eq_some hp
    rw [hall d hd] at hfalse
    cases hfalse
  · have hsome : ∃ r, (s.RAT r).isSome := by
      rw [waitsForRAT, Bool.and_eq_true, Bool.or_eq_true, Bool.or_eq_true] at hwait
      rcases hwait.2 with (h | h) | h
      · exact ⟨_, h⟩
      · exact ⟨_, h⟩
      · exact ⟨_, h⟩
    obtain ⟨r, hr⟩ := hsome
    obtain ⟨p, hp⟩ := Option.isSome_iff_exists.1 hr
    obtain ⟨hmem, hexecuted, -⟩ := hs.of_RAT hp
    exact ⟨p, hmem, hexecuted⟩

/-- An event that a younger branch has replaced in the table. -/
def eventReplaced : List ProcessorEvent :=
  [.addInst 0 postEvent true, .addInst 1 branch false, .execute 0, .addInst 2 addition false,
    .execute 1, .retire ready]

/-- The table is exact after each step of it, and has the addition in the end. -/
theorem ratExact_iff_eventReplaced : ∃ s,
    (processor (oneCluster false true)).Run eventReplaced s ∧ s.RAT 6 = some 2 ∧
      s.RAT InvalidOutput = none ∧ s.RATExact := by
  have hrun : succeeds (((processor (oneCluster false true)).guarded (fun s e =>
      decide (s.ClearsRAT e)) .noSuchEvent).exec (processor (oneCluster false true)).init
        eventReplaced)
      (fun s => decide (s.RAT 6 = some 2 ∧ s.RAT InvalidOutput = none)) = true := by
    decide +kernel
  obtain ⟨s, hs, htest⟩ := succeeds_iff.1 hrun
  obtain ⟨hsix, hinvalid⟩ := of_decide_eq_true htest
  have hwhere := (Machine.run_of_exec hs).of_guarded.mono (D := ClearsRAT) fun _ _ =>
    of_decide_eq_true
  exact ⟨s, hwhere.run, hsix, hinvalid,
    (ratExact_iff (oneCluster false true) eventReplaced s hwhere.run).1.2 hwhere eventReplaced s
      (List.prefix_refl _) hwhere.run⟩

/-- A fence and an event, which gives back the entry that the fence has kept. -/
def fenceAndEvent : List ProcessorEvent :=
  [.addInst 0 memFence false, .execute 0, .retire ready, .addInst 1 postEvent true, .execute 1,
    .retire ready]

/-- After an in-order core has executed and retired an event, the table has a stale entry, though the
reorder buffer is empty; whatever happens then, no instruction without a result is issued any more. -/
theorem not_ratExact : ∃ s, (processor (oneCluster true true)).Run fenceAndEvent s ∧ s.ROB = [] ∧
    (∀ d ∈ s.inserted, d.executed = true) ∧ s.RAT InvalidOutput = some 1 ∧ ¬s.RATExact ∧
    ∀ es' s', (processor (oneCluster true true)).exec s es' = .ok s' →
      ∀ inst, inst.dest = InvalidOutput → s'.waitsForRAT (oneCluster true true) inst = true := by
  have hrun : succeeds ((processor (oneCluster true true)).exec
      (processor (oneCluster true true)).init fenceAndEvent)
      (fun s => decide (s.ROB = [] ∧ (∀ d ∈ s.inserted, d.executed = true) ∧
        s.RAT InvalidOutput = some 1 ∧ s.youngest InvalidOutput = none)) = true := by
    decide +kernel
  obtain ⟨s, hs, htest⟩ := succeeds_iff.1 hrun
  obtain ⟨hROB, hexecuted, hRAT, hyoungest⟩ := of_decide_eq_true htest
  refine ⟨s, Machine.run_of_exec hs, hROB, hexecuted, hRAT, fun h => ?_, fun es' s' hexec inst => ?_⟩
  · have heq := h InvalidOutput
    rw [hRAT, hyoungest] at heq
    cases heq
  · have hstuck : s.Stuck InvalidOutput := by
      refine ⟨by rw [hRAT]; rfl, fun p hp => ?_⟩
      rw [hROB] at hp
      exact absurd hp List.not_mem_nil
    exact hstuck.exec rfl hexec

end Sesc.Processor
