import Mathlib.Tactic.Common

/-!
# Machines driven by events

A machine has an initial state and a step function that, in a given state,
either performs an event or refuses it with a fault.  The runs of a machine may
be restricted to the steps that meet a condition on the state before the step
and its event; an invariant that is preserved by those steps holds at the end of
every such run.
-/

namespace Sesc.Lib

/-- A machine with states `σ`, driven by the events `ε`. -/
structure Machine (σ ε φ : Type*) where
  /-- The initial state. -/
  init : σ
  /-- The step function. -/
  step : σ → ε → Except φ σ

namespace Machine

variable {σ ε φ : Type*} (M : Machine σ ε φ)

/-- The runs of a machine all of whose steps meet the condition `C`, with the list of
their events in order. -/
inductive RunWhere (C : σ → ε → Prop) : List ε → σ → Prop
  | nil : RunWhere C [] M.init
  | snoc {es : List ε} {s s' : σ} (e : ε) : RunWhere C es s → C s e → M.step s e = .ok s' →
      RunWhere C (es ++ [e]) s'

/-- The runs of a machine. -/
def Run : List ε → σ → Prop := M.RunWhere fun _ _ => True

/-- The states that some run reaches. -/
def Reachable (s : σ) : Prop := ∃ es, M.Run es s

variable {M} {C D : σ → ε → Prop} {I : σ → Prop} {es : List ε} {s : σ}

lemma RunWhere.mono (h : M.RunWhere C es s) (hCD : ∀ s e, C s e → D s e) :
    M.RunWhere D es s := by
  induction h with
  | nil => exact .nil
  | snoc e _ hC hstep ih => exact .snoc e ih (hCD _ _ hC) hstep

lemma RunWhere.run (h : M.RunWhere C es s) : M.Run es s :=
  h.mono fun _ _ _ => trivial

/-- It is enough that the new condition follows for steps from reachable states. -/
lemma RunWhere.mono_of_run (h : M.RunWhere C es s)
    (hCD : ∀ es s e s', M.Run es s → M.step s e = .ok s' → C s e → D s e) :
    M.RunWhere D es s := by
  induction h with
  | nil => exact .nil
  | snoc e hrun hC hstep ih => exact .snoc e ih (hCD _ _ e _ hrun.run hstep hC) hstep

/-- An invariant preserved by the steps that meet the condition holds at the end of every
run of such steps. -/
theorem RunWhere.invariant (h : M.RunWhere C es s) (h0 : I M.init)
    (hstep : ∀ s e s', I s → C s e → M.step s e = .ok s' → I s') : I s := by
  induction h with
  | nil => exact h0
  | snoc e _ hC hs ih => exact hstep _ e _ ih hC hs

theorem Reachable.invariant (h : M.Reachable s) (h0 : I M.init)
    (hstep : ∀ s e s', I s → M.step s e = .ok s' → I s') : I s := by
  obtain ⟨es, hes⟩ := h
  exact RunWhere.invariant hes h0 fun s e s' hI _ hs => hstep s e s' hI hs

/-- An invariant that may use that the states before the steps are reachable. -/
theorem Reachable.induction (h : M.Reachable s) (h0 : I M.init)
    (hstep : ∀ s e s', M.Reachable s → I s → M.step s e = .ok s' → I s') : I s := by
  obtain ⟨es, hes⟩ := h
  induction hes with
  | nil => exact h0
  | snoc e hrun _ hs ih => exact hstep _ e _ ⟨_, hrun⟩ ih hs

/-- A property that a step keeps exactly when it meets the condition holds at the end of a run
if and only if all steps of the run meet the condition. -/
theorem Run.iff_runWhere {P : σ → Prop} (h : M.Run es s) (h0 : P M.init)
    (hstep : ∀ es s e s', M.Run es s → M.step s e = .ok s' → (P s' ↔ P s ∧ C s e)) :
    P s ↔ M.RunWhere C es s := by
  constructor
  · intro hs
    induction h with
    | nil => exact .nil
    | snoc e hrun _ hs' ih =>
      obtain ⟨hP, hC⟩ := (hstep _ _ e _ hrun hs').1 hs
      exact .snoc e (ih hP) hC hs'
  · intro hwhere
    clear h
    induction hwhere with
    | nil => exact h0
    | snoc e hrun hC hs' ih => exact (hstep _ _ e _ hrun.run hs').2 ⟨ih, hC⟩

/-- A list of events leads to one state. -/
lemma RunWhere.eq {es' : List ε} {s' : σ} (h : M.RunWhere C es s) (h' : M.RunWhere D es' s')
    (hes : es = es') : s = s' := by
  induction h generalizing es' s' with
  | nil =>
    cases h' with
    | nil => rfl
    | snoc => exact absurd hes.symm (by simp)
  | snoc e _ _ hstep ih =>
    cases h' with
    | nil => exact absurd hes (by simp)
    | snoc e' hrun' _ hstep' =>
      obtain ⟨hinit, he⟩ := List.append_inj' hes rfl
      cases he
      cases ih hrun' hinit
      exact Except.ok.inj (hstep.symm.trans hstep')

/-- The beginning of a run is a run. -/
lemma RunWhere.of_prefix {es' : List ε} (h : M.RunWhere C es s) (hes : es' <+: es) :
    ∃ s', M.RunWhere C es' s' := by
  induction h with
  | nil =>
    cases List.prefix_nil.1 hes
    exact ⟨_, .nil⟩
  | snoc e hrun hC hstep ih =>
    rcases List.prefix_concat_iff.1 hes with rfl | hes
    · exact ⟨_, hrun.snoc e hC hstep⟩
    · exact ih hes

/-- A property that the invariant has, and that a step loses exactly when it fails the condition,
holds all along a run if and only if all steps of the run meet the condition. -/
theorem Run.always_iff_runWhere {P : σ → Prop} (h : M.Run es s) (h0 : I M.init)
    (hP : ∀ s, I s → P s)
    (hgood : ∀ s e s', I s → C s e → M.step s e = .ok s' → I s')
    (hbad : ∀ s e s', I s → ¬C s e → M.step s e = .ok s' → ¬P s') :
    (∀ es' s', es' <+: es → M.Run es' s' → P s') ↔ M.RunWhere C es s := by
  constructor
  · intro hall
    induction h with
    | nil => exact .nil
    | snoc e hrun _ hstep ih =>
      have hwhere := ih fun es' s' hes => hall es' s' (hes.trans (List.prefix_append _ _))
      refine hwhere.snoc e ?_ hstep
      by_contra hC
      exact hbad _ e _ (hwhere.invariant h0 hgood) hC hstep
        (hall _ _ (List.prefix_refl _) (hrun.snoc e trivial hstep))
  · intro hwhere es' s' hes hrun
    obtain ⟨s'', hs''⟩ := hwhere.of_prefix hes
    cases hs''.eq hrun rfl
    exact hP _ (hs''.invariant h0 hgood)

/-- Performing a list of events in order. -/
def exec (M : Machine σ ε φ) : σ → List ε → Except φ σ
  | s, [] => .ok s
  | s, e :: es => match M.step s e with
    | .ok s' => exec M s' es
    | .error f => .error f

lemma exec_cons {s' : σ} {e : ε} :
    M.exec s (e :: es) = .ok s' ↔ ∃ s₁, M.step s e = .ok s₁ ∧ M.exec s₁ es = .ok s' := by
  rw [exec]
  split
  · rename_i s₁ hs₁
    constructor
    · exact fun h => ⟨s₁, hs₁, h⟩
    · rintro ⟨s₂, hs₂, h⟩
      cases hs₁.symm.trans hs₂
      exact h
  · rename_i f hf
    constructor
    · intro h
      cases h
    · rintro ⟨s₁, hs₁, -⟩
      cases hf.symm.trans hs₁

lemma RunWhere.append_exec {es' : List ε} {s' : σ} (h : M.Run es s)
    (hex : M.exec s es' = .ok s') : M.Run (es ++ es') s' := by
  induction es' generalizing es s with
  | nil =>
    cases hex
    simpa using h
  | cons e es' ih =>
    rw [exec] at hex
    split at hex
    · rename_i t ht
      have := ih (RunWhere.snoc e h trivial ht) hex
      simpa using this
    · cases hex

/-- An execution from the initial state is a run. -/
lemma run_of_exec (h : M.exec M.init es = .ok s) : M.Run es s := by
  simpa using RunWhere.append_exec (M := M) (.nil) h

/-! ### Testing the condition of a run -/

/-- The machine that refuses, with the given fault, the events that fail a test. -/
def guarded (M : Machine σ ε φ) (p : σ → ε → Bool) (f : φ) : Machine σ ε φ where
  init := M.init
  step s e := if p s e then M.step s e else .error f

/-- The runs of a guarded machine are runs all of whose steps pass the test. -/
lemma Run.of_guarded {p : σ → ε → Bool} {f : φ} (h : (M.guarded p f).Run es s) :
    M.RunWhere (fun s e => p s e = true) es s := by
  induction h with
  | nil => exact .nil
  | @snoc es s s' e _ _ hstep ih =>
    have hguard : (if p s e then M.step s e else .error f) = .ok s' := hstep
    split at hguard
    · rename_i hp
      exact .snoc e ih hp hguard
    · cases hguard

end Machine

end Sesc.Lib
