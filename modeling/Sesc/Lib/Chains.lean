import Mathlib.Data.List.Nodup
import Mathlib.Data.List.Perm.Subperm
import Mathlib.Logic.Function.Basic
import Mathlib.Logic.Relation
import Mathlib.Tactic.Common

/-!
# Chains of dependencies

Every element depends on at most one other element.  A dependency is added safely when the
chain that starts at its target does not come back; the loop that follows the chain to find
this out remembers the elements it has visited, so that it stops also on a cycle.
-/

namespace Sesc.Lib

open Relation

variable {α : Type*}

/-- The element `a` depends on `b`. -/
def ChainStep (dep : α → Option α) (a b : α) : Prop := dep a = some b

/-- No element depends, directly or through others, on itself. -/
def Acyclic (dep : α → Option α) : Prop := ∀ a, ¬TransGen (ChainStep dep) a a

variable {dep dep' : α → Option α} {a b p q : α}

/-! ## Removing dependencies -/

lemma Acyclic.mono (h : Acyclic dep) (hsub : ∀ a b, dep' a = some b → dep a = some b) :
    Acyclic dep' :=
  fun a ha => h a (TransGen.mono hsub a a ha)

/-- A path in the new dependencies whose end depends on something does not use the dependency
on an element that depends on nothing. -/
lemma transGen_of_sink (hsub : ∀ a b, dep' a = some b → dep a = some b ∨ b = q)
    (hq : dep' q = none) (h : TransGen (ChainStep dep') a b) (hb : dep' b ≠ none) :
    TransGen (ChainStep dep) a b := by
  induction h with
  | @single c hac =>
    rcases hsub a c hac with hold | rfl
    · exact .single hold
    · exact absurd hq hb
  | @tail c d _ hcd ih =>
    have hc : dep' c ≠ none := by
      rw [show dep' c = some d from hcd]
      simp
    rcases hsub c d hcd with hold | rfl
    · exact (ih hc).tail hold
    · exact absurd hq hb

/-- Dependencies on an element that depends on nothing close no cycle. -/
lemma Acyclic.of_sink (h : Acyclic dep) (hsub : ∀ a b, dep' a = some b → dep a = some b ∨ b = q)
    (hq : dep' q = none) : Acyclic dep' := by
  intro a ha
  have hne : dep' a ≠ none := by
    obtain ⟨c, hac, -⟩ := TransGen.head'_iff.1 ha
    rw [show dep' a = some c from hac]
    simp
  exact h a (transGen_of_sink hsub hq ha hne)

/-! ## Adding a dependency -/

section Update

variable [DecidableEq α] {v : Option α}

/-- Whether an element is reached does not depend on what it depends on. -/
lemma reflTransGen_update :
    ReflTransGen (ChainStep (Function.update dep p v)) a p ↔ ReflTransGen (ChainStep dep) a p := by
  constructor
  · intro h
    induction h using ReflTransGen.head_induction_on with
    | refl => exact .refl
    | @head c d hcd _ ih =>
      by_cases hc : c = p
      · rw [hc]
      · have hold : dep c = some d := by
          rw [← Function.update_of_ne hc v dep]
          exact hcd
        exact .head hold ih
  · intro h
    induction h using ReflTransGen.head_induction_on with
    | refl => exact .refl
    | @head c d hcd _ ih =>
      by_cases hc : c = p
      · rw [hc]
      · refine .head ?_ ih
        show Function.update dep p v c = some d
        rw [Function.update_of_ne hc]
        exact hcd

/-- A path after an update is an old one or goes through the updated element. -/
lemma transGen_update (h : TransGen (ChainStep (Function.update dep p v)) a b) :
    TransGen (ChainStep dep) a b ∨ ReflTransGen (ChainStep (Function.update dep p v)) a p ∧
      TransGen (ChainStep (Function.update dep p v)) p b := by
  induction h with
  | @single c hac =>
    by_cases ha : a = p
    · subst ha
      exact .inr ⟨.refl, .single hac⟩
    · left
      refine .single ?_
      show dep a = some c
      rw [← Function.update_of_ne ha v dep]
      exact hac
  | @tail c d hac hcd ih =>
    by_cases hc : c = p
    · subst hc
      exact .inr ⟨hac.to_reflTransGen, .single hcd⟩
    · rcases ih with hold | ⟨hap, hpc⟩
      · left
        refine hold.tail ?_
        show dep c = some d
        rw [← Function.update_of_ne hc v dep]
        exact hcd
      · exact .inr ⟨hap, hpc.tail hcd⟩

/-- A cycle after an update goes through the updated element. -/
lemma Acyclic.reflTransGen_of_cycle (h : Acyclic dep)
    (ha : TransGen (ChainStep (Function.update dep p v)) a a) :
    ReflTransGen (ChainStep dep) a p := by
  rcases transGen_update ha with hold | ⟨hap, -⟩
  · exact absurd hold (h a)
  · exact reflTransGen_update.1 hap

/-- A dependency on an element from which no chain comes back closes no cycle. -/
lemma Acyclic.update (h : Acyclic dep) (hq : ¬ReflTransGen (ChainStep dep) q p) :
    Acyclic (Function.update dep p (some q)) := by
  intro a ha
  have hp : TransGen (ChainStep (Function.update dep p (some q))) p p := by
    rcases transGen_update ha with hold | ⟨hap, hpa⟩
    · exact absurd hold (h a)
    · exact hpa.trans_left hap
  obtain ⟨c, hpc, hcp⟩ := TransGen.head'_iff.1 hp
  have hc : q = c := by
    have hpc' : Function.update dep p (some q) p = some c := hpc
    rw [Function.update_self] at hpc'
    exact Option.some.inj hpc'
  subst hc
  exact hq (reflTransGen_update.1 hcp)

end Update

/-! ## Following a chain -/

variable [DecidableEq α]

/-- The loop that follows a chain until it ends or comes to an element visited before, for a
number of rounds. -/
def comesBack (dep : α → Option α) : ℕ → List α → Option α → Option Bool
  | _, _, none => some false
  | 0, _, some _ => none
  | n + 1, visited, some a =>
    if a ∈ visited then some true else comesBack dep n (a :: visited) (dep a)

variable {n : ℕ} {visited : List α}

/-- A chain that ends has not come to an element visited before. -/
lemma not_reaches_of_comesBack (h : comesBack dep n visited (some a) = some false) :
    ∀ v ∈ visited, ¬ReflTransGen (ChainStep dep) a v := by
  induction n generalizing visited a with
  | zero => cases h
  | succ n ih =>
    rw [comesBack] at h
    split at h
    · cases h
    · rename_i ha
      intro v hv hav
      rcases ReflTransGen.cases_head hav with rfl | ⟨c, hac, hcv⟩
      · exact ha hv
      · rw [show dep a = some c from hac] at h
        exact ih h v (.tail _ hv) hcv

/-- A chain that comes back has come to an element visited before, or to a cycle. -/
lemma reaches_of_comesBack (h : comesBack dep n visited (some a) = some true) :
    (∃ v ∈ visited, ReflTransGen (ChainStep dep) a v) ∨
      ∃ x, ReflTransGen (ChainStep dep) a x ∧ TransGen (ChainStep dep) x x := by
  induction n generalizing visited a with
  | zero => cases h
  | succ n ih =>
    rw [comesBack] at h
    split at h
    · rename_i ha
      exact .inl ⟨a, ha, .refl⟩
    · rcases hdep : dep a with _ | c
      · rw [hdep, comesBack] at h
        cases h
      · rw [hdep] at h
        have hac : ChainStep dep a c := hdep
        rcases ih h with ⟨v, hv, hcv⟩ | ⟨x, hcx, hx⟩
        · rcases List.mem_cons.1 hv with rfl | hv
          · exact .inr ⟨v, .refl, .head' hac hcv⟩
          · exact .inl ⟨v, hv, .head hac hcv⟩
        · exact .inr ⟨x, .head hac hcx, hx⟩

/-- Over finitely many elements the loop ends. -/
lemma comesBack_ne_none {l : List α} (hdep : ∀ a b, dep a = some b → b ∈ l)
    {start : Option α} (hstart : ∀ a, start = some a → a ∈ l) (hvisited : visited.Nodup)
    (hsub : visited ⊆ l) (hn : l.length < n + visited.length) :
    comesBack dep n visited start ≠ none := by
  induction n generalizing visited start with
  | zero =>
    have := (List.subperm_of_subset hvisited hsub).length_le
    omega
  | succ n ih =>
    rcases start with _ | a
    · rw [comesBack]
      simp
    · rw [comesBack]
      split
      · simp
      · rename_i ha
        refine ih (hdep a) (List.nodup_cons.2 ⟨ha, hvisited⟩) ?_ ?_
        · exact List.cons_subset.2 ⟨hstart a rfl, hsub⟩
        · rw [List.length_cons]
          omega

/-- For a new dependency of `p` on `q`, the loop finds out whether it closes a cycle. -/
lemma Acyclic.comesBack_iff (h : Acyclic dep) {back : Bool}
    (hback : comesBack (Function.update dep p (some q)) n [p] (some q) = some back) :
    back = true ↔ ReflTransGen (ChainStep dep) q p := by
  cases back with
  | false =>
    have hnot := not_reaches_of_comesBack hback p (.head _)
    rw [reflTransGen_update] at hnot
    exact iff_of_false Bool.false_ne_true hnot
  | true =>
    refine iff_of_true rfl ?_
    rcases reaches_of_comesBack hback with ⟨v, hv, hqv⟩ | ⟨x, hqx, hx⟩
    · rw [List.mem_singleton.1 hv] at hqv
      exact reflTransGen_update.1 hqv
    · have hxp := h.reflTransGen_of_cycle hx
      exact reflTransGen_update.1 (hqx.trans (reflTransGen_update.2 hxp))

end Sesc.Lib
