import Mathlib.Data.List.Nodup
import Mathlib.Data.List.TakeDrop
import Sesc.Core.RunningProcs

/-!
# Which cores an iteration covers

The core after one that is removed moves to the index that the loop has just left, and `startProc`
becomes 0, so that the second loop ends.  An iteration advances every core that has work if no removal
makes it pass over one of them.
-/

namespace Sesc.Core

open Lib

namespace RunningProcs

variable (r : RunningProcs) (core : GProcessor)

/-- All cores of the list that have work have advanced their clocks once. -/
def AdvancesAll (s : Tick) : Prop :=
  ∀ core ∈ r.workingList, r.hasWork core = true → s.advanced core = 1

/-- A removal removes no core but the given one. -/
def RemovesOnly : Prop :=
  ∀ r', r.workingListRemove core = .ok r' → ∀ x ∈ r.workingList, x ≠ core → x ∈ r'.workingList

end RunningProcs

namespace Tick

variable (r : RunningProcs) (s : Tick)

/-- A core of the list that had work and has not advanced yet. -/
def Pending (core : GProcessor) : Prop :=
  core ∈ r.workingList ∧ r.hasWork core = true ∧ s.advanced core = 0

instance (core : GProcessor) : Decidable (s.Pending r core) := inferInstanceAs (Decidable (_ ∧ _))

/-- A step makes the loops pass over no core that is pending, and over no core twice. -/
def Harmless : TickEvent → Prop
  | .iterate => ∀ core ∈ s.current, s.hasWork core = false →
      (∀ x ∈ s.workingList[s.i + 1]?, ¬s.Pending r x) ∧
      ∀ x ∈ s.workingList.take s.startProc, ¬s.Pending r x
  | .workingListAdd core => core ∈ s.workingList ∨ s.loop ≠ .first ∨ core ∉ r.workingList ∨
      r.hasWork core = false
  | .workingListRemove core => s.hasWork core = true ∨
      (∀ x ∈ s.workingList.take s.startProc, ¬s.Pending r x) ∧
      if core ∈ s.workingList then
        core ∈ s.workingList.take s.i → ∀ x ∈ s.workingList[s.i]?, ¬s.Pending r x
      else ∀ x ∈ s.workingList.getLast?, ¬s.Pending r x
  | .setWork core work => work = true ∨ ¬s.Pending r core
  | .finishWorkNow => ∀ x ∈ s.workingList, ¬s.Pending r x

instance : ∀ e, Decidable (s.Harmless r e)
  | .iterate => inferInstanceAs (Decidable (∀ _ ∈ _, _ → _ ∧ _))
  | .workingListAdd _ => inferInstanceAs (Decidable (_ ∨ _))
  | .workingListRemove _ => inferInstanceAs (Decidable (_ ∨ _ ∧ _))
  | .setWork _ _ => inferInstanceAs (Decidable (_ ∨ _))
  | .finishWorkNow => inferInstanceAs (Decidable (∀ _ ∈ _, _))

/-- The cores that the loops have still to come to. -/
def window : List GProcessor :=
  match s.loop with
  | .first => s.workingList.drop s.i ++ s.workingList.take s.startProc
  | .second => (s.workingList.take s.startProc).drop s.i
  | .ended => []

end Tick

/-! ## Removal -/

namespace RunningProcs

variable {s s' : RunningProcs} {core : GProcessor} {l : List GProcessor}

/-- Before the loop has come to the core, nothing changes. -/
lemma foldl_shiftAt_before {is : List ℕ} (h : ∀ i ∈ is, l[i]? ≠ some core) :
    is.foldl (shiftAt core) (l, false) = (l, false) := by
  induction is with
  | nil => rfl
  | cons i is ih =>
    obtain ⟨hi, his⟩ := List.forall_mem_cons.1 h
    rw [List.foldl_cons, shiftAt, if_neg hi]
    exact ih his

/-- After it, each element moves to the index before its own. -/
lemma foldl_shiftAt_after {bs : List GProcessor} (hbs : core ∉ bs) (as : List GProcessor)
    (x : GProcessor) : ∃ y, (List.range' (as.length + 1) bs.length).foldl (shiftAt core)
      (as ++ x :: bs, true) = (as ++ bs ++ [y], true) := by
  induction bs generalizing as x with
  | nil => exact ⟨x, by simp⟩
  | cons b bs ih =>
    obtain ⟨hb, hbs⟩ := not_or.1 (fun hin => hbs (List.mem_cons.2 hin))
    obtain ⟨y, hy⟩ := ih hbs (as ++ [b]) b
    refine ⟨y, ?_⟩
    have hget : (as ++ x :: b :: bs)[as.length + 1]? = some b := by
      rw [List.getElem?_append_right (by omega)]
      simp
    have hset : (as ++ x :: b :: bs).set (as.length + 1 - 1) b = as ++ [b] ++ b :: bs := by
      rw [Nat.add_sub_cancel, List.set_append_right _ _ (Nat.le_refl _)]
      simp
    rw [List.length_cons, List.range'_succ, List.foldl_cons, shiftAt, hget,
      if_neg (fun heq => hb (Option.some.inj heq).symm), if_pos rfl, List.getD_eq_getElem?_getD, hget,
      Option.getD_some, hset]
    rw [List.length_append, List.length_singleton] at hy
    rw [hy, List.append_assoc as [b] bs]
    rfl

/-- The loop and the `pop_back` remove the core from the list, or the last core when it is not in
it. -/
lemma dropLast_shift (hnodup : s.workingList.Nodup) (core : GProcessor) :
    (s.shift core).dropLast =
      if core ∈ s.workingList then s.workingList.erase core else s.workingList.dropLast := by
  rw [shift]
  split
  · rename_i hmem
    obtain ⟨as, bs, hlist⟩ := List.append_of_mem hmem
    rw [hlist, List.nodup_middle, List.nodup_cons, List.mem_append, not_or] at hnodup
    obtain ⟨⟨has, hbs⟩, -⟩ := hnodup
    have hbefore : ∀ i ∈ List.range' 0 as.length, (as ++ core :: bs)[i]? ≠ some core := by
      intro i hi heq
      have hlt := (List.mem_range'_1.1 hi).2
      rw [Nat.zero_add] at hlt
      rw [List.getElem?_append_left hlt] at heq
      exact has (List.mem_of_getElem? heq)
    have hrange : List.range (as ++ core :: bs).length =
        List.range' 0 as.length ++ as.length :: List.range' (as.length + 1) bs.length := by
      have happend := List.range'_append_1 (s := 0) (m := as.length) (n := bs.length + 1)
      rw [Nat.zero_add, List.range'_succ] at happend
      rw [List.range_eq_range', List.length_append, List.length_cons, happend]
    obtain ⟨y, hy⟩ := foldl_shiftAt_after hbs as core
    rw [hlist, hrange, List.foldl_append, foldl_shiftAt_before hbefore, List.foldl_cons, shiftAt,
      if_pos (by simp), hy, List.dropLast_concat, List.erase_append_right _ has,
      List.erase_cons_head]
  · rename_i hmem
    rw [foldl_shiftAt_before fun i _ heq => hmem (List.mem_of_getElem? heq)]

/-- What a removal leaves. -/
lemma workingListRemove_spec (hnodup : s.workingList.Nodup)
    (h : s.workingListRemove core = .ok s') : s'.hasWork = s.hasWork ∧
      if s.hasWork core = true then s'.workingList = s.workingList ∧ s'.startProc = s.startProc
      else s'.startProc = 0 ∧ s'.workingList =
        if core ∈ s.workingList then s.workingList.erase core else s.workingList.dropLast := by
  have hlist : ((s.makeAvailable core).shift core).dropLast = _ := dropLast_shift hnodup core
  rw [workingListRemove] at h
  simp only at h
  by_cases hwork : s.hasWork core = true
  · rw [if_pos hwork]
    rw [if_pos (show (s.makeAvailable core).hasWork core = true from hwork)] at h
    cases h
    exact ⟨rfl, rfl, rfl⟩
  · rw [if_neg hwork]
    rw [if_neg (show ¬(s.makeAvailable core).hasWork core = true from hwork),
      check_bind_eq_ok] at h
    cases h.2
    exact ⟨rfl, rfl, hlist⟩

lemma workingListRemove_isOk (core : GProcessor) (h : s.hasWork core = true ∨ s.workingList ≠ []) :
    ∃ s', s.workingListRemove core = .ok s' := by
  rw [workingListRemove]
  simp only
  split
  · exact ⟨_, rfl⟩
  · rename_i hwork
    rw [check_bind (show (s.makeAvailable core).workingList ≠ [] from h.resolve_left hwork)]
    exact ⟨_, rfl⟩

lemma workingListAdd_spec (s : RunningProcs) (core : GProcessor) :
    (s.workingListAdd core).startProc = s.startProc ∧
      (s.workingListAdd core).hasWork = s.hasWork ∧
      (s.workingListAdd core).workingList =
        if core ∈ s.workingList then s.workingList else s.workingList ++ [core] := by
  rw [workingListAdd]
  by_cases hmem : core ∈ s.workingList <;> simp [hmem]

/-- A removal removes only the given core if and only if it has work, or is in the list, or there is
no core to remove. -/
lemma removesOnly_iff (hnodup : s.workingList.Nodup) (core : GProcessor) :
    s.RemovesOnly core ↔ s.hasWork core = true ∨ core ∈ s.workingList ∨ s.workingList = [] := by
  constructor
  · intro honly
    by_contra hnot
    rw [not_or, not_or] at hnot
    obtain ⟨hwork, hmem, hne⟩ := hnot
    obtain ⟨s', hs'⟩ := workingListRemove_isOk core (.inr hne)
    obtain ⟨-, hspec⟩ := workingListRemove_spec hnodup hs'
    rw [if_neg hwork, if_neg hmem] at hspec
    have hlast := List.getLast_mem hne
    have hkept := honly s' hs' _ hlast fun heq => hmem (heq ▸ hlast)
    rw [hspec.2] at hkept
    rw [← List.dropLast_append_getLast hne, List.nodup_append] at hnodup
    exact hnodup.2.2 _ hkept _ (List.mem_singleton.2 rfl) rfl
  · intro h s' hs' x hx hne
    obtain ⟨-, hspec⟩ := workingListRemove_spec hnodup hs'
    split at hspec
    · rw [hspec.1]
      exact hx
    · rename_i hwork
      rcases h with h | h | h
      · exact absurd h hwork
      · rw [hspec.2, if_pos h]
        exact (List.mem_erase_of_ne hne).2 hx
      · rw [h] at hx
        exact absurd hx List.not_mem_nil

end RunningProcs

/-! ## The window -/

/-- The elements from an index on when an element has been removed. -/
lemma drop_erase (l : List GProcessor) (core : GProcessor) (i : ℕ) :
    (l.erase core).drop i =
      if core ∈ l.take i then l.drop (i + 1) else (l.drop i).erase core := by
  conv_lhs => rw [← List.take_append_drop i l, List.erase_append]
  split
  · rename_i hmem
    have hlength := List.length_erase_of_mem hmem
    have hpos := List.length_pos_of_mem hmem
    rw [List.length_take] at hlength hpos
    rw [List.drop_append, List.drop_eq_nil_of_le (by omega), List.nil_append, List.drop_drop]
    rcases Nat.le_total i l.length with hle | hle
    · congr 1
      omega
    · rw [List.drop_eq_nil_of_le (by omega), List.drop_eq_nil_of_le (by omega)]
  · rw [List.drop_append, List.drop_eq_nil_of_le (List.length_take_le _ _), List.nil_append,
      List.length_take]
    rcases Nat.le_total i l.length with hle | hle
    · rw [Nat.min_eq_left hle, Nat.sub_self, List.drop_zero]
    · rw [List.drop_eq_nil_of_le hle]
      simp

namespace Tick

variable {r : RunningProcs} {s s' : Tick} {core x : GProcessor} {e : TickEvent}

/-- What holds of the indices, whatever happens. -/
structure Shape (s : Tick) : Prop where
  nodup : s.workingList.Nodup
  startProc_le : s.startProc ≤ s.workingList.length
  startProc_le_i : s.loop = .first → s.startProc ≤ s.i

lemma Shape.nodup_window (h : s.Shape) : s.window.Nodup := by
  rw [window]
  cases hloop : s.loop with
  | first =>
    have hle := h.startProc_le_i hloop
    have hnodup := h.nodup
    rw [← List.take_append_drop s.i s.workingList, List.nodup_append] at hnodup
    rw [List.nodup_append]
    refine ⟨hnodup.2.1, h.nodup.sublist (List.take_sublist _ _), fun x hx y hy => ?_⟩
    refine (hnodup.2.2 y ?_ x hx).symm
    have htake : s.workingList.take s.startProc = (s.workingList.take s.i).take s.startProc := by
      rw [List.take_take, Nat.min_eq_left hle]
    rw [htake] at hy
    exact List.mem_of_mem_take hy
  | second =>
    exact h.nodup.sublist ((List.drop_sublist _ _).trans (List.take_sublist _ _))
  | ended => exact List.nodup_nil

/-- The window begins with the core that the loop has come to. -/
lemma window_eq_cons (h : s.current = some core) :
    s.window = core :: { s with i := s.i + 1 : Tick }.window := by
  rw [current] at h
  rw [window, window]
  cases hloop : s.loop with
  | first =>
    rw [hloop] at h
    obtain ⟨hi, rfl⟩ := List.getElem?_eq_some_iff.1 h
    rw [List.drop_eq_getElem_cons hi]
    rfl
  | second =>
    rw [hloop] at h
    simp only at h
    split at h
    · rename_i hlt
      rw [← List.getElem?_take_of_lt hlt] at h
      obtain ⟨hi, rfl⟩ := List.getElem?_eq_some_iff.1 h
      rw [List.drop_eq_getElem_cons hi]
    · cases h
  | ended =>
    rw [hloop] at h
    cases h

/-- The core that a loop has come to is in the list. -/
lemma getElem?_of_current (h : s.current = some core) : s.workingList[s.i]? = some core := by
  rw [current] at h
  cases hloop : s.loop with
  | first => rwa [hloop] at h
  | second =>
    rw [hloop] at h
    simp only at h
    split at h
    · exact h
    · cases h
  | ended =>
    rw [hloop] at h
    cases h

/-! ## The steps -/

/-- The next step of a loop that comes to no core changes neither the window nor the cores. -/
lemma iterate_of_none (hshape : s.Shape) (hcurrent : s.current = none)
    (h : s.iterate = .ok s') :
    s'.window = s.window ∧ s'.workingList = s.workingList ∧ s'.hasWork = s.hasWork ∧
      s'.advanced = s.advanced ∧ s'.Shape := by
  rw [iterate, hcurrent] at h
  simp only at h
  rw [current] at hcurrent
  cases hloop : s.loop with
  | first =>
    rw [hloop] at h hcurrent
    cases h
    rw [List.getElem?_eq_none_iff] at hcurrent
    refine ⟨?_, rfl, rfl, rfl, hshape.nodup, hshape.startProc_le, fun heq => by cases heq⟩
    rw [window, window, hloop]
    simp only
    rw [List.drop_eq_nil_of_le hcurrent]
    rfl
  | second =>
    rw [hloop] at h hcurrent
    simp only [check_bind_eq_ok] at h
    cases h.2
    refine ⟨?_, rfl, rfl, rfl, hshape.nodup, ?_, fun heq => by cases heq⟩
    · rw [window, window, hloop]
      simp only
      rw [List.drop_eq_nil_of_le]
      rw [List.length_take]
      omega
    · simp only
      split <;> omega
  | ended =>
    rw [hloop] at h
    cases h

/-- A removal takes nothing into the window. -/
lemma mem_window_of_removed (hloop : s'.loop = s.loop) (hstart : s'.startProc = 0)
    (hi : s.i ≤ s'.i) (hlist : s'.workingList =
      if core ∈ s.workingList then s.workingList.erase core else s.workingList.dropLast)
    (hx : x ∈ s'.window) : x ∈ s.window := by
  rw [window, hloop, hstart] at hx
  rw [window]
  cases hs : s.loop with
  | first =>
    rw [hs] at hx
    simp only [List.take_zero, List.append_nil] at hx
    refine List.mem_append_left _ ?_
    have hsub : ∀ j ≥ s.i, x ∈ s.workingList.drop j → x ∈ s.workingList.drop s.i := by
      intro j hj hin
      exact ((List.drop_sublist_drop_left _ hj).mem hin)
    rw [hlist] at hx
    split at hx
    · rw [drop_erase] at hx
      split at hx
      · exact hsub _ (Nat.le_succ_of_le hi) hx
      · exact hsub _ hi (List.mem_of_mem_erase hx)
    · refine hsub _ hi (List.Sublist.mem hx ?_)
      exact (List.dropLast_sublist _).drop _
  | second =>
    rw [hs] at hx
    simp only [List.take_zero, List.drop_nil] at hx
    exact absurd hx List.not_mem_nil
  | ended =>
    rw [hs] at hx
    exact absurd hx List.not_mem_nil

lemma Shape.removed (h : s.Shape) (core : GProcessor) (hstart : s'.startProc = 0) (hlist : s'.workingList =
      if core ∈ s.workingList then s.workingList.erase core else s.workingList.dropLast) :
    s'.Shape := by
  refine ⟨?_, by omega, fun _ => by omega⟩
  rw [hlist]
  split
  · exact h.nodup.sublist List.erase_sublist
  · exact h.nodup.sublist (List.dropLast_sublist _)

/-- A step of a loop advances a core or removes it. -/
lemma iterate_of_some (hshape : s.Shape) (hcurrent : s.current = some core)
    (h : s.iterate = .ok s') : s'.loop = s.loop ∧ s'.i = s.i + 1 ∧ s'.hasWork = s.hasWork ∧
    if s.hasWork core = true then s'.workingList = s.workingList ∧ s'.startProc = s.startProc ∧
      s'.advanced = Function.update s.advanced core (s.advanced core + 1)
    else s'.startProc = 0 ∧ s'.workingList = s.workingList.erase core ∧ s'.advanced = s.advanced := by
  rw [iterate, hcurrent] at h
  simp only [body] at h
  split at h
  · rename_i hwork
    cases h
    rw [if_pos hwork]
    exact ⟨rfl, rfl, rfl, rfl, rfl, rfl⟩
  · rename_i hwork
    obtain ⟨rr, hrr, heq⟩ := bind_eq_ok.1 h
    cases heq
    obtain ⟨hsame, hspec⟩ := RunningProcs.workingListRemove_spec hshape.nodup hrr
    rw [if_neg hwork] at hspec
    rw [if_neg hwork]
    have hmem : core ∈ s.workingList := List.mem_of_getElem? (getElem?_of_current hcurrent)
    rw [if_pos hmem] at hspec
    exact ⟨rfl, rfl, hsame, hspec.1, hspec.2, rfl⟩

/-- Whatever happens keeps the shape of the list. -/
lemma Shape.perform (h : s.Shape) (hstep : s.perform e = .ok s') : s'.Shape := by
  rw [Tick.perform, check_bind_eq_ok] at hstep
  obtain ⟨hended, hstep⟩ := hstep
  cases e with
  | iterate =>
    cases hcurrent : s.current with
    | none => exact (iterate_of_none h hcurrent hstep).2.2.2.2
    | some core =>
      obtain ⟨hloop, hi, -, hspec⟩ := iterate_of_some h hcurrent hstep
      split at hspec
      · refine ⟨hspec.1 ▸ h.nodup, by rw [hspec.1, hspec.2.1]; exact h.startProc_le, fun hfirst => ?_⟩
        have := h.startProc_le_i (hloop.symm.trans hfirst)
        omega
      · refine h.removed core hspec.1 ?_
        rw [hspec.2.1, if_pos (List.mem_of_getElem? (getElem?_of_current hcurrent))]
  | workingListAdd core =>
    cases hstep
    rw [RunningProcs.workingListAdd]
    simp only
    split
    · exact ⟨h.nodup, h.startProc_le, h.startProc_le_i⟩
    · rename_i hmem
      refine ⟨?_, ?_, h.startProc_le_i⟩
      · show (s.workingList ++ [core]).Nodup
        rw [List.nodup_append]
        refine ⟨h.nodup, List.nodup_singleton _, fun x hx y hy heq => hmem ?_⟩
        rwa [← List.mem_singleton.1 hy, ← heq]
      · show s.startProc ≤ (s.workingList ++ [core]).length
        rw [List.length_append]
        exact Nat.le_add_right_of_le h.startProc_le
  | workingListRemove core =>
    obtain ⟨rr, hrr, heq⟩ := bind_eq_ok.1 hstep
    cases heq
    obtain ⟨-, hspec⟩ := RunningProcs.workingListRemove_spec h.nodup hrr
    split at hspec
    · exact ⟨hspec.1 ▸ h.nodup, by rw [hspec.1, hspec.2]; exact h.startProc_le,
        fun hfirst => hspec.2 ▸ h.startProc_le_i hfirst⟩
    · exact h.removed core hspec.1 hspec.2
  | setWork core work =>
    cases hstep
    exact ⟨h.nodup, h.startProc_le, h.startProc_le_i⟩
  | finishWorkNow =>
    cases hstep
    exact ⟨List.nodup_nil, Nat.le_refl _, fun _ => Nat.zero_le _⟩

/-! ## Coverage -/

/-- Each core that had work is still to come, or has advanced once and is not to come again. -/
structure Inv (r : RunningProcs) (s : Tick) : Prop extends Shape s where
  covered : ∀ x ∈ r.workingList, r.hasWork x = true →
    (s.advanced x = 0 ∧ x ∈ s.window ∧ s.hasWork x = true) ∨ (s.advanced x = 1 ∧ x ∉ s.window)

/-- A step that advances no core. -/
lemma Inv.of_advanced_eq (h : s.Inv r) (hshape : s'.Shape) (hadvanced : s'.advanced = s.advanced)
    (hpending : ∀ x, s.Pending r x → x ∈ s.window → s.hasWork x = true →
      x ∈ s'.window ∧ s'.hasWork x = true)
    (hwindow : ∀ x ∈ r.workingList, r.hasWork x = true → x ∈ s'.window → x ∈ s.window) :
    s'.Inv r := by
  refine ⟨hshape, fun x hx hwork => ?_⟩
  rw [hadvanced]
  refine (h.covered x hx hwork).imp ?_ ?_
  · rintro ⟨hzero, hin, hhas⟩
    exact ⟨hzero, hpending x ⟨hx, hwork, hzero⟩ hin hhas⟩
  · rintro ⟨hone, hout⟩
    exact ⟨hone, fun hin => hout (hwindow x hx hwork hin)⟩

/-- A pending core that is not passed over is in what the first loop has still to come to. -/
lemma mem_drop_of_mem_window (hx : x ∈ s.window) (hfront : x ∉ s.workingList.take s.startProc) :
    s.loop = .first ∧ x ∈ s.workingList.drop s.i := by
  rw [window] at hx
  cases hloop : s.loop with
  | first =>
    rw [hloop] at hx
    exact ⟨rfl, (List.mem_append.1 hx).resolve_right hfront⟩
  | second =>
    rw [hloop] at hx
    exact absurd (List.mem_of_mem_drop hx) hfront
  | ended =>
    rw [hloop] at hx
    exact absurd hx List.not_mem_nil

lemma mem_window_of_mem_drop (hloop : s.loop = .first) (hx : x ∈ s.workingList.drop s.i) :
    x ∈ s.window := by
  rw [window, hloop]
  exact List.mem_append_left _ hx

/-- An element from an index on is at the index or behind it. -/
lemma mem_drop_succ {l : List GProcessor} {i : ℕ} (hx : x ∈ l.drop i) (hne : l[i]? ≠ some x) :
    x ∈ l.drop (i + 1) := by
  have hlt : i < l.length := by
    by_contra hge
    rw [List.drop_eq_nil_of_le (by omega)] at hx
    exact absurd hx List.not_mem_nil
  rw [List.drop_eq_getElem_cons hlt] at hx
  refine (List.mem_cons.1 hx).resolve_left fun heq => hne ?_
  rw [heq, List.getElem?_eq_getElem hlt]

lemma Inv.iterate (h : s.Inv r) (hharmless : s.Harmless r .iterate)
    (hstep : s.iterate = .ok s') (hshape : s'.Shape) : s'.Inv r := by
  cases hcurrent : s.current with
  | none =>
    obtain ⟨hwindow, -, hwork, hadvanced, -⟩ := iterate_of_none h.toShape hcurrent hstep
    exact h.of_advanced_eq hshape hadvanced (fun x _ hx hhas => ⟨hwindow ▸ hx, hwork ▸ hhas⟩)
      fun x _ _ hx => hwindow ▸ hx
  | some core =>
    obtain ⟨hloop, hi, hwork, hspec⟩ := iterate_of_some h.toShape hcurrent hstep
    have hget := getElem?_of_current hcurrent
    have hmem := List.mem_of_getElem? hget
    split at hspec
    · -- the core advances
      obtain ⟨hlist, hstart, hadvanced⟩ := hspec
      have hwindow := window_eq_cons hcurrent
      have hwindow' : { s with i := s.i + 1 : Tick }.window = s'.window := by
        rw [window, window, hloop, hi, hlist, hstart]
      rw [hwindow'] at hwindow
      have hnodup := h.toShape.nodup_window
      rw [hwindow, List.nodup_cons] at hnodup
      refine ⟨hshape, fun x hx hhas => ?_⟩
      have hcovered := h.covered x hx hhas
      rw [hwindow, List.mem_cons] at hcovered
      rw [hadvanced, hwork]
      by_cases hcore : x = core
      · subst hcore
        rw [Function.update_self]
        rcases hcovered with ⟨hzero, -, -⟩ | ⟨-, hout⟩
        · exact .inr ⟨by rw [hzero], hnodup.1⟩
        · exact absurd (.inl rfl) hout
      · rw [Function.update_of_ne hcore]
        refine hcovered.imp ?_ ?_
        · rintro ⟨hzero, hin, hhas'⟩
          exact ⟨hzero, hin.resolve_left hcore, hhas'⟩
        · rintro ⟨hone, hout⟩
          exact ⟨hone, fun hin => hout (.inr hin)⟩
    · -- the core is removed
      rename_i hnone
      obtain ⟨hstart, hlist, hadvanced⟩ := hspec
      have hlist' : s'.workingList = if core ∈ s.workingList then s.workingList.erase core
          else s.workingList.dropLast := by rw [if_pos hmem, hlist]
      refine h.of_advanced_eq hshape hadvanced (fun x hpending hx hhas => ?_) fun x _ _ hx =>
        mem_window_of_removed hloop hstart (by omega) hlist' hx
      refine ⟨?_, hwork ▸ hhas⟩
      obtain ⟨hnext, hfront⟩ := hharmless core hcurrent (Bool.eq_false_iff.2 hnone)
      obtain ⟨hfirst, hdrop⟩ := mem_drop_of_mem_window hx fun hin => hfront x hin hpending
      refine mem_window_of_mem_drop (hloop.trans hfirst) ?_
      have htake : core ∈ s.workingList.take (s.i + 1) := by
        refine List.mem_of_getElem? (i := s.i) ?_
        rw [List.getElem?_take_of_lt (Nat.lt_succ_self _), hget]
      rw [hlist, hi, drop_erase, if_pos htake]
      refine mem_drop_succ (mem_drop_succ hdrop ?_) ?_
      · rw [hget]
        exact fun heq => hnone (Option.some.inj heq ▸ hhas)
      · exact fun heq => hnext x heq hpending

lemma Inv.workingListRemove {rr : RunningProcs} (h : s.Inv r)
    (hharmless : s.Harmless r (.workingListRemove core))
    (hrr : s.workingListRemove core = .ok rr)
    (hshape : { s with toRunningProcs := rr : Tick }.Shape) :
    { s with toRunningProcs := rr : Tick }.Inv r := by
  obtain ⟨hwork, hspec⟩ := RunningProcs.workingListRemove_spec h.nodup hrr
  split at hspec
  · have hwindow : { s with toRunningProcs := rr : Tick }.window = s.window := by
      rw [window, window]
      simp only [hspec.1, hspec.2]
    exact h.of_advanced_eq hshape rfl
      (fun x _ hx hhas => ⟨hwindow ▸ hx, (congrFun hwork x).trans hhas⟩)
      fun x _ _ hx => hwindow ▸ hx
  · rename_i hnone
    refine h.of_advanced_eq hshape rfl (fun x hpending hx hhas => ?_) fun x _ _ hx =>
      @mem_window_of_removed s { s with toRunningProcs := rr } core x rfl hspec.1 (Nat.le_refl _)
        hspec.2 hx
    refine ⟨?_, (congrFun hwork x).trans hhas⟩
    obtain ⟨hfront, hplace⟩ := hharmless.resolve_left hnone
    obtain ⟨hfirst, hdrop⟩ := mem_drop_of_mem_window hx fun hin => hfront x hin hpending
    refine mem_window_of_mem_drop (s := { s with toRunningProcs := rr }) hfirst ?_
    show x ∈ rr.workingList.drop s.i
    rw [hspec.2]
    split at hplace
    · rename_i hmem
      rw [if_pos hmem, drop_erase]
      split
      · rename_i htake
        exact mem_drop_succ hdrop fun heq => hplace htake x heq hpending
      · exact (List.mem_erase_of_ne fun heq => hnone (by rw [← heq]; exact hhas)).2 hdrop
    · rename_i hmem
      rw [if_neg hmem, ← List.dropLast_drop_eq_drop_dropLast]
      have hne : s.workingList.drop s.i ≠ [] := List.ne_nil_of_mem hdrop
      rw [← List.dropLast_append_getLast hne, List.mem_append, List.mem_singleton] at hdrop
      refine hdrop.resolve_right fun heq => hplace x ?_ hpending
      have hlast : (s.workingList.drop s.i).getLast? = some x := by
        rw [List.getLast?_eq_some_getLast hne, heq]
      rw [List.getLast?_drop] at hlast
      split at hlast
      · cases hlast
      · exact hlast

lemma Inv.workingListAdd (h : s.Inv r) (hharmless : s.Harmless r (.workingListAdd core))
    (hshape : { s with toRunningProcs := s.toRunningProcs.workingListAdd core : Tick }.Shape) :
    { s with toRunningProcs := s.toRunningProcs.workingListAdd core : Tick }.Inv r := by
  generalize hs' : ({ s with toRunningProcs := s.toRunningProcs.workingListAdd core } : Tick) = s'
    at hshape ⊢
  have hkept : s'.advanced = s.advanced ∧ s'.loop = s.loop ∧ s'.i = s.i ∧
      s'.startProc = s.startProc ∧ s'.hasWork = s.hasWork ∧ s'.workingList =
        if core ∈ s.workingList then s.workingList else s.workingList ++ [core] := by
    rw [← hs']
    obtain ⟨hstart, hwork, hlist⟩ := s.toRunningProcs.workingListAdd_spec core
    exact ⟨rfl, rfl, rfl, hstart, hwork, hlist⟩
  obtain ⟨hadvanced, hloop, hi, hstart, hwork, hlist⟩ := hkept
  by_cases hmem : core ∈ s.workingList
  · rw [if_pos hmem] at hlist
    have hwindow : s'.window = s.window := by rw [window, window, hloop, hi, hstart, hlist]
    exact h.of_advanced_eq hshape hadvanced (fun x _ hx hhas => ⟨hwindow ▸ hx, hwork ▸ hhas⟩)
      fun x _ _ hx => hwindow ▸ hx
  · rw [if_neg hmem] at hlist
    have htake : s'.workingList.take s'.startProc = s.workingList.take s.startProc := by
      rw [hlist, hstart, List.take_append_of_le_length h.startProc_le]
    refine h.of_advanced_eq hshape hadvanced (fun x _ hx hhas => ⟨?_, hwork ▸ hhas⟩)
      fun x hxr hxwork hx => ?_
    · rw [window] at hx ⊢
      rw [hloop, htake, hi, hlist]
      cases hs : s.loop with
      | first =>
        rw [hs] at hx
        refine (List.mem_append.1 hx).elim (fun hx => ?_) fun hx => List.mem_append_right _ hx
        rw [List.drop_append]
        exact List.mem_append_left _ (List.mem_append_left _ hx)
      | second => rwa [hs] at hx
      | ended => rwa [hs] at hx
    · rw [window, hloop, htake, hi, hlist] at hx
      rw [window]
      cases hs : s.loop with
      | first =>
        rw [hs] at hx
        -- a core that has just come into the list had no work at first
        have hne : x ≠ core := by
          rintro rfl
          rcases hharmless with hin | hother | hnot | hnone
          · exact hmem hin
          · exact hother hs
          · exact hnot hxr
          · rw [hxwork] at hnone
            cases hnone
        refine (List.mem_append.1 hx).elim (fun hx => ?_) fun hx => List.mem_append_right _ hx
        rw [List.drop_append, List.mem_append] at hx
        refine List.mem_append_left _ (hx.resolve_right fun hx => hne ?_)
        exact List.mem_singleton.1 (List.mem_of_mem_drop hx)
      | second => rwa [hs] at hx
      | ended => rwa [hs] at hx

lemma mem_workingList_of_mem_window (hx : x ∈ s.window) : x ∈ s.workingList := by
  rw [window] at hx
  cases hloop : s.loop with
  | first =>
    rw [hloop] at hx
    exact (List.mem_append.1 hx).elim List.mem_of_mem_drop List.mem_of_mem_take
  | second =>
    rw [hloop] at hx
    exact List.mem_of_mem_take (List.mem_of_mem_drop hx)
  | ended =>
    rw [hloop] at hx
    exact absurd hx List.not_mem_nil

/-- A harmless step keeps the coverage. -/
lemma Inv.perform (h : s.Inv r) (hharmless : s.Harmless r e) (hstep : s.perform e = .ok s') :
    s'.Inv r := by
  have hshape := h.toShape.perform hstep
  rw [Tick.perform, check_bind_eq_ok] at hstep
  obtain ⟨-, hstep⟩ := hstep
  cases e with
  | iterate => exact h.iterate hharmless hstep hshape
  | workingListAdd core =>
    cases hstep
    exact h.workingListAdd hharmless hshape
  | workingListRemove core =>
    obtain ⟨rr, hrr, heq⟩ := bind_eq_ok.1 hstep
    cases heq
    exact h.workingListRemove hharmless hrr hshape
  | setWork core work =>
    cases hstep
    refine h.of_advanced_eq hshape rfl (fun x hpending hx hhas => ⟨hx, ?_⟩) fun x _ _ hx => hx
    by_cases hcore : x = core
    · subst hcore
      simpa using hharmless.resolve_right fun hnot => hnot hpending
    · simpa [hcore] using hhas
  | finishWorkNow =>
    cases hstep
    refine h.of_advanced_eq hshape rfl (fun x hpending hx _ =>
      absurd hpending (hharmless x (mem_workingList_of_mem_window hx))) fun x _ _ hx => ?_
    exact absurd (mem_workingList_of_mem_window hx) List.not_mem_nil

/-! ## Cores that are passed over -/

/-- A core is pending, and the loops will not come to it. -/
def Lost (r : RunningProcs) (s : Tick) (x : GProcessor) : Prop := s.Pending r x ∧ x ∉ s.window

/-- The loops alone do not come back. -/
lemma Lost.iterate (h : s.Lost r x) (hshape : s.Shape) (hstep : s.iterate = .ok s') :
    s'.Lost r x := by
  obtain ⟨⟨hmem, hwork, hzero⟩, hout⟩ := h
  cases hcurrent : s.current with
  | none =>
    obtain ⟨hwindow, -, -, hadvanced, -⟩ := iterate_of_none hshape hcurrent hstep
    exact ⟨⟨hmem, hwork, hadvanced ▸ hzero⟩, hwindow ▸ hout⟩
  | some core =>
    obtain ⟨hloop, hi, -, hspec⟩ := iterate_of_some hshape hcurrent hstep
    have hcons := window_eq_cons hcurrent
    split at hspec
    · have hwindow : { s with i := s.i + 1 : Tick }.window = s'.window := by
        rw [window, window, hloop, hi, hspec.1, hspec.2.1]
      rw [hcons, hwindow, List.mem_cons, not_or] at hout
      refine ⟨⟨hmem, hwork, ?_⟩, hout.2⟩
      rw [hspec.2.2, Function.update_of_ne hout.1, hzero]
    · refine ⟨⟨hmem, hwork, hspec.2.2 ▸ hzero⟩, fun hin => hout ?_⟩
      refine @mem_window_of_removed s s' core x hloop hspec.1 (by omega) ?_ hin
      rw [if_pos (List.mem_of_getElem? (getElem?_of_current hcurrent)), hspec.2.1]

/-- The loop passes over the next core, or over those before `startProc`. -/
lemma exists_lost (hshape : s.Shape) (hharmful : ¬s.Harmless r .iterate)
    (hstep : s.iterate = .ok s') : ∃ x, s'.Lost r x := by
  rw [Harmless] at hharmful
  push Not at hharmful
  obtain ⟨core, hcurrent, hnone, hharmful⟩ := hharmful
  obtain ⟨hloop, hi, -, hspec⟩ := iterate_of_some hshape hcurrent hstep
  rw [if_neg (by rw [hnone]; exact Bool.false_ne_true)] at hspec
  obtain ⟨hstart, hlist, hadvanced⟩ := hspec
  have hget := getElem?_of_current hcurrent
  -- the window has only cores behind the next one
  have hwindow : ∀ x ∈ s'.window, s.loop = .first ∧ x ∈ s.workingList.drop (s.i + 2) := by
    intro x hx
    have htake : core ∈ s.workingList.take (s.i + 1) := by
      refine List.mem_of_getElem? (i := s.i) ?_
      rw [List.getElem?_take_of_lt (Nat.lt_succ_self _), hget]
    have hfront : x ∉ s'.workingList.take s'.startProc := by
      rw [hstart]
      exact List.not_mem_nil
    obtain ⟨hfirst, hdrop⟩ := mem_drop_of_mem_window hx hfront
    rw [hlist, hi, drop_erase, if_pos htake] at hdrop
    exact ⟨hloop.symm.trans hfirst, hdrop⟩
  have hpending : ∀ x, s.Pending r x → s'.Pending r x := by
    rintro x ⟨hmem, hwork, hzero⟩
    exact ⟨hmem, hwork, hadvanced ▸ hzero⟩
  have hnodup := hshape.nodup
  rw [← List.take_append_drop (s.i + 2) s.workingList, List.nodup_append] at hnodup
  have hout : ∀ x ∈ s.workingList.take (s.i + 2), x ∉ s'.window := fun x hx hin =>
    hnodup.2.2 x hx x (hwindow x hin).2 rfl
  by_cases hnext : ∀ x ∈ s.workingList[s.i + 1]?, ¬s.Pending r x
  · obtain ⟨x, hx, hx'⟩ := hharmful hnext
    refine ⟨x, hpending x hx', fun hin => hout x ?_ hin⟩
    have hle := hshape.startProc_le_i (hwindow x hin).1
    have htake : s.workingList.take s.startProc =
        (s.workingList.take (s.i + 2)).take s.startProc := by
      rw [List.take_take, Nat.min_eq_left (by omega)]
    rw [htake] at hx
    exact List.mem_of_mem_take hx
  · push Not at hnext
    obtain ⟨x, hx, hx'⟩ := hnext
    refine ⟨x, hpending x hx', hout x ?_⟩
    refine List.mem_of_getElem? (i := s.i + 1) ?_
    rw [List.getElem?_take_of_lt (Nat.lt_succ_self _)]
    exact hx

/-! ## The end of an iteration -/

/-- How far the loops are from the end. -/
def remaining (s : Tick) : ℕ :=
  match s.loop with
  | .first => s.workingList.length - s.i + s.workingList.length + 2
  | .second => s.startProc - s.i + 1
  | .ended => 0

lemma remaining_iterate (hshape : s.Shape) (hended : s.loop ≠ .ended) :
    ∃ s', s.iterate = .ok s' ∧ s'.remaining < s.remaining := by
  cases hcurrent : s.current with
  | none =>
    rw [iterate, hcurrent]
    rw [current] at hcurrent
    cases hloop : s.loop with
    | first =>
      rw [remaining, hloop]
      have hle := hshape.startProc_le
      exact ⟨_, rfl, by rw [remaining]; simp only; omega⟩
    | second =>
      rw [hloop] at hcurrent
      have hle : s.startProc ≤ s.i := by
        by_contra hlt
        simp only [if_pos (Nat.lt_of_not_le hlt), List.getElem?_eq_none_iff] at hcurrent
        have := hshape.startProc_le
        omega
      simp only
      rw [check_bind hle, remaining, hloop]
      exact ⟨_, rfl, by rw [remaining]; exact Nat.succ_pos _⟩
    | ended => exact absurd hloop hended
  | some core =>
    have hmem : core ∈ s.workingList := List.mem_of_getElem? (getElem?_of_current hcurrent)
    obtain ⟨s', hs'⟩ : ∃ s', s.iterate = .ok s' := by
      rw [iterate, hcurrent]
      simp only [body]
      split
      · exact ⟨_, rfl⟩
      · obtain ⟨rr, hrr⟩ := s.toRunningProcs.workingListRemove_isOk core
          (.inr (List.ne_nil_of_mem hmem))
        rw [hrr]
        exact ⟨_, rfl⟩
    refine ⟨s', hs', ?_⟩
    obtain ⟨hloop, hi, -, hspec⟩ := iterate_of_some hshape hcurrent hs'
    have hlength : s'.workingList.length ≤ s.workingList.length ∧ s'.startProc ≤ s.startProc := by
      split at hspec
      · rw [hspec.1, hspec.2.1]
        exact ⟨Nat.le_refl _, Nat.le_refl _⟩
      · rw [hspec.1, hspec.2.1]
        exact ⟨List.length_erase_le, Nat.zero_le _⟩
    have hlt := (List.getElem?_eq_some_iff.1 (getElem?_of_current hcurrent)).1
    rw [remaining, remaining, hloop, hi]
    rw [current] at hcurrent
    cases hs : s.loop with
    | first =>
      simp only
      omega
    | second =>
      rw [hs] at hcurrent
      simp only at hcurrent ⊢
      split at hcurrent
      · omega
      · cases hcurrent
    | ended => exact absurd hs hended

end Tick

open Tick

variable {r : BetweenTicks} {es : List TickEvent} {s : Tick}

lemma shape_of_run (h : (tick r).Run es s) : s.Shape := by
  refine h.invariant ⟨r.nodup, ?_, fun _ => Nat.le_refl _⟩ fun s e s' hs _ hstep => hs.perform hstep
  show r.startProc ≤ r.workingList.length
  rcases r.startProc_lt with hzero | hlt
  · omega
  · exact Nat.le_of_lt hlt

/-- The loops come to an end. -/
lemma exists_ended (r : BetweenTicks) :
    ∃ n s, (tick r).Run (List.replicate n .iterate) s ∧ s.loop = .ended := by
  have hgo : ∀ m n s, (tick r).Run (List.replicate n .iterate) s → s.remaining ≤ m →
      ∃ n s, (tick r).Run (List.replicate n .iterate) s ∧ s.loop = .ended := by
    intro m
    induction m with
    | zero =>
      intro n s hrun hm
      refine ⟨n, s, hrun, ?_⟩
      rw [remaining] at hm
      cases hloop : s.loop with
      | ended => rfl
      | _ =>
        rw [hloop] at hm
        simp only at hm
        omega
    | succ m ih =>
      intro n s hrun hm
      by_cases hended : s.loop = .ended
      · exact ⟨n, s, hrun, hended⟩
      · obtain ⟨s', hs', hlt⟩ := remaining_iterate (shape_of_run hrun) hended
        refine ih (n + 1) s' ?_ (by omega)
        rw [List.replicate_succ']
        refine hrun.snoc .iterate trivial ?_
        show s.perform .iterate = .ok s'
        rw [Tick.perform, check_bind hended]
        exact hs'
  exact hgo _ 0 _ .nil (Nat.le_refl _)

lemma inv_init_tick (r : BetweenTicks) : (tick r).init.Inv r.toRunningProcs := by
  refine ⟨shape_of_run .nil, fun x hx hwork => .inl ⟨rfl, ?_, hwork⟩⟩
  show x ∈ r.workingList.drop r.startProc ++ r.workingList.take r.startProc
  rw [List.mem_append, or_comm, ← List.mem_append, List.take_append_drop]
  exact hx

/-- An iteration comes to its end, and when all its steps are harmless, each core of the list that had
work has advanced once.  Without anything but the steps of the loops, it does so only when they are
harmless.  A removal removes only the given core if and only if the core has work or is in the list, or
there is no core to remove. -/
theorem tick_covers (r : BetweenTicks) :
    (∃ n s, (tick r).Run (List.replicate n .iterate) s ∧ s.loop = .ended) ∧
    ∀ es s, (tick r).Run es s →
      (s.loop = .ended →
        ((tick r).RunWhere (Harmless r.toRunningProcs) es s → r.AdvancesAll s) ∧
        ((∀ e ∈ es, e = .iterate) → r.AdvancesAll s →
          (tick r).RunWhere (Harmless r.toRunningProcs) es s)) ∧
      ∀ core, s.RemovesOnly core ↔
        s.hasWork core = true ∨ core ∈ s.workingList ∨ s.workingList = [] := by
  refine ⟨exists_ended r, fun es s hrun => ⟨fun hended => ⟨fun hwhere => ?_, fun hquiet hall => ?_⟩,
    fun core => RunningProcs.removesOnly_iff (shape_of_run hrun).nodup core⟩⟩
  · have hinv : s.Inv r.toRunningProcs := hwhere.invariant (inv_init_tick r)
      fun s e s' hs hharmless hstep => hs.perform hharmless hstep
    intro core hmem hwork
    rcases hinv.covered core hmem hwork with ⟨-, hin, -⟩ | ⟨hone, -⟩
    · rw [window, hended] at hin
      exact absurd hin List.not_mem_nil
    · exact hone
  · -- a core that is passed over does not advance
    have hsplit : (tick r).RunWhere (Harmless r.toRunningProcs) es s ∨
        ∃ x, s.Lost r.toRunningProcs x := by
      clear hended hall
      induction hrun with
      | nil => exact .inl .nil
      | @snoc es s s' e hrun _ hstep ih =>
        have he : e = .iterate := hquiet e (List.mem_append_right _ List.mem_cons_self)
        have hiterate := hstep
        rw [he] at hiterate
        replace hiterate := (check_bind_eq_ok.1 hiterate).2
        rcases ih fun e' he' => hquiet e' (List.mem_append_left _ he') with hwhere | ⟨x, hx⟩
        · by_cases hharmless : s.Harmless r.toRunningProcs e
          · exact .inl (hwhere.snoc e hharmless hstep)
          · rw [he] at hharmless
            exact .inr (exists_lost (shape_of_run hrun) hharmless hiterate)
        · exact .inr ⟨x, hx.iterate (shape_of_run hrun) hiterate⟩
    refine hsplit.resolve_right ?_
    rintro ⟨x, ⟨hmem, hwork, hzero⟩, -⟩
    rw [hall x hmem hwork] at hzero
    exact Nat.one_ne_zero hzero

/-- Three cores, of which the last one has no work; the rotation starts at the second one. -/
def lastIdle : BetweenTicks where
  stayInLoop := true
  startProc := 1
  workingList := [0, 1, 2]
  availableProcessors := []
  currentCPU := none
  hasWork := fun core => core ≠ 2
  nodup := by decide
  startProc_lt := .inr (by decide)

/-- While core 1 advances, core 3 is added; nothing is removed before the rotation comes to core 2,
whose work has come back by then. -/
def adding : List TickEvent :=
  [.iterate, .workingListAdd 3, .setWork 3 true, .setWork 2 true, .iterate, .iterate, .iterate,
    .iterate, .iterate]

/-- All cores advance. -/
theorem tick_covers_adding : ∃ s, (tick lastIdle).Run adding s ∧ s.loop = .ended ∧
    s.advanced 2 = 1 ∧ s.advanced 3 = 1 ∧ lastIdle.AdvancesAll s := by
  have hrun : succeeds (((tick lastIdle).guarded (fun s e =>
      decide (s.Harmless lastIdle.toRunningProcs e)) .noSuchEvent).exec (tick lastIdle).init adding)
      (fun s => decide (s.loop = .ended ∧ s.advanced 2 = 1 ∧ s.advanced 3 = 1)) = true := by
    decide +kernel
  obtain ⟨s, hs, htest⟩ := succeeds_iff.1 hrun
  obtain ⟨hended, htwo, hthree⟩ := of_decide_eq_true htest
  have hwhere := (Machine.run_of_exec hs).of_guarded.mono
    (D := Harmless lastIdle.toRunningProcs) fun _ _ => of_decide_eq_true
  exact ⟨s, hwhere.run, hended, htwo, hthree,
    (((tick_covers lastIdle).2 adding s hwhere.run).1 hended).1 hwhere⟩

/-- Two cores, of which the first one has no work. -/
def firstIdle : BetweenTicks where
  stayInLoop := true
  startProc := 0
  workingList := [0, 1]
  availableProcessors := []
  currentCPU := none
  hasWork := fun core => core = 1
  nodup := by decide
  startProc_lt := .inl rfl

/-- The second core is passed over when the first one is removed, and it is removed itself when the
removal is asked for a core that is not in the list. -/
theorem not_tick_covers : ∃ s, (tick firstIdle).Run [.iterate, .iterate, .iterate] s ∧
    s.loop = .ended ∧ s.workingList = [1] ∧ s.advanced 1 = 0 ∧ ¬firstIdle.AdvancesAll s ∧
    ¬firstIdle.RemovesOnly 5 := by
  have hrun : succeeds ((tick firstIdle).exec (tick firstIdle).init [.iterate, .iterate, .iterate])
      (fun s => decide (s.loop = .ended ∧ s.workingList = [1] ∧ s.advanced 1 = 0)) = true := by
    decide +kernel
  obtain ⟨s, hs, htest⟩ := succeeds_iff.1 hrun
  obtain ⟨hended, hlist, hzero⟩ := of_decide_eq_true htest
  refine ⟨s, Machine.run_of_exec hs, hended, hlist, hzero, fun hall => ?_, fun honly => ?_⟩
  · have hone := hall 1 (by decide) (by decide)
    rw [hzero] at hone
    exact Nat.zero_ne_one hone
  · rw [RunningProcs.removesOnly_iff firstIdle.nodup] at honly
    exact absurd honly (by decide)

end Sesc.Core
