import Sesc.Events.ExactlyOnce

/-!
# The order of callbacks

Callbacks of one kind that are scheduled for later and later times run in the order in which they
have been scheduled.
-/

namespace Sesc.Events.System

open Lib

variable {γ : Type} {s s' : System γ} {p : γ → Bool} {t : TickTime} {a : γ}
  {log log' : List (TickTime × γ)}

/-- The callbacks of a kind that have been scheduled, and for when. -/
def scheduledOf (p : γ → Bool) (s : System γ) : List (TickTime × γ) :=
  s.scheduled.filter fun e => p e.2

/-- The callbacks of a kind that have been run, and when. -/
def executedOf (p : γ → Bool) (s : System γ) : List (TickTime × γ) :=
  s.executed.filter fun e => p e.2

/-- The times of a log do not decrease. -/
def Chronological (log : List (TickTime × γ)) : Prop := log.Pairwise fun e e' => e.1 ≤ e'.1

lemma Chronological.of_prefix (h : Chronological log') (hlog : log <+: log') :
    Chronological log :=
  h.sublist hlog.sublist

lemma filter_logAt : (logAt log t).filter p = logAt (log.filter fun e => p e.2) t := by
  rw [logAt, logAt, List.filter_map, List.filter_comm]
  rfl

/-- The first entry of what remains of a log is one for the earliest time. -/
lemma exists_cons_of_chronological (h : Chronological log) (hle : ∀ e ∈ log, t ≤ e.1)
    (hfirst : [a] <+: logAt log t) : ∃ rest, log = (t, a) :: rest := by
  obtain ⟨l, hl⟩ := hfirst
  cases log with
  | nil => cases hl
  | cons e rest =>
    have hmem : a ∈ logAt (e :: rest) t := by
      rw [← hl]
      exact .head _
    -- an entry for the time `t` comes first, as none is earlier
    have ht : e.1 = t := by
      obtain ⟨e', he', -⟩ := List.mem_map.1 hmem
      obtain ⟨he', htime⟩ := List.mem_filter.1 he'
      have hle' : e.1 ≤ e'.1 := by
        rcases List.mem_cons.1 he' with rfl | he'
        · exact Nat.le_refl _
        · exact (List.pairwise_cons.1 h).1 e' he'
      exact Nat.le_antisymm (Nat.le_trans hle' (Nat.le_of_eq (of_decide_eq_true htime)))
        (hle e (.head _))
    rw [logAt, List.filter_cons_of_pos (p := fun e : TickTime × γ => decide (e.1 = t))
      (decide_eq_true ht), List.map_cons] at hl
    refine ⟨rest, ?_⟩
    rw [(List.cons.inj hl).1, ← ht]

/-- What is left of a kind of callbacks is for the current tick or later. -/
lemma Inv.le_of_rest (hs : s.Inv) {rest : List (TickTime × γ)}
    (hrest : s.executedOf p ++ rest = s.scheduledOf p) :
    ∀ e ∈ rest, s.manager.currentTick ≤ e.1 := by
  intro e he
  by_contra hlt
  have hlog : logAt (s.executedOf p) e.1 = logAt (s.scheduledOf p) e.1 := by
    rw [executedOf, scheduledOf, ← filter_logAt, ← filter_logAt]
    exact congrArg (List.filter p) (hs.executedAt_of_lt (Nat.not_le.1 hlt))
  have hnil : logAt rest e.1 = [] := by
    rw [← hrest, logAt, logAt, List.filter_append, List.map_append] at hlog
    exact List.self_eq_append_right.1 hlog
  have hmem : e.2 ∈ logAt rest e.1 :=
    List.mem_map.2 ⟨e, List.mem_filter.2 ⟨he, decide_eq_true rfl⟩, rfl⟩
  rw [hnil] at hmem
  cases hmem

/-- The callback that is run is the first of its kind that has not been run. -/
lemma Inv.isPrefix_of_executed (hs : s.Inv) (hs' : s'.Inv)
    (hscheduled : s'.scheduled = s.scheduled)
    (hexecuted : s'.executed = s.executed ++ [(s.manager.currentTick, a)])
    (hlog : Chronological (s.scheduledOf p)) (h : s.executedOf p <+: s.scheduledOf p) :
    s'.executedOf p <+: s'.scheduledOf p := by
  have hsame : s'.scheduledOf p = s.scheduledOf p := by rw [scheduledOf, hscheduled, scheduledOf]
  rw [hsame]
  by_cases ha : p a = true
  · have hnext : s'.executedOf p = s.executedOf p ++ [(s.manager.currentTick, a)] := by
      rw [executedOf, hexecuted, List.filter_append, List.filter_singleton, ha]
      rfl
    rw [hnext]
    obtain ⟨rest, hrest⟩ := h
    have hbefore := (hs'.isPrefix s.manager.currentTick).filter p
    rw [executedAt, scheduledAt, filter_logAt, filter_logAt] at hbefore
    have hbefore' : logAt (s.executedOf p ++ [(s.manager.currentTick, a)]) s.manager.currentTick
        <+: logAt (s.executedOf p ++ rest) s.manager.currentTick := by
      rw [hrest, ← hsame, ← hnext]
      exact hbefore
    rw [logAt_append, if_pos rfl, logAt, logAt, List.filter_append _ rest,
      List.map_append] at hbefore'
    have hfirst : [a] <+: logAt rest s.manager.currentTick :=
      (List.prefix_append_right_inj _).1 hbefore'
    have hrestlog : Chronological rest := by
      rw [← hrest] at hlog
      exact hlog.sublist (List.sublist_append_right _ _)
    obtain ⟨l, hl⟩ := exists_cons_of_chronological hrestlog (hs.le_of_rest hrest) hfirst
    refine ⟨l, ?_⟩
    rw [List.append_assoc, ← hrest, hl]
    rfl
  · have hkept : s'.executedOf p = s.executedOf p := by
      rw [executedOf, hexecuted, List.filter_append, List.filter_singleton]
      rw [Bool.not_eq_true] at ha
      rw [ha]
      exact List.append_nil _
    rw [hkept]
    exact h

/-- What scheduling a callback does to the logs. -/
lemma logs_of_schedule {g freshFunction freshContainer : ℕ} {request : EventManager.Request}
    (h : s.schedule g a request freshFunction freshContainer = .ok s') :
    s'.scheduled = s.scheduled ++ [(s.manager.timeOf request, a)] ∧ s'.executed = s.executed := by
  obtain ⟨-, h⟩ := check_bind_eq_ok.1 h
  obtain ⟨m, -, h⟩ := bind_eq_ok.1 h
  cases h
  exact ⟨rfl, rfl⟩

/-- What a step of `ProcessTick` does to the logs. -/
lemma logs_of_resume (h : s.resume = .ok s') : s'.scheduled = s.scheduled ∧
    (s'.executed = s.executed ∨ ∃ a, s'.executed = s.executed ++ [(s.manager.currentTick, a)]) := by
  rw [System.resume] at h
  split at h
  · cases h
  · obtain ⟨v, -, h⟩ := bind_eq_ok.1 h
    rw [callIn] at h
    split at h
    · obtain ⟨⟨arguments, m⟩, -, h⟩ := bind_eq_ok.1 h
      cases h
      exact ⟨rfl, .inr ⟨arguments, rfl⟩⟩
    · obtain ⟨m, -, h⟩ := bind_eq_ok.1 h
      cases h
      exact ⟨rfl, .inl rfl⟩
  · obtain ⟨m, -, h⟩ := bind_eq_ok.1 h
    cases h
    exact ⟨rfl, .inl rfl⟩

/-- The callbacks of a kind run in the order in which they have been scheduled, provided that
this is the order of their times. -/
structure Ordered (p : γ → Bool) (s : System γ) : Prop where
  inv : s.Inv
  isPrefix : Chronological (s.scheduledOf p) → s.executedOf p <+: s.scheduledOf p

lemma Ordered.new {startTick : TickTime} (h : startTick < tickRange) {reserve maxReserve : ℕ → ℕ} :
    Ordered p (machine (γ := γ) startTick reserve maxReserve).init where
  inv := .new h
  isPrefix _ := List.nil_prefix

lemma Ordered.schedule {g freshFunction freshContainer : ℕ} {request : EventManager.Request}
    (hs : s.Ordered p) (h : s.schedule g a request freshFunction freshContainer = .ok s') :
    s'.Ordered p := by
  obtain ⟨hscheduled, hexecuted⟩ := logs_of_schedule h
  refine ⟨hs.inv.schedule h, fun hlog => ?_⟩
  have hbefore : s.scheduledOf p <+: s'.scheduledOf p := by
    rw [scheduledOf, scheduledOf, hscheduled]
    exact (List.prefix_append _ _).filter _
  rw [executedOf, hexecuted]
  exact (hs.isPrefix (hlog.of_prefix hbefore)).trans hbefore

lemma Ordered.processTick {m : EventManager γ} (hs : s.Ordered p)
    (h : s.manager.processTick = .ok m) : Ordered p { s with manager := m } where
  inv := hs.inv.processTick h
  isPrefix := hs.isPrefix

lemma Ordered.resume (hs : s.Ordered p) (h : s.resume = .ok s') : s'.Ordered p := by
  obtain ⟨hscheduled, hexecuted⟩ := logs_of_resume h
  have hsame : s'.scheduledOf p = s.scheduledOf p := by rw [scheduledOf, hscheduled, scheduledOf]
  refine ⟨hs.inv.of_resume h, fun hlog => ?_⟩
  rw [hsame] at hlog
  rcases hexecuted with hexecuted | ⟨a, hexecuted⟩
  · rw [hsame, executedOf, hexecuted]
    exact hs.isPrefix hlog
  · exact hs.inv.isPrefix_of_executed (hs.inv.of_resume h) hscheduled hexecuted hlog (hs.isPrefix hlog)

end Sesc.Events.System
