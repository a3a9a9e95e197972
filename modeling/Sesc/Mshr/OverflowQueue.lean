import Sesc.Mshr.ArrivalOrder

/-!
# The overflow queue is drained

The overflow queue is empty, or `checkOverflow` is at work on it, or some entry is outstanding, whose
retirement checks the queue.  A request that runs its overflow callback is still the first of the queue.
-/

namespace Sesc.Mshr

open Lib

namespace SingleState

variable {s s' : SingleState} {W : List Request} {f r : Request} {e e' : MSHRentry}
  {m m' : SingleMSHR} {stack : List SingleFrame} {N : ℤ}

/-- `checkOverflow` is not at work. -/
structure Idle (s : SingleState) (W : List Request) : Prop where
  checkingOverflow : s.mshr.checkingOverflow = false
  pending : pending s.stack = []
  overflow : s.mshr.overflow = W

/-- `checkOverflow` is at work, and waits for the callback of a request. -/
structure Busy (s : SingleState) (W : List Request) : Prop where
  checkingOverflow : s.mshr.checkingOverflow = true
  pending : ∃ f, pending s.stack = [f] ∧ s.mshr.overflow = f :: W

/-- The requests of `W` wait in the overflow queue; there are `N` entries. -/
structure Inv (s : SingleState) (N : ℤ) (W : List Request) : Prop where
  core : s.Core W
  mode : (s.Idle W ∧ (W ≠ [] → s.mshr.ms.toList ≠ [])) ∨ s.Busy W
  size : s.mshr.nEntries = N

lemma ms_ne_of_find {line : Addr} (h : m.ms.find line = some e) : m.ms.toList ≠ [] :=
  List.ne_nil_of_mem (Table.find_eq_some.1 h).1

lemma ms_ne_of_full (h : m.Sound) (hfull : ¬0 < m.nFreeEntries) : m.ms.toList ≠ [] := by
  intro hnil
  have hsize := h.size
  have hpos := h.pos
  rw [Table.count, hnil] at hsize
  have : ([] : List MSHRentry).countP (fun _ => true) = 0 := rfl
  omega

/-- The loop of `checkOverflow` keeps the invariant. -/
lemma loop_inv (hpending : pending s.stack = []) :
    ∀ {W m d}, Core { s with mshr := m, destroyed := d ++ s.destroyed } W →
      m.checkingOverflow = true → m.nEntries = N →
      ∃ x W', SingleMSHR.checkOverflowLoop W m d = .ok x ∧ (s.afterOverflow x).Inv N W' := by
  intro W
  induction W with
  | nil =>
    intro m d h _ hN
    exact ⟨_, [], rfl, h.congr, .inl ⟨⟨rfl, hpending, rfl⟩, fun hne => absurd rfl hne⟩, hN⟩
  | cons f rest ih =>
    intro m d h hchecking hN
    have hmo := h.kinds f (h.mem_asked List.mem_cons_self)
    rw [SingleMSHR.checkOverflowLoop]
    cases hfind : m.ms.find (m.calcLineAddr f.paddr) with
    | none =>
      dsimp only
      by_cases hfree : 0 < m.nFreeEntries
      · obtain ⟨e, m', hm', hall⟩ := h.sound.allocate hmo hfind hfree
        change m.allocate _ _ = _ at hm'
        rw [if_pos hfree, hm', ok_bind]
        have hcore : Core (grant { s with
            mshr := m'
            destroyed := d ++ s.destroyed
            stack := .checkOverflow f :: s.stack } (.called (.ovflwcb f))) rest := by
          refine h.allocate hfind hall rfl (fun r => ?_) fun r => ?_
          · simp
          · show (f :: pending s.stack).count r = _
            rw [List.count_cons]
            simp
        refine ⟨_, rest, rfl, hcore.congr, .inr ⟨?_, f, ?_, rfl⟩, hall.nEntries.trans hN⟩
        · exact hall.checkingOverflow.trans hchecking
        · show f :: pending s.stack = [f]
          rw [hpending]
      · have hne : m.ms.toList ≠ [] := ms_ne_of_full h.sound hfree
        rw [if_neg hfree]
        exact ⟨_, f :: rest, rfl, h.congr, .inl ⟨⟨rfl, hpending, rfl⟩, fun _ => hne⟩, hN⟩
    | some e =>
      dsimp only
      rcases h.sound.addToEntry hmo hfind with hadd | ⟨e', m', hadd, hjoin⟩
      · change m.addToEntry _ _ = _ at hadd
        have hne := ms_ne_of_find hfind
        rw [hadd, ok_bind]
        exact ⟨_, f :: rest, rfl, h.congr, .inl ⟨⟨rfl, hpending, rfl⟩, fun _ => hne⟩, hN⟩
      · change m.addToEntry _ _ = _ at hadd
        rw [hadd, ok_bind]
        exact ih (h.join hfind hjoin) (hjoin.checkingOverflow.trans hchecking)
          (hjoin.nEntries.trans hN)

/-- `checkOverflow` restores the invariant when an entry may have been given back. -/
lemma checkOverflow_inv (h : s.Core W) (hmode : s.Idle W ∨ s.Busy W) (hN : s.mshr.nEntries = N) :
    ∃ s' W', s.checkOverflow = .ok s' ∧ s'.Inv N W' := by
  unfold checkOverflow SingleMSHR.checkOverflow
  rcases hmode with hidle | hbusy
  · by_cases hnil : s.mshr.overflow = []
    · rw [if_pos (.inl hnil)]
      refine ⟨_, W, rfl, h, .inl ⟨hidle, fun hne => ?_⟩, hN⟩
      exact absurd (hidle.overflow.symm.trans hnil) hne
    · have hneg : ¬(s.mshr.overflow = [] ∨ s.mshr.checkingOverflow = true) := by
        rintro (hnil' | htrue)
        · exact hnil hnil'
        · exact Bool.false_ne_true (hidle.checkingOverflow.symm.trans htrue)
      obtain rfl : s.mshr.overflow = W := hidle.overflow
      obtain ⟨x, W', hx, hinv⟩ := loop_inv (W := s.mshr.overflow) (d := [])
        (m := { s.mshr with checkingOverflow := true }) hidle.pending h.congr rfl hN
      rw [if_neg hneg, hx]
      exact ⟨_, W', rfl, hinv⟩
  · rw [if_pos (.inr hbusy.checkingOverflow)]
    exact ⟨_, W, rfl, h, .inr hbusy, hN⟩

/-- A request waits in the overflow queue. -/
lemma Inv.overflows (h : s.Inv N W) (hr : r ∉ s.asked) (hmo : r.mo = .MemRead ∨ r.mo = .MemWrite)
    (hne : s.Idle W → W = [] → s.mshr.ms.toList ≠ []) :
    SingleState.Inv { s with asked := s.asked ++ [r], mshr := s.mshr.toOverflow r } N (W ++ [r]) := by
  refine ⟨(h.core.ask hr hmo).congr, ?_, h.size⟩
  rcases h.mode with ⟨hidle, hms⟩ | ⟨hchecking, f, hf, hover⟩
  · refine .inl ⟨⟨hidle.checkingOverflow, hidle.pending, ?_⟩, fun _ => ?_⟩
    · exact congrArg (· ++ [r]) hidle.overflow
    · by_cases hnil : W = []
      · exact hne hidle hnil
      · exact hms hnil
  · refine .inr ⟨hchecking, f, hf, ?_⟩
    exact congrArg (· ++ [r]) hover

lemma Inv.request (h : s.Inv N W) (hr : r ∉ s.asked ∧ r.ovflw = true ∧
    (r.mo = .MemRead ∨ r.mo = .MemWrite)) : ∃ s' W', s.request r = .ok s' ∧ s'.Inv N W' := by
  obtain ⟨hfresh, hovflw, hmo⟩ := hr
  have hask := h.core.ask hfresh hmo
  have hsound := h.core.sound
  unfold SingleState.request
  rw [check_bind ⟨hfresh, hovflw, hmo⟩]
  dsimp only
  by_cases hover : s.mshr.overflow = []
  · have hidle : s.Idle W := by
      rcases h.mode with ⟨hidle, -⟩ | hbusy
      · exact hidle
      · obtain ⟨f, -, hcons⟩ := hbusy.pending
        exact absurd (hover.symm.trans hcons) (List.cons_ne_nil _ _).symm
    obtain rfl : W = [] := hidle.overflow.symm.trans hover
    cases hfind : s.mshr.ms.find (s.mshr.calcLineAddr r.paddr) with
    | none =>
      by_cases hpos : 0 < s.mshr.nFreeEntries
      · obtain ⟨e, m', hm', hall⟩ := hsound.allocate hmo hfind hpos
        rw [hsound.issue_of_free hover hfind hpos hm', ok_bind]
        refine ⟨_, [], rfl, ?_, .inl ⟨⟨?_, hidle.pending, ?_⟩, fun hne => absurd rfl hne⟩, ?_⟩
        · exact hask.allocate hfind hall rfl (fun r' => by simp) fun r' => by simp
        · exact hall.checkingOverflow.trans hidle.checkingOverflow
        · exact hall.overflow.trans hover
        · exact hall.nEntries.trans h.size
      · rw [hsound.issue_of_refused hover (.inr hpos), ok_bind]
        dsimp only
        rw [if_neg Bool.false_ne_true, SingleMSHR.addEntry_of_none hovflw hover hfind]
        exact ⟨_, [r], rfl, h.overflows hfresh hmo fun _ _ => ms_ne_of_full hsound hpos⟩
    | some e =>
      have hsome : s.mshr.ms.find (s.mshr.calcLineAddr r.paddr) ≠ none := by
        rw [hfind]
        exact Option.some_ne_none e
      rw [hsound.issue_of_refused hover (.inl hsome), ok_bind]
      dsimp only
      rw [if_neg Bool.false_ne_true]
      rcases hsound.addToEntry hmo hfind with hadd | ⟨e', m', hadd, hjoin⟩
      · rw [SingleMSHR.addEntry_of_some hovflw hover hfind hadd]
        exact ⟨_, [r], rfl, h.overflows hfresh hmo fun _ _ => ms_ne_of_find hfind⟩
      · rw [SingleMSHR.addEntry_of_some hovflw hover hfind hadd]
        refine ⟨_, [], rfl, hask.join hfind hjoin, .inl ⟨⟨?_, hidle.pending, ?_⟩, ?_⟩, ?_⟩
        · exact hjoin.checkingOverflow.trans hidle.checkingOverflow
        · exact hjoin.overflow.trans hover
        · exact fun hne => absurd rfl hne
        · exact hjoin.nEntries.trans h.size
  · rw [SingleMSHR.issue_of_overflow hover, ok_bind]
    dsimp only
    rw [if_neg Bool.false_ne_true, SingleMSHR.addEntry_of_overflow hovflw hover]
    refine ⟨_, W ++ [r], rfl, h.overflows hfresh hmo fun hidle hnil => ?_⟩
    exact absurd (hidle.overflow.trans hnil) hover

lemma Inv.retire (h : s.Inv N W) (hr : r ∈ s.outstanding) :
    ∃ s' W', s.retire r = .ok s' ∧ s'.Inv N W' := by
  obtain ⟨e, hfind⟩ := h.core.find_of_outstanding hr
  unfold SingleState.retire
  rw [check_bind hr]
  dsimp only
  rcases h.core.sound.retireEntry hfind with ⟨c, e', m', hm', hnext⟩ | ⟨m', hm', hrelease⟩
  · rw [hm', ok_bind]
    refine ⟨_, W, rfl, h.core.next hr hfind hnext rfl, ?_, hnext.nEntries.trans h.size⟩
    rcases h.mode with ⟨hidle, -⟩ | ⟨hchecking, f, hf, hover⟩
    · refine .inl ⟨⟨?_, hidle.pending, ?_⟩, fun _ => ?_⟩
      · exact hnext.checkingOverflow.trans hidle.checkingOverflow
      · exact hnext.overflow.trans hidle.overflow
      · show m'.ms.toList ≠ []
        rw [hnext.ms]
        exact List.cons_ne_nil _ _
    · refine .inr ⟨hnext.checkingOverflow.trans hchecking, f, hf, ?_⟩
      exact hnext.overflow.trans hover
  · rw [hm', ok_bind]
    refine checkOverflow_inv (h.core.release hr hfind hrelease) ?_ (hrelease.nEntries.trans h.size)
    rcases h.mode with ⟨hidle, -⟩ | ⟨hchecking, f, hf, hover⟩
    · refine .inl ⟨?_, hidle.pending, ?_⟩
      · exact hrelease.checkingOverflow.trans hidle.checkingOverflow
      · exact hrelease.overflow.trans hidle.overflow
    · refine .inr ⟨hrelease.checkingOverflow.trans hchecking, f, hf, ?_⟩
      exact hrelease.overflow.trans hover

lemma Inv.callbackReturns (h : s.Inv N W) (hstack : s.stack ≠ []) :
    ∃ s' W', s.callbackReturns = .ok s' ∧ s'.Inv N W' := by
  have hcore := h.core
  unfold SingleState.callbackReturns
  cases hs : s.stack with
  | nil => exact absurd hs hstack
  | cons frame stack =>
    cases frame with
    | retire =>
      have hpending : pending s.stack = pending stack := by
        rw [hs]
        rfl
      have hcore' : Core { s with stack := stack } W := by
        refine ⟨hcore.sound, hcore.home, hcore.owned, hcore.fresh, hcore.kinds, hcore.order,
          hcore.granted, fun r => ?_, hcore.ovflwcbs, hcore.books⟩
        rw [← hcore.cbs, hpending]
      refine checkOverflow_inv hcore' ?_ h.size
      rcases h.mode with ⟨hidle, -⟩ | ⟨hchecking, f, hf, hover⟩
      · exact .inl ⟨hidle.checkingOverflow, hpending.symm.trans hidle.pending, hidle.overflow⟩
      · exact .inr ⟨hchecking, f, hpending.symm.trans hf, hover⟩
    | checkOverflow f =>
      have hpending : pending s.stack = f :: pending stack := by
        rw [hs]
        rfl
      rcases h.mode with ⟨hidle, -⟩ | ⟨hchecking, f', hf, hover⟩
      · exact absurd (hpending.symm.trans hidle.pending) (List.cons_ne_nil _ _)
      · obtain ⟨rfl, hnone⟩ := List.cons.inj (hpending.symm.trans hf)
        have hcore' : Core { s with
            stack := stack
            destroyed := [] ++ (.cb f :: s.destroyed) } W := by
          refine ⟨hcore.sound, hcore.home, hcore.owned, hcore.fresh, hcore.kinds, hcore.order,
            hcore.granted, fun r => ?_, fun r => ?_, hcore.books⟩
          · have := hcore.cbs r
            rw [hpending, List.count_cons] at this
            show (Callback.cb f :: s.destroyed).count _ + (pending stack).count r = _
            rw [List.count_cons, ← this]
            simp only [beq_iff_eq, Callback.cb.injEq]
            omega
          · show (Callback.cb f :: s.destroyed).count _ = _
            rw [List.count_cons_of_ne (by exact Callback.noConfusion)]
            exact hcore.ovflwcbs r
        obtain ⟨x, W', hx, hinv⟩ := loop_inv (N := N)
          (s := { s with stack := stack, destroyed := .cb f :: s.destroyed }) hnone hcore' hchecking
          h.size
        dsimp only
        rw [hover]
        dsimp only
        rw [hx]
        exact ⟨_, W', rfl, hinv⟩

/-! ## Runs -/

lemma Inv.new {size nrd nwr : ℤ} {lineSize : ℕ} (h : SingleMSHR.new size lineSize nrd nwr = .ok m)
    (hnrd : 1 ≤ nrd) (hnwr : 0 ≤ nwr) : (singleMachine m).init.Inv m.nEntries [] := by
  obtain ⟨hsize, h⟩ := check_bind_eq_ok.1 h
  cases h
  refine ⟨⟨⟨hsize.1, hnrd, hnwr, fun e he => absurd he (Table.not_mem_empty e), ?_, ?_, rfl, rfl⟩,
    fun e he => absurd he (Table.not_mem_empty e), fun line => rfl, List.nodup_nil,
    fun r hr => absurd hr List.not_mem_nil, fun line => rfl, fun r => rfl, fun r => rfl,
    fun r => rfl, rfl⟩, .inl ⟨⟨rfl, rfl, rfl⟩, fun hne => absurd rfl hne⟩, rfl⟩
  · show size + ((0 : ℕ) : ℤ) = size
    omega
  · exact Int.le_of_lt hsize.1

lemma Inv.step {event : SingleEvent} (h : s.Inv N W) (hs : (singleMachine m).step s event = .ok s') :
    ∃ W', s'.Inv N W' := by
  cases event with
  | request r =>
    obtain ⟨hr, -⟩ := check_bind_eq_ok.1 hs
    obtain ⟨t, W', ht, hinv⟩ := h.request hr
    cases ht.symm.trans hs
    exact ⟨W', hinv⟩
  | retire r =>
    obtain ⟨hr, -⟩ := check_bind_eq_ok.1 hs
    obtain ⟨t, W', ht, hinv⟩ := h.retire hr
    cases ht.symm.trans hs
    exact ⟨W', hinv⟩
  | callbackReturns =>
    have hstack : s.stack ≠ [] := by
      intro hnil
      change s.callbackReturns = _ at hs
      rw [SingleState.callbackReturns, hnil] at hs
      cases hs
    obtain ⟨t, W', ht, hinv⟩ := h.callbackReturns hstack
    cases ht.symm.trans hs
    exact ⟨W', hinv⟩

/-- No assertion fails. -/
lemma Inv.step_ne_assertion {event : SingleEvent} (h : s.Inv N W) :
    (singleMachine m).step s event ≠ .error .assertion := by
  intro hs
  cases event with
  | request r =>
    by_cases hr : r ∉ s.asked ∧ r.ovflw = true ∧ (r.mo = .MemRead ∨ r.mo = .MemWrite)
    · obtain ⟨t, W', ht, -⟩ := h.request hr
      cases ht.symm.trans hs
    · cases (check_bind_of_not hr).symm.trans hs
  | retire r =>
    by_cases hr : r ∈ s.outstanding
    · obtain ⟨t, W', ht, -⟩ := h.retire hr
      cases ht.symm.trans hs
    · cases (check_bind_of_not hr).symm.trans hs
  | callbackReturns =>
    by_cases hstack : s.stack = []
    · change s.callbackReturns = _ at hs
      rw [SingleState.callbackReturns, hstack] at hs
      cases hs
    · obtain ⟨t, W', ht, -⟩ := h.callbackReturns hstack
      cases ht.symm.trans hs

/-- In every reachable state, the requests are somewhere. -/
lemma exists_inv {size nrd nwr : ℤ} {lineSize : ℕ} (h : SingleMSHR.new size lineSize nrd nwr = .ok m)
    (hnrd : 1 ≤ nrd) (hnwr : 0 ≤ nwr) (hs : (singleMachine m).Reachable s) :
    ∃ W, s.Inv m.nEntries W := by
  refine Machine.Reachable.invariant (I := fun s => ∃ W, s.Inv m.nEntries W) hs
    ⟨[], Inv.new h hnrd hnwr⟩ ?_
  rintro s event s' ⟨W, hinv⟩ hstep
  exact hinv.step hstep

/-! ## What becomes of the requests -/

/-- The requests of the overflow queue that were not granted. -/
def waiting (s : SingleState) : List Request :=
  s.mshr.overflow.filter fun r => r ∉ s.grants.map Grant.request

/-- How often `issue` granted the request and how often its callbacks were called, and how often they were
destroyed; the callback of a request that runs its overflow callback is destroyed next. -/
def history (s : SingleState) (r : Request) : (ℕ × ℕ × ℕ) × ℕ × ℕ :=
  ((s.grants.count (.issued r), s.grants.count (.called (.cb r)), s.grants.count (.called (.ovflwcb r))),
    s.destroyed.count (.cb r) + (pending s.stack).count r, s.destroyed.count (.ovflwcb r))

/-- The request is granted once: it was issued, or one of its callbacks is called and the other is
destroyed. -/
def GrantedOnce (s : SingleState) (r : Request) : Prop :=
  s.history r = ((1, 0, 0), 0, 0) ∨ s.history r = ((0, 1, 0), 0, 1) ∨ s.history r = ((0, 0, 1), 1, 0)

lemma count_grants (l : List Grant) (r : Request) : (l.map Grant.request).count r =
    l.count (.issued r) + l.count (.called (.cb r)) + l.count (.called (.ovflwcb r)) := by
  induction l with
  | nil => rfl
  | cons g l ih =>
    rw [List.map_cons, List.count_cons, List.count_cons, List.count_cons, List.count_cons, ih]
    rcases g with r' | r' | r' <;> simp [Grant.request, Callback.request] <;> omega

/-- Each request is granted, waits at the entry of its line or waits in the overflow queue. -/
lemma Core.count_asked (h : s.Core W) (r : Request) : s.asked.count r =
    (s.grants.map Grant.request).count r +
      (s.mshr.waitingAt (s.mshr.calcLineAddr r.paddr)).count r + W.count r := by
  have hself : s.mshr.isFor (s.mshr.calcLineAddr r.paddr) r = true := decide_eq_true rfl
  rw [← List.count_filter hself, h.order, List.count_append, List.count_append,
    List.count_filter hself, List.count_filter hself]

lemma Core.count_le_one (h : s.Core W) (r : Request) : s.asked.count r ≤ 1 :=
  List.nodup_iff_count_le_one.1 h.fresh r

lemma Core.grantedOnce (h : s.Core W) (hr : r ∈ s.grants.map Grant.request) : s.GrantedOnce r := by
  have hasked := h.count_asked r
  have hle := h.count_le_one r
  have hpos := List.count_pos_iff.2 hr
  have hcount := count_grants s.grants r
  have hcbs := h.cbs r
  have hovflwcbs := h.ovflwcbs r
  have hwait : (s.mshr.waitingAt (s.mshr.calcLineAddr r.paddr)).count r = 0 := by omega
  rw [hwait, Nat.zero_add] at hovflwcbs
  unfold GrantedOnce history
  rw [hcbs, hovflwcbs]
  simp only [Prod.mk.injEq]
  omega

/-- Those of `W` are the requests of the overflow queue that were not granted. -/
lemma Inv.waiting_eq (h : s.Inv N W) : s.waiting = W := by
  have hW : ∀ r ∈ W, decide (r ∉ s.grants.map Grant.request) = true := by
    intro r hr
    refine decide_eq_true fun hmem => ?_
    have hasked := h.core.count_asked r
    have hle := h.core.count_le_one r
    have hpos := List.count_pos_iff.2 hr
    have hpos' := List.count_pos_iff.2 hmem
    omega
  unfold waiting
  rcases h.mode with ⟨hidle, -⟩ | hbusy
  · rw [hidle.overflow]
    exact List.filter_eq_self.2 hW
  · obtain ⟨f, hf, hover⟩ := hbusy.pending
    have hgranted : f ∈ s.grants.map Grant.request := by
      have hcbs := h.core.cbs f
      have hcount := count_grants s.grants f
      rw [hf, List.count_singleton_self] at hcbs
      refine List.count_pos_iff.1 ?_
      omega
    rw [hover, List.filter_cons_of_neg (by simpa using hgranted)]
    exact List.filter_eq_self.2 hW

/-- When nothing runs and all granted requests are retired, nothing is left. -/
lemma Inv.settled (h : s.Inv N W) (hstack : s.stack = []) (hout : s.outstanding = []) :
    s.mshr.ms.toList = [] ∧ s.mshr.overflow = [] ∧ s.mshr.nFreeEntries = N ∧
      ∀ r ∈ s.asked, s.GrantedOnce r ∧ r ∈ s.retired := by
  have hnone : ∀ line, s.mshr.ms.find line = none := by
    intro line
    have howned := h.core.owned line
    rw [hout] at howned
    cases hfind : s.mshr.ms.find line with
    | none => rfl
    | some e =>
      rw [hfind] at howned
      cases howned
  have hempty : s.mshr.ms.toList = [] := by
    refine List.eq_nil_iff_forall_not_mem.2 fun e he => ?_
    exact Table.find_eq_none.1 (hnone e.reqLineAddr) e he rfl
  have hpending : pending s.stack = [] := by
    rw [hstack]
    rfl
  have hidle : s.Idle W ∧ W = [] := by
    rcases h.mode with ⟨hidle, hms⟩ | hbusy
    · refine ⟨hidle, ?_⟩
      by_contra hne
      exact hms hne hempty
    · obtain ⟨f, hf, -⟩ := hbusy.pending
      exact absurd (hpending.symm.trans hf) (List.cons_ne_nil _ _).symm
  obtain ⟨hidle, rfl⟩ := hidle
  refine ⟨hempty, hidle.overflow, ?_, fun r hr => ?_⟩
  · have hsize := h.core.sound.size
    rw [Table.count, hempty, h.size] at hsize
    simpa using hsize
  · have hasked := h.core.count_asked r
    have hpos := List.count_pos_iff.2 hr
    have hgranted := h.core.granted r
    rw [SingleMSHR.waitingAt_of_none (hnone _)] at hasked
    rw [hout] at hgranted
    simp only [List.count_nil] at hasked hgranted
    refine ⟨h.core.grantedOnce (List.count_pos_iff.1 ?_), List.count_pos_iff.1 ?_⟩ <;> omega

/-! ## The number of calls that are left -/

/-- How many more times a frame may come back. -/
def weight : SingleFrame → ℕ
  | .retire => 2
  | .checkOverflow _ => 1

def weights : List SingleFrame → ℕ
  | [] => 0
  | frame :: stack => weight frame + weights stack

/-- A bound for the number of steps without a new request. -/
def work (s : SingleState) : ℕ :=
  3 * (s.asked.length - s.retired.length) + s.mshr.overflow.length + weights s.stack

lemma Inv.retired_le (h : s.Inv N W) : s.retired.length ≤ s.asked.length := by
  refine List.Subperm.length_le (List.subperm_ext_iff.2 fun r _ => ?_)
  have hasked := h.core.count_asked r
  have hgranted := h.core.granted r
  omega

lemma length_loop {x : SingleMSHR × Option Request × List Callback} :
    ∀ {W m d}, SingleMSHR.checkOverflowLoop W m d = .ok x → x.1.overflow.length ≤ W.length := by
  intro W
  induction W with
  | nil =>
    intro m d h
    cases h
    exact Nat.zero_le _
  | cons f rest ih =>
    intro m d h
    rw [SingleMSHR.checkOverflowLoop] at h
    split at h
    · split at h
      · obtain ⟨m', -, h⟩ := bind_eq_ok.1 h
        cases h
        exact Nat.le_refl _
      · cases h
        exact Nat.le_refl _
    · obtain ⟨⟨accepted, m'⟩, -, h⟩ := bind_eq_ok.1 h
      dsimp only at h
      split at h
      · exact (ih h).trans (Nat.le_succ _)
      · cases h
        exact Nat.le_refl _

/-- What the outcome of `checkOverflow` does to the numbers that `work` depends on. -/
structure Works (s s' : SingleState) (n : ℕ) : Prop where
  asked : s'.asked = s.asked
  retired : s'.retired = s.retired
  overflow : s'.mshr.overflow.length ≤ n
  stack : weights s'.stack ≤ weights s.stack + 1

lemma afterOverflow_works {x : SingleMSHR × Option Request × List Callback} {n : ℕ}
    (h : x.1.overflow.length ≤ n) : s.Works (s.afterOverflow x) n := by
  obtain ⟨m, called, d⟩ := x
  cases called with
  | none => exact ⟨rfl, rfl, h, Nat.le_succ _⟩
  | some f =>
    refine ⟨rfl, rfl, h, ?_⟩
    show weights (.checkOverflow f :: s.stack) ≤ _
    rw [weights, weight]
    omega

lemma checkOverflow_works (h : s.checkOverflow = .ok s') : s.Works s' s.mshr.overflow.length := by
  obtain ⟨x, hx, h⟩ := bind_eq_ok.1 h
  cases h
  refine afterOverflow_works ?_
  unfold SingleMSHR.checkOverflow at hx
  split at hx
  · cases hx
    exact Nat.le_refl _
  · exact length_loop hx

lemma callbackReturns_works (h : s.callbackReturns = .ok s') :
    s'.asked = s.asked ∧ s'.retired = s.retired ∧
      s'.mshr.overflow.length + weights s'.stack <
        s.mshr.overflow.length + weights s.stack := by
  unfold callbackReturns at h
  split at h
  · cases h
  · rename_i stack hstack
    have hworks := checkOverflow_works h
    refine ⟨hworks.asked, hworks.retired, ?_⟩
    have hover := hworks.overflow
    have hsum := hworks.stack
    rw [hstack, weights, weight]
    dsimp only at hover hsum
    omega
  · rename_i f stack hstack
    dsimp only at h
    split at h
    · cases h
    · rename_i f' rest hover
      obtain ⟨x, hx, h⟩ := bind_eq_ok.1 h
      cases h
      have hworks := afterOverflow_works
        (s := { s with stack := stack, destroyed := .cb f :: s.destroyed }) (length_loop hx)
      refine ⟨hworks.asked, hworks.retired, ?_⟩
      have hlength := hworks.overflow
      have hsum := hworks.stack
      rw [hstack, weights, weight, hover, List.length_cons]
      dsimp only at hlength hsum
      omega

lemma retireEntry_overflow {paddr : Addr} {called : Option Callback}
    (h : m.retireEntry paddr = .ok (m', called)) : m'.overflow = m.overflow := by
  unfold SingleMSHR.retireEntry at h
  split at h
  · cases h
  · dsimp only at h
    split at h
    · cases h
      rfl
    · rw [check_bind_eq_ok, check_bind_eq_ok] at h
      cases h.2.2
      rfl

lemma retire_works (h : s.retire r = .ok s') : s'.asked = s.asked ∧ s'.retired = r :: s.retired ∧
    s'.mshr.overflow.length + weights s'.stack ≤
      s.mshr.overflow.length + weights s.stack + 2 := by
  obtain ⟨-, h⟩ := check_bind_eq_ok.1 h
  obtain ⟨⟨m', called⟩, hm', h⟩ := bind_eq_ok.1 h
  have hover := retireEntry_overflow hm'
  cases called with
  | none =>
    have hworks := checkOverflow_works h
    refine ⟨hworks.asked, hworks.retired, ?_⟩
    have hlength := hworks.overflow
    have hsum := hworks.stack
    rw [← hover]
    dsimp only at hlength hsum
    omega
  | some c =>
    cases h
    refine ⟨rfl, rfl, ?_⟩
    show m'.overflow.length + weights (.retire :: s.stack) ≤ _
    rw [weights, weight, hover]
    dsimp only
    omega

/-- The steps other than requests come to an end. -/
lemma Inv.work_lt {event : SingleEvent} (h : s.Inv N W) (he : ∀ r, event ≠ .request r)
    (hs : (singleMachine m).step s event = .ok s') : s'.work < s.work := by
  obtain ⟨W', h'⟩ := h.step hs
  have hle := h'.retired_le
  cases event with
  | request r => exact absurd rfl (he r)
  | retire r =>
    obtain ⟨hasked, hretired, hstack⟩ := retire_works hs
    rw [hasked, hretired, List.length_cons] at hle
    rw [work, work, hasked, hretired, List.length_cons]
    omega
  | callbackReturns =>
    obtain ⟨hasked, hretired, hstack⟩ := callbackReturns_works hs
    rw [work, work, hasked, hretired]
    omega

lemma Inv.exec_length {es : List SingleEvent} (h : s.Inv N W)
    (hes : ∀ e ∈ es, ∀ r, e ≠ .request r) (hex : (singleMachine m).exec s es = .ok s') :
    es.length ≤ s.work := by
  induction es generalizing s W with
  | nil => exact Nat.zero_le _
  | cons e es ih =>
    obtain ⟨t, ht, hex⟩ := Machine.exec_cons.1 hex
    have hlt := h.work_lt (hes e List.mem_cons_self) ht
    obtain ⟨W', h'⟩ := h.step ht
    have hle := ih h' (fun e' he' => hes e' (List.mem_cons_of_mem _ he')) hex
    rw [List.length_cons]
    omega

end SingleState

/-! ## Conservation -/

/-- What is conserved: no assertion fails and the counters are exact; the requests of a line are granted in
the order in which they were made, and each at most once; while requests wait in the overflow queue, an
entry is outstanding or a callback of `checkOverflow` is running; without new requests everything comes to
an end, and then every request was granted once. -/
structure SingleConserved (m : SingleMSHR) (s : SingleState) : Prop where
  noAssertion : ∀ event, (singleMachine m).step s event ≠ .error .assertion
  free : s.mshr.nFreeEntries = m.nEntries - s.mshr.ms.toList.length ∧ 0 ≤ s.mshr.nFreeEntries
  fullReads : s.mshr.nFullReadEntries = s.mshr.ms.toList.countP fun e => !e.hasFreeReads
  fullWrites : s.mshr.nFullWriteEntries = s.mshr.ms.toList.countP fun e => !e.hasFreeWrites
  atMostOnce : s.asked.Nodup
  inOrder : ∀ line, s.asked.filter (s.mshr.isFor line) =
    (s.grants.map Grant.request).filter (s.mshr.isFor line) ++ s.mshr.waitingAt line ++
      s.waiting.filter (s.mshr.isFor line)
  grantedOnce : ∀ r ∈ s.grants.map Grant.request, s.GrantedOnce r
  progress : s.mshr.overflow ≠ [] → s.mshr.ms.toList ≠ [] ∨ SingleState.pending s.stack ≠ []
  ends : ∃ n : ℕ, ∀ es s', (∀ e ∈ es, ∀ r, e ≠ .request r) →
    (singleMachine m).exec s es = .ok s' → es.length ≤ n
  goesOn : s.stack ≠ [] ∨ s.outstanding ≠ [] →
    ∃ e s', (∀ r, e ≠ .request r) ∧ (singleMachine m).step s e = .ok s'
  settled : s.stack = [] → s.outstanding = [] →
    s.mshr.ms.toList = [] ∧ s.mshr.overflow = [] ∧ s.mshr.nFreeEntries = m.nEntries ∧
      ∀ r ∈ s.asked, s.GrantedOnce r ∧ r ∈ s.retired

/-- The registers neither lose nor duplicate a request, when entries have subentries for reads. -/
theorem SingleMSHR.grantsInOrder (size : ℤ) (lineSize : ℕ) (nrd nwr : ℤ) {m : SingleMSHR} {s : SingleState}
    (hnew : SingleMSHR.new size lineSize nrd nwr = .ok m) (hnrd : 1 ≤ nrd) (hnwr : 0 ≤ nwr)
    (hs : (singleMachine m).Reachable s) : SingleConserved m s := by
  obtain ⟨W, h⟩ := SingleState.exists_inv hnew hnrd hnwr hs
  have hsound := h.core.sound
  refine ⟨fun event => h.step_ne_assertion, ⟨?_, hsound.free⟩, hsound.fullReads, hsound.fullWrites,
    h.core.fresh, ?_, fun r hr => h.core.grantedOnce hr, fun hover => ?_,
    ⟨s.work, fun es s' hes hex => h.exec_length hes hex⟩, fun hmore => ?_,
    fun hstack hout => h.settled hstack hout⟩
  · have hsize := hsound.size
    rw [Table.count, List.countP_true, h.size] at hsize
    omega
  · rw [h.waiting_eq]
    exact h.core.order
  · rcases h.mode with ⟨hidle, hms⟩ | hbusy
    · exact .inl (hms (hidle.overflow ▸ hover))
    · obtain ⟨f, hf, -⟩ := hbusy.pending
      refine .inr ?_
      rw [hf]
      exact List.cons_ne_nil _ _
  · by_cases hstack : s.stack = []
    · obtain ⟨r, hr⟩ := List.exists_mem_of_ne_nil _ (hmore.resolve_left (not_not.2 hstack))
      obtain ⟨s', W', hs', -⟩ := h.retire hr
      exact ⟨.retire r, s', fun r' => SingleEvent.noConfusion, hs'⟩
    · obtain ⟨s', W', hs', -⟩ := h.callbackReturns hstack
      exact ⟨.callbackReturns, s', fun r' => SingleEvent.noConfusion, hs'⟩

/-- A request overflows, gets the entry of the retired one, and is retired by its own overflow callback. -/
def retiredInCallback : List SingleEvent :=
  [.request ⟨0, 0, .MemRead, true⟩, .request ⟨1, 32, .MemWrite, true⟩,
    .retire ⟨0, 0, .MemRead, true⟩, .retire ⟨1, 32, .MemWrite, true⟩]

theorem SingleMSHR.grantsInOrder_retiredInCallback : ∃ m s, SingleMSHR.new 1 32 1 0 = .ok m ∧
    (singleMachine m).exec (singleMachine m).init retiredInCallback = .ok s ∧
    s.mshr.overflow ≠ [] ∧ SingleConserved m s := by
  refine ⟨_, _, rfl, rfl, List.cons_ne_nil _ _, ?_⟩
  exact SingleMSHR.grantsInOrder 1 32 1 0 rfl (by decide) (by decide)
    ⟨retiredInCallback, Machine.run_of_exec rfl⟩

/-- In the callback that retires its own request, the request is still in the overflow queue, and no entry is
outstanding.  An entry without subentries for reads is not counted when it is taken by a write, and its
retirement fails an assertion. -/
theorem SingleMSHR.overflow_without_entry :
    (∃ m s, SingleMSHR.new 1 32 1 0 = .ok m ∧
      (singleMachine m).exec (singleMachine m).init retiredInCallback = .ok s ∧
      s.mshr.overflow ≠ [] ∧ s.mshr.ms.toList = []) ∧
    ∃ m, SingleMSHR.new 1 32 0 1 = .ok m ∧
      (singleMachine m).exec (singleMachine m).init
        [.request ⟨0, 0, .MemWrite, true⟩, .retire ⟨0, 0, .MemWrite, true⟩] = .error .assertion := by
  refine ⟨⟨_, _, rfl, rfl, List.cons_ne_nil _ _, rfl⟩, _, rfl, rfl⟩

end Sesc.Mshr
