import Sesc.Tm.Flags

/-!
# `ObserveAccess` and the calls of `BeginTransaction`

`ObserveAccess` calls `BeginTransaction` for the transaction of its access, if this has not been
observed yet, and records the begin after the call.  Between the call and the record there are
only frames of `BeginTransaction`.
-/

namespace Sesc.Tm

open Lib Sesc.Trans

/-- A frame of `BeginTransaction` right above that of an `ObserveAccess` is about the transaction of
its access, which is not observed; it is not resolved either once this has been asserted. -/
def Opening (s : TMInterface) (f : Frame) (stamp : Stamp) : Prop :=
  ∃ a x, s.accessSet.find stamp = some a ∧ f.opens = some a.transactionEntry ∧
    s.flags a.transactionEntry = some x ∧ x.progressObserved = false ∧
    ((∀ force, f ≠ .begin a.transactionEntry force) → x.resolved = false)

/-- The calls in progress below those of `BeginTransaction`. -/
inductive Base (s : TMInterface) : List Frame → Prop
  | calm {fs : List Frame} (quiet : ∀ f ∈ fs, f.quiet = true) : Base s fs
  | opening {f : Frame} {stamp : Stamp} {fs : List Frame} (opening : Opening s f stamp)
      (quiet : ∀ f ∈ fs, f.quiet = true) : Base s (f :: .observeBegun stamp :: fs)

/-- All calls in progress. -/
inductive Framed (s : TMInterface) : Prop
  | base {begins fs : List Frame} (frames : s.frames = begins ++ fs)
      (isBegin : ∀ f ∈ begins, f.isBegin = true) (base : Base s fs)
  | begun {stamp : Stamp} {fs : List Frame} (frames : s.frames = .observeBegun stamp :: fs)
      (quiet : ∀ f ∈ fs, f.quiet = true)

namespace TMInterface

/-- The transaction that has begun and of which this is to be recorded. -/
def pending (s : TMInterface) : Option Level :=
  match s.frames with
  | .observeBegun stamp :: _ =>
    if s.retryTime = 0 then (s.accessSet.find stamp).map StoredAccess.transactionEntry else none
  | _ => none

variable {s s' : TMInterface} {f : Frame} {fs : List Frame} {o : Outcome}

/-! ## Quiet calls -/

lemma pending_of_head (h : ∀ stamp fs, s.frames ≠ .observeBegun stamp :: fs) :
    s.pending = none := by
  rw [pending]
  split
  · rename_i hframes
    exact absurd hframes (h _ _)
  · rfl

lemma pending_of_quiet (h : ∀ f ∈ s.frames, f.quiet = true) : s.pending = none := by
  refine pending_of_head fun stamp fs hframes => ?_
  have hquiet := h (.observeBegun stamp) (by rw [hframes]; exact List.mem_cons_self)
  cases hquiet

lemma pending_of_isBegin (hframes : s.frames = f :: fs) (hf : f.isBegin = true) :
    s.pending = none := by
  refine pending_of_head fun stamp gs h => ?_
  cases hframes.symm.trans h
  cases hf

lemma framed_of_quiet (h : ∀ f ∈ s.frames, f.quiet = true) : Framed s :=
  .base (List.nil_append s.frames).symm (fun _ hf => nomatch hf) (.calm h)

/-- Quiet calls are made on top of quiet calls. -/
lemma quiet_of_pushed (h : ∀ f ∈ fs, f.quiet = true)
    (hpushed : ∃ gs, s'.frames = gs ++ fs ∧ ∀ f ∈ gs, f.quiet = true) :
    ∀ f ∈ s'.frames, f.quiet = true := by
  obtain ⟨gs, hframes, hgs⟩ := hpushed
  intro f hf
  rw [hframes] at hf
  exact (List.mem_append.1 hf).elim (hgs f) (h f)

/-- Below a quiet call there are only quiet calls. -/
lemma quiet_of_cons (hs : Framed s) (hframes : s.frames = f :: fs) (hf : f.isBegin = false) :
    ∀ g ∈ fs, g.quiet = true := by
  cases hs with
  | base hbase hbegin hquiet =>
    rename_i begins gs
    cases begins with
    | cons g begins =>
      cases hframes.symm.trans hbase
      rw [hbegin f List.mem_cons_self] at hf
      cases hf
    | nil =>
      cases hquiet with
      | calm hquiet =>
        intro g hg
        refine hquiet g ?_
        rw [List.nil_append] at hbase
        rw [← hbase, hframes]
        exact List.mem_cons_of_mem _ hg
      | opening hopening hquiet =>
        obtain ⟨a, x, -, hopens, -⟩ := hopening
        cases hframes.symm.trans hbase
        rw [Frame.isBegin_of_opens hopens] at hf
        cases hf
  | begun hbegun hquiet =>
    cases hframes.symm.trans hbegun
    exact hquiet

/-- Between two steps and while a transaction is rerun, only quiet calls are in progress. -/
lemma quiet_of_mayCall (hs : Framed s) (h : s.mayCall = true) : ∀ f ∈ s.frames, f.quiet = true := by
  rw [mayCall] at h
  split at h
  · rename_i hframes
    rw [hframes]
    exact fun _ hf => nomatch hf
  · rename_i pid fs hframes
    intro f hf
    rw [hframes] at hf
    rcases List.mem_cons.1 hf with rfl | hf
    · rfl
    · exact quiet_of_cons hs hframes rfl f hf
  · cases h

/-! ## The frames of `BeginTransaction` -/

/-- Some calls of `BeginTransaction` are made. -/
lemma framed_of_begins {gs : List Frame} (hframes : s.frames = gs ++ fs)
    (hgs : ∀ g ∈ gs, g.isBegin = true) (hquiet : ∀ f ∈ fs, f.quiet = true) :
    Framed s ∧ s.pending = none := by
  refine ⟨.base hframes hgs (.calm hquiet), pending_of_head fun stamp fs' h => ?_⟩
  rw [hframes] at h
  cases gs with
  | nil =>
    have := hquiet (.observeBegun stamp) (by rw [← List.nil_append fs, h]; exact List.mem_cons_self)
    cases this
  | cons g gs =>
    cases h
    cases hgs _ List.mem_cons_self

lemma base_of_same (h : Base s fs) (hflags : s'.flags = s.flags)
    (haccesses : s'.accessSet = s.accessSet) : Base s' fs := by
  cases h with
  | calm hquiet => exact .calm hquiet
  | opening hopening hquiet =>
    obtain ⟨a, x, ha, hopens, hx, hobserved⟩ := hopening
    exact .opening ⟨a, x, by rw [haccesses]; exact ha, hopens, by rw [hflags]; exact hx, hobserved⟩
      hquiet

/-- No call that is to be recorded is right below those of `BeginTransaction`. -/
lemma head_ne_of_base {stamp : Stamp} {gs : List Frame} (h : Base s fs) :
    fs ≠ .observeBegun stamp :: gs := by
  rintro rfl
  cases h with
  | calm hquiet => cases hquiet _ List.mem_cons_self
  | opening hopening hquiet =>
    obtain ⟨a, x, -, hopens, -⟩ := hopening
    cases hopens

lemma pending_of_base {begins : List Frame} (hframes : s.frames = begins ++ fs)
    (hbegins : ∀ g ∈ begins, g.isBegin = true) (hbase : Base s fs) : s.pending = none := by
  refine pending_of_head fun stamp gs h => ?_
  rw [hframes] at h
  cases begins with
  | nil => exact head_ne_of_base hbase h
  | cons g begins =>
    cases h
    cases hbegins _ List.mem_cons_self

/-- A call of `BeginTransaction` is over, or goes on with a frame about the same transaction. -/
def Continues (f : Frame) (s s' : TMInterface) : Prop :=
  ∃ id x, f.opens = some id ∧ s'.flags = s.flags ∧ s'.accessSet = s.accessSet ∧
    ((∃ force, f = .begin id force) → s.flags id = some x ∧ x.resolved = false) ∧
    (((∃ force, f = .begin id force) ∧ x.progressObserved = true ∧ s'.frames = s.frames) ∨
      ∃ gs g, s'.frames = gs ++ g :: s.frames ∧ (∀ g ∈ gs, g.isBegin = true) ∧ g.opens = some id ∧
        ∀ force, g ≠ .begin id force)

lemma continues_begin {id : Level} {force : Bool} :
    Ensures (Continues (.begin id force) s) (s.beginTransaction id force) := by
  refine beginTransaction_spec.mono fun s' h => ?_
  obtain ⟨hflags, haccesses, x, hx, hresolved, hframes⟩ := h
  refine ⟨id, x, rfl, hflags, haccesses, fun _ => ⟨hx, hresolved⟩, ?_⟩
  split at hframes
  · rename_i hobserved
    exact .inl ⟨⟨force, rfl⟩, hobserved, hframes⟩
  · obtain ⟨gs, hgs, hbegin⟩ := hframes
    exact .inr ⟨gs, _, hgs, hbegin, rfl, fun _ h => nomatch h⟩

lemma continues_beginParent {id : Level} {force : Bool} :
    Ensures (Continues (.beginParent id force) s) (s.beginParent id force) := by
  refine beginParent_spec.mono fun s' h => ?_
  obtain ⟨hflags, haccesses, gs, hgs, hbegin⟩ := h
  have hnot : ¬∃ force', Frame.beginParent id force = .begin id force' := fun ⟨_, h⟩ => nomatch h
  exact ⟨id, ⟨false, false⟩, rfl, hflags, haccesses, fun h => absurd h hnot,
    .inr ⟨gs, _, hgs, hbegin, rfl, fun _ h => nomatch h⟩⟩

/-- A frame of `BeginTransaction` that goes on keeps the calls in progress as they must be. -/
lemma Continues.framed (h : Continues f (s.setFrames fs) s') (hs : Framed s)
    (hframes : s.frames = f :: fs) : Framed s' ∧ s'.pending = none := by
  obtain ⟨id, x, hopens, hflags, haccesses, hx, hnext⟩ := h
  have hf : f.isBegin = true := Frame.isBegin_of_opens hopens
  cases hs with
  | begun hbegun _ =>
    cases hframes.symm.trans hbegun
    cases hf
  | base hbase hbegins hbelow =>
    rename_i begins below
    cases begins with
    | cons f' begins =>
      cases hframes.symm.trans hbase
      have hbegins' : ∀ g ∈ begins, g.isBegin = true := fun g hg =>
        hbegins g (List.mem_cons_of_mem _ hg)
      have hbelow' : Base s' below := base_of_same hbelow hflags haccesses
      rcases hnext with ⟨-, -, hsame⟩ | ⟨gs, g, hpushed, hgs, hg, -⟩
      · exact ⟨.base hsame hbegins' hbelow', pending_of_base hsame hbegins' hbelow'⟩
      · have hsplit : s'.frames = (gs ++ g :: begins) ++ below := by
          rw [List.append_assoc]
          exact hpushed
        have hall : ∀ g' ∈ gs ++ g :: begins, g'.isBegin = true := by
          intro g' hg'
          rcases List.mem_append.1 hg' with hg' | hg'
          · exact hgs g' hg'
          · rcases List.mem_cons.1 hg' with rfl | hg'
            · exact Frame.isBegin_of_opens hg
            · exact hbegins' g' hg'
        exact ⟨.base hsplit hall hbelow', pending_of_base hsplit hall hbelow'⟩
    | nil =>
      rw [List.nil_append] at hbase
      rw [← hbase, hframes] at hbelow
      cases hbelow with
      | calm hquiet =>
        have hnot := Frame.not_isBegin_of_quiet (hquiet f List.mem_cons_self)
        rw [hf] at hnot
        cases hnot
      | opening hopening hquiet =>
        -- the transaction has not been observed, so the call goes on
        rename_i stamp others
        obtain ⟨a, y, ha, hopens', hy, hunobserved, hunresolved⟩ := hopening
        cases hopens.symm.trans hopens'
        rcases hnext with ⟨hbegin, hobserved, -⟩ | ⟨gs, g, hpushed, hgs, hg, hnot⟩
        · cases (hx hbegin).1.symm.trans hy
          rw [hunobserved] at hobserved
          cases hobserved
        · have hresolved : y.resolved = false := by
            by_cases hbegin : ∃ force, f = .begin a.transactionEntry force
            · obtain ⟨hx, hresolved⟩ := hx hbegin
              cases hx.symm.trans hy
              exact hresolved
            · exact hunresolved fun force hf' => hbegin ⟨force, hf'⟩
          have hopening' : Opening s' g stamp := by
            refine ⟨a, y, ?_, hg, ?_, hunobserved, fun _ => hresolved⟩
            · rw [haccesses]
              exact ha
            · rw [hflags]
              exact hy
          have hbelow' : Base s' (g :: .observeBegun stamp :: others) := .opening hopening' hquiet
          exact ⟨.base hpushed hgs hbelow', pending_of_base hpushed hgs hbelow'⟩

/-- When `TransBegin` is delayed, nothing begins. -/
lemma framed_delayed (hs : Framed s) (hframes : s.frames = f :: fs) (hf : f.isBegin = true)
    (h : s'.frames = fs.dropWhile Frame.isBegin) (hdelay : s'.retryTime ≠ 0) :
    Framed s' ∧ s'.pending = none := by
  have hdrop : (s.frames.dropWhile Frame.isBegin) = s'.frames := by
    rw [hframes, List.dropWhile_cons_of_pos hf, h]
  have hcalm : ∀ gs : List Frame, (∀ g ∈ gs, g.quiet = true) →
      gs.dropWhile Frame.isBegin = gs := by
    intro gs hgs
    cases gs with
    | nil => rfl
    | cons g gs =>
      refine List.dropWhile_cons_of_neg ?_
      rw [Frame.not_isBegin_of_quiet (hgs g List.mem_cons_self)]
      exact Bool.false_ne_true
  cases hs with
  | begun hbegun _ =>
    cases hframes.symm.trans hbegun
    cases hf
  | base hbase hbegins hbelow =>
    rename_i begins below
    rw [hbase, List.dropWhile_append_of_pos hbegins] at hdrop
    cases hbelow with
    | calm hquiet =>
      rw [hcalm below hquiet] at hdrop
      have hquiet' : ∀ g ∈ s'.frames, g.quiet = true := by
        rw [← hdrop]
        exact hquiet
      exact ⟨framed_of_quiet hquiet', pending_of_quiet hquiet'⟩
    | opening hopening hquiet =>
      rename_i f' stamp others
      obtain ⟨a, x, -, hopens, -⟩ := hopening
      rw [List.dropWhile_cons_of_pos (Frame.isBegin_of_opens hopens)] at hdrop
      have hbegun : s'.frames = .observeBegun stamp :: others := hdrop.symm
      refine ⟨.begun hbegun hquiet, ?_⟩
      rw [pending, hbegun]
      exact if_neg hdelay

/-- `ObserveAccess` has called `BeginTransaction` for the transaction itself. -/
def begunDirectly (s : TMInterface) (id : Level) : Bool :=
  match s.frames with
  | _ :: .observeBegun stamp :: _ =>
    (s.accessSet.find stamp).elim false fun a => a.transactionEntry = id
  | _ => false

lemma begunDirectly_eq_true {id : Level} (h : s.begunDirectly id = true)
    (hframes : s.frames = f :: fs) : ∃ stamp gs a, fs = .observeBegun stamp :: gs ∧
      s.accessSet.find stamp = some a ∧ a.transactionEntry = id := by
  rw [begunDirectly] at h
  split at h
  · rename_i stamp gs hframes'
    cases hframes.symm.trans hframes'
    cases ha : s.accessSet.find stamp with
    | none =>
      rw [ha] at h
      cases h
    | some a =>
      rw [ha] at h
      exact ⟨stamp, gs, a, rfl, ha, of_decide_eq_true h⟩
  · cases h

/-- A transaction that begins is one that has not been observed or resolved. -/
lemma framed_begun {id : Level} {force : Bool} (hs : Framed s)
    (hframes : s.frames = .beginSelf id force :: fs) (hdirect : s.begunDirectly id = true)
    (haccesses : s'.accessSet = s.accessSet) (h : s'.frames = fs) (hnow : s'.retryTime = 0) :
    Framed s' ∧ s.flags id = some ⟨false, false⟩ ∧ s'.pending = some id := by
  obtain ⟨stamp, others, a, rfl, ha, hid⟩ := begunDirectly_eq_true hdirect hframes
  have hpending : s'.pending = some id := by
    rw [pending, h, haccesses]
    show (if s'.retryTime = 0 then (s.accessSet.find stamp).map _ else none) = some id
    rw [if_pos hnow, ha, Option.map_some, hid]
  cases hs with
  | begun hbegun _ => cases hframes.symm.trans hbegun
  | base hbase hbegins hbelow =>
    rename_i begins below
    cases begins with
    | cons g begins =>
      have hsplit : begins ++ below = .observeBegun stamp :: others :=
        (List.cons.inj (hbase.symm.trans hframes)).2
      cases begins with
      | nil => exact absurd hsplit (head_ne_of_base hbelow)
      | cons g' begins =>
        cases hsplit
        cases hbegins _ (List.mem_cons_of_mem _ List.mem_cons_self)
    | nil =>
      rw [List.nil_append] at hbase
      rw [← hbase, hframes] at hbelow
      cases hbelow with
      | calm hquiet => cases hquiet _ List.mem_cons_self
      | opening hopening hquiet =>
        obtain ⟨b, x, hb, hopens, hx, hunobserved, hunresolved⟩ := hopening
        cases hb.symm.trans ha
        cases hid
        have hresolved : x.resolved = false := hunresolved fun _ h => nomatch h
        refine ⟨.begun h hquiet, ?_, hpending⟩
        have hflags : x = ⟨x.progressObserved, x.resolved⟩ := rfl
        rw [hx, hflags, hunobserved, hresolved]

end TMInterface

end Sesc.Tm
