import Sesc.Tm.Openings
import Sesc.Tm.RecordKeeping

/-!
# What the composition records tell

A record is right as long as no block is freed in a transaction, no transaction is aborted after it
has been observed, and every transaction begins in the `ObserveAccess` of an access of its own and
ends outside of a rerun.
-/

namespace Sesc.Tm

open Lib Sesc.Trans Sesc.Heap

namespace CompositionSystem

variable {w : Widths} {a : Addressing} {s s' : CompositionSystem}

/-- The invariant of the good runs. -/
structure Kept (s : CompositionSystem) : Prop where
  framed : Framed s.tm
  told : Told s.tm.flags s.compositionRecordSet.entrySet s.history s.globalClock s.tm.pending
  written : List.Forall₂ Faithful s.compositionRecordSet.written s.histories

lemma mem_retired {tm : TMInterface} {id : Level} :
    id ∈ s.retired tm ↔ s.tm.flags id ≠ none ∧ tm.flags id = none := by
  rw [retired, List.mem_filter, TMInterface.flags_eq_none, Option.isNone_iff_eq_none, ne_eq,
    TMInterface.flags_eq_none]
  refine and_congr_left fun _ => ?_
  rw [List.mem_map]
  constructor
  · rintro ⟨tr, htr, rfl⟩ hnone
    rw [Table.find_eq_none] at hnone
    exact hnone tr htr rfl
  · intro hne
    obtain ⟨tr, htr⟩ := Option.ne_none_iff_exists'.1 hne
    obtain ⟨hmem, hid⟩ := Table.find_eq_some.1 htr
    exact ⟨tr, hmem, hid⟩

/-- After the recordings of a step the records of the retired transactions are written. -/
lemma Kept.retire (hs : s.Kept) {tm : TMInterface} {F : Level → Option Flags}
    {c c' : TransCompositionRecord} {h : Level → History} (hframed : Framed tm)
    (htold : Told F c.entrySet h s.globalClock tm.pending) (hsheds : Sheds F tm.flags)
    (hsame : ∀ id, tm.flags id = none → (F id = none ↔ s.tm.flags id = none))
    (hwritten : c.written = s.compositionRecordSet.written)
    (hfold : (s.retired tm).foldlM (fun c id => c.finalizeTransaction id) c = .ok c') :
    (s.advance tm c' h).Kept := by
  have hnodup : (s.retired tm).Nodup := s.tm.transRecordSet.nodup.filter _
  obtain ⟨rs, hwritten', hfound, hrest⟩ := finalize_spec hnodup hfold
  refine ⟨hframed, htold.shed hsheds fun id => ?_, ?_⟩
  · refine (hrest id).trans (if_congr ?_ rfl rfl)
    rw [mem_retired]
    refine and_congr_left fun hnone => not_congr ?_
    exact (hsame id hnone).symm
  · show List.Forall₂ Faithful c'.written (s.histories ++ (s.retired tm).map h)
    rw [hwritten', hwritten]
    refine List.rel_append hs.written (List.forall₂_map_right_iff.2 (hfound.imp fun r id hid => ?_))
    exact htold.faithful hsheds hid.2 (mem_retired.1 hid.1).2

lemma observed_eq_true {tm : TMInterface} {id : Level} :
    observed tm id = true ↔ ∃ x, tm.flags id = some x ∧ x.progressObserved = true := by
  rw [observed, TMInterface.flags]
  cases tm.transRecordSet.find id with
  | none => simp
  | some tr => simp [TransRecord.flags]

/-- No transaction starts in a step after which only those are observed that were before. -/
lemma startStep_eq {tm : TMInterface} {F : Level → Option Flags} (h : Level → History)
    (hsheds : Sheds F tm.flags)
    (hbefore : ∀ id x, F id = some x → x.progressObserved = true → observed s.tm id = true) :
    s.startStep tm h = h := by
  funext id
  refine if_neg fun hnow => ?_
  obtain ⟨hafter, hnot⟩ := Bool.and_eq_true_iff.1 hnow
  obtain ⟨x, hx, hobserved⟩ := observed_eq_true.1 hafter
  have hsame : tm.flags id = F id := hsheds.eq_of_ne_none (by rw [hx]; exact Option.some_ne_none x)
  rw [hbefore id x (hsame.symm.trans hx) hobserved] at hnot
  cases hnot

/-- The step in which a transaction begins. -/
lemma startStep_observe {tm : TMInterface} {h : Level → History} {id : Level}
    (hflags : tm.flags = observeFlags s.tm.flags id)
    (hid : s.tm.flags id = some ⟨false, false⟩) :
    s.startStep tm h = Function.update h id { h id with start := some s.globalClock } := by
  funext j
  by_cases hj : j = id
  · subst hj
    have hafter : observed tm j = true := by
      refine observed_eq_true.2 ⟨⟨true, false⟩, ?_, rfl⟩
      rw [hflags, observeFlags, Function.update_self, hid, Option.map_some]
    have hbefore : observed s.tm j = false := by
      refine Bool.eq_false_iff.2 fun h => ?_
      obtain ⟨x, hx, hobserved⟩ := observed_eq_true.1 h
      cases hx.symm.trans hid
      cases hobserved
    rw [Function.update_self, startStep, hafter, hbefore]
    rfl
  · have hsame : tm.flags j = s.tm.flags j := by
      rw [hflags, observeFlags, Function.update_of_ne hj]
    rw [Function.update_of_ne hj]
    refine if_neg fun hnow => ?_
    obtain ⟨hafter, hnot⟩ := Bool.and_eq_true_iff.1 hnow
    obtain ⟨x, hx, hobserved⟩ := observed_eq_true.1 hafter
    rw [observed_eq_true.2 ⟨x, hsame.symm.trans hx, hobserved⟩] at hnot
    cases hnot

/-- A step that leaves quiet calls in progress and in which no transaction begins. -/
lemma Kept.of_sheds (hs : s.Kept) {tm : TMInterface} {F : Level → Option Flags}
    {c c' : TransCompositionRecord} {h : Level → History} (hframed : Framed tm)
    (hpending : tm.pending = none) (htold : Told F c.entrySet h s.globalClock none)
    (hsheds : Sheds F tm.flags)
    (hbefore : ∀ id x, F id = some x → x.progressObserved = true → observed s.tm id = true)
    (hsame : ∀ id, tm.flags id = none → (F id = none ↔ s.tm.flags id = none))
    (hwritten : c.written = s.compositionRecordSet.written)
    (hfold : (s.retired tm).foldlM (fun c id => c.finalizeTransaction id) c = .ok c') :
    (s.advance tm c' (s.startStep tm h)).Kept := by
  rw [startStep_eq h hsheds hbefore]
  refine hs.retire hframed ?_ hsheds hsame hwritten hfold
  rw [hpending]
  exact htold

/-- A step of the interface that changes no flags. -/
lemma Kept.of_plain (hs : s.Kept) {tm : TMInterface} {c c' : TransCompositionRecord}
    {h : Level → History} (hframed : Framed tm) (hpending : tm.pending = none)
    (htold : Told s.tm.flags c.entrySet h s.globalClock none)
    (hsheds : Sheds s.tm.flags tm.flags)
    (hwritten : c.written = s.compositionRecordSet.written)
    (hfold : (s.retired tm).foldlM (fun c id => c.finalizeTransaction id) c = .ok c') :
    (s.advance tm c' (s.startStep tm h)).Kept :=
  hs.of_sheds hframed hpending htold hsheds (fun _ _ hx h => observed_eq_true.2 ⟨_, hx, h⟩)
    (fun _ _ => Iff.rfl) hwritten hfold

/-- A step of the interface that resolves a transaction. -/
lemma Kept.of_resolves (hs : s.Kept) {tm : TMInterface} {c c' : TransCompositionRecord}
    {id : Level} (hframed : Framed tm) (hpending : tm.pending = none)
    (htold : Told (resolveFlags s.tm.flags id) c.entrySet s.history s.globalClock none)
    (hsheds : Sheds (resolveFlags s.tm.flags id) tm.flags)
    (hwritten : c.written = s.compositionRecordSet.written)
    (hfold : (s.retired tm).foldlM (fun c id => c.finalizeTransaction id) c = .ok c') :
    (s.advance tm c' (s.startStep tm s.history)).Kept := by
  have hcase : ∀ j, ∃ f : Flags → Flags, (∀ x, (f x).progressObserved = x.progressObserved) ∧
      resolveFlags s.tm.flags id j = (s.tm.flags j).map f := by
    intro j
    by_cases hj : j = id
    · subst hj
      exact ⟨fun x => { x with resolved := true }, fun _ => rfl, Function.update_self ..⟩
    · refine ⟨fun x => x, fun _ => rfl, ?_⟩
      rw [resolveFlags, Function.update_of_ne hj, Option.map_id']
  refine hs.of_sheds hframed hpending htold hsheds (fun j x hx hobserved => ?_) (fun j _ => ?_)
    hwritten hfold
  · obtain ⟨f, hf, hmap⟩ := hcase j
    rw [hmap] at hx
    obtain ⟨y, hy, rfl⟩ := Option.map_eq_some_iff.1 hx
    exact observed_eq_true.2 ⟨y, hy, (hf y).symm.trans hobserved⟩
  · obtain ⟨f, -, hmap⟩ := hcase j
    rw [hmap, Option.map_eq_none_iff]

/-! ## The actions -/

/-- The action of a process gets its entry. -/
lemma told_act {pid : Pid} {x : Action} {action : RecordAction} {arg1 arg2 : ℕ}
    {p : Option Level} {c : TransCompositionRecord}
    (hs : Told s.tm.flags s.compositionRecordSet.entrySet s.history s.globalClock p)
    (hx : x.entry = ⟨action, .ofNat arg1, .ofNat arg2⟩)
    (h : (if s.tm.currentTransID pid = 0 then Except.ok s.compositionRecordSet else do
      check Fault.assertion (s.compositionRecordSet.entrySet.find (s.tm.currentTransID pid)).isSome
      return s.compositionRecordSet.recordElement (s.tm.currentTransID pid) action arg1 arg2) =
        .ok c) :
    Told s.tm.flags c.entrySet (s.act pid x) s.globalClock p ∧
      c.written = s.compositionRecordSet.written := by
  rw [act]
  split at h
  · rename_i hzero
    cases h
    rw [if_pos hzero]
    exact ⟨hs, rfl⟩
  · rename_i hzero
    rw [if_neg hzero]
    obtain ⟨u, hsome, h⟩ := bind_eq_ok.1 h
    cases h
    refine ⟨hs.act (g := by exact fun _ => rfl) x (fun hnone => ?_) fun r => ?_, rfl⟩
    · rw [(hs.same _).2 hnone] at hsome
      cases hsome
    · rw [hx]
      rfl

lemma told_redirectAddr {pid : Pid} {addr : Address} {isRead : Bool} {instrAddr : ℕ}
    {p : Option Level} {c : TransCompositionRecord}
    (hs : Told s.tm.flags s.compositionRecordSet.entrySet s.history s.globalClock p)
    (h : s.redirectAddr w a pid addr isRead instrAddr = .ok c) :
    Told s.tm.flags c.entrySet (s.act pid (if isRead then .read instrAddr (a.virtual w addr)
      else .write instrAddr (a.virtual w addr))) s.globalClock p ∧
      c.written = s.compositionRecordSet.written := by
  have hvirtual : (if s.tm.currentTransID pid = 0 then .ok s.compositionRecordSet else
      s.compositionRecordSet.recordAccess (s.tm.currentTransID pid) instrAddr (a.virtual w addr)
        isRead) = .ok c := by
    rw [redirectAddr] at h
    split at h
    · rename_i hzero
      rw [if_pos hzero]
      exact h
    · rename_i hzero
      obtain ⟨vaddr, hvaddr, h⟩ := bind_eq_ok.1 h
      obtain ⟨-, hvaddr⟩ := check_bind_eq_ok.1 hvaddr
      cases hvaddr
      rw [if_neg hzero]
      exact h
  cases isRead with
  | true => exact told_act hs rfl hvirtual
  | false => exact told_act hs rfl hvirtual

/-! ## The conditions -/

/-- A transaction ends outside of a rerun. -/
def endsRecorded (tm : TMInterface) (id : Level) : Bool :=
  (tm.transRecordSet.find id).elim true fun tr => !tm.raceAheadMode tr.pid

/-- Unless it is delayed, a transaction begins in the `ObserveAccess` of an access of its own, and no
old delay keeps this from being recorded. -/
def beginsRecorded (tm : TMInterface) (id : Level) (force : Bool) (o : Outcome) : Bool :=
  (tm.transRecordSet.find id).elim true fun tr => tm.delaysBegin tr force o ||
    (tm.begunDirectly id && (tm.executesBegin tr || tm.retryTime = 0))

/-- A transaction is aborted before it has been observed, or it is resolved already. -/
def abortsUnobserved (tm : TMInterface) (id : Level) : Bool :=
  (tm.transRecordSet.find id).elim true fun tr => !tr.progressObserved || tr.resolved

def frameRecorded (tm : TMInterface) (o : Outcome) : Frame → Bool
  | .beginSelf id force => beginsRecorded tm id force o
  | .ending id _ => endsRecorded tm id
  | .abortSelf id => abortsUnobserved tm id
  | _ => true

/-- The step is one of those that are recorded as they should be. -/
def Recorded (s : CompositionSystem) : CompositionEvent → Prop
  | .tm (.call (.endTransaction id _) _) _ => endsRecorded s.tm id = true
  | .tm (.next o) _ => ∀ f ∈ s.tm.frames.head?, frameRecorded s.tm o f = true
  | .doFree pid _ => s.tm.currentTransID pid = 0
  | _ => True

/-! ## The steps -/

section

variable {tm : TMInterface} {c c' : TransCompositionRecord} {fs : List Frame} {o : Outcome}

lemma Kept.plainly (hs : s.Kept) {h : Level → History} (hquiet : ∀ f ∈ fs, f.quiet = true)
    (hstep : Plain (s.tm.setFrames fs) tm)
    (htold : Told s.tm.flags c.entrySet h s.globalClock none)
    (hwritten : c.written = s.compositionRecordSet.written)
    (hfold : (s.retired tm).foldlM (fun c id => c.finalizeTransaction id) c = .ok c') :
    (s.advance tm c' (s.startStep tm h)).Kept := by
  have hquiet' := TMInterface.quiet_of_pushed hquiet hstep.pushed
  exact hs.of_plain (TMInterface.framed_of_quiet hquiet') (TMInterface.pending_of_quiet hquiet')
    htold hstep.sheds hwritten hfold

lemma Kept.endTransaction (hs : s.Kept) {id : Level} {force : Bool}
    (hquiet : ∀ f ∈ fs, f.quiet = true) (hpending : s.tm.pending = none)
    (hrecorded : endsRecorded s.tm id = true)
    (hstep : (s.tm.setFrames fs).endTransaction id force o = .ok tm)
    (hcalls : s.endTransaction id force o = .ok c)
    (hfold : (s.retired tm).foldlM (fun c id => c.finalizeTransaction id) c = .ok c') :
    (s.advance tm c' (s.startStep tm s.history)).Kept := by
  have htold := hs.told
  rw [hpending] at htold
  obtain ⟨tr, htr, hflags, hcase⟩ := TMInterface.endTransaction_spec tm hstep
  have hfound : s.tm.transRecordSet.find id = some tr := htr
  obtain ⟨tr', htr', hc⟩ := bind_eq_ok.1 hcalls
  rw [TMInterface.record, elim_error_eq_ok] at htr'
  cases htr'.symm.trans hfound
  obtain ⟨-, rfl⟩ := Table.find_eq_some.1 hfound
  have hrace : s.tm.raceAheadMode tr.pid = false := by
    rw [endsRecorded, hfound] at hrecorded
    simpa using hrecorded
  split at hcase
  · rename_i hdelay
    obtain ⟨-, hretry⟩ := Bool.and_eq_true_iff.1 hdelay
    have hretry' : (s.tm.executeTransactionInst force o).retryTime ≠ 0 := of_decide_eq_true hretry
    rw [if_pos (.inr hretry')] at hc
    cases hc
    exact hs.plainly hquiet hcase htold rfl hfold
  · rename_i hdelay
    have hretry : (s.tm.executeTransactionInst force o).retryTime = 0 := by
      by_contra hretry
      refine hdelay (Bool.and_eq_true_iff.2 ⟨?_, decide_eq_true hretry⟩)
      exact congrArg not hrace
    rw [if_neg (by rw [hrace, hretry]; simp)] at hc
    obtain ⟨u, -, hc'⟩ := bind_eq_ok.1 hc
    cases hc'
    have hflags' : s.tm.flags tr.transactionID = some ⟨true, false⟩ :=
      TMInterface.flags_eq_some.2 ⟨tr, hfound, hflags⟩
    have hquiet' := TMInterface.quiet_of_pushed hquiet hcase.pushed
    refine hs.of_resolves (TMInterface.framed_of_quiet hquiet')
      (TMInterface.pending_of_quiet hquiet') (htold.commit hflags') hcase.sheds ?_ hfold
    rfl

lemma Kept.abortSelf (hs : s.Kept) {id : Level} (hquiet : ∀ f ∈ fs, f.quiet = true)
    (hpending : s.tm.pending = none) (hrecorded : abortsUnobserved s.tm id = true)
    (hstep : (s.tm.setFrames fs).abortSelf id = .ok tm) (hcalls : s.abortSelf id = .ok c)
    (hfold : (s.retired tm).foldlM (fun c id => c.finalizeTransaction id) c = .ok c') :
    (s.advance tm c' (s.startStep tm s.history)).Kept := by
  have htold := hs.told
  rw [hpending] at htold
  have hresolves := TMInterface.resolves_abortSelf tm hstep
  obtain ⟨tr, htr, hc⟩ := bind_eq_ok.1 hcalls
  rw [TMInterface.record, elim_error_eq_ok] at htr
  rw [abortsUnobserved, htr] at hrecorded
  have hcase : tr.progressObserved = false ∨ tr.resolved = true := by
    simpa using hrecorded
  have hnot : ¬(tr.progressObserved && !tr.resolved) = true := by
    rcases hcase with h | h <;> simp [h]
  rw [if_neg hnot] at hc
  cases hc
  have hquiet' := TMInterface.quiet_of_pushed hquiet hresolves.pushed
  refine hs.of_resolves (TMInterface.framed_of_quiet hquiet')
    (TMInterface.pending_of_quiet hquiet') (htold.abort fun x hx => ?_) hresolves.sheds rfl hfold
  obtain ⟨tr', htr', rfl⟩ := TMInterface.flags_eq_some.1 hx
  cases htr'.symm.trans htr
  exact hcase

/-- A step that changes no flags and records nothing. -/
lemma Kept.of_flags_eq (hs : s.Kept) (hpending : s.tm.pending = none)
    (hframed : Framed tm ∧ tm.pending = none) (hflags : tm.flags = s.tm.flags)
    (hfold : (s.retired tm).foldlM (fun c id => c.finalizeTransaction id)
      s.compositionRecordSet = .ok c') :
    (s.advance tm c' (s.startStep tm s.history)).Kept := by
  have htold := hs.told
  rw [hpending] at htold
  exact hs.of_plain hframed.1 hframed.2 htold (.of_eq hflags) rfl hfold

lemma Kept.observeAccess (hs : s.Kept) {stamp : Stamp} (hquiet : ∀ f ∈ fs, f.quiet = true)
    (hpending : s.tm.pending = none) (hstep : (s.tm.setFrames fs).observeAccess stamp o = .ok tm)
    (hfold : (s.retired tm).foldlM (fun c id => c.finalizeTransaction id)
      s.compositionRecordSet = .ok c') :
    (s.advance tm c' (s.startStep tm s.history)).Kept := by
  rcases TMInterface.observeAccess_spec tm hstep with hplain | ⟨⟨hflags, haccesses⟩, hopens⟩
  · have htold := hs.told
    rw [hpending] at htold
    exact hs.plainly hquiet hplain htold rfl hfold
  · obtain ⟨m, x, hm, hx, hunobserved, hframes⟩ := hopens
    have hopening : Opening tm (.begin m.transactionEntry false) stamp := by
      refine ⟨m, x, ?_, rfl, ?_, hunobserved, fun h => absurd rfl (h false)⟩
      · rw [haccesses]
        exact hm
      · rw [hflags]
        exact hx
    have hbase : Base tm (.begin m.transactionEntry false :: .observeBegun stamp :: fs) :=
      .opening hopening hquiet
    refine hs.of_flags_eq hpending ⟨.base (List.nil_append _).symm (fun _ hf => nomatch hf) ?_, ?_⟩
      hflags hfold
    · rw [hframes]
      exact hbase
    · exact TMInterface.pending_of_base (hframes.trans (List.nil_append _).symm)
        (fun _ hf => nomatch hf) hbase

/-- A call of `BeginTransaction` goes on or is delayed. -/
lemma Kept.beginTransaction (hs : s.Kept) {id : Level} {force : Bool}
    (hquiet : ∀ f ∈ fs, f.quiet = true) (hpending : s.tm.pending = none)
    (hstep : (s.tm.setFrames fs).beginTransaction id force = .ok tm)
    (hfold : (s.retired tm).foldlM (fun c id => c.finalizeTransaction id)
      s.compositionRecordSet = .ok c') :
    (s.advance tm c' (s.startStep tm s.history)).Kept := by
  obtain ⟨hflags, -, x, -, -, hframes⟩ := TMInterface.beginTransaction_spec tm hstep
  refine hs.of_flags_eq hpending ?_ hflags hfold
  split at hframes
  · have hsame : tm.frames = [] ++ fs := hframes
    exact TMInterface.framed_of_begins hsame (fun _ hf => nomatch hf) hquiet
  · obtain ⟨gs, hpushed, hgs⟩ := hframes
    have hsplit : tm.frames = (gs ++ [.beginParent id force]) ++ fs := by
      rw [List.append_assoc]
      exact hpushed
    refine TMInterface.framed_of_begins hsplit (fun g hg => ?_) hquiet
    rcases List.mem_append.1 hg with hg | hg
    · exact hgs g hg
    · rw [List.mem_singleton.1 hg]
      rfl

/-- `ProcessAction` for `TransBegin`. -/
lemma Kept.processBegin (hs : s.Kept) {pid : Pid} {instrAddr : ℕ}
    (hquiet : ∀ f ∈ fs, f.quiet = true) (hpending : s.tm.pending = none)
    (hstep : (s.tm.setFrames fs).processBegin pid = .ok tm)
    (hcalls : s.compositionRecordSet.initiateTransaction pid s.tm.globalTransactionID
      (s.tm.currentTransID pid) instrAddr = .ok c)
    (hfold : (s.retired tm).foldlM (fun c id => c.finalizeTransaction id) c = .ok c') :
    (s.advance tm c' (s.startStep tm (Function.update
      (s.act pid (.began s.tm.globalTransactionID)) s.tm.globalTransactionID .new))).Kept := by
  have htold := hs.told
  rw [hpending] at htold
  obtain ⟨hflags', gs, hpushed, hgs⟩ := TMInterface.begins_processBegin tm hstep
  have hflags : tm.flags =
      Function.update s.tm.flags s.tm.globalTransactionID (some ⟨false, false⟩) := hflags'
  obtain ⟨u, -, hc⟩ := bind_eq_ok.1 hcalls
  obtain ⟨c₁, hc₁, hc⟩ := bind_eq_ok.1 hc
  cases hc
  obtain ⟨htold₁, hwritten⟩ := told_act htold (x := .began s.tm.globalTransactionID) rfl hc₁
  obtain ⟨hframed, hnone⟩ := TMInterface.framed_of_begins hpushed hgs hquiet
  have htold₂ : Told (Function.update s.tm.flags s.tm.globalTransactionID (some ⟨false, false⟩))
      (c₁.entrySet.insert
        (.new pid s.tm.globalTransactionID (s.tm.currentTransID pid) instrAddr))
      (Function.update (s.act pid (.began s.tm.globalTransactionID)) s.tm.globalTransactionID .new)
      s.globalClock none :=
    htold₁.initiate rfl rfl rfl
  refine hs.of_sheds hframed hnone htold₂ (.of_eq hflags) ?_ ?_ ?_ hfold
  · intro id x hx hobserved
    by_cases hid : id = s.tm.globalTransactionID
    · subst hid
      rw [Function.update_self] at hx
      cases hx
      cases hobserved
    · rw [Function.update_of_ne hid] at hx
      exact observed_eq_true.2 ⟨x, hx, hobserved⟩
  · intro id hnone
    rw [hflags] at hnone
    by_cases hid : id = s.tm.globalTransactionID
    · subst hid
      rw [Function.update_self] at hnone
      cases hnone
    · rw [Function.update_of_ne hid]
  · exact hwritten

/-- A frame of `BeginTransaction`. -/
lemma Kept.continues (hs : s.Kept) {f : Frame} (hframes : s.tm.frames = f :: fs)
    (hf : f.isBegin = true) (hstep : TMInterface.Continues f (s.tm.setFrames fs) tm)
    (hfold : (s.retired tm).foldlM (fun c id => c.finalizeTransaction id)
      s.compositionRecordSet = .ok c') :
    (s.advance tm c' (s.startStep tm s.history)).Kept := by
  have hframed := hstep.framed hs.framed hframes
  obtain ⟨id, x, hopens, hflags, -⟩ := hstep
  exact hs.of_flags_eq (TMInterface.pending_of_isBegin hframes hf) hframed hflags hfold

lemma Kept.beginSelf (hs : s.Kept) {id : Level} {force : Bool}
    (hframes : s.tm.frames = .beginSelf id force :: fs)
    (hrecorded : beginsRecorded s.tm id force o = true)
    (hstep : (s.tm.setFrames fs).beginSelf id force o = .ok tm)
    (hfold : (s.retired tm).foldlM (fun c id => c.finalizeTransaction id)
      s.compositionRecordSet = .ok c') :
    (s.advance tm c' (s.startStep tm s.history)).Kept := by
  have hpending : s.tm.pending = none := TMInterface.pending_of_isBegin hframes rfl
  obtain ⟨haccesses, tr, htr, hcase⟩ := TMInterface.beginSelf_spec tm hstep
  have hfound : s.tm.transRecordSet.find id = some tr := htr
  split at hcase
  · obtain ⟨hflags, hdrop, hdelay⟩ := hcase
    have hframed := TMInterface.framed_delayed hs.framed hframes rfl hdrop hdelay
    exact hs.of_flags_eq hpending hframed hflags hfold
  · rename_i hdelay
    obtain ⟨hflags, hsame, hretry⟩ := hcase
    rw [beginsRecorded, hfound] at hrecorded
    have hdirect : s.tm.begunDirectly id = true ∧
        (s.tm.executesBegin tr = true ∨ s.tm.retryTime = 0) := by
      have hdelay' : s.tm.delaysBegin tr force o = false := Bool.eq_false_iff.2 hdelay
      simpa [hdelay'] using hrecorded
    have hnow : tm.retryTime = 0 := by
      rw [hretry]
      split
      · rfl
      · rename_i hexecutes
        exact hdirect.2.resolve_left hexecutes
    obtain ⟨hframed, hid, hpending'⟩ :=
      TMInterface.framed_begun hs.framed hframes hdirect.1 haccesses hsame hnow
    have htold := hs.told
    rw [hpending] at htold
    have hstart : s.startStep tm s.history =
        Function.update s.history id { s.history id with start := some s.globalClock } :=
      startStep_observe hflags hid
    rw [hstart]
    refine hs.retire hframed ?_ (.of_eq hflags) (fun j _ => ?_) rfl hfold
    · rw [hpending']
      exact htold.begin hid
    · rw [observeFlags]
      by_cases hj : j = id
      · subst hj
        rw [Function.update_self, Option.map_eq_none_iff]
        rfl
      · rw [Function.update_of_ne hj]
        rfl

/-- The begin of the transaction of an `ObserveAccess` is recorded. -/
lemma Kept.observeBegun (hs : s.Kept) {stamp : Stamp}
    (hframes : s.tm.frames = .observeBegun stamp :: fs)
    (hcalls : s.observeBegun stamp = .ok c)
    (hfold : (s.retired ((s.tm.setFrames fs).observeBegun stamp)).foldlM
      (fun c id => c.finalizeTransaction id) c = .ok c') :
    (s.advance ((s.tm.setFrames fs).observeBegun stamp) c'
      (s.startStep ((s.tm.setFrames fs).observeBegun stamp) s.history)).Kept := by
  have hquiet := TMInterface.quiet_of_cons hs.framed hframes rfl
  have htold := hs.told
  rw [CompositionSystem.observeBegun] at hcalls
  rw [TMInterface.pending, hframes] at htold
  dsimp only at htold
  split at hcalls
  · rename_i hdelay
    cases hcalls
    rw [if_neg hdelay] at htold
    exact hs.plainly hquiet TMInterface.plain_observeBegun htold rfl hfold
  · rename_i hnow
    obtain ⟨m, hm, hc⟩ := bind_eq_ok.1 hcalls
    rw [TMInterface.access, elim_error_eq_ok] at hm
    rw [if_pos (not_not.1 hnow), hm, Option.map_some] at htold
    obtain ⟨u, hsome, hc⟩ := bind_eq_ok.1 hc
    cases hc
    have hne : s.tm.flags m.transactionEntry ≠ none := by
      intro hnone
      rw [(htold.same _).2 hnone] at hsome
      cases hsome
    refine hs.plainly hquiet TMInterface.plain_observeBegun (htold.record hne) ?_ hfold
    rfl

lemma Kept.call (hs : s.Kept) {cl : Call} {instrAddr : ℕ}
    (hrecorded : s.Recorded (.tm (.call cl o) instrAddr)) (hmay : s.tm.mayCall = true)
    (hstep : s.tm.perform o cl = .ok tm) (hcalls : s.recordCall w a o instrAddr cl = .ok c)
    (hfold : (s.retired tm).foldlM (fun c id => c.finalizeTransaction id) c = .ok c') :
    (s.advance tm c' (s.startStep tm (s.actStep w a instrAddr (.call cl o)))).Kept := by
  have hquiet := TMInterface.quiet_of_mayCall hs.framed hmay
  have hpending := TMInterface.pending_of_quiet hquiet
  have htold := hs.told
  rw [hpending] at htold
  have hplain : cl.plain = true → Plain s.tm tm := fun h => TMInterface.plain_perform cl h tm hstep
  cases cl with
  | load pid addr data =>
    obtain ⟨htold', hwritten⟩ := told_redirectAddr htold hcalls
    exact hs.plainly hquiet (hplain rfl) htold' hwritten hfold
  | store pid addr data =>
    obtain ⟨htold', hwritten⟩ := told_redirectAddr htold hcalls
    exact hs.plainly hquiet (hplain rfl) htold' hwritten hfold
  | processBegin pid => exact hs.processBegin hquiet hpending hstep hcalls hfold
  | endTransaction id force =>
    exact hs.endTransaction hquiet hpending hrecorded hstep hcalls hfold
  | observeAccess stamp =>
    cases hcalls
    exact hs.observeAccess hquiet hpending hstep hfold
  | beginTransaction id force =>
    cases hcalls
    exact hs.beginTransaction hquiet hpending hstep hfold
  | _ =>
    cases hcalls
    exact hs.plainly hquiet (hplain rfl) htold rfl hfold

lemma Kept.next (hs : s.Kept) {f : Frame} (hframes : s.tm.frames = f :: fs)
    (hrecorded : frameRecorded s.tm o f = true) (hstep : (s.tm.setFrames fs).run o f = .ok tm)
    (hcalls : s.recordFrame o f = .ok c)
    (hfold : (s.retired tm).foldlM (fun c id => c.finalizeTransaction id) c = .ok c') :
    (s.advance tm c' (s.startStep tm s.history)).Kept := by
  have hplain : f.plain = true → Plain (s.tm.setFrames fs) tm := fun h =>
    TMInterface.plain_run f h tm hstep
  -- the frames that are neither of `BeginTransaction` nor the record of its success
  have hquiet : f.quiet = true →
      (∀ g ∈ fs, g.quiet = true) ∧ s.tm.pending = none := by
    intro hf
    have hfs := TMInterface.quiet_of_cons hs.framed hframes (Frame.not_isBegin_of_quiet hf)
    refine ⟨hfs, TMInterface.pending_of_quiet fun g hg => ?_⟩
    rw [hframes] at hg
    rcases List.mem_cons.1 hg with rfl | hg
    · exact hf
    · exact hfs g hg
  have htold : s.tm.pending = none →
      Told s.tm.flags s.compositionRecordSet.entrySet s.history s.globalClock none := by
    intro hpending
    rw [← hpending]
    exact hs.told
  cases f with
  | begin id force =>
    cases hcalls
    exact hs.continues hframes rfl (TMInterface.continues_begin tm hstep) hfold
  | beginParent id force =>
    cases hcalls
    exact hs.continues hframes rfl (TMInterface.continues_beginParent tm hstep) hfold
  | beginSelf id force =>
    cases hcalls
    exact hs.beginSelf hframes hrecorded hstep hfold
  | observeBegun stamp =>
    cases hstep
    exact hs.observeBegun hframes hcalls hfold
  | ending id force =>
    exact hs.endTransaction (hquiet rfl).1 (hquiet rfl).2 hrecorded hstep hcalls hfold
  | abortSelf id => exact hs.abortSelf (hquiet rfl).1 (hquiet rfl).2 hrecorded hstep hcalls hfold
  | observe stamp =>
    cases hcalls
    exact hs.observeAccess (hquiet rfl).1 (hquiet rfl).2 hstep hfold
  | _ =>
    cases hcalls
    exact hs.plainly (hquiet rfl).1 (hplain rfl) (htold (hquiet rfl).2) rfl hfold

lemma Kept.stepTM (hs : s.Kept) {e : Event} {instrAddr : ℕ}
    (hrecorded : s.Recorded (.tm e instrAddr)) (h : s.stepTM w a e instrAddr = .ok s') :
    s'.Kept := by
  obtain ⟨tm, hstep, h⟩ := bind_eq_ok.1 h
  obtain ⟨c, hcalls, h⟩ := bind_eq_ok.1 h
  obtain ⟨c', hfold, h⟩ := bind_eq_ok.1 h
  cases h
  cases e with
  | call cl o =>
    obtain ⟨u, hmay, hstep⟩ := bind_eq_ok.1 hstep
    exact hs.call hrecorded (check_test_eq_ok.1 hmay) hstep hcalls hfold
  | next o =>
    rw [TMInterface.step, TMInterface.next] at hstep
    rw [CompositionSystem.recordStep] at hcalls
    rw [Recorded] at hrecorded
    cases hframes : s.tm.frames with
    | nil =>
      rw [hframes] at hstep
      cases hstep
    | cons f fs =>
      rw [hframes] at hstep hcalls hrecorded
      exact hs.next hframes (hrecorded f rfl) hstep hcalls hfold
  | raceAheadDone =>
    cases hcalls
    rw [TMInterface.step, TMInterface.raceAheadDone] at hstep
    split at hstep
    · rename_i pid fs hframes
      have hquiet := TMInterface.quiet_of_cons hs.framed hframes rfl
      have hpending : s.tm.pending = none := by
        refine TMInterface.pending_of_head fun stamp gs h => ?_
        cases hframes.symm.trans h
      have htold := hs.told
      rw [hpending] at htold
      exact hs.plainly hquiet (TMInterface.plain_finishRaceAhead tm hstep) htold rfl hfold
    · cases hstep

end

/-! ## The runs -/

lemma Kept.doAllocate (hs : s.Kept) {pid : Pid} {size : ℕ}
    (h : s.doAllocate w pid size = .ok s') : s'.Kept := by
  obtain ⟨u, -, h⟩ := bind_eq_ok.1 h
  obtain ⟨r, -, h⟩ := bind_eq_ok.1 h
  obtain ⟨c, hc, h⟩ := bind_eq_ok.1 h
  cases h
  obtain ⟨htold, hwritten⟩ := told_act hs.told (x := .allocated r.1 size) rfl hc
  refine ⟨hs.framed, htold, ?_⟩
  show List.Forall₂ Faithful c.written s.histories
  rw [hwritten]
  exact hs.written

/-- Outside of transactions nothing is recorded. -/
lemma Kept.doFree (hs : s.Kept) {pid : Pid} {addr : ℕ} (hzero : s.tm.currentTransID pid = 0)
    (h : s.doFree w pid addr = .ok s') : s'.Kept := by
  obtain ⟨u, -, h⟩ := bind_eq_ok.1 h
  obtain ⟨r, -, h⟩ := bind_eq_ok.1 h
  obtain ⟨c, hc, h⟩ := bind_eq_ok.1 h
  cases h
  rw [recordHeapCall, if_pos hzero] at hc
  cases hc
  refine ⟨hs.framed, ?_, hs.written⟩
  show Told s.tm.flags s.compositionRecordSet.entrySet (s.act pid (.freed addr r.1)) s.globalClock _
  rw [act, if_pos hzero]
  exact hs.told

lemma Kept.tick (hs : s.Kept) (h : s.tick = .ok s') : s'.Kept := by
  obtain ⟨hframes, h⟩ := check_bind_eq_ok.1 h
  cases h
  have hpending : s.tm.pending = none := by
    refine TMInterface.pending_of_head fun stamp fs h => ?_
    cases hframes.symm.trans h
  have htold := hs.told
  rw [hpending] at htold
  refine ⟨hs.framed, ?_, hs.written⟩
  show Told s.tm.flags s.compositionRecordSet.entrySet s.history (s.globalClock + 1) s.tm.pending
  rw [hpending]
  refine ⟨htold.same, fun id x r hx hr => ?_⟩
  obtain ⟨hentries, hpast, hunobserved, hresolved, hstart, -⟩ := htold.tells id x r hx hr
  exact ⟨hentries, Nat.le_succ_of_le hpast, hunobserved, hresolved, hstart, fun h => nomatch h⟩

/-- Every transaction has a record, which lists its actions in order; the records of the resolved
transactions and those that have been written are faithful. -/
def RecordsFaithful (s : CompositionSystem) : Prop :=
  (∀ tr ∈ s.tm.transRecordSet, ∃ r ∈ s.compositionRecordSet.entrySet,
    r.transID = tr.transactionID ∧
      r.entrySet = (s.history r.transID).actions.map Action.entry ∧
      (tr.resolved = true → Faithful r (s.history r.transID))) ∧
    List.Forall₂ Faithful s.compositionRecordSet.written s.histories

lemma Kept.recordsFaithful (hs : s.Kept) : s.RecordsFaithful := by
  refine ⟨fun tr htr => ?_, hs.written⟩
  have hfound : s.tm.transRecordSet.find tr.transactionID = some tr :=
    Table.find_eq_some.2 ⟨htr, rfl⟩
  have hx : s.tm.flags tr.transactionID = some tr.flags :=
    TMInterface.flags_eq_some.2 ⟨tr, hfound, rfl⟩
  have hne : s.compositionRecordSet.entrySet.find tr.transactionID ≠ none := by
    intro hnone
    rw [hs.told.same, hx] at hnone
    cases hnone
  obtain ⟨r, hr⟩ := Option.ne_none_iff_exists'.1 hne
  obtain ⟨hmem, hid⟩ := Table.find_eq_some.1 hr
  obtain ⟨hentries, -, -, hresolved, hstart, hpending⟩ := hs.told.tells _ _ r hx hr
  refine ⟨r, hmem, hid, ?_, fun hdone => ?_⟩
  · rw [hid]
    exact hentries
  · rw [hid]
    refine ⟨hentries, hresolved hdone, fun t ht => (hstart t ht).resolve_right fun hp => ?_⟩
    have hflags : tr.flags.resolved = true := hdone
    rw [(hpending hp).1] at hflags
    cases hflags

/-- The records are faithful in every run in which no block is freed in a transaction, no
transaction is aborted after it has been observed, and every transaction begins in the
`ObserveAccess` of an access of its own and ends outside of a rerun. -/
theorem recordsFaithful_of_runWhere (w : Widths) (a : Addressing) (heap : HeapManager)
    (es : List CompositionEvent) (s : CompositionSystem)
    (h : (compositionSystem w a heap).RunWhere Recorded es s) : s.RecordsFaithful := by
  have hkept : s.Kept := by
    refine h.invariant ⟨?_, ?_, .nil⟩ ?_
    · exact TMInterface.framed_of_quiet fun _ hf => nomatch hf
    · exact ⟨fun _ => iff_of_true rfl rfl, fun _ _ _ hx => nomatch hx⟩
    · intro s e s' hs hrecorded hstep
      cases e with
      | tm e instrAddr => exact hs.stepTM hrecorded hstep
      | doAllocate pid size => exact hs.doAllocate hstep
      | doFree pid addr => exact hs.doFree hrecorded hstep
      | tick => exact hs.tick hstep
  exact hkept.recordsFaithful

/-! ### Examples of records -/

instance decidableRecorded (s : CompositionSystem) : (e : CompositionEvent) →
    Decidable (s.Recorded e)
  | .tm (.call (.endTransaction id _) _) _ =>
    inferInstanceAs (Decidable (endsRecorded s.tm id = true))
  | .tm (.next o) _ =>
    inferInstanceAs (Decidable (∀ f ∈ s.tm.frames.head?, frameRecorded s.tm o f = true))
  | .doFree pid _ => inferInstanceAs (Decidable (s.tm.currentTransID pid = 0))
  | .tick | .doAllocate _ _ | .tm .raceAheadDone _ => .isTrue trivial
  | .tm (.call (.load _ _ _) _) _ | .tm (.call (.store _ _ _) _) _
  | .tm (.call (.processAccess _ _ _) _) _ | .tm (.call (.processBegin _) _) _
  | .tm (.call (.processEnd _ _) _) _ | .tm (.call (.markInstructionExecution _) _) _
  | .tm (.call (.observeAccess _) _) _ | .tm (.call .retryTime _) _
  | .tm (.call (.clockTick _) _) _ | .tm (.call .beginRabbit _) _
  | .tm (.call .endRabbit _) _ | .tm (.call (.beginTransaction _ _) _) _
  | .tm (.call (.abortTransaction _) _) _ | .tm (.call (.abortTransactionTree _) _) _
  | .tm (.call (.retireAccess _) _) _ | .tm (.call (.tryRetireTransaction _) _) _ =>
    .isTrue trivial

/-- A call by an instruction at address 400. -/
def callEvent (c : Call) : CompositionEvent := .tm (.call c .none) 400

/-- Frames are run. -/
def nextEvents (n : ℕ) : List CompositionEvent := List.replicate n (.tm (.next .none) 0)

/-- Transaction 1 of process 0 reads, allocates a block, begins transaction 2, which writes, and
reads again; the block is freed outside of it.  The three accesses are observed at three times. -/
def recordedRun : List CompositionEvent :=
  [callEvent (.processBegin 0), callEvent (.load 0 8 [0]), callEvent (.processAccess 0 1 8),
    .doAllocate 0 64, callEvent (.processBegin 0), callEvent (.store 0 8 [7]),
    callEvent (.processAccess 0 2 8), callEvent (.processEnd 0 false), callEvent (.load 0 8 [7]),
    callEvent (.processAccess 0 3 8), callEvent (.processEnd 0 false), .doFree 0 64, .tick,
    callEvent (.observeAccess 1)] ++ nextEvents 9 ++ [.tick, callEvent (.observeAccess 2)] ++
    nextEvents 16 ++ [.tick, callEvent (.observeAccess 3)] ++ nextEvents 12

/-- What a record says, as far as the examples look at it. -/
def summary (r : Record) : Level × ℕ × ℕ × List RecordAction :=
  (r.transID, r.timeStart, r.timeEnd, r.entrySet.map RecordEntry.action)

/-- Transaction 1 is recorded from time 1 to time 3, transaction 2 at time 2. -/
theorem recordsFaithful_recordedRun : ∃ heap s, HeapManager.new .narrow 64 640 = .ok heap ∧
    (compositionSystem .narrow ⟨0, 0, 1000⟩ heap).Run recordedRun s ∧
    s.compositionRecordSet.written.map summary =
      [(2, 2, 2, [.isWrite]), (1, 1, 3, [.isRead, .isAlloc, .isSubTrans, .isRead])] ∧
    s.RecordsFaithful := by
  obtain ⟨heap, hnew⟩ : ∃ heap, HeapManager.new .narrow 64 640 = .ok heap := ⟨_, rfl⟩
  have hrun : succeeds (HeapManager.new .narrow 64 640) (fun heap =>
      succeeds (((compositionSystem .narrow ⟨0, 0, 1000⟩ heap).guarded
        (fun s e => decide (Recorded s e)) .noSuchEvent).exec
          (compositionSystem .narrow ⟨0, 0, 1000⟩ heap).init recordedRun) fun s =>
            decide (s.compositionRecordSet.written.map summary =
              [(2, 2, 2, [.isWrite]),
                (1, 1, 3, [.isRead, .isAlloc, .isSubTrans, .isRead])])) = true := by
    decide +kernel
  obtain ⟨heap', hnew', htest⟩ := succeeds_iff.1 hrun
  cases hnew'.symm.trans hnew
  obtain ⟨s, hs, htest⟩ := succeeds_iff.1 htest
  have hwhere : (compositionSystem .narrow ⟨0, 0, 1000⟩ heap).RunWhere Recorded recordedRun s :=
    (Machine.run_of_exec hs).of_guarded.mono fun _ _ => of_decide_eq_true
  exact ⟨heap, s, hnew, hwhere.run, of_decide_eq_true htest,
    recordsFaithful_of_runWhere .narrow ⟨0, 0, 1000⟩ heap recordedRun s hwhere⟩

/-- Transaction 1 reads and frees a block. -/
def freedInsideRun : List CompositionEvent :=
  [.doAllocate 0 64, callEvent (.processBegin 0), callEvent (.load 0 8 [0]),
    callEvent (.processAccess 0 1 8), .doFree 0 64, callEvent (.processEnd 0 false), .tick,
    callEvent (.observeAccess 1)] ++ nextEvents 16

/-- Transaction 1 begins at time 1 and is aborted at time 2. -/
def abortedObservedRun : List CompositionEvent :=
  [callEvent (.processBegin 0), callEvent (.load 0 8 [0]), callEvent (.processAccess 0 1 8),
    callEvent (.processAccess 0 2 8), .tick, callEvent (.observeAccess 1)] ++ nextEvents 9 ++
    [.tick, callEvent (.abortTransaction 1)] ++ nextEvents 2 ++ [callEvent (.observeAccess 2)]

/-- The first access in transaction 1 is one of transaction 2, which is nested in it. -/
def nestedFirstRun : List CompositionEvent :=
  [callEvent (.processBegin 0), callEvent (.processBegin 0), callEvent (.store 0 8 [7]),
    callEvent (.processAccess 0 1 8), callEvent (.processEnd 0 false), callEvent (.load 0 8 [7]),
    callEvent (.processAccess 0 2 8), callEvent (.processEnd 0 false), .tick,
    callEvent (.observeAccess 1)] ++ nextEvents 18 ++ [.tick, callEvent (.observeAccess 2)] ++
    nextEvents 12

/-- The records that have been written are faithful one by one. -/
lemma faithful_of_written {s : CompositionSystem} {k : ℕ} {h : History}
    {x : Level × ℕ × ℕ × List RecordAction} (hfaithful : s.RecordsFaithful)
    (hhistory : s.histories[k]? = some h)
    (hsummary : (s.compositionRecordSet.written.map summary)[k]? = some x) :
    ∃ r, Faithful r h ∧ summary r = x := by
  rw [List.getElem?_map, Option.map_eq_some_iff] at hsummary
  obtain ⟨r, hr, rfl⟩ := hsummary
  obtain ⟨hk, hr⟩ := List.getElem?_eq_some_iff.1 hr
  obtain ⟨hk', hh⟩ := List.getElem?_eq_some_iff.1 hhistory
  have hget := hfaithful.2.get hk hk'
  rw [List.get_eq_getElem, List.get_eq_getElem, hr, hh] at hget
  exact ⟨r, hget, rfl⟩

/-- The freed block is recorded as allocated, the aborted transaction as starting when it was
aborted and ending at time 0, and the outer transaction, which begins at time 1, as starting at
time 0. -/
theorem not_recordsFaithful : ∃ heap, HeapManager.new .narrow 64 640 = .ok heap ∧
    (∃ s, (compositionSystem .narrow ⟨0, 0, 1000⟩ heap).Run freedInsideRun s ∧
      s.histories = [⟨[.read 400 8, .freed 64 64], some 1⟩] ∧
      s.compositionRecordSet.written.map summary = [(1, 1, 1, [.isRead, .isAlloc])] ∧
      ¬s.RecordsFaithful) ∧
    (∃ s, (compositionSystem .narrow ⟨0, 0, 1000⟩ heap).Run abortedObservedRun s ∧
      s.histories = [⟨[.read 400 8], some 1⟩] ∧
      s.compositionRecordSet.written.map summary = [(1, 2, 0, [.isRead])] ∧
      ¬s.RecordsFaithful) ∧
    ∃ s, (compositionSystem .narrow ⟨0, 0, 1000⟩ heap).Run nestedFirstRun s ∧
      s.histories = [⟨[.write 400 8], some 1⟩, ⟨[.began 2, .read 400 8], some 1⟩] ∧
      s.compositionRecordSet.written.map summary =
        [(2, 1, 1, [.isWrite]), (1, 0, 2, [.isSubTrans, .isRead])] ∧
      ¬s.RecordsFaithful := by
  obtain ⟨heap, hnew⟩ : ∃ heap, HeapManager.new .narrow 64 640 = .ok heap := ⟨_, rfl⟩
  -- a run, with the histories and the records at its end
  have hrun : ∀ es histories records, succeeds (HeapManager.new .narrow 64 640) (fun heap =>
      succeeds ((compositionSystem .narrow ⟨0, 0, 1000⟩ heap).exec
        (compositionSystem .narrow ⟨0, 0, 1000⟩ heap).init es) fun s =>
          decide (s.histories = histories ∧
            s.compositionRecordSet.written.map summary = records)) = true →
      ∃ s, (compositionSystem .narrow ⟨0, 0, 1000⟩ heap).Run es s ∧ s.histories = histories ∧
        s.compositionRecordSet.written.map summary = records := by
    intro es histories records htest
    obtain ⟨heap', hnew', htest⟩ := succeeds_iff.1 htest
    cases hnew'.symm.trans hnew
    obtain ⟨s, hs, htest⟩ := succeeds_iff.1 htest
    obtain ⟨hhistories, hrecords⟩ := of_decide_eq_true htest
    exact ⟨s, Machine.run_of_exec hs, hhistories, hrecords⟩
  refine ⟨heap, hnew, ?_, ?_, ?_⟩
  -- what is written at the end is compared with its history
  · obtain ⟨s, hs, hhistories, hrecords⟩ := hrun freedInsideRun
      [⟨[.read 400 8, .freed 64 64], some 1⟩] [(1, 1, 1, [.isRead, .isAlloc])] (by decide +kernel)
    refine ⟨s, hs, hhistories, hrecords, fun h => ?_⟩
    obtain ⟨r, hr, hsummary⟩ := faithful_of_written (k := 0) h (by rw [hhistories]; rfl)
      (by rw [hrecords]; rfl)
    have hactions : r.entrySet.map RecordEntry.action = [.isRead, .isAlloc] :=
      congrArg (fun x => x.2.2.2) hsummary
    rw [hr.entries] at hactions
    cases hactions
  · obtain ⟨s, hs, hhistories, hrecords⟩ := hrun abortedObservedRun
      [⟨[.read 400 8], some 1⟩] [(1, 2, 0, [.isRead])] (by decide +kernel)
    refine ⟨s, hs, hhistories, hrecords, fun h => ?_⟩
    obtain ⟨r, hr, hsummary⟩ := faithful_of_written (k := 0) h (by rw [hhistories]; rfl)
      (by rw [hrecords]; rfl)
    have hstart : r.timeStart = 2 := congrArg (fun x => x.2.1) hsummary
    have hend : r.timeEnd = 0 := congrArg (fun x => x.2.2.1) hsummary
    have hinterval := hr.interval
    omega
  · obtain ⟨s, hs, hhistories, hrecords⟩ := hrun nestedFirstRun
      [⟨[.write 400 8], some 1⟩, ⟨[.began 2, .read 400 8], some 1⟩]
      [(2, 1, 1, [.isWrite]), (1, 0, 2, [.isSubTrans, .isRead])] (by decide +kernel)
    refine ⟨s, hs, hhistories, hrecords, fun h => ?_⟩
    obtain ⟨r, hr, hsummary⟩ := faithful_of_written (k := 1) h (by rw [hhistories]; rfl)
      (by rw [hrecords]; rfl)
    have hstart : r.timeStart = 0 := congrArg (fun x => x.2.1) hsummary
    have hone : r.timeStart = 1 := hr.start 1 rfl
    omega

end CompositionSystem

end Sesc.Tm
