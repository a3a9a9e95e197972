import Sesc.Tm.System

/-!
# The flags of the transactions and the calls in progress

Most functions of the interface leave the flags of the transactions alone, except that they erase
resolved transactions, and the calls that they make are none of `BeginTransaction`.  The few that
do more are `BeginTransaction`, `EndTransaction`, the end of `AbortTransaction`, the beginning of
`ObserveAccess` and `ProcessAction` for `TransBegin`.
-/

namespace Sesc.Tm

open Lib Sesc.Trans

/-- Two of the flags of a `TransRecord`. -/
structure Flags where
  progressObserved : Bool
  resolved : Bool
deriving DecidableEq, Repr

def TransRecord.flags (tr : TransRecord) : Flags := ⟨tr.progressObserved, tr.resolved⟩

def TMInterface.flags (s : TMInterface) : Level → Option Flags := fun id =>
  (s.transRecordSet.find id).map TransRecord.flags

/-- Nothing is changed, except that resolved transactions may be gone. -/
def Sheds (F F' : Level → Option Flags) : Prop :=
  ∀ id, F' id = F id ∨ F' id = none ∧ ∃ x, F id = some x ∧ x.resolved = true

/-- A transaction is resolved. -/
def resolveFlags (F : Level → Option Flags) (id : Level) : Level → Option Flags :=
  Function.update F id ((F id).map fun x => { x with resolved := true })

/-- The progress of a transaction is observed. -/
def observeFlags (F : Level → Option Flags) (id : Level) : Level → Option Flags :=
  Function.update F id ((F id).map fun x => { x with progressObserved := true })

section

variable {F F' F'' : Level → Option Flags} {id : Level}

lemma Sheds.refl (F : Level → Option Flags) : Sheds F F := fun _ => .inl rfl

lemma Sheds.of_eq (h : F' = F) : Sheds F F' := by
  subst h
  exact .refl _

lemma Sheds.trans (h : Sheds F F') (h' : Sheds F' F'') : Sheds F F'' := by
  intro id
  rcases h' id with h' | ⟨hnone, x, hx, hresolved⟩
  · rw [h']
    exact h id
  · refine .inr ⟨hnone, x, ?_, hresolved⟩
    rcases h id with h | ⟨hgone, -⟩
    · exact h.symm.trans hx
    · rw [hgone] at hx
      cases hx

lemma Sheds.resolve (h : Sheds F F') : Sheds (resolveFlags F id) (resolveFlags F' id) := by
  intro j
  rw [resolveFlags, resolveFlags]
  by_cases hj : j = id
  · subst hj
    rw [Function.update_self, Function.update_self]
    rcases h j with h | ⟨hnone, x, hx, -⟩
    · exact .inl (by rw [h])
    · exact .inr ⟨by rw [hnone, Option.map_none], _, by rw [hx, Option.map_some], rfl⟩
  · rw [Function.update_of_ne hj, Function.update_of_ne hj]
    exact h j

/-- A transaction that is still there has its flags. -/
lemma Sheds.eq_of_ne_none (h : Sheds F F') (hid : F' id ≠ none) : F' id = F id :=
  (h id).resolve_right fun hgone => hid hgone.1

/-- A transaction that is gone was resolved. -/
lemma Sheds.resolved (h : Sheds F F') {x : Flags} (hx : F id = some x) (hid : F' id = none) :
    x.resolved = true := by
  rcases h id with hsame | ⟨-, y, hy, hresolved⟩
  · rw [hid, hx] at hsame
    cases hsame
  · cases hy.symm.trans hx
    exact hresolved

end

/-- The frames that are neither of `BeginTransaction` nor of the recording of its success. -/
def Frame.quiet : Frame → Bool
  | observeBegun _ => false
  | f => !f.isBegin

/-- The transaction that a frame of `BeginTransaction` is about. -/
def Frame.opens : Frame → Option Level
  | begin id _ | beginParent id _ | beginSelf id _ => some id
  | _ => none

lemma Frame.not_isBegin_of_quiet {f : Frame} (h : f.quiet = true) : f.isBegin = false := by
  cases f <;> simp_all [quiet, isBegin]

lemma Frame.isBegin_of_opens {f : Frame} {id : Level} (h : f.opens = some id) :
    f.isBegin = true := by
  cases f <;> first | rfl | cases h

/-- Quiet calls are made, and resolved transactions may be erased. -/
structure Plain (s s' : TMInterface) : Prop where
  pushed : ∃ fs, s'.frames = fs ++ s.frames ∧ ∀ f ∈ fs, f.quiet = true
  sheds : Sheds s.flags s'.flags

/-- Also a transaction is resolved. -/
structure Resolves (id : Level) (s s' : TMInterface) : Prop where
  pushed : ∃ fs, s'.frames = fs ++ s.frames ∧ ∀ f ∈ fs, f.quiet = true
  sheds : Sheds (resolveFlags s.flags id) s'.flags

def Plainly (s : TMInterface) (x : Except Fault TMInterface) : Prop := Ensures (Plain s) x

section

variable {s s' s'' : TMInterface} {x : Except Fault TMInterface}

lemma Plain.of_eq (hframes : s'.frames = s.frames) (hflags : s'.flags = s.flags) : Plain s s' :=
  ⟨⟨[], hframes, fun _ hf => nomatch hf⟩, .of_eq hflags⟩

lemma Plain.trans (h : Plain s s') (h' : Plain s' s'') : Plain s s'' := by
  obtain ⟨⟨fs, hframes, hquiet⟩, hsheds⟩ := h
  obtain ⟨⟨fs', hframes', hquiet'⟩, hsheds'⟩ := h'
  refine ⟨⟨fs' ++ fs, ?_, fun f hf => ?_⟩, hsheds.trans hsheds'⟩
  · rw [hframes', hframes, List.append_assoc]
  · exact (List.mem_append.1 hf).elim (hquiet' f) (hquiet f)

/-- Only calls are made. -/
lemma Plain.push {fs : List Frame} (hframes : s'.frames = s.frames) (hflags : s'.flags = s.flags)
    (hquiet : fs.all Frame.quiet = true) : Plain s (s'.push fs) :=
  (Plain.of_eq hframes hflags).trans ⟨⟨fs, rfl, List.all_eq_true.1 hquiet⟩, .refl _⟩

lemma Plain.plainly (h : Plain s s') : Plainly s (.ok s') := ensures_ok.2 h

lemma Plainly.of_eq (hframes : s'.frames = s.frames) (hflags : s'.flags = s.flags) :
    Plainly s (.ok s') :=
  (Plain.of_eq hframes hflags).plainly

lemma Plainly.push {fs : List Frame} (hframes : s'.frames = s.frames) (hflags : s'.flags = s.flags)
    (hquiet : fs.all Frame.quiet = true) : Plainly s (.ok (s'.push fs)) :=
  (Plain.push hframes hflags hquiet).plainly

lemma Plainly.bind {g : TMInterface → Except Fault TMInterface} (hx : Plainly s x)
    (hg : ∀ s', Plainly s' (g s')) : Plainly s (x >>= g) :=
  Ensures.bind hx fun s' hs' => (hg s').mono fun _ hs'' => hs'.trans hs''

/-- The state before is one that agrees on the flags and the calls. -/
lemma Plain.of_base (h : Plain s' s'') (hframes : s'.frames = s.frames)
    (hflags : s'.flags = s.flags) : Plain s s'' :=
  (Plain.of_eq hframes hflags).trans h

lemma Plainly.of_base (h : Plainly s' x) (hframes : s'.frames = s.frames)
    (hflags : s'.flags = s.flags) : Plainly s x :=
  h.mono fun _ h => h.of_base hframes hflags

end

namespace TMInterface

variable {s : TMInterface} {id : Level} {stamp : Stamp} {pid : Pid} {force : Bool} {o : Outcome}

/-! ## The flags -/

lemma flags_eq_some {x : Flags} : s.flags id = some x ↔
    ∃ tr, s.transRecordSet.find id = some tr ∧ tr.flags = x :=
  Option.map_eq_some_iff

lemma flags_eq_none : s.flags id = none ↔ s.transRecordSet.find id = none :=
  Option.map_eq_none_iff

/-- A change of a record that the flags do not see. -/
lemma flags_modify {f : TransRecord → TransRecord}
    {g : ∀ tr, (f tr).transactionID = tr.transactionID} (hf : ∀ tr, (f tr).flags = tr.flags) :
    (s.setRecords (s.transRecordSet.modify id f g)).flags = s.flags := by
  funext j
  show ((s.transRecordSet.modify id f g).find j).map TransRecord.flags = _
  rw [Table.find_modify]
  split
  · rw [Option.map_map]
    exact congrArg (fun h => Option.map h (s.transRecordSet.find j)) (funext hf)
  · rfl

@[simp] lemma flags_addAccesses {n : ℤ} : (s.addAccesses id n).flags = s.flags :=
  flags_modify fun _ => rfl

@[simp] lemma flags_addDependantAccesses {n : ℤ} :
    (s.addDependantAccesses id n).flags = s.flags :=
  flags_modify fun _ => rfl

@[simp] lemma flags_setTransEndOp {op : TransOperation} :
    (s.setTransEndOp id op).flags = s.flags :=
  flags_modify fun _ => rfl

lemma flags_setResolved {committed : Bool} :
    (s.setResolved id committed).flags = resolveFlags s.flags id := by
  funext j
  show ((resolveIn s.transRecordSet id committed).find j).map TransRecord.flags = _
  rw [resolveIn, Table.find_modify, resolveFlags]
  by_cases hj : j = id
  · subst hj
    rw [if_pos rfl, Function.update_self, flags, Option.map_map, Option.map_map]
    rfl
  · rw [if_neg hj, Function.update_of_ne hj]
    rfl

lemma flags_setProgressObserved : (s.setProgressObserved id).flags = observeFlags s.flags id := by
  funext j
  show ((s.transRecordSet.modify id (fun tr => { tr with progressObserved := true })
    fun _ => rfl).find j).map TransRecord.flags = _
  rw [Table.find_modify, observeFlags]
  by_cases hj : j = id
  · subst hj
    rw [if_pos rfl, Function.update_self, flags, Option.map_map, Option.map_map]
    rfl
  · rw [if_neg hj, Function.update_of_ne hj]
    rfl

/-- A resolved transaction is erased. -/
lemma sheds_erase {tr : TransRecord} (found : s.transRecordSet.find id = some tr)
    (hresolved : tr.resolved = true) :
    Sheds s.flags (s.setRecords (s.transRecordSet.erase id)).flags := by
  intro j
  show ((s.transRecordSet.erase id).find j).map TransRecord.flags = _ ∨ _
  by_cases hj : j = id
  · subst hj
    refine .inr ⟨flags_eq_none.2 ?_, tr.flags, flags_eq_some.2 ⟨tr, found, rfl⟩, hresolved⟩
    show (s.transRecordSet.erase j).find j = none
    rw [Table.find_erase, if_pos rfl]
  · rw [Table.find_erase, if_neg hj]
    exact .inl rfl

/-! ## Retiring -/

lemma plain_tryRetireTransaction : Plainly s (s.tryRetireTransaction id) := by
  refine Ensures.elim fun tr htr => ?_
  split
  · exact Plainly.of_eq rfl rfl
  · rename_i hretired
    have hresolved : tr.resolved = true := by
      by_contra h
      exact hretired (.inr (.inr (.inl (by simpa using h))))
    refine Ensures.skip fun m => ensures_pure.2 ⟨⟨[], rfl, fun _ hf => nomatch hf⟩, ?_⟩
    exact sheds_erase (s := s.setMemories m) htr hresolved

lemma plain_retireFromEntry {a : StoredAccess} : Plainly s (s.retireFromEntry a) := by
  rw [retireFromEntry]
  split
  · exact Plainly.of_eq rfl rfl
  · refine Ensures.elim fun tr _ => ensures_check_bind.2 fun _ => ?_
    exact plain_tryRetireTransaction.of_base rfl flags_addAccesses

lemma plain_retireFromDependant {a : StoredAccess} : Plainly s (s.retireFromDependant a) := by
  rw [retireFromDependant]
  split
  · exact Plainly.of_eq rfl rfl
  · refine Ensures.elim fun tr _ => ensures_check_bind.2 fun _ => ?_
    exact plain_tryRetireTransaction.of_base rfl flags_addDependantAccesses

lemma plain_retireAccess : Plainly s (s.retireAccess stamp) := by
  refine Ensures.elim fun a _ => ?_
  split
  · exact Plainly.of_eq rfl rfl
  · refine ensures_check_bind.2 fun _ => ensures_check_bind.2 fun _ => ?_
    exact plain_retireFromEntry.bind fun _ => plain_retireFromDependant.bind fun _ =>
      Plainly.of_eq rfl rfl

lemma plain_destroyAccess : Plainly s (s.destroyAccess stamp) :=
  Ensures.elim fun _ _ => ensures_check_bind.2 fun _ => Plainly.of_eq rfl rfl

lemma plain_retireAndDestroy : Plainly s (s.retireAndDestroy stamp) :=
  plain_retireAccess.bind fun _ => plain_destroyAccess

/-! ## The devices -/

lemma plain_executeAccess : Plain s (s.executeAccess o) :=
  Plain.push rfl rfl rfl

lemma plain_handleEmittedInstructions : Plain s s.handleEmittedInstructions := by
  rw [handleEmittedInstructions]
  split
  · exact Plain.of_eq rfl rfl
  · exact Plain.push rfl rfl rfl

lemma plain_handleLoop : Plain s s.handleLoop := by
  rw [handleLoop]
  split
  · exact Plain.of_eq rfl rfl
  · split
    · exact Plain.push rfl rfl rfl
    · exact Plain.push rfl rfl rfl

/-! ## `EndTransaction` -/

lemma plain_mergeDown {parent : Level} : Plainly s (s.mergeDown pid id parent) :=
  Ensures.skip fun _ => ensures_check_bind.2 fun _ => Ensures.skip fun _ => Plainly.of_eq rfl rfl

lemma plain_leaveParent {parent child : Level} : Plainly s (s.leaveParent parent child) := by
  rw [leaveParent]
  split
  · exact Plainly.of_eq rfl rfl
  · refine Ensures.elim fun _ _ => Plainly.of_eq rfl ?_
    exact flags_addAccesses

@[simp] lemma flags_leaveSeen {old new : Level} : (s.leaveSeen pid old new).flags = s.flags := by
  rw [leaveSeen]
  split <;> rfl

@[simp] lemma frames_leaveSeen {old new : Level} :
    (s.leaveSeen pid old new).frames = s.frames := by
  rw [leaveSeen]
  split <;> rfl

/-- A transaction is resolved in the course of a function. -/
lemma resolves_of_setResolved {s₁ s' : TMInterface} (committed : Bool) (h : Plain s s₁)
    (h' : Plain (s₁.setResolved id committed) s') : Resolves id s s' := by
  obtain ⟨fs, hfs, hquiet⟩ := h.pushed
  obtain ⟨fs', hfs', hquiet'⟩ := h'.pushed
  have hsheds : Sheds (s₁.setResolved id committed).flags s'.flags := h'.sheds
  rw [flags_setResolved] at hsheds
  refine ⟨⟨fs' ++ fs, ?_, fun f hf => ?_⟩, h.sheds.resolve.trans hsheds⟩
  · have hframes : (s₁.setResolved id committed).frames = s₁.frames := rfl
    rw [hfs', hframes, hfs, List.append_assoc]
  · exact (List.mem_append.1 hf).elim (hquiet' f) (hquiet f)

lemma resolves_resolveEnded {tr : TransRecord} {op : TransOperation} :
    Ensures (Resolves tr.transactionID s) (s.resolveEnded tr op force) := by
  refine Ensures.bind (plain_leaveParent.of_base frames_leaveSeen flags_leaveSeen) fun s₁ h₁ => ?_
  split
  · exact ensures_pure.2 (resolves_of_setResolved true h₁ (Plain.push rfl rfl rfl))
  · refine Ensures.bind plain_mergeDown fun s₂ h₂ => ensures_pure.2 ?_
    have hcalls : Plain s₂ (s₂.push [.endParent tr.parentTransactionID force, .commit tr.pid]) :=
      Plain.push rfl rfl rfl
    exact resolves_of_setResolved true h₁ ((h₂.trans hcalls).of_base rfl rfl)

/-- The `TransEnd` instruction of a transaction is delayed. -/
def delaysEnd (s : TMInterface) (tr : TransRecord) (force : Bool) (o : Outcome) : Bool :=
  !s.raceAheadMode tr.pid && (s.executeTransactionInst force o).retryTime ≠ 0

/-- `EndTransaction` resolves a transaction that has been observed, unless it is delayed. -/
lemma endTransaction_spec : Ensures (fun s' => ∃ tr, s.transRecordSet.find id = some tr ∧
      tr.flags = ⟨true, false⟩ ∧
      if s.delaysEnd tr force o then Plain s s' else Resolves id s s')
    (s.endTransaction id force o) := by
  refine Ensures.elim fun tr htr => Ensures.skip fun _ => ensures_check_bind.2 fun hmay => ?_
  refine Ensures.elim fun op _ => ensures_check_bind.2 fun _ => ?_
  have hflags : tr.flags = ⟨true, false⟩ := by
    have hmay' := of_decide_eq_true hmay
    simp only [TransRecord.mayEnd, Bool.and_eq_true, Bool.not_eq_true'] at hmay'
    rw [TransRecord.flags, hmay'.1.1.1, hmay'.2]
  obtain ⟨-, rfl⟩ := Table.find_eq_some.1 htr
  split
  · rename_i hrace
    have hnot : s.delaysEnd tr force o = false := by rw [delaysEnd, hrace]; rfl
    refine resolves_resolveEnded.mono fun s' h => ⟨tr, htr, hflags, ?_⟩
    rw [hnot]
    exact h
  · rename_i hrace
    split
    · rename_i hdelay
      have hyes : s.delaysEnd tr force o = true := by simp [delaysEnd, hrace, hdelay]
      refine ensures_pure.2 ⟨tr, htr, hflags, ?_⟩
      rw [if_pos hyes]
      exact Plain.of_eq rfl rfl
    · rename_i hdelay
      have hnot : s.delaysEnd tr force o = false := by simp [delaysEnd, hdelay]
      refine (resolves_resolveEnded (s := s.executeTransactionInst force o)).mono fun s' h =>
        ⟨tr, htr, hflags, ?_⟩
      rw [hnot]
      exact ⟨h.pushed, h.sheds⟩

lemma plain_endParent : Plainly s (s.endParent id force) := by
  refine Ensures.elim fun tr _ => ?_
  split
  · exact Plainly.push rfl rfl rfl
  · exact Plainly.of_eq rfl rfl

/-! ## `AbortTransaction` -/

lemma plain_abortTransactionTree : Plainly s (s.abortTransactionTree id o) :=
  Ensures.elim fun _ _ => ensures_check_bind.2 fun _ => Plainly.push rfl rfl rfl

lemma plain_abortTransaction : Plainly s (s.abortTransaction id o) :=
  Ensures.elim fun _ _ => ensures_check_bind.2 fun _ => Plainly.push rfl rfl rfl

lemma plain_abortTree {garbageList : List Level} : Plain s (s.abortTree garbageList) := by
  cases garbageList with
  | nil => exact Plain.of_eq rfl rfl
  | cons id rest =>
    rw [abortTree]
    split
    · exact Plain.push rfl rfl rfl
    · exact Plain.push rfl rfl rfl

lemma plain_fixPrivateMemory : Plainly s (s.fixPrivateMemory pid) := by
  refine Ensures.foldlM (Plain.of_eq rfl rfl) fun id _ s' hs' => ?_
  refine Ensures.elim fun tr _ => Ensures.skip fun _ => ?_
  split
  · exact Ensures.skip fun m => ensures_pure.2 (hs'.trans (Plain.of_eq rfl rfl))
  · exact ensures_pure.2 (hs'.trans (Plain.of_eq rfl rfl))

lemma plain_executeAbort : Plain s (s.executeAbort pid) := by
  rw [executeAbort]
  split
  · exact Plain.of_eq rfl rfl
  · exact Plain.of_eq rfl rfl

lemma plain_leaveAborted {tr : TransRecord} : Plainly s (s.leaveAborted tr) := by
  rw [leaveAborted]
  split
  · split
    · exact Plainly.of_eq rfl rfl
    · refine Ensures.elim fun _ _ => ensures_check_bind.2 fun _ => Ensures.elim fun _ _ => ?_
      exact Plainly.of_eq rfl flags_addAccesses
  · split
    · exact Plainly.of_eq rfl rfl
    · exact Ensures.mono (plain_leaveParent.of_base frames_leaveSeen flags_leaveSeen)
        fun s' hs' => plain_executeAbort.trans hs'

lemma plain_leaveCurrent {tr : TransRecord} : Plain s (s.leaveCurrent tr) := by
  rw [leaveCurrent]
  split
  · exact Plain.of_eq rfl rfl
  · exact Plain.of_eq rfl rfl

/-- The end of `AbortTransaction` resolves the transaction. -/
lemma resolves_abortSelf : Ensures (Resolves id s) (s.abortSelf id) := by
  refine Ensures.elim fun tr _ => ensures_check_bind.2 fun _ => ?_
  refine Ensures.bind plain_leaveAborted fun s₁ h₁ => ?_
  refine Ensures.bind plain_fixPrivateMemory fun s₂ h₂ => ?_
  refine Ensures.mono plain_tryRetireTransaction fun s' h' => ?_
  exact resolves_of_setResolved false (h₁.trans plain_leaveCurrent) (h₂.trans h')

/-! ## `CommitPrivateMemory` -/

lemma plain_commitPrivateMemory : Plainly s (s.commitPrivateMemory pid) :=
  ensures_check_bind.2 fun _ => Plainly.push rfl rfl rfl

lemma plain_commitFront {sl : PrivateMemory} : Plainly s (s.commitFront pid id sl) := by
  refine ensures_check_bind.2 fun _ => Ensures.skip fun intact => ?_
  split
  · exact Ensures.skip fun _ => Plainly.push rfl rfl rfl
  · exact ensures_check_bind.2 fun _ => Plainly.push rfl rfl rfl

lemma plain_commitLoop : Plainly s (s.commitLoop pid) := by
  rw [commitLoop]
  split
  · exact Plainly.of_eq rfl rfl
  · refine Ensures.elim fun tr _ => Ensures.skip fun sl => ensures_check_bind.2 fun _ =>
      ensures_check_bind.2 fun _ => ?_
    split
    · exact plain_commitFront.of_base rfl rfl
    · exact Plainly.of_eq rfl rfl

lemma plain_commitApplied : Plainly s (s.commitApplied pid id) :=
  Ensures.skip fun _ => Plainly.of_eq rfl rfl

lemma plain_correct : Plainly s (s.correct pid) := by
  rw [correct]
  split
  · exact Plainly.of_eq rfl rfl
  · refine Ensures.elim fun tr _ => ?_
    split
    · refine ensures_check_bind.2 fun _ => Ensures.skip fun m => ?_
      refine Ensures.bind plain_tryRetireTransaction fun s₁ h₁ => ensures_pure.2 ?_
      refine Plain.trans (h₁.of_base rfl rfl) ?_
      exact Plain.push rfl rfl rfl
    · exact Plainly.push rfl rfl rfl

lemma plain_rerun : Plainly s (s.rerun pid id) :=
  Ensures.elim fun _ _ => Ensures.skip fun _ => ensures_check_bind.2 fun _ =>
    Plainly.push rfl rfl rfl

lemma plain_finishRaceAhead : Plainly s (s.finishRaceAhead pid) :=
  ensures_check_bind.2 fun _ => ensures_check_bind.2 fun _ => Plainly.of_eq rfl rfl

/-! ## `ObserveAccess` -/

/-- `ObserveAccess` calls `BeginTransaction` for a transaction that has not been observed. -/
structure Observes (stamp : Stamp) (s s' : TMInterface) : Prop where
  same : s'.flags = s.flags ∧ s'.accessSet = s.accessSet
  unobserved : ∃ a x, s.accessSet.find stamp = some a ∧ s.flags a.transactionEntry = some x ∧
    x.progressObserved = false ∧
    s'.frames = [.begin a.transactionEntry false, .observeBegun stamp] ++ s.frames

lemma observeTransactional_spec {a : StoredAccess} (ha : s.accessSet.find stamp = some a) :
    Ensures (fun s' => Plain s s' ∨ Observes stamp s s') (s.observeTransactional a) := by
  rw [observeTransactional]
  split
  · exact Ensures.mono plain_retireAndDestroy fun _ h => .inl (h.of_base rfl rfl)
  · refine Ensures.elim fun tr htr => ensures_pure.2 ?_
    obtain ⟨-, hid⟩ := Table.find_eq_some.1 htr
    obtain ⟨-, rfl⟩ := Table.find_eq_some.1 ha
    split
    · exact .inl (Plain.push rfl rfl rfl)
    · rename_i hobserved
      refine .inr ⟨⟨rfl, rfl⟩, a, tr.flags, ha, flags_eq_some.2 ⟨tr, htr, rfl⟩, ?_, ?_⟩
      · simpa [TransRecord.flags] using hobserved
      · rw [hid]
        rfl

lemma plain_observeFollowing {a : StoredAccess} : Plainly s (s.observeFollowing a o) := by
  rw [observeFollowing]
  split
  · exact plain_retireAndDestroy.of_base rfl rfl
  · refine Plain.plainly (Plain.trans ?_ plain_executeAccess)
    exact Plain.push rfl rfl rfl

lemma observeAccess_spec :
    Ensures (fun s' => Plain s s' ∨ Observes stamp s s') (s.observeAccess stamp o) := by
  rw [observeAccess]
  split
  · exact ensures_ok.2 (.inl (Plain.of_eq rfl rfl))
  · rename_i a ha
    split
    · exact observeTransactional_spec ha
    · split
      · exact Ensures.mono plain_observeFollowing fun _ h => .inl h
      · exact ensures_ok.2 (.inl (Plain.of_eq rfl rfl))

lemma plain_observeBegun : Plain s (s.observeBegun stamp) := by
  rw [observeBegun]
  split
  · exact Plain.of_eq rfl rfl
  · exact Plain.push rfl rfl rfl

lemma plain_observeEnd {tr : TransRecord} : Plainly s (s.observeEnd stamp tr) := by
  rw [observeEnd]
  split
  · refine Ensures.elim fun op _ => ensures_check_bind.2 fun _ => Plainly.push rfl rfl ?_
    split <;> rfl
  · exact plain_destroyAccess

lemma plain_observeRetire : Plainly s (s.observeRetire stamp) := by
  refine Ensures.elim fun a _ => plain_retireAccess.bind fun s' => ?_
  split
  · exact plain_destroyAccess
  · exact plain_observeEnd

lemma plain_observeExecute : Plainly s (s.observeExecute stamp o) := by
  refine Ensures.elim fun a _ => Ensures.elim fun tr _ => ?_
  split
  · split
    · exact plain_observeRetire
    · refine ensures_pure.2 (Plain.trans ?_ plain_executeAccess)
      exact Plain.push rfl rfl rfl
  · exact plain_observeEnd

lemma plain_observeExecuted : Plainly s (s.observeExecuted stamp) := by
  rw [observeExecuted]
  split
  · exact Plainly.of_eq rfl rfl
  · exact plain_observeRetire

lemma plain_observeEnded : Plainly s (s.observeEnded stamp) := by
  rw [observeEnded]
  split
  · exact Plainly.of_eq rfl rfl
  · exact plain_destroyAccess

lemma plain_observeDependant : Plainly s (s.observeDependant stamp) := by
  rw [observeDependant]
  split
  · exact Plainly.of_eq rfl rfl
  · exact plain_retireAndDestroy

/-! ## `ProcessAction` -/

lemma plain_forgetSeen : Plain s (s.forgetSeen pid) := by
  rw [forgetSeen]
  split
  · exact Plain.of_eq rfl rfl
  · exact Plain.of_eq rfl rfl

lemma plain_countForCurrent : Plainly s (s.countForCurrent pid) := by
  rw [countForCurrent]
  split
  · exact Plainly.of_eq rfl rfl
  · exact Ensures.elim fun _ _ => Plainly.of_eq rfl flags_addAccesses

lemma plain_countForDependant {dependant : Level} :
    Plainly s (s.countForDependant pid dependant) := by
  rw [countForDependant]
  split
  · exact Plainly.of_eq rfl rfl
  · exact ensures_check_bind.2 fun _ => Ensures.elim fun _ _ =>
      Plainly.of_eq rfl flags_addDependantAccesses

lemma plain_processAccess {addr : Address} : Plainly s (s.processAccess pid stamp addr) := by
  rw [processAccess]
  split
  · exact Plainly.of_eq rfl rfl
  · refine ensures_check_bind.2 fun _ => Ensures.bind plain_countForCurrent fun s₁ h₁ => ?_
    refine Ensures.bind plain_countForDependant fun s₂ h₂ => Ensures.skip fun sl => ?_
    refine ensures_check_bind.2 fun _ => ensures_pure.2 ?_
    have hplain : Plain s s₂ := plain_forgetSeen.trans ((h₁.trans h₂).of_base rfl rfl)
    split
    · exact hplain.trans (Plain.push rfl rfl rfl)
    · exact hplain

lemma flags_joinParent {newTrans : Level} :
    Ensures (fun s' => s'.flags = s.flags ∧ s'.frames = s.frames) (s.joinParent pid newTrans) := by
  rw [joinParent]
  split
  · exact ensures_ok.2 ⟨rfl, rfl⟩
  · exact Ensures.elim fun _ _ => ensures_pure.2 ⟨flags_addAccesses, rfl⟩

/-- A new transaction is neither observed nor resolved. -/
structure Begins (s s' : TMInterface) : Prop where
  flags : s'.flags = Function.update s.flags s.globalTransactionID (some ⟨false, false⟩)
  pushed : ∃ fs, s'.frames = fs ++ s.frames ∧ ∀ f ∈ fs, f.isBegin = true

lemma begins_processBegin : Ensures (Begins s) (s.processBegin pid) := by
  refine ensures_check_bind.2 fun _ => Ensures.skip fun m => ?_
  refine Ensures.bind flags_joinParent fun s₁ h₁ => ensures_pure.2 ?_
  have hflags : s₁.flags = Function.update s.flags s.globalTransactionID (some ⟨false, false⟩) := by
    refine h₁.1.trans (funext fun j => ?_)
    show ((s.transRecordSet.insert (.new pid s.globalTransactionID (s.currentTransID pid)
      (s.lastTransactionSeen pid))).find j).map TransRecord.flags = _
    rw [Table.find_insert]
    by_cases hj : j = s.globalTransactionID
    · subst hj
      rw [Function.update_self]
      exact congrArg (Option.map TransRecord.flags) (if_pos rfl)
    · rw [Function.update_of_ne hj]
      exact congrArg (Option.map TransRecord.flags) (if_neg hj)
  have hframes : s₁.frames = s.frames := h₁.2
  split
  · refine ⟨hflags, [.begin s.globalTransactionID false], ?_, List.forall_mem_singleton.2 rfl⟩
    rw [← hframes]
    rfl
  · exact ⟨hflags, [], hframes, fun _ hf => nomatch hf⟩

lemma plain_processEnd {aborts : Bool} : Plainly s (s.processEnd pid aborts) := by
  refine Ensures.elim fun tr _ => ensures_check_bind.2 fun _ => ensures_check_bind.2 fun _ => ?_
  refine Ensures.skip fun tr' => ensures_pure.2 ?_
  split
  · refine Plain.push rfl flags_setTransEndOp ?_
    split <;> rfl
  · exact Plain.of_eq rfl flags_setTransEndOp

/-! ## `BeginTransaction` -/

/-- `BeginTransaction` calls itself for other transactions before it goes on, unless the transaction
has been observed already. -/
lemma beginTransaction_spec : Ensures (fun s' => s'.flags = s.flags ∧ s'.accessSet = s.accessSet ∧
      ∃ x, s.flags id = some x ∧ x.resolved = false ∧
        if x.progressObserved then s'.frames = s.frames
        else ∃ fs, s'.frames = fs ++ .beginParent id force :: s.frames ∧ ∀ f ∈ fs, f.isBegin = true)
    (s.beginTransaction id force) := by
  refine Ensures.elim fun tr htr => ensures_check_bind.2 fun hresolved => Ensures.skip fun _ => ?_
  have hx : s.flags id = some tr.flags := flags_eq_some.2 ⟨tr, htr, rfl⟩
  split
  · rename_i hobserved
    refine ensures_pure.2 ⟨rfl, rfl, tr.flags, hx, of_decide_eq_true hresolved, ?_⟩
    rw [TransRecord.flags, if_pos hobserved]
  · rename_i hobserved
    split
    · refine ensures_pure.2 ⟨rfl, rfl, tr.flags, hx, of_decide_eq_true hresolved, ?_⟩
      rw [TransRecord.flags, if_neg hobserved]
      exact ⟨[.begin tr.dependantTransaction force], rfl, List.forall_mem_singleton.2 rfl⟩
    · refine ensures_pure.2 ⟨rfl, rfl, tr.flags, hx, of_decide_eq_true hresolved, ?_⟩
      rw [TransRecord.flags, if_neg hobserved]
      exact ⟨[], rfl, fun _ hf => absurd hf List.not_mem_nil⟩

lemma beginParent_spec : Ensures (fun s' => s'.flags = s.flags ∧ s'.accessSet = s.accessSet ∧
      ∃ fs, s'.frames = fs ++ .beginSelf id force :: s.frames ∧ ∀ f ∈ fs, f.isBegin = true)
    (s.beginParent id force) := by
  refine Ensures.elim fun tr _ => ?_
  split
  · exact ensures_pure.2 ⟨rfl, rfl, [], rfl, fun _ hf => nomatch hf⟩
  · exact Ensures.skip fun _ => ensures_pure.2 ⟨rfl, rfl, [.begin tr.parentTransactionID force], rfl,
      List.forall_mem_singleton.2 rfl⟩

/-- The `TransBegin` instruction of a transaction is delayed. -/
def delaysBegin (s : TMInterface) (tr : TransRecord) (force : Bool) (o : Outcome) : Bool :=
  s.executesBegin tr &&
    (s.executeTransactionInst (force || s.raceAheadMode tr.pid) o).retryTime ≠ 0

/-- The calls of `BeginTransaction` are given up, or the transaction is observed. -/
lemma beginSelf_spec : Ensures (fun s' => s'.accessSet = s.accessSet ∧
      ∃ tr, s.transRecordSet.find id = some tr ∧
        if s.delaysBegin tr force o then
          s'.flags = s.flags ∧ s'.frames = s.frames.dropWhile Frame.isBegin ∧ s'.retryTime ≠ 0
        else s'.flags = observeFlags s.flags id ∧ s'.frames = s.frames ∧
          s'.retryTime = if s.executesBegin tr then 0 else s.retryTime)
    (s.beginSelf id force o) := by
  refine Ensures.elim fun tr htr => ?_
  obtain ⟨-, rfl⟩ := Table.find_eq_some.1 htr
  split
  · rename_i hexecutes
    rw [finishBegin]
    split
    · rename_i hdelay
      have hyes : s.delaysBegin tr force o = true := by
        rw [delaysBegin, hexecutes, decide_eq_true hdelay.2]
        rfl
      refine ensures_check_bind.2 fun _ => ensures_pure.2 ⟨rfl, tr, htr, ?_⟩
      rw [if_pos hyes]
      exact ⟨rfl, rfl, hdelay.2⟩
    · rename_i hdelay
      have hzero : (s.executeTransactionInst (force || s.raceAheadMode tr.pid) o).retryTime = 0 := by
        by_contra h
        exact hdelay ⟨hexecutes, h⟩
      have hnot : s.delaysBegin tr force o = false := by
        rw [delaysBegin, hzero]
        simp
      refine ensures_ok.2 ⟨rfl, tr, htr, ?_⟩
      rw [if_neg (by rw [hnot]; exact Bool.false_ne_true), if_pos hexecutes]
      exact ⟨flags_setProgressObserved, rfl, hzero⟩
  · rename_i hexecutes
    have hnot : s.delaysBegin tr force o = false := by simp [delaysBegin, hexecutes]
    rw [finishBegin, if_neg fun h => hexecutes h.1]
    refine ensures_ok.2 ⟨rfl, tr, htr, ?_⟩
    rw [if_neg (by rw [hnot]; exact Bool.false_ne_true), if_neg hexecutes]
    exact ⟨flags_setProgressObserved, rfl, rfl⟩

end TMInterface

/-! ## The steps -/

/-- The calls that change the flags, or that make a call of `BeginTransaction`. -/
def Call.plain : Call → Bool
  | processBegin _ | observeAccess _ | beginTransaction _ _ | endTransaction _ _ => false
  | _ => true

/-- The frames that do so. -/
def Frame.plain : Frame → Bool
  | begin _ _ | beginParent _ _ | beginSelf _ _ | ending _ _ | abortSelf _ | observe _
    | observeBegun _ => false
  | _ => true

namespace TMInterface

variable {s : TMInterface} {o : Outcome}

lemma plain_perform (c : Call) (hc : c.plain = true) : Plainly s (s.perform o c) := by
  cases c with
  | load pid addr data =>
    exact Ensures.skip fun _ => ensures_check_bind.2 fun _ => Plainly.of_eq rfl rfl
  | store pid addr data => exact Ensures.skip fun _ => Plainly.of_eq rfl rfl
  | processAccess pid stamp addr => exact plain_processAccess
  | processBegin pid => cases hc
  | processEnd pid aborts => exact plain_processEnd
  | markInstructionExecution pid =>
    refine Plain.plainly ?_
    rw [markInstructionExecution]
    split
    · exact Plain.of_eq rfl rfl
    · exact Plain.of_eq rfl rfl
  | observeAccess stamp => cases hc
  | retryTime => exact Plainly.of_eq rfl rfl
  | clockTick aborts =>
    have h : Plain s
        { s with pendingAborts := s.pendingAborts ++ aborts }.handleEmittedInstructions :=
      plain_handleEmittedInstructions.of_base rfl rfl
    exact h.plainly
  | beginRabbit => exact Plainly.of_eq rfl rfl
  | endRabbit => exact Plainly.of_eq rfl rfl
  | beginTransaction id force => cases hc
  | endTransaction id force => cases hc
  | abortTransaction id => exact plain_abortTransaction
  | abortTransactionTree id => exact plain_abortTransactionTree
  | retireAccess stamp => exact plain_retireAccess
  | tryRetireTransaction id => exact plain_tryRetireTransaction

lemma plain_run (f : Frame) (hf : f.plain = true) : Plainly s (s.run o f) := by
  cases f with
  | begin id force => cases hf
  | beginParent id force => cases hf
  | beginSelf id force => cases hf
  | ending id force => cases hf
  | endParent id force => exact plain_endParent
  | commit pid => exact plain_commitPrivateMemory
  | commitLoop pid => exact plain_commitLoop
  | commitApplied pid id => exact plain_commitApplied
  | correct pid => exact plain_correct
  | rerun pid id => exact plain_rerun
  | raceAhead pid => exact ensures_error
  | abort id => exact plain_abortTransaction
  | abortTree garbageList => exact plain_abortTree.plainly
  | abortSelf id => cases hf
  | tryRetire id => exact plain_tryRetireTransaction
  | handleEmitted => exact plain_handleEmittedInstructions.plainly
  | handleLoop => exact plain_handleLoop.plainly
  | restoreRetryTime n => exact Plainly.of_eq rfl rfl
  | observe stamp => cases hf
  | observeBegun stamp => cases hf
  | observeExecute stamp => exact plain_observeExecute
  | observeExecuted stamp => exact plain_observeExecuted
  | observeEnded stamp => exact plain_observeEnded
  | observeDependant stamp => exact plain_observeDependant
  | setCurrentTransID pid id => exact Plainly.of_eq rfl rfl

end TMInterface

end Sesc.Tm
