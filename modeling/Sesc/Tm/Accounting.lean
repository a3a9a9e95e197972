import Sesc.Tm.Books

/-!
# The accounting of accesses and children

Every function of the interface makes entries in the books that keep them in order, except that
`AbortTransaction` decrements the counter of the parent again when it is applied to a
transaction that was aborted before it was observed.
-/

namespace Sesc.Tm

open Lib Sesc.Trans Relation

/-- Records change in what the accounting does not see, or are erased when they are resolved. -/
def Trims (t t' : Table TransRecord.transactionID) : Prop :=
  ∀ b : Books, ReflTransGen Entry { b with transRecordSet := t } { b with transRecordSet := t' }

section

variable {t t' : Table TransRecord.transactionID} {id : Level} {tr : TransRecord}

lemma Trims.refl (t : Table TransRecord.transactionID) : Trims t t := fun _ => .refl

lemma Trims.trans {t'' : Table TransRecord.transactionID} (h : Trims t t') (h' : Trims t' t'') :
    Trims t t'' :=
  fun b => (h b).trans (h' b)

lemma Trims.erase (found : t.find id = some tr) (resolved : tr.resolved = true) :
    Trims t (t.erase id) := by
  intro b
  obtain ⟨-, rfl⟩ := Table.find_eq_some.1 found
  exact .single (.erase (b := { b with transRecordSet := t }) found resolved)

lemma Trims.relabel {f : TransRecord → TransRecord}
    {g : ∀ tr, (f tr).transactionID = tr.transactionID}
    (same : ∀ tr, t.find id = some tr → (f tr).accessCounter = tr.accessCounter ∧
      (f tr).parentTransactionID = tr.parentTransactionID ∧ (f tr).resolved = tr.resolved ∧
        (tr.EndsInParent → (f tr).EndsInParent)) :
    Trims t (t.modify id f g) :=
  fun b => .single (.relabel (b := { b with transRecordSet := t }) same)

end

/-- A computation makes entries in the books `b`. -/
def Posts (b : Books) (x : Except Fault TMInterface) : Prop :=
  Ensures (fun s => ReflTransGen Entry b s.books) x

section

variable {b : Books} {x : Except Fault TMInterface} {s : TMInterface}

lemma Posts.of_eq (h : s.books = b) : Posts b (.ok s) := by
  refine ensures_ok.2 ?_
  rw [h]

lemma Posts.entry (h : Entry b s.books) : Posts b (.ok s) := ensures_ok.2 (.single h)

lemma Posts.bind {g : TMInterface → Except Fault TMInterface} (hx : Posts b x)
    (hg : ∀ s, Posts s.books (g s)) : Posts b (x >>= g) :=
  Ensures.bind hx fun s hs => (hg s).mono fun _ hs' => hs.trans hs'

end

namespace TMInterface

variable {s : TMInterface} {id : Level} {stamp : Stamp} {pid : Pid} {force : Bool} {o : Outcome}

/-! ## Retiring -/

/-- The records are trimmed and nothing else is entered in the books. -/
def TrimsTo (s s' : TMInterface) : Prop :=
  ∃ t, Trims s.transRecordSet t ∧ s'.books = { s.books with transRecordSet := t }

lemma TrimsTo.posts {s' : TMInterface} (h : TrimsTo s s') : ReflTransGen Entry s.books s'.books := by
  obtain ⟨t, ht, hbooks⟩ := h
  rw [hbooks]
  exact ht s.books

lemma trims_tryRetireTransaction : Ensures (TrimsTo s) (s.tryRetireTransaction id) := by
  refine Ensures.elim fun tr htr => ?_
  split
  · exact ensures_pure.2 ⟨_, .refl _, rfl⟩
  · rename_i hretired
    have hresolved : tr.resolved = true := by
      by_contra h
      exact hretired (.inr (.inr (.inl (by simpa using h))))
    exact Ensures.skip fun m => ensures_pure.2 ⟨_, .erase htr hresolved, rfl⟩

lemma posts_tryRetireTransaction : Posts s.books (s.tryRetireTransaction id) :=
  trims_tryRetireTransaction.mono fun _ h => h.posts

/-- `RetireAccess` counts the access down and trims the records. -/
lemma retireFromEntry_spec {a : StoredAccess} :
    Ensures (fun s' => ∃ t, Trims (addTo s.transRecordSet a.transactionEntry (-1)) t ∧
      s'.books = { s.books with transRecordSet := t }) (s.retireFromEntry a) := by
  rw [retireFromEntry]
  split
  · rename_i hzero
    exact ensures_ok.2 ⟨_, by rw [addTo, if_pos hzero]; exact .refl _, rfl⟩
  · rename_i hzero
    refine Ensures.elim fun tr htr => ensures_check_bind.2 fun _ => ?_
    refine trims_tryRetireTransaction.mono fun s' h => ?_
    obtain ⟨t, ht, hbooks⟩ := h
    refine ⟨t, ?_, hbooks⟩
    rw [addTo, if_neg hzero]
    exact ht

lemma retireFromDependant_spec {a : StoredAccess} :
    Ensures (TrimsTo s) (s.retireFromDependant a) := by
  rw [retireFromDependant]
  split
  · exact ensures_ok.2 ⟨_, .refl _, rfl⟩
  · refine Ensures.elim fun tr htr => ensures_check_bind.2 fun _ => ?_
    refine trims_tryRetireTransaction.mono fun s' h => ?_
    obtain ⟨t, ht, hbooks⟩ := h
    have hrelabel : Trims s.transRecordSet
        (s.addDependantAccesses a.dependantTransaction (-1)).transRecordSet :=
      .relabel (g := by exact fun _ => rfl) fun tr _ => ⟨rfl, rfl, rfl, fun h => h⟩
    exact ⟨t, hrelabel.trans ht, hbooks⟩

lemma books_setRetired {b : Books} (h : s.books = b) :
    (s.setRetired stamp).books = { b with accessSet := retireIn b.accessSet stamp } := by
  subst h
  rfl

lemma posts_retireAccess : Posts s.books (s.retireAccess stamp) := by
  refine Ensures.elim fun a ha => ?_
  obtain ⟨-, rfl⟩ := Table.find_eq_some.1 ha
  split
  · exact Posts.of_eq rfl
  · rename_i hretired
    refine ensures_check_bind.2 fun _ => ensures_check_bind.2 fun _ => ?_
    refine Ensures.bind retireFromEntry_spec fun s₁ h₁ => ?_
    refine Ensures.bind retireFromDependant_spec fun s₂ h₂ => ensures_pure.2 ?_
    obtain ⟨t₁, ht₁, hbooks₁⟩ := h₁
    obtain ⟨t₂, ht₂, hbooks₂⟩ := h₂
    have hrecords : s₁.transRecordSet = t₁ := congrArg Books.transRecordSet hbooks₁
    rw [books_setRetired hbooks₂, hbooks₁]
    refine .head (.retire (b := s.books) ha (by simpa using hretired)) ?_
    rw [hrecords] at ht₂
    exact (ht₁.trans ht₂) { s.books with accessSet := retireIn s.accessSet a.stamp }

lemma posts_destroyAccess : Posts s.books (s.destroyAccess stamp) := by
  refine Ensures.elim fun a ha => ensures_check_bind.2 fun hretired => ?_
  obtain ⟨-, rfl⟩ := Table.find_eq_some.1 ha
  exact Posts.entry (.destroy (b := s.books) ha (of_decide_eq_true hretired))

lemma posts_retireAndDestroy : Posts s.books (s.retireAndDestroy stamp) :=
  posts_retireAccess.bind fun _ => posts_destroyAccess

/-! ## The devices and `BeginTransaction` -/

@[simp] lemma books_push {fs : List Frame} : (s.push fs).books = s.books := rfl

@[simp] lemma books_executeAccess : (s.executeAccess o).books = s.books := rfl

@[simp] lemma books_handleEmittedInstructions : s.handleEmittedInstructions.books = s.books := by
  rw [handleEmittedInstructions]
  split <;> rfl

@[simp] lemma books_handleLoop : s.handleLoop.books = s.books := by
  rw [handleLoop]
  split
  · rfl
  · split <;> rfl

lemma posts_beginTransaction : Posts s.books (s.beginTransaction id force) := by
  refine Ensures.elim fun tr htr => ensures_check_bind.2 fun _ => Ensures.skip fun _ => ?_
  split
  · exact Posts.of_eq rfl
  · split <;> exact Posts.of_eq rfl

lemma posts_beginParent : Posts s.books (s.beginParent id force) := by
  refine Ensures.elim fun tr htr => ?_
  split
  · exact Posts.of_eq rfl
  · exact Ensures.skip fun _ => Posts.of_eq rfl

lemma posts_finishBegin {tr : TransRecord} : Posts s.books (s.finishBegin tr force) := by
  rw [finishBegin]
  split
  · exact ensures_check_bind.2 fun _ => Posts.of_eq rfl
  · refine Posts.entry (.relabel (b := s.books) (g := by exact fun _ => rfl) fun tr _ => ?_)
    exact ⟨rfl, rfl, rfl, fun h => h⟩

lemma posts_beginSelf : Posts s.books (s.beginSelf id force o) := by
  refine Ensures.elim fun tr htr => ?_
  split <;> exact posts_finishBegin

/-! ## `EndTransaction` -/

lemma mergeDown_spec {parent : Level} :
    Ensures (fun s' => s'.books = s.books) (s.mergeDown pid id parent) := by
  refine Ensures.skip fun _ => ensures_check_bind.2 fun _ => Ensures.skip fun m => ?_
  exact ensures_pure.2 rfl

/-- The books after a parent has been told about a child. -/
def leaveIn (b : Books) (parent child : Level) : Books :=
  { b with
    transRecordSet := addTo b.transRecordSet parent (-1)
    countedDown := if parent = 0 then b.countedDown else b.countedDown ++ [child] }

lemma leaveParent_spec {parent child : Level} :
    Ensures (fun s' => s'.books = leaveIn s.books parent child) (s.leaveParent parent child) := by
  rw [leaveParent]
  split
  · rename_i hzero
    refine ensures_ok.2 ?_
    rw [leaveIn, addTo, if_pos hzero, if_pos hzero]
  · rename_i hzero
    refine Ensures.elim fun tr htr => ensures_pure.2 ?_
    rw [leaveIn, addTo, if_neg hzero, if_neg hzero]
    rfl

/-- The parent is told about the child, which is then resolved. -/
lemma posts_setResolved {b : Books} {tr : TransRecord} {committed : Bool} {s' : TMInterface}
    (h : s'.books = leaveIn b tr.parentTransactionID tr.transactionID)
    (found : b.transRecordSet.find tr.transactionID = some tr) (unresolved : tr.resolved = false) :
    ReflTransGen Entry b (s'.setResolved tr.transactionID committed).books := by
  have hbooks : (s'.setResolved tr.transactionID committed).books = { s'.books with
      transRecordSet := resolveIn s'.books.transRecordSet tr.transactionID committed } := rfl
  rw [hbooks, h]
  exact .single (.resolve found unresolved)

@[simp] lemma books_leaveSeen {old new : Level} : (s.leaveSeen pid old new).books = s.books := by
  rw [leaveSeen]
  split <;> rfl

@[simp] lemma books_leaveCurrent {tr : TransRecord} : (s.leaveCurrent tr).books = s.books := by
  rw [leaveCurrent]
  split <;> rfl

@[simp] lemma books_executeAbort : (s.executeAbort pid).books = s.books := by
  rw [executeAbort]
  split <;> rfl

/-- What `EndTransaction` does to the slice and the calls it makes are not seen. -/
lemma posts_resolveEnded {tr : TransRecord} {op : TransOperation}
    (found : s.transRecordSet.find tr.transactionID = some tr) (unresolved : tr.resolved = false)
    (hop : op.newTransactionEntry = tr.parentTransactionID) :
    Posts s.books (s.resolveEnded tr op force) := by
  rw [resolveEnded]
  refine Ensures.bind leaveParent_spec fun s₁ h₁ => ?_
  rw [books_leaveSeen, hop] at h₁
  split
  · exact ensures_pure.2 (posts_setResolved h₁ found unresolved)
  · refine Ensures.bind mergeDown_spec fun s₂ h₂ => ensures_pure.2 ?_
    rw [books_push, h₂]
    exact posts_setResolved h₁ found unresolved

lemma posts_endTransaction (hb : s.books.Registered) :
    Posts s.books (s.endTransaction id force o) := by
  refine Ensures.elim fun tr htr => Ensures.skip fun _ => ensures_check_bind.2 fun hmay => ?_
  refine Ensures.elim fun op hop => ensures_check_bind.2 fun _ => ?_
  have hunresolved : tr.resolved = false := by
    have hmay' := of_decide_eq_true hmay
    simp only [TransRecord.mayEnd, Bool.and_eq_true, Bool.not_eq_true'] at hmay'
    exact hmay'.2
  have hparent := hb.endsInParent id tr htr op hop
  obtain ⟨-, rfl⟩ := Table.find_eq_some.1 htr
  split
  · exact posts_resolveEnded htr hunresolved hparent
  · split
    · exact Posts.of_eq rfl
    · exact posts_resolveEnded (s := s.executeTransactionInst force o) htr hunresolved hparent

lemma posts_endParent : Posts s.books (s.endParent id force) := by
  refine Ensures.elim fun tr htr => ?_
  split <;> exact Posts.of_eq rfl

/-! ## `AbortTransaction` -/

lemma posts_abortTransactionTree : Posts s.books (s.abortTransactionTree id o) :=
  Ensures.elim fun _ _ => ensures_check_bind.2 fun _ => Posts.of_eq rfl

lemma posts_abortTransaction : Posts s.books (s.abortTransaction id o) :=
  Ensures.elim fun _ _ => ensures_check_bind.2 fun _ => Posts.of_eq rfl

@[simp] lemma books_abortTree {garbageList : List Level} :
    (s.abortTree garbageList).books = s.books := by
  cases garbageList with
  | nil => rfl
  | cons id rest =>
    rw [abortTree]
    split <;> rfl

lemma fixPrivateMemory_spec : Ensures (fun s' => s'.books = s.books) (s.fixPrivateMemory pid) := by
  refine Ensures.foldlM rfl fun id _ s' hs' => ?_
  refine Ensures.elim fun tr htr => Ensures.skip fun _ => ?_
  split
  · exact Ensures.skip fun m => ensures_pure.2 hs'
  · exact ensures_pure.2 hs'

/-- `AbortTransaction` is about to be applied to a nested transaction that was aborted before
it was observed. -/
def countsAgain (s : TMInterface) : Bool :=
  match s.frames with
  | .abortSelf id :: _ => (s.transRecordSet.find id).elim false fun tr =>
    tr.resolved && !tr.progressObserved && tr.parentTransactionID != 0
  | _ => false

/-- The parent of an unresolved transaction is told that it is aborted. -/
lemma leaveAborted_spec {tr : TransRecord} (hresolved : tr.resolved = false) :
    Ensures (fun s' => s'.books = leaveIn s.books tr.parentTransactionID tr.transactionID)
      (s.leaveAborted tr) := by
  rw [leaveAborted]
  split
  · split
    · rename_i hzero
      refine ensures_ok.2 ?_
      rw [leaveIn, addTo, if_pos hzero, if_pos hzero]
    · rename_i hzero
      refine Ensures.elim fun p hp => ensures_check_bind.2 fun _ => ?_
      have h : Ensures (fun s' => s'.books = leaveIn s.books tr.parentTransactionID _)
          (s.leaveParent tr.parentTransactionID tr.transactionID) := leaveParent_spec
      rwa [leaveParent, if_neg hzero] at h
  · rw [hresolved, if_neg Bool.false_ne_true]
    refine leaveParent_spec.mono fun s' hs' => ?_
    rw [hs', books_leaveSeen, books_executeAbort]

/-- A transaction that is resolved already leaves its parent alone, unless it was not
observed. -/
lemma leaveAborted_of_resolved {tr : TransRecord} (hresolved : tr.resolved = true)
    (honce : tr.progressObserved = false → tr.parentTransactionID = 0) :
    s.leaveAborted tr = .ok s := by
  rw [leaveAborted]
  split
  · rename_i hobserved
    have hzero : tr.parentTransactionID = 0 := honce (by simpa using hobserved)
    exact if_pos hzero
  · rfl

lemma posts_abortSelf (honce : ∀ tr, s.transRecordSet.find id = some tr → tr.resolved = true →
    tr.progressObserved = false → tr.parentTransactionID = 0) :
    Posts s.books (s.abortSelf id) := by
  refine Ensures.elim fun tr htr => ensures_check_bind.2 fun _ => ?_
  have hposts : Posts s.books (s.leaveAborted tr >>= fun s' =>
      .ok ((s'.leaveCurrent tr).setResolved id false)) := by
    obtain ⟨-, rfl⟩ := Table.find_eq_some.1 htr
    cases hresolved : tr.resolved with
    | false =>
      refine Ensures.bind (leaveAborted_spec hresolved) fun s₁ h₁ => ensures_ok.2 ?_
      exact posts_setResolved (books_leaveCurrent.trans h₁) htr hresolved
    | true =>
      rw [leaveAborted_of_resolved hresolved (honce tr htr hresolved), ok_bind]
      refine Posts.entry ?_
      have hbooks : ((s.leaveCurrent tr).setResolved tr.transactionID false).books =
          { (s.leaveCurrent tr).books with
            transRecordSet := resolveIn (s.leaveCurrent tr).books.transRecordSet
              tr.transactionID false } := rfl
      rw [hbooks, books_leaveCurrent]
      refine .relabel (b := s.books) (g := by exact fun _ => rfl) fun tr' htr' => ?_
      have heq : tr' = tr := Option.some.inj (htr'.symm.trans htr)
      subst heq
      exact ⟨rfl, rfl, hresolved.symm, fun h => h⟩
  intro s' hs'
  obtain ⟨s₁, h₁, hs'⟩ := bind_eq_ok.1 hs'
  obtain ⟨s₂, h₂, hs'⟩ := bind_eq_ok.1 hs'
  have hentries : ReflTransGen Entry s.books ((s₁.leaveCurrent tr).setResolved id false).books :=
    hposts _ (bind_eq_ok.2 ⟨s₁, h₁, rfl⟩)
  rw [← fixPrivateMemory_spec s₂ h₂] at hentries
  exact hentries.trans (posts_tryRetireTransaction s' hs')

/-! ## `CommitPrivateMemory` -/

lemma posts_commitPrivateMemory : Posts s.books (s.commitPrivateMemory pid) :=
  ensures_check_bind.2 fun _ => Posts.of_eq rfl

lemma posts_commitFront {sl : PrivateMemory} : Posts s.books (s.commitFront pid id sl) := by
  refine ensures_check_bind.2 fun _ => Ensures.skip fun intact => ?_
  split
  · exact Ensures.skip fun _ => Posts.of_eq rfl
  · exact ensures_check_bind.2 fun _ => Posts.of_eq rfl

lemma posts_commitLoop : Posts s.books (s.commitLoop pid) := by
  rw [commitLoop]
  split
  · exact Posts.of_eq rfl
  · refine Ensures.elim fun tr htr => Ensures.skip fun sl => ensures_check_bind.2 fun _ =>
      ensures_check_bind.2 fun _ => ?_
    split
    · exact posts_commitFront (s := s.setMemories _)
    · exact Posts.of_eq rfl

lemma posts_commitApplied : Posts s.books (s.commitApplied pid id) :=
  Ensures.skip fun _ => Posts.of_eq rfl

lemma posts_correct : Posts s.books (s.correct pid) := by
  rw [correct]
  split
  · exact Posts.of_eq rfl
  · rename_i id rest _
    refine Ensures.elim fun tr htr => ?_
    split
    · refine ensures_check_bind.2 fun _ => Ensures.skip fun m => ?_
      have h : Posts s.books ((s.setMemories (m.delete id)).tryRetireTransaction id) :=
        posts_tryRetireTransaction
      exact h.bind fun _ => Posts.of_eq rfl
    · exact Posts.of_eq rfl

lemma posts_rerun : Posts s.books (s.rerun pid id) :=
  Ensures.elim fun _ _ => Ensures.skip fun _ => ensures_check_bind.2 fun _ => Posts.of_eq rfl

lemma posts_finishRaceAhead : Posts s.books (s.finishRaceAhead pid) :=
  ensures_check_bind.2 fun _ => ensures_check_bind.2 fun _ => Posts.of_eq rfl

/-! ## `ObserveAccess` -/

lemma posts_observeTransactional {a : StoredAccess} :
    Posts s.books (s.observeTransactional a) := by
  rw [observeTransactional]
  split
  · exact posts_retireAndDestroy (s := TMInterface.setRetryTime _ _)
  · refine Ensures.elim fun tr htr => ?_
    split <;> exact Posts.of_eq rfl

lemma posts_observeFollowing {a : StoredAccess} : Posts s.books (s.observeFollowing a o) := by
  rw [observeFollowing]
  split
  · exact posts_retireAndDestroy (s := { s with deadInstruction := true })
  · exact Posts.of_eq rfl

lemma posts_observeAccess : Posts s.books (s.observeAccess stamp o) := by
  rw [observeAccess]
  split
  · exact Posts.of_eq rfl
  · split
    · exact posts_observeTransactional
    · split
      · exact posts_observeFollowing
      · exact Posts.of_eq rfl

@[simp] lemma books_observeBegun : (s.observeBegun stamp).books = s.books := by
  rw [observeBegun]
  split <;> rfl

lemma posts_observeEnd {tr : TransRecord} : Posts s.books (s.observeEnd stamp tr) := by
  rw [observeEnd]
  split
  · exact Ensures.elim fun op _ => ensures_check_bind.2 fun _ => Posts.of_eq rfl
  · exact posts_destroyAccess

lemma posts_observeRetire : Posts s.books (s.observeRetire stamp) := by
  refine Ensures.elim fun a ha => posts_retireAccess.bind fun s' => ?_
  split
  · exact posts_destroyAccess
  · exact posts_observeEnd

lemma posts_observeExecute : Posts s.books (s.observeExecute stamp o) := by
  refine Ensures.elim fun a ha => Ensures.elim fun tr htr => ?_
  split
  · split
    · exact posts_observeRetire
    · exact Posts.of_eq rfl
  · exact posts_observeEnd

lemma posts_observeExecuted : Posts s.books (s.observeExecuted stamp) := by
  rw [observeExecuted]
  split
  · exact Posts.of_eq rfl
  · exact posts_observeRetire

lemma posts_observeEnded : Posts s.books (s.observeEnded stamp) := by
  rw [observeEnded]
  split
  · exact Posts.of_eq rfl
  · exact posts_destroyAccess

lemma posts_observeDependant : Posts s.books (s.observeDependant stamp) := by
  rw [observeDependant]
  split
  · exact Posts.of_eq rfl
  · exact posts_retireAndDestroy

/-! ## `ProcessAction` -/

@[simp] lemma books_forgetSeen : (s.forgetSeen pid).books = s.books := by
  rw [forgetSeen]
  split <;> rfl

lemma countForCurrent_spec :
    Ensures (fun s' => s'.books = { s.books with
        transRecordSet := addTo s.transRecordSet (s.currentTransID pid) 1 } ∧
      (s.currentTransID pid ≠ 0 → s.transRecordSet.find (s.currentTransID pid) ≠ none))
      (s.countForCurrent pid) := by
  rw [countForCurrent, addTo]
  split
  · rename_i hzero
    exact ensures_ok.2 ⟨rfl, fun h => absurd hzero h⟩
  · refine Ensures.elim fun tr htr => ensures_pure.2 ⟨rfl, fun _ => ?_⟩
    rw [htr]
    exact Option.some_ne_none tr

lemma posts_countForDependant {dependant : Level} :
    Posts s.books (s.countForDependant pid dependant) := by
  rw [countForDependant]
  split
  · exact Posts.of_eq rfl
  · refine ensures_check_bind.2 fun _ => Ensures.elim fun _ _ => ?_
    refine Posts.entry (.relabel (b := s.books) (g := by exact fun _ => rfl) fun tr _ => ?_)
    exact ⟨rfl, rfl, rfl, fun h => h⟩

lemma posts_processAccess {addr : Address} : Posts s.books (s.processAccess pid stamp addr) := by
  rw [processAccess]
  split
  · exact Posts.of_eq rfl
  · refine ensures_check_bind.2 fun hnew => Ensures.bind countForCurrent_spec fun s₁ h₁ => ?_
    obtain ⟨hbooks, hpresent⟩ := h₁
    have hforget : (s.forgetSeen pid).books = s.books := books_forgetSeen
    have hentry : Entry s.books s₁.books := by
      rw [hbooks, ← hforget]
      refine .access (b := (s.forgetSeen pid).books) ?_ rfl hpresent
      rw [hforget]
      exact of_decide_eq_true hnew
    have hdependant : Posts s₁.books (s₁.countForDependant pid (s.newDependant pid)) :=
      posts_countForDependant
    refine Ensures.bind (hdependant.mono fun s₂ h₂ => h₂.head hentry) fun s₂ h₂ => ?_
    refine Ensures.skip fun sl => ensures_check_bind.2 fun _ => ensures_pure.2 ?_
    split <;> exact h₂

/-- The books after a transaction has begun. -/
lemma joinParent_spec {newTrans : Level} :
    Ensures (fun s' => s'.books = { s.books with
        transRecordSet := addTo s.transRecordSet (s.currentTransID pid) 1
        countedUp := if s.currentTransID pid = 0 then s.countedUp
          else s.countedUp ++ [newTrans] } ∧
      (s.currentTransID pid ≠ 0 → s.transRecordSet.find (s.currentTransID pid) ≠ none))
      (s.joinParent pid newTrans) := by
  rw [joinParent]
  split
  · rename_i hzero
    refine ensures_ok.2 ⟨?_, fun h => absurd hzero h⟩
    rw [addTo, if_pos hzero]
    rfl
  · rename_i hzero
    refine Ensures.elim fun tr htr => ensures_pure.2 ⟨?_, fun _ => ?_⟩
    · rw [addTo, if_neg hzero]
      rfl
    · rw [htr]
      exact Option.some_ne_none tr

lemma posts_processBegin : Posts s.books (s.processBegin pid) := by
  refine ensures_check_bind.2 fun hnonzero => Ensures.skip fun m => ?_
  refine Ensures.bind joinParent_spec fun s' hs' => ensures_pure.2 ?_
  obtain ⟨hbooks, hpresent⟩ := hs'
  have hentry : Entry s.books s'.books := by
    rw [hbooks]
    exact .begins (b := s.books) (of_decide_eq_true hnonzero) hpresent
  split <;> exact .single hentry

lemma posts_processEnd {aborts : Bool} : Posts s.books (s.processEnd pid aborts) := by
  refine Ensures.elim fun tr htr => ensures_check_bind.2 fun _ => ensures_check_bind.2 fun _ => ?_
  refine Ensures.skip fun tr' => ensures_pure.2 ?_
  have hentry : Entry s.books (s.setTransEndOp (s.currentTransID pid)
      { opCode := if aborts then .transAbort else .transEnd
        oldTransactionEntry := s.currentTransID pid
        newTransactionEntry := tr.parentTransactionID }).books := by
    refine .relabel (b := s.books) (g := by exact fun _ => rfl) fun tr₁ htr₁ =>
      ⟨rfl, rfl, rfl, fun _ op hop => ?_⟩
    have heq : tr₁ = tr := Option.some.inj (htr₁.symm.trans htr)
    subst heq
    cases hop
    rfl
  split <;> exact .single hentry

/-! ## The steps -/

lemma posts_load {addr : Address} {data : List UInt8} : Posts s.books (s.load pid addr data) :=
  Ensures.skip fun _ => ensures_check_bind.2 fun _ => Posts.of_eq rfl

lemma posts_store {addr : Address} {data : List UInt8} : Posts s.books (s.store pid addr data) :=
  Ensures.skip fun _ => Posts.of_eq rfl

@[simp] lemma books_markInstructionExecution :
    (s.markInstructionExecution pid).books = s.books := by
  rw [markInstructionExecution]
  split <;> rfl

lemma posts_perform (hb : s.books.Registered) (c : Call) : Posts s.books (s.perform o c) := by
  cases c with
  | load pid addr data => exact posts_load
  | store pid addr data => exact posts_store
  | processAccess pid stamp addr => exact posts_processAccess
  | processBegin pid => exact posts_processBegin
  | processEnd pid aborts => exact posts_processEnd
  | markInstructionExecution pid => exact Posts.of_eq books_markInstructionExecution
  | observeAccess stamp => exact posts_observeAccess
  | retryTime => exact Posts.of_eq rfl
  | clockTick aborts => exact Posts.of_eq books_handleEmittedInstructions
  | beginRabbit => exact Posts.of_eq rfl
  | endRabbit => exact Posts.of_eq rfl
  | beginTransaction id force => exact posts_beginTransaction
  | endTransaction id force => exact posts_endTransaction hb
  | abortTransaction id => exact posts_abortTransaction
  | abortTransactionTree id => exact posts_abortTransactionTree
  | retireAccess stamp => exact posts_retireAccess
  | tryRetireTransaction id => exact posts_tryRetireTransaction

lemma posts_run (hb : s.books.Registered) (f : Frame)
    (honce : ∀ id, f = .abortSelf id → ∀ tr, s.transRecordSet.find id = some tr →
      tr.resolved = true → tr.progressObserved = false → tr.parentTransactionID = 0) :
    Posts s.books (s.run o f) := by
  cases f with
  | begin id force => exact posts_beginTransaction
  | beginParent id force => exact posts_beginParent
  | beginSelf id force => exact posts_beginSelf
  | ending id force => exact posts_endTransaction hb
  | endParent id force => exact posts_endParent
  | commit pid => exact posts_commitPrivateMemory
  | commitLoop pid => exact posts_commitLoop
  | commitApplied pid id => exact posts_commitApplied
  | correct pid => exact posts_correct
  | rerun pid id => exact posts_rerun
  | raceAhead pid => exact ensures_error
  | abort id => exact posts_abortTransaction
  | abortTree garbageList => exact Posts.of_eq books_abortTree
  | abortSelf id => exact posts_abortSelf (honce id rfl)
  | tryRetire id => exact posts_tryRetireTransaction
  | handleEmitted => exact Posts.of_eq books_handleEmittedInstructions
  | handleLoop => exact Posts.of_eq books_handleLoop
  | restoreRetryTime n => exact Posts.of_eq rfl
  | observe stamp => exact posts_observeAccess
  | observeBegun stamp => exact Posts.of_eq books_observeBegun
  | observeExecute stamp => exact posts_observeExecute
  | observeExecuted stamp => exact posts_observeExecuted
  | observeEnded stamp => exact posts_observeEnded
  | observeDependant stamp => exact posts_observeDependant
  | setCurrentTransID pid id => exact Posts.of_eq rfl

lemma posts_next (hb : s.books.Registered) (honce : countsAgain s = false) :
    Posts s.books (s.next o) := by
  rw [next]
  split
  · exact ensures_error
  · rename_i f fs hframes
    refine posts_run (s := s.setFrames fs) hb f fun id hf tr htr hresolved hobserved => ?_
    rw [countsAgain, hframes, hf] at honce
    have hfind : s.transRecordSet.find id = some tr := htr
    simpa [hfind, hresolved, hobserved] using honce

lemma posts_raceAheadDone : Posts s.books s.raceAheadDone := by
  rw [raceAheadDone]
  split
  · exact posts_finishRaceAhead (s := s.setFrames _)
  · exact ensures_error

/-- A step makes entries in the books. -/
lemma posts_step (hb : s.books.Registered) (honce : countsAgain s = false) (e : Event) :
    Posts s.books (s.step e) := by
  cases e with
  | call c o => exact ensures_check_bind.2 fun _ => posts_perform hb c
  | next o => exact posts_next hb honce
  | raceAheadDone => exact posts_raceAheadDone

end TMInterface

/-- The books stay in order through any number of entries. -/
lemma Books.Kept.entries {b b' : Books} (hb : b.Kept) (h : ReflTransGen Entry b b') : b'.Kept := by
  induction h with
  | refl => exact hb
  | tail _ hentry ih => exact ih.entry hentry

lemma kept_of_runWhere {es : List Event} {s : TMInterface}
    (h : tmInterface.RunWhere (fun s _ => s.countsAgain = false) es s) : s.books.Kept :=
  h.invariant (I := fun s => s.books.Kept) Books.kept_new fun _ e s' hs honce hstep =>
    hs.entries (TMInterface.posts_step hs.registered honce e s' hstep)

/-- The counter of every transaction is the number of its accesses that are not retired and of its
children that are not resolved.  Every child has been counted down once when it is resolved,
and not before. -/
def AccessesAccounted (s : TMInterface) : Prop :=
  (∀ tr ∈ s.transRecordSet,
    tr.accessCounter = unretiredIn s.accessSet tr.transactionID +
        unresolvedIn s.transRecordSet tr.transactionID ∧
      0 ≤ tr.accessCounter ∧
      (tr.parentTransactionID ≠ 0 →
        s.countedDown.count tr.transactionID = if tr.resolved then 1 else 0)) ∧
    (∀ id ∈ s.countedUp, s.transRecordSet.find id = none → s.countedDown.count id = 1) ∧
    ∀ id, s.countedDown.count id ≤ 1

/-- The counters are right in every run in which `AbortTransaction` is never applied to a nested
transaction that was aborted before it was observed. -/
theorem accessesAccounted_of_runWhere {es : List Event} {s : TMInterface}
    (h : tmInterface.RunWhere (fun s _ => s.countsAgain = false) es s) : AccessesAccounted s := by
  obtain ⟨hregistered, haccounted, hresolved, hpending⟩ := kept_of_runWhere h
  refine ⟨fun tr htr => ?_, fun id hup hgone => ?_, fun id => ?_⟩
  · have hfind : s.transRecordSet.find tr.transactionID = some tr :=
      Table.find_eq_some.2 ⟨htr, rfl⟩
    have hcounter : tr.accessCounter = unretiredIn s.accessSet tr.transactionID +
        unresolvedIn s.transRecordSet tr.transactionID := haccounted _ tr hfind
    refine ⟨hcounter, by omega, fun hparent => ?_⟩
    have hup : tr.transactionID ∈ s.countedUp := (hregistered.nested _ tr hfind).1 hparent
    split
    · rename_i htrue
      refine hresolved _ hup fun ⟨tr', htr', hfalse⟩ => ?_
      have heq : tr' = tr := Option.some.inj (htr'.symm.trans hfind)
      rw [heq, htrue] at hfalse
      cases hfalse
    · rename_i hfalse
      exact hpending _ (.inl ⟨tr, hfind, by simpa using hfalse⟩)
  · refine hresolved id hup fun ⟨tr, htr, _⟩ => ?_
    have hfind : s.transRecordSet.find id = some tr := htr
    rw [hgone] at hfind
    cases hfind
  · by_cases hup : id ∈ s.countedUp ∧ ¬PendingIn s.transRecordSet id
    · exact Nat.le_of_eq (hresolved id hup.1 hup.2)
    · have hzero : s.countedDown.count id = 0 := by
        refine hpending id ?_
        by_contra hnot
        exact hup ⟨not_not.1 fun h' => hnot (.inr h'), fun h' => hnot (.inl h')⟩
      omega

/-! ### A child that is aborted twice -/

/-- A frame is run; the younger transactions are iterated over in the given order. -/
def nextFrame (garbageList : List Level) : Event := .next ⟨0, [], garbageList⟩

/-- Process 0 begins transaction 1 with an access and transaction 2 in it with another.
Transaction 2 is aborted and the access of transaction 1 is observed. -/
def abortRun : List Event :=
  [.call (.processBegin 0) .none, .call (.load 0 0 [0]) .none,
    .call (.processAccess 0 1 0) .none, .call (.processBegin 0) .none,
    .call (.load 0 0 [0]) .none, .call (.processAccess 0 2 0) .none,
    .call (.abortTransaction 2) .none, nextFrame [], nextFrame [],
    .call (.observeAccess 1) .none, nextFrame [], nextFrame [], nextFrame [], nextFrame [],
    nextFrame [], nextFrame [], nextFrame [], nextFrame [], nextFrame []]

/-- Transaction 1 has counted both of its access and its child down; transaction 2 is counted for
its access. -/
theorem accessesAccounted_abortRun : ∃ s,
    tmInterface.RunWhere (fun s _ => s.countsAgain = false) abortRun s ∧
    s.transRecordSet.toList.map (fun tr => (tr.transactionID, tr.accessCounter)) =
      [(2, 1), (1, 0)] ∧ s.countedDown = [2] ∧ AccessesAccounted s := by
  have hrun : succeeds ((tmInterface.guarded (fun s _ => !s.countsAgain) .noSuchEvent).exec
      tmInterface.init abortRun) (fun s =>
        decide (s.transRecordSet.toList.map (fun tr => (tr.transactionID, tr.accessCounter)) =
          [(2, 1), (1, 0)] ∧ s.countedDown = [2])) = true := by
    decide +kernel
  obtain ⟨s, hs, htest⟩ := succeeds_iff.1 hrun
  obtain ⟨hcounters, hdown⟩ := of_decide_eq_true htest
  have hwhere : tmInterface.RunWhere (fun s _ => s.countsAgain = false) abortRun s :=
    (Machine.run_of_exec hs).of_guarded.mono fun _ _ h => by simpa using h
  exact ⟨s, hwhere, hcounters, hdown, accessesAccounted_of_runWhere hwhere⟩

/-- Transaction 1 of process 0 has two accesses and three children.  The first child, 2, has an
access and ends with an abort, the second, 3, ends before it is observed, and the third is 4.
The access of the first child is observed, so that transaction 2 is aborted with its tree. -/
def abortedTwiceRun : List Event :=
  [Event.call (.processBegin 0) .none, Event.call (.load 0 0 [0]) .none,
    Event.call (.processAccess 0 1 0) .none, Event.call (.processAccess 0 2 0) .none,
    Event.call (.processBegin 0) .none, Event.call (.processAccess 0 3 0) .none,
    Event.call (.processEnd 0 true) .none, Event.call (.processBegin 0) .none,
    Event.call (.processEnd 0 false) .none, Event.call (.processBegin 0) .none,
    Event.call (.observeAccess 3) .none] ++
  List.replicate 13 (nextFrame []) ++ [nextFrame [3, 4], nextFrame [], nextFrame [4]] ++
  List.replicate 13 (nextFrame [])

/-- Transaction 4, which was aborted in the tree of transaction 3, has been counted down again in
that of transaction 2: transaction 1 is counted for one of its two accesses only. -/
theorem not_accessesAccounted_abortedTwiceRun : ∃ s, tmInterface.Run abortedTwiceRun s ∧
    s.countedDown = [4, 3, 4, 2] ∧
    (s.transRecordSet.find 1).map TransRecord.accessCounter = some 1 ∧
    unretiredIn s.accessSet 1 = 2 ∧ unresolvedIn s.transRecordSet 1 = 0 ∧
    ¬AccessesAccounted s := by
  have hrun : succeeds (tmInterface.exec tmInterface.init abortedTwiceRun) (fun s =>
      decide (s.countedDown = [4, 3, 4, 2] ∧
        (s.transRecordSet.find 1).map TransRecord.accessCounter = some 1 ∧
        unretiredIn s.accessSet 1 = 2 ∧ unresolvedIn s.transRecordSet 1 = 0)) = true := by
    decide +kernel
  obtain ⟨s, hs, htest⟩ := succeeds_iff.1 hrun
  obtain ⟨hdown, hcounter, hunretired, hunresolved⟩ := of_decide_eq_true htest
  refine ⟨s, Machine.run_of_exec hs, hdown, hcounter, hunretired, hunresolved, fun h => ?_⟩
  have htwice : s.countedDown.count 4 ≤ 1 := h.2.2 4
  rw [hdown] at htwice
  revert htwice
  decide

end Sesc.Tm
