import Sesc.Trans.Overlapping

/-!
# The executions of a `CollisionDetectionNoBlend` around tables

For each kind of instruction and each state of its process, what the execution does, or that it fails
an assertion.  Only what the assertions are about is followed: the stacks, the queues, the set of
active transactions and the current transactions of the tables.
-/

namespace Sesc.Trans

open Lib

variable {τ : Type} {d : TableDetection τ} {t t' : TableState τ} {pid : Pid}
  {isRead : Bool} {entry old new : Level} {address : Address} {size : ℕ} {op : TMOpCode}

namespace TableDetection

/-! ## The tables -/

/-- There is nothing to collide with. -/
lemma checkCollisions_nothing
    (h : t.lastPid = none ∨ t.isAccess = false ∨ t.lastTransID = 0) :
    d.detection.checkCollisions t = .ok ([], { t with collisionPids := [] }) := by
  have hcount : d.collisionCount t = .ok (0, { t with collisionPids := [] }) := by
    rw [collisionCount]
    cases hpid : t.lastPid with
    | none => rfl
    | some pid =>
      refine if_neg fun hall => ?_
      rcases h with h | h | h
      · rw [hpid] at h
        cases h
      · rw [h] at hall
        exact Bool.noConfusion hall.1
      · exact hall.2.2 h
  rw [ITMCollisionDetection.checkCollisions]
  show (d.collisionCount t >>= _) = _
  rw [hcount]
  rfl

/-- The collisions of an access can be fetched. -/
lemma exists_checkCollisions_access (isRead : Bool) (address : Address) (size : ℕ) (hcur : entry = 0 ∨ t.currentTransaction pid = entry) :
    ∃ cs pids k, d.detection.checkCollisions (t.observe (.access isRead pid entry address size)) =
      .ok (cs, { t.observe (.access isRead pid entry address size) with
        collisionPids := pids
        collisionIndex := k }) := by
  by_cases hzero : entry = 0
  · exact ⟨_, _, _, checkCollisions_nothing (.inr (.inr hzero))⟩
  · obtain ⟨s', hs'⟩ :=
      checkCollisions_access (d := d) isRead address size hzero (hcur.resolve_left hzero)
    obtain ⟨pids, k, rfl⟩ := checkCollisions_eq_ok hs'
    exact ⟨_, pids, k, hs'⟩

lemma exists_finalize_access (hpid : t.lastPid = some pid) (haccess : t.isAccess = true)
    (hcur : t.lastTransID = 0 ∨ t.currentTransaction pid = t.lastTransID) :
    ∃ t', d.finalizeInstruction t = .ok t' ∧ t'.currentTransaction = t.currentTransaction ∧
      t'.lastPid = none := by
  rw [finalizeInstruction, hpid]
  dsimp only
  rw [finalizeObserved, if_pos haccess]
  by_cases hzero : t.lastTransID = 0
  · rw [if_pos hzero]
    exact ⟨_, rfl, rfl, rfl⟩
  · rw [if_neg hzero, check_bind (hcur.resolve_left hzero).symm]
    exact ⟨_, rfl, rfl, rfl⟩

/-- A transaction begins if its process has none. -/
lemma exists_finalize_begin (hpid : t.lastPid = some pid) (haccess : t.isAccess = false)
    (hop : t.transOpCode = .transBegin) (hnew : t.newTransID ≠ 0)
    (hcur : t.currentTransaction pid = 0) :
    ∃ t', d.finalizeInstruction t = .ok t' ∧ t'.lastPid = none ∧
      t'.currentTransaction = Function.update t.currentTransaction pid t.newTransID := by
  rw [finalizeInstruction, hpid]
  dsimp only
  rw [finalizeObserved, haccess, if_neg Bool.false_ne_true, hop]
  dsimp only
  rw [check_bind hnew, check_bind hcur]
  exact ⟨_, rfl, rfl, rfl⟩

lemma finalize_begin_error (hpid : t.lastPid = some pid) (haccess : t.isAccess = false)
    (hop : t.transOpCode = .transBegin) (hcur : t.currentTransaction pid ≠ 0) :
    d.finalizeInstruction t = .error .assertion := by
  rw [finalizeInstruction, hpid]
  dsimp only
  rw [finalizeObserved, haccess, if_neg Bool.false_ne_true, hop]
  dsimp only
  by_cases hnew : t.newTransID ≠ 0
  · rw [check_bind hnew]
    simp only [check, decide_eq_false hcur, error_bind]
  · simp only [check, decide_eq_false hnew, error_bind]

lemma exists_finalize_end (hpid : t.lastPid = some pid) (haccess : t.isAccess = false)
    (hop : t.transOpCode ≠ .transBegin) (hlast : t.lastTransID ≠ 0) (hnew : t.newTransID = 0)
    (hcur : t.currentTransaction pid = t.lastTransID) :
    ∃ t', d.finalizeInstruction t = .ok t' ∧ t'.lastPid = none ∧
      t'.currentTransaction = Function.update t.currentTransaction pid 0 := by
  rw [finalizeInstruction, hpid]
  dsimp only
  rw [finalizeObserved, haccess, if_neg Bool.false_ne_true]
  cases hcode : t.transOpCode with
  | transBegin => exact absurd hcode hop
  | _ =>
    dsimp only
    rw [check_bind hlast, check_bind hnew, check_bind hcur, hnew]
    exact ⟨_, rfl, rfl, rfl⟩

end TableDetection

namespace NoBlend

variable {b b' : NoBlend (TableState τ)} {force forced : Bool} {delay : ℕ}

/-- What the assertions are about has not changed, and no instruction is observed. -/
structure Keeps (b b' : NoBlend (TableState τ)) : Prop where
  currentTrans : b'.currentTrans = b.currentTrans
  forcedOps : b'.forcedOps = b.forcedOps
  active : b'.currentActiveTrans = b.currentActiveTrans
  current : b'.wrapped.currentTransaction = b.wrapped.currentTransaction
  idle : b'.wrapped.lastPid = none

/-! ## How an execution ends -/

/-- An instruction that is not stalled is delayed. -/
lemma conclude_delayed (hstall : b.stallCommand = false) (hdelay : delay ≠ 0) :
    d.blended.conclude false delay b =
      .ok (true, { b with wrapped := b.wrapped.rollbackInstruction }) := by
  have hown : d.blended.getDelay b = .ok 0 := by
    show getDelay _ b = _
    rw [getDelay, hstall]
    rfl
  have hroll : d.blended.rollbackInstruction b =
      .ok { b with wrapped := b.wrapped.rollbackInstruction } := by
    show rollbackInstruction _ b = _
    rw [rollbackInstruction, hstall]
    rfl
  rw [Detector.conclude, if_neg Bool.false_ne_true, hown, ok_bind, Nat.zero_max, if_neg hdelay,
    hroll]
  rfl

/-- An instruction that is not stalled is finalized. -/
lemma conclude_final (hstall : b.stallCommand = false)
    (hlast : forced = true → b.lastWasAccess = false) (h : forced = true ∨ delay = 0) :
    d.blended.conclude forced delay b =
      (d.blended.finalizeInstruction { b with forced := forced || b.forced } >>= fun b' =>
        .ok (false, b')) := by
  rw [Detector.conclude]
  cases forced with
  | true =>
    have hmay : d.blended.mayNotDelay b = .ok { b with forced := true } := by
      show mayNotDelay _ b = _
      rw [mayNotDelay, check_bind (hlast rfl)]
      dsimp only
      rw [hstall]
      rfl
    rw [if_pos rfl, hmay, ok_bind]
    rfl
  | false =>
    have hzero : delay = 0 := h.resolve_left Bool.false_ne_true
    have hown : d.blended.getDelay b = .ok 0 := by
      show getDelay _ b = _
      rw [getDelay, hstall]
      rfl
    rw [if_neg Bool.false_ne_true, hown, ok_bind, hzero, if_pos (Nat.zero_max 0)]
    rfl

/-! ## Accesses -/

/-- An access of the active transaction, or of none. -/
lemma execute_access (hactive : entry = 0 ∨ entry ∈ b.currentActiveTrans)
    (hcur : entry = 0 ∨ b.wrapped.currentTransaction pid = entry) :
    ∃ cs b', d.blended.execute ⟨.access isRead pid entry address size, force, delay⟩ b =
      .ok (⟨cs, decide (delay ≠ 0)⟩, b') ∧ Keeps b b' := by
  obtain ⟨cs, pids, k, hcheck⟩ := TableDetection.exists_checkCollisions_access (d := d)
    isRead address size hcur
  generalize ht : ({ b.wrapped.observe (.access isRead pid entry address size) with
    collisionPids := pids, collisionIndex := k } : TableState τ) = t at hcheck
  obtain ⟨hpid, haccess, hlast, hcurrent⟩ : t.lastPid = some pid ∧ t.isAccess = true ∧
      t.lastTransID = entry ∧ t.currentTransaction = b.wrapped.currentTransaction := by
    rw [← ht]
    exact ⟨rfl, rfl, rfl, rfl⟩
  generalize hb : ({ b with
    currentPid := pid, lastWasAccess := true, forced := false, stallCommand := false
    wrapped := t } : NoBlend (TableState τ)) = b₂
  have hbefore : d.blended.execute ⟨.access isRead pid entry address size, force, delay⟩ b =
      (d.blended.conclude false delay b₂ >>= fun x => .ok (⟨cs, x.1⟩, x.2)) := by
    rw [Detector.execute]
    show (observeAccess _ isRead pid entry address size b >>= _) = _
    rw [observeAccess, check_bind hactive]
    show (d.detection.checkCollisions
      (b.wrapped.observe (.access isRead pid entry address size)) >>= _) >>= _ = _
    rw [hcheck, ← hb]
    rfl
  have hstall : b₂.stallCommand = false := by rw [← hb]
  by_cases hdelay : delay = 0
  · obtain ⟨t', hfinal, hcurrent', hidle⟩ := TableDetection.exists_finalize_access (d := d) hpid
      haccess (by rw [hlast, hcurrent]; exact hcur)
    have hdone : d.blended.finalizeInstruction b₂ = .ok { b₂ with wrapped := t' } := by
      show finalizeInstruction _ b₂ = _
      rw [finalizeInstruction, hstall, if_neg Bool.false_ne_true]
      show (d.detection.finalizeInstruction b₂.wrapped >>= _) = _
      rw [← hb]
      show (d.finalizeInstruction t >>= _) = _
      rw [hfinal]
      rfl
    refine ⟨cs, { b₂ with wrapped := t' }, ?_, ?_⟩
    · rw [hbefore, conclude_final hstall (fun h => absurd h Bool.false_ne_true) (.inr hdelay)]
      show (d.blended.finalizeInstruction b₂ >>= _) >>= _ = _
      rw [hdone, hdelay]
      rfl
    · rw [← hb]
      exact ⟨rfl, rfl, rfl, hcurrent'.trans hcurrent, hidle⟩
  · refine ⟨cs, { b₂ with wrapped := b₂.wrapped.rollbackInstruction }, ?_, ?_⟩
    · rw [hbefore, conclude_delayed hstall hdelay, decide_eq_true hdelay]
      rfl
    · rw [← hb]
      exact ⟨rfl, rfl, rfl, hcurrent, rfl⟩

lemma execute_access_error (hzero : entry ≠ 0) (hactive : entry ∉ b.currentActiveTrans) :
    d.blended.execute ⟨.access isRead pid entry address size, force, delay⟩ b =
      .error .assertion := by
  have hnot : ¬(entry = 0 ∨ entry ∈ b.currentActiveTrans) := fun h => h.elim hzero hactive
  rw [Detector.execute]
  show (observeAccess _ isRead pid entry address size b >>= _) = _
  rw [observeAccess]
  simp only [check, decide_eq_false hnot, error_bind]

/-! ## Transaction instructions that are not stalled -/

/-- A transaction instruction has been observed, and has no collisions. -/
def ready (b : NoBlend (TableState τ)) (pid : Pid) (st : StoredTransOp) : NoBlend (TableState τ) :=
  { b with
    lastWasAccess := false
    forced := false
    currentPid := pid
    stallCommand := false
    currentOp := st
    wrapped := { b.wrapped.observe (st.instruction pid) with collisionPids := [] } }

lemma execute_ready (hstalls : stalls old new op pid b = .ok false) :
    d.blended.execute ⟨.transaction pid old new op, force, delay⟩ b =
      (d.blended.conclude force delay (ready b pid ⟨old, new, op⟩) >>= fun x =>
        .ok (⟨[], x.1⟩, x.2)) := by
  have hobserve : d.blended.observe (.transaction pid old new op) b = .ok { b with
      lastWasAccess := false, forced := false, currentPid := pid, stallCommand := false
      currentOp := ⟨old, new, op⟩
      wrapped := b.wrapped.observe (.transaction pid old new op) } := by
    show observeTransactionInst _ pid old new op b = _
    rw [observeTransactionInst, hstalls]
    rfl
  rw [Detector.execute, hobserve, ok_bind]
  show (d.detection.checkCollisions (b.wrapped.observe (.transaction pid old new op)) >>= _) >>= _ = _
  rw [TableDetection.checkCollisions_nothing (.inr (.inl rfl))]
  rfl

/-- It is delayed. -/
lemma execute_delayed (hstalls : stalls old new op pid b = .ok false)
    (hdelayed : (!force && decide (delay ≠ 0)) = true) :
    ∃ b', d.blended.execute ⟨.transaction pid old new op, force, delay⟩ b = .ok (⟨[], true⟩, b') ∧
      Keeps b b' := by
  obtain ⟨hforce, hdelay⟩ := Bool.and_eq_true_iff.1 hdelayed
  rw [Bool.not_eq_true'] at hforce
  subst hforce
  refine ⟨{ ready b pid ⟨old, new, op⟩ with
    wrapped := (ready b pid ⟨old, new, op⟩).wrapped.rollbackInstruction }, ?_,
    ⟨rfl, rfl, rfl, rfl, rfl⟩⟩
  rw [execute_ready hstalls, conclude_delayed rfl (of_decide_eq_true hdelay)]
  rfl

/-- It is not delayed. -/
lemma execute_final (hstalls : stalls old new op pid b = .ok false)
    (hdelayed : (!force && decide (delay ≠ 0)) = false) :
    d.blended.execute ⟨.transaction pid old new op, force, delay⟩ b =
      (d.finalizeInstruction (ready b pid ⟨old, new, op⟩).wrapped >>= fun t =>
        finalizeTransaction d.detection.detector
          { ready b pid ⟨old, new, op⟩ with forced := force, wrapped := t } >>= fun b' =>
            .ok (⟨[], false⟩, b')) := by
  have h : force = true ∨ delay = 0 := by
    rcases Bool.and_eq_false_iff.1 hdelayed with hforce | hdelay
    · exact .inl (by simpa using hforce)
    · exact .inr (by simpa using hdelay)
  have hfinal : d.blended.finalizeInstruction { ready b pid ⟨old, new, op⟩ with
      forced := force || (ready b pid ⟨old, new, op⟩).forced } =
      (d.finalizeInstruction (ready b pid ⟨old, new, op⟩).wrapped >>= fun t =>
        finalizeTransaction d.detection.detector
          { ready b pid ⟨old, new, op⟩ with forced := force, wrapped := t }) := by
    have hforced : (force || (ready b pid ⟨old, new, op⟩).forced) = force := Bool.or_false force
    rw [hforced]
    rfl
  rw [execute_ready hstalls, conclude_final rfl (fun _ => rfl) h, hfinal]
  cases d.finalizeInstruction (ready b pid ⟨old, new, op⟩).wrapped with
  | error f => rfl
  | ok t =>
    rw [ok_bind, ok_bind]
    cases finalizeTransaction d.detection.detector
      { ready b pid ⟨old, new, op⟩ with forced := force, wrapped := t } with
    | error f => rfl
    | ok b' => rfl

/-! ## Begins -/

/-- A begin outside of all transactions, when there is none on the stack, or the level 0. -/
lemma stalls_begin (hstack : (b.currentTrans pid).headD 0 = 0) :
    stalls 0 new .transBegin pid b = .ok false := by
  rw [stalls]
  cases hcase : b.currentTrans pid with
  | nil => rfl
  | cons top rest =>
    rw [hcase] at hstack
    exact if_pos hstack

/-- A transaction begins. -/
lemma execute_begin (hstack : b.currentTrans pid = [])
    (hcur : b.wrapped.currentTransaction pid = 0) (hnew : new ≠ 0)
    (hdelayed : (!force && decide (delay ≠ 0)) = false) :
    ∃ b', d.blended.execute ⟨.transaction pid 0 new .transBegin, force, delay⟩ b =
        .ok (⟨[], false⟩, b') ∧
      b'.currentTrans = Function.update b.currentTrans pid [new] ∧ b'.forcedOps = b.forcedOps ∧
      b'.currentActiveTrans = b.currentActiveTrans.insert new ∧
      b'.wrapped.currentTransaction = Function.update b.wrapped.currentTransaction pid new ∧
      b'.wrapped.lastPid = none := by
  have hhead : (b.currentTrans pid).headD 0 = 0 := by rw [hstack]; rfl
  obtain ⟨t, hfinal, hidle, hcurrent⟩ := TableDetection.exists_finalize_begin (d := d)
    (t := (ready b pid ⟨0, new, .transBegin⟩).wrapped) rfl rfl rfl hnew hcur
  refine ⟨({ ready b pid ⟨0, new, .transBegin⟩ with forced := force, wrapped := t }).push new, ?_, ?_,
    rfl, rfl, hcurrent, hidle⟩
  · rw [execute_final (stalls_begin hhead) hdelayed, hfinal, ok_bind, finalizeTransaction]
    dsimp only
    have hold : (ready b pid ⟨0, new, .transBegin⟩).currentOp.oldTrans =
        ((ready b pid ⟨0, new, .transBegin⟩).currentTrans
          (ready b pid ⟨0, new, .transBegin⟩).currentPid).headD 0 := hhead.symm
    rw [check_bind hold]
    rfl
  · show Function.update b.currentTrans pid (new :: b.currentTrans pid) = _
    rw [hstack]

/-- The detection that is wrapped has another transaction of the process. -/
lemma execute_begin_error (hstack : (b.currentTrans pid).headD 0 = 0)
    (hcur : b.wrapped.currentTransaction pid ≠ 0)
    (hdelayed : (!force && decide (delay ≠ 0)) = false) :
    d.blended.execute ⟨.transaction pid 0 new .transBegin, force, delay⟩ b = .error .assertion := by
  have hfinal : d.finalizeInstruction (ready b pid ⟨0, new, .transBegin⟩).wrapped =
      .error .assertion := TableDetection.finalize_begin_error rfl rfl rfl hcur
  rw [execute_final (stalls_begin hstack) hdelayed, hfinal, error_bind]

/-- A begin beside the transaction on the stack is delayed, or queued if it may not be. -/
lemma execute_begin_stalled {top : Level} {rest : List Level}
    (hstack : b.currentTrans pid = top :: rest) (htop : top ≠ 0) (hlt : top < new)
    (hidle : b.wrapped.lastPid = none) :
    ∃ b', d.blended.execute ⟨.transaction pid 0 new .transBegin, force, delay⟩ b =
        .ok (⟨[], !force⟩, b') ∧
      b'.currentTrans = b.currentTrans ∧
      b'.forcedOps = (if force then
        Function.update b.forcedOps pid (b.forcedOps pid ++ [⟨0, new, .transBegin⟩])
        else b.forcedOps) ∧
      b'.currentActiveTrans = b.currentActiveTrans ∧
      b'.wrapped.currentTransaction = b.wrapped.currentTransaction ∧
      b'.wrapped.lastPid = none := by
  have hstalls : stalls 0 new .transBegin pid b = .ok true := by
    rw [stalls, hstack]
    dsimp only
    rw [if_neg htop, check_bind hlt]
    rfl
  have hobserve : d.blended.observe (.transaction pid 0 new .transBegin) b = .ok { b with
      lastWasAccess := false, forced := false, currentPid := pid, stallCommand := true
      currentOp := ⟨0, new, .transBegin⟩ } := by
    show observeTransactionInst _ pid 0 new .transBegin b = _
    rw [observeTransactionInst, hstalls]
    rfl
  have hcheck := TableDetection.checkCollisions_nothing (d := d) (t := b.wrapped) (.inl hidle)
  generalize hb : ({ b with
    lastWasAccess := false, forced := false, currentPid := pid, stallCommand := true
    currentOp := ⟨0, new, .transBegin⟩
    wrapped := { b.wrapped with collisionPids := [] } } : NoBlend (TableState τ)) = b₂
  have hbefore : d.blended.execute ⟨.transaction pid 0 new .transBegin, force, delay⟩ b =
      (d.blended.conclude force delay b₂ >>= fun x => .ok (⟨[], x.1⟩, x.2)) := by
    rw [Detector.execute, hobserve, ok_bind]
    show (d.detection.checkCollisions b.wrapped >>= _) >>= _ = _
    rw [hcheck, ← hb]
    rfl
  rw [hbefore, ← hb, Detector.conclude]
  cases force with
  | true => exact ⟨_, rfl, rfl, rfl, rfl, rfl, hidle⟩
  | false =>
    -- the stalled begin asks for a delay itself
    have hdelay : max 10 delay ≠ 0 := by omega
    rw [if_neg Bool.false_ne_true]
    show ∃ b', (if max 10 delay = 0 then _ else _) >>= _ = _ ∧ _
    rw [if_neg hdelay]
    exact ⟨_, rfl, rfl, rfl, rfl, rfl, hidle⟩

/-! ## Ends -/

lemma stalls_end {rest : List Level} (hop : op ≠ .transBegin)
    (hstack : b.currentTrans pid = old :: rest) (hactive : old ∈ b.currentActiveTrans) :
    stalls old new op pid b = .ok false := by
  have hhead : (b.currentTrans pid).head? = some old := by
    rw [hstack]
    rfl
  cases op with
  | transBegin => exact absurd rfl hop
  | _ =>
    rw [stalls, check_bind hactive, check_bind hhead]
    · rfl
    · exact hop

/-- Only an active transaction can end. -/
lemma execute_end_error (hop : op ≠ .transBegin) (hactive : old ∉ b.currentActiveTrans) :
    d.blended.execute ⟨.transaction pid old new op, force, delay⟩ b = .error .assertion := by
  have hstalls : stalls old new op pid b = .error .assertion := by
    cases op with
    | transBegin => exact absurd rfl hop
    | _ =>
      rw [stalls]
      · simp only [check, decide_eq_false hactive, error_bind]
      · exact hop
  have hobserve : d.blended.observe (.transaction pid old new op) b = .error .assertion := by
    show observeTransactionInst _ pid old new op b = _
    rw [observeTransactionInst, hstalls, error_bind]
  rw [Detector.execute, hobserve, error_bind]

/-- The transaction on the stack of a process has ended; the queue is not yet looked at. -/
structure Ended (b : NoBlend (TableState τ)) (pid : Pid) (old : Level) (b' : NoBlend (TableState τ)) :
    Prop where
  currentPid : b'.currentPid = pid
  newTrans : b'.currentOp.newTrans = 0
  currentTrans : b'.currentTrans = Function.update b.currentTrans pid []
  forcedOps : b'.forcedOps = b.forcedOps
  active : b'.currentActiveTrans = b.currentActiveTrans.erase old
  current : b'.wrapped.currentTransaction = Function.update b.wrapped.currentTransaction pid 0
  idle : b'.wrapped.lastPid = none

/-- The end of the only transaction on the stack, which is followed by the release of the queue. -/
lemma execute_end (hop : op ≠ .transBegin) (hstack : b.currentTrans pid = [old])
    (hactive : old ∈ b.currentActiveTrans) (hzero : old ≠ 0)
    (hcur : b.wrapped.currentTransaction pid = old)
    (hdelayed : (!force && decide (delay ≠ 0)) = false) :
    ∃ b₁, Ended b pid old b₁ ∧
      d.blended.execute ⟨.transaction pid old 0 op, force, delay⟩ b =
        (release d.detection.detector (b.forcedOps pid) b₁ >>= fun b' => .ok (⟨[], false⟩, b')) := by
  obtain ⟨t, hfinal, hidle, hcurrent⟩ := TableDetection.exists_finalize_end (d := d)
    (t := (ready b pid ⟨old, 0, op⟩).wrapped) rfl rfl hop hzero rfl hcur
  refine ⟨{ ready b pid ⟨old, 0, op⟩ with
    forced := force
    wrapped := t
    currentActiveTrans := b.currentActiveTrans.erase old
    currentTrans := Function.update b.currentTrans pid (b.currentTrans pid).tail }, ?_, ?_⟩
  · refine ⟨rfl, rfl, ?_, rfl, rfl, hcurrent, hidle⟩
    show Function.update b.currentTrans pid (b.currentTrans pid).tail = _
    rw [hstack]
    rfl
  · have hhead : (b.currentTrans pid).head? = some old := by
      rw [hstack]
      rfl
    have htail : (b.currentTrans pid).tail = [] := by
      rw [hstack]
      rfl
    have hend : finalizeTransaction d.detection.detector
        { ready b pid ⟨old, 0, op⟩ with forced := force, wrapped := t } =
        release d.detection.detector (b.forcedOps pid) { ready b pid ⟨old, 0, op⟩ with
          forced := force
          wrapped := t
          currentActiveTrans := b.currentActiveTrans.erase old
          currentTrans := Function.update b.currentTrans pid (b.currentTrans pid).tail } := by
      rw [finalizeTransaction]
      cases op with
      | transBegin => exact absurd rfl hop
      | _ =>
        show (check Fault.assertion ((b.currentTrans pid).head? = some old) >>= fun _ =>
          check Fault.assertion (old ∈ b.currentActiveTrans) >>= fun _ =>
            if (b.currentTrans pid).tail = [] then _ else _) = _
        rw [check_bind hhead, check_bind hactive, if_pos htail]
        rfl
    rw [execute_final (stalls_end hop hstack hactive) hdelayed, hfinal, ok_bind, hend]

/-- A queued begin is released when its process has no transaction. -/
lemma release_begin {level : Level} (rest : List StoredTransOp)
    (hstack : b.currentTrans b.currentPid = []) (hlevel : level ≠ 0)
    (hcur : b.wrapped.currentTransaction b.currentPid = 0) :
    ∃ b', release d.detection.detector (⟨0, level, .transBegin⟩ :: rest) b =
        release d.detection.detector rest b' ∧
      b'.currentPid = b.currentPid ∧
      b'.currentTrans = Function.update b.currentTrans b.currentPid [b.currentOp.newTrans] ∧
      b'.forcedOps = Function.update b.forcedOps b.currentPid rest ∧
      b'.currentActiveTrans = b.currentActiveTrans.insert b.currentOp.newTrans ∧
      b'.wrapped.currentTransaction =
        Function.update b.wrapped.currentTransaction b.currentPid level ∧
      b'.wrapped.lastPid = none := by
  obtain ⟨t, hfinal, hidle, hcurrent⟩ := TableDetection.exists_finalize_begin (d := d)
    (t := b.wrapped.observe (.transaction b.currentPid 0 level .transBegin)) rfl rfl rfl hlevel hcur
  refine ⟨{ b.push b.currentOp.newTrans with
    wrapped := t
    forcedOps := Function.update b.forcedOps b.currentPid rest }, ?_, rfl, ?_, rfl, rfl, hcurrent,
    hidle⟩
  · rw [release, check_bind rfl]
    dsimp only
    rw [if_neg fun h => h.1 hstack]
    show (d.finalizeInstruction
      (b.wrapped.observe (.transaction b.currentPid 0 level .transBegin)) >>= _) = _
    rw [hfinal]
    rfl
  · show Function.update b.currentTrans b.currentPid (_ :: b.currentTrans b.currentPid) = _
    rw [hstack]

/-- A second begin cannot be released. -/
lemma release_error {rest : List StoredTransOp} {level : Level}
    (hstack : (b.currentTrans b.currentPid).head? = some 0)
    (hcur : b.wrapped.currentTransaction b.currentPid ≠ 0) :
    release d.detection.detector (⟨0, level, .transBegin⟩ :: rest) b = .error .assertion := by
  have hfinal : d.finalizeInstruction
      (b.wrapped.observe (.transaction b.currentPid 0 level .transBegin)) = .error .assertion :=
    TableDetection.finalize_begin_error rfl rfl rfl hcur
  rw [release, check_bind rfl]
  dsimp only
  rw [if_neg fun h => h.2 hstack]
  show (d.finalizeInstruction
    (b.wrapped.observe (.transaction b.currentPid 0 level .transBegin)) >>= _) = _
  rw [hfinal, error_bind]

end NoBlend

end Sesc.Trans
