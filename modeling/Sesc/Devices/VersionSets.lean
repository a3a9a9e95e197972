import Mathlib.Data.Finset.Card
import Sesc.Devices.PerfectVersioning

/-!
# The version sets of the finished transactions

The loop over the bytes of a store takes line 0 for the line of the byte before the first one, and so
does not log it when the store starts there.  In the runs without such stores, every finished
transaction has left exactly the lines that it has touched.  No transfer can be queued, because the
vector that its address comes from is empty.
-/

namespace Sesc.Devices

open Lib

namespace PerfectVersioning

variable {P : VersioningParams} {v : PerfectVersioning} {l : List VAddr} {n : ℕ}

/-- The set of the transaction of the current instruction becomes `l`. -/
def withLines (v : PerfectVersioning) (l : List VAddr) : PerfectVersioning :=
  { v with lineSet := Function.update v.lineSet v.oldTransLevel (some l) }

@[simp] lemma withLines_withLines (l l' : List VAddr) :
    (v.withLines l).withLines l' = v.withLines l' := by
  simp only [withLines, Function.update_idem]

@[simp] lemma linesOf_withLines : (v.withLines l).linesOf v.oldTransLevel = l := by
  simp only [withLines, linesOf, Function.update_self, Option.getD_some]

lemma withLines_self (h : v.lineSet v.oldTransLevel = some l) : v.withLines l = v := by
  rw [withLines, ← h, Function.update_eq_self]

lemma linesOfAccess_succ (address n : ℕ) :
    Versioned.linesOfAccess P address (n + 1) =
      insert (P.calcLineAddr (address + n)) (Versioned.linesOfAccess P address n) := by
  rw [Versioned.linesOfAccess, Finset.range_add_one, Finset.image_insert]
  rfl

lemma calcLineAddr_mem_linesOfAccess {address i : ℕ} (hi : i < n) :
    P.calcLineAddr (address + i) ∈ Versioned.linesOfAccess P address n :=
  Finset.mem_image.2 ⟨i, Finset.mem_range.2 hi, rfl⟩

/-- An iteration of the loop logs the line of its byte, when the line of the last byte is logged. -/
lemma storeByte_eq {last : VAddr} {i : ℕ} (hnodup : l.Nodup)
    (hlast : P.calcLineAddr (v.activeAddress + i) = last → last ∈ l)
    (htransfer : P.transferEnabled = true → P.calcLineAddr (v.activeAddress + i) ∈ l) :
    ∃ l', storeByte P (last, v.withLines l) i =
        .ok (P.calcLineAddr (v.activeAddress + i), v.withLines l') ∧ l'.Nodup ∧
      l'.toFinset = insert (P.calcLineAddr (v.activeAddress + i)) l.toFinset := by
  have hmem : ∀ curAddr ∈ l, l.toFinset = insert curAddr l.toFinset := fun curAddr h =>
    (Finset.insert_eq_of_mem (List.mem_toFinset.2 h)).symm
  have hlines : (v.withLines l).linesOf (v.withLines l).oldTransLevel = l := linesOf_withLines
  have haddr : (v.withLines l).activeAddress = v.activeAddress := rfl
  simp only [storeByte, hlines, haddr]
  by_cases hcur : P.calcLineAddr (v.activeAddress + i) = last
  · rw [if_pos hcur, hcur]
    exact ⟨l, rfl, hnodup, hmem last (hlast hcur)⟩
  rw [if_neg hcur]
  by_cases hin : P.calcLineAddr (v.activeAddress + i) ∈ l
  · rw [if_pos hin]
    exact ⟨l, rfl, hnodup, hmem _ hin⟩
  · have henabled : ¬P.transferEnabled = true := fun h => hin (htransfer h)
    rw [if_neg hin, if_neg henabled]
    refine ⟨l.insert (P.calcLineAddr (v.activeAddress + i)), ?_, hnodup.insert, ?_⟩
    · exact congrArg (fun w => Except.ok (_, w)) (withLines_withLines _ _)
    · ext a
      simp only [List.mem_toFinset, List.mem_insert_iff, Finset.mem_insert]

/-- The loop logs the lines of its bytes, when it finds line 0 logged or starts outside of it. -/
lemma storeBytes_eq (hnodup : l.Nodup) (hzero : 0 < n → P.calcLineAddr v.activeAddress = 0 → 0 ∈ l)
    (htransfer : P.transferEnabled = true →
      Versioned.linesOfAccess P v.activeAddress n ⊆ l.toFinset) :
    ∃ last l', (List.range n).foldlM (storeByte P) (0, v.withLines l) =
        .ok (last, v.withLines l') ∧ l'.Nodup ∧
      l'.toFinset = l.toFinset ∪ Versioned.linesOfAccess P v.activeAddress n ∧
      (0 < n → last ∈ l') := by
  induction n with
  | zero =>
    refine ⟨0, l, rfl, hnodup, ?_, fun h => absurd h (Nat.lt_irrefl 0)⟩
    simp only [Versioned.linesOfAccess, Finset.range_zero, Finset.image_empty, Finset.union_empty]
  | succ n ih =>
    obtain ⟨last, l₁, hfold, hnodup₁, hlines, hlast⟩ := ih
      (fun _ => hzero n.succ_pos) fun h => by
        refine Finset.Subset.trans ?_ (htransfer h)
        rw [linesOfAccess_succ]
        exact Finset.subset_insert _ _
    have hold : ∀ a ∈ l, a ∈ l₁ := fun a ha => by
      rw [← List.mem_toFinset, hlines]
      exact Finset.mem_union_left _ (List.mem_toFinset.2 ha)
    have hstep : P.calcLineAddr (v.activeAddress + n) = last → last ∈ l₁ := by
      intro hcur
      rcases Nat.eq_zero_or_pos n with rfl | hn
      · have hzero' : 0 = last := (Prod.mk.inj (Except.ok.inj hfold)).1
        subst hzero'
        exact hold 0 (hzero Nat.one_pos hcur)
      · exact hlast hn
    obtain ⟨l₂, hbyte, hnodup₂, hlines₂⟩ := storeByte_eq hnodup₁ hstep fun h =>
      hold _ (List.mem_toFinset.1 (htransfer h (calcLineAddr_mem_linesOfAccess n.lt_succ_self)))
    refine ⟨P.calcLineAddr (v.activeAddress + n), l₂, ?_, hnodup₂, ?_, fun _ => ?_⟩
    · rw [List.range_succ, List.foldlM_append, hfold]
      rw [ok_bind, List.foldlM_cons, hbyte]
      rfl
    · rw [hlines₂, hlines, linesOfAccess_succ, Finset.union_insert]
    · rw [← List.mem_toFinset, hlines₂]
      exact Finset.mem_insert_self _ _

lemma finalizeStore_eq (hl : v.lineSet v.oldTransLevel = some l) (hnodup : l.Nodup)
    (hzero : 0 < v.accessSize → P.calcLineAddr v.activeAddress = 0 → 0 ∈ l)
    (htransfer : P.transferEnabled = true →
      Versioned.linesOfAccess P v.activeAddress v.accessSize ⊆ l.toFinset) :
    ∃ l', v.finalizeStore P = .ok (v.withLines l') ∧ l'.Nodup ∧
      l'.toFinset = l.toFinset ∪ Versioned.linesOfAccess P v.activeAddress v.accessSize := by
  obtain ⟨last, l', hfold, hnodup', hlines, -⟩ := storeBytes_eq hnodup hzero htransfer
  refine ⟨l', ?_, hnodup', hlines⟩
  rw [withLines_self hl] at hfold
  rw [finalizeStore, hl, hfold]
  rfl

lemma leaveResult_eq {i : ℕ} (h : v.activeTransResultSet v.oldTransLevel = some i) :
    v.leaveResult = .ok { v with
      transResultBuffer := v.transResultBuffer.modify i fun r =>
        { r with versionSet := r.versionSet ++ v.linesOf v.oldTransLevel }
      activeTransResultSet := Function.update v.activeTransResultSet v.oldTransLevel none
      lineSet := Function.update v.lineSet v.oldTransLevel none } := by
  rw [leaveResult, h]
  rfl

/-- The sets of the lines after a commit, before that of the transaction is erased. -/
def mergedLines (v : PerfectVersioning) (l : List VAddr) : TransID → Option (List VAddr) :=
  if v.newTransLevel = 0 then v.lineSet
  else Function.update v.lineSet v.newTransLevel (some (l ∪ v.linesOf v.newTransLevel))

lemma finalizeEnd_eq {i : ℕ} (hne : v.oldTransLevel ≠ 0) (hl : v.lineSet v.oldTransLevel = some l)
    (hparent : v.newTransLevel = 0 ∨ (v.lineSet v.newTransLevel).isSome = true)
    (hself : v.newTransLevel ≠ v.oldTransLevel)
    (hi : v.activeTransResultSet v.oldTransLevel = some i) :
    v.finalizeEnd = .ok { v with
      transResultBuffer := v.transResultBuffer.modify i fun r =>
        { r with versionSet := r.versionSet ++ l }
      activeTransResultSet := Function.update v.activeTransResultSet v.oldTransLevel none
      lineSet := Function.update (v.mergedLines l) v.oldTransLevel none } := by
  have hlines : v.linesOf v.oldTransLevel = l := by
    rw [linesOf, hl]
    rfl
  have hmerge : (if v.newTransLevel = 0 then v else { v with
      lineSet := Function.update v.lineSet v.newTransLevel
        (some (v.linesOf v.oldTransLevel ∪ v.linesOf v.newTransLevel)) }) =
      { v with lineSet := v.mergedLines l } := by
    rw [mergedLines, hlines]
    split <;> rfl
  have hkept : v.mergedLines l v.oldTransLevel = some l := by
    rw [mergedLines]
    split
    · exact hl
    · rwa [Function.update_of_ne hself.symm]
  have hlines' : ({ v with lineSet := v.mergedLines l } : PerfectVersioning).linesOf
      v.oldTransLevel = l := by
    show (v.mergedLines l v.oldTransLevel).getD [] = l
    rw [hkept]
    rfl
  have hsome : (v.lineSet v.oldTransLevel).isSome = true := by
    rw [hl]
    rfl
  rw [finalizeEnd, check_bind hne, hsome]
  show (check _ _ >>= _) = _
  rw [check_bind hparent]
  show (if _ then _ else _ : PerfectVersioning).leaveResult = _
  rw [hmerge, leaveResult_eq (v := { v with lineSet := v.mergedLines l }) hi, hlines']

lemma finalizeAbort_eq {i : ℕ} (cpu : Cpu) (hne : v.oldTransLevel ≠ 0)
    (hl : v.lineSet v.oldTransLevel = some l)
    (hparent : v.newTransLevel = 0 ∨ (v.lineSet v.newTransLevel).isSome = true)
    (hi : v.activeTransResultSet v.oldTransLevel = some i) :
    v.finalizeAbort P cpu = .ok { v with
      necessaryTransfers := if P.transferEnabled then
          Function.update v.necessaryTransfers cpu []
        else v.necessaryTransfers
      transResultBuffer := v.transResultBuffer.modify i fun r =>
        { r with versionSet := r.versionSet ++ l }
      activeTransResultSet := Function.update v.activeTransResultSet v.oldTransLevel none
      lineSet := Function.update v.lineSet v.oldTransLevel none } := by
  have hlines : v.linesOf v.oldTransLevel = l := by
    rw [linesOf, hl]
    rfl
  have hsome : (v.lineSet v.oldTransLevel).isSome = true := by
    rw [hl]
    rfl
  rw [finalizeAbort, check_bind hne, hsome]
  show (check _ _ >>= _) = _
  rw [check_bind hparent]
  by_cases henabled : P.transferEnabled = true
  · simp only [if_pos henabled]
    rw [leaveResult_eq (v := { v with
      necessaryTransfers := Function.update v.necessaryTransfers cpu [] }) hi, ← hlines]
    rfl
  · simp only [if_neg henabled]
    rw [leaveResult_eq hi, hlines]
    rfl

end PerfectVersioning

namespace Versioned

open PerfectVersioning

variable {P : VersioningParams} {s s' : Versioned} {e : VersioningEvent} {pid : Cpu}
  {t : TransID} {ts : List TransID}

/-- A store in a transaction that starts in line 0 finds it logged; where transfers are enabled, the
store touches no line that is not logged. -/
def Logged (P : VersioningParams) (s : Versioned) : VersioningEvent → Prop
  | .access isRead pid address size =>
    isRead = false → s.level pid ≠ 0 →
      (0 < size → P.calcLineAddr address = 0 → 0 ∈ s.touched (s.level pid)) ∧
      (P.transferEnabled = true → linesOfAccess P address size ⊆ s.touched (s.level pid))
  | _ => True

instance : ∀ e, Decidable (s.Logged P e)
  | .access isRead pid address size => inferInstanceAs (Decidable
      (isRead = false → s.level pid ≠ 0 →
        (0 < size → P.calcLineAddr address = 0 → 0 ∈ s.touched (s.level pid)) ∧
        (P.transferEnabled = true → linesOfAccess P address size ⊆ s.touched (s.level pid))))
  | .transBegin _ _ => .isTrue trivial
  | .transEnd _ => .isTrue trivial
  | .transAbort _ => .isTrue trivial
  | .rollback .. => .isTrue trivial
  | .transfer _ _ => .isTrue trivial

/-- The result of a finished transaction lists the lines that it has touched, each once. -/
def HasVersions (s : Versioned) (f : FinishedTransaction) : Prop :=
  ∃ r, s.transResultBuffer[f.index]? = some r ∧ r.pid = f.pid ∧ r.transID = f.transID ∧
    r.versionSet.Nodup ∧ r.versionSet.toFinset = f.touched

/-- The set of a transaction holds the lines that it has touched. -/
def HasLines (s : Versioned) (t : TransID) : Prop :=
  ∃ l, s.lineSet t = some l ∧ l.Nodup ∧ l.toFinset = s.touched t

/-- The result of an active transaction is empty. -/
def HasResult (s : Versioned) (pid : Cpu) (t : TransID) : Prop :=
  ∃ i, s.activeTransResultSet t = some i ∧ s.transResultBuffer[i]? = some ⟨pid, t, []⟩

structure Inv (s : Versioned) : Prop where
  idle : s.currentCpu = none
  lines : ∀ pid, ∀ t ∈ s.nesting pid, s.HasLines t
  result : ∀ pid, ∀ t ∈ s.nesting pid, s.HasResult pid t
  ne_zero : ∀ pid, 0 ∉ s.nesting pid
  nodup : ∀ pid, (s.nesting pid).Nodup
  versions : ∀ f ∈ s.finished, s.HasVersions f
  left : ∀ f ∈ s.finished, ∀ pid, ∀ t ∈ s.nesting pid, s.activeTransResultSet t ≠ some f.index
  transfers : ∀ cpu, s.necessaryTransfers cpu = []
  owed : ∀ cpu, s.owed cpu = []

lemma level_mem (h : s.level pid ≠ 0) : s.level pid ∈ s.nesting pid := by
  rw [level] at h ⊢
  cases hn : s.nesting pid with
  | nil => exact absurd (by rw [hn]; rfl) h
  | cons t ts => exact List.mem_cons_self

lemma level_of_cons (h : s.nesting pid = t :: ts) : s.level pid = t := by
  rw [level, h]
  rfl

lemma parent_mem (h : s.parent pid ≠ 0) : s.parent pid ∈ (s.nesting pid).tail := by
  rw [parent] at h ⊢
  cases hn : (s.nesting pid).tail with
  | nil => exact absurd (by rw [hn]; rfl) h
  | cons t ts => exact List.mem_cons_self

/-- A transaction is active on one processor. -/
lemma Inv.eq_pid (hs : s.Inv) {pid' : Cpu} (h : t ∈ s.nesting pid) (h' : t ∈ s.nesting pid') :
    pid = pid' := by
  obtain ⟨i, hi, hr⟩ := hs.result pid t h
  obtain ⟨i', hi', hr'⟩ := hs.result pid' t h'
  cases hi.symm.trans hi'
  cases hr.symm.trans hr'
  rfl

/-- The results of the active transactions are different. -/
lemma Inv.eq_of_index (hs : s.Inv) {pid' : Cpu} {t' : TransID} {i : ℕ} (h : t ∈ s.nesting pid)
    (h' : t' ∈ s.nesting pid') (hi : s.activeTransResultSet t = some i)
    (hi' : s.activeTransResultSet t' = some i) : t = t' := by
  obtain ⟨j, hj, hr⟩ := hs.result pid t h
  obtain ⟨j', hj', hr'⟩ := hs.result pid' t' h'
  cases hi.symm.trans hj
  cases hi'.symm.trans hj'
  cases hr.symm.trans hr'
  rfl

/-! ### The events -/

lemma Inv.level_eq_or (hs : s.Inv) (pid : Cpu) :
    s.level pid = 0 ∨ (s.lineSet (s.level pid)).isSome = true := by
  by_cases h : s.level pid = 0
  · exact .inl h
  · obtain ⟨l, hl, -⟩ := hs.lines pid _ (level_mem h)
    exact .inr (by rw [hl]; rfl)

lemma Inv.parent_eq_or (hs : s.Inv) (pid : Cpu) :
    s.parent pid = 0 ∨ (s.lineSet (s.parent pid)).isSome = true := by
  by_cases h : s.parent pid = 0
  · exact .inl h
  · obtain ⟨l, hl, -⟩ := hs.lines pid _ (List.mem_of_mem_tail (parent_mem h))
    exact .inr (by rw [hl]; rfl)

/-- A store in a transaction logs the lines of its bytes. -/
lemma Inv.store (hs : s.Inv) {address size : ℕ} (ht : s.level pid ≠ 0)
    (hlogged : s.Logged P (.access false pid address size)) :
    ∃ s', s.act P (.access false pid address size) = .ok s' ∧ s'.Inv := by
  obtain ⟨hzero, htransfer⟩ := hlogged rfl ht
  obtain ⟨l, hl, hnodup, htouched⟩ := hs.lines pid _ (level_mem ht)
  let v := s.observeAccess false pid (s.level pid) address size
  have hfinal : ∃ l', v.finalizeStore P = .ok (v.withLines l') ∧ l'.Nodup ∧
      l'.toFinset = l.toFinset ∪ linesOfAccess P address size :=
    finalizeStore_eq hl hnodup
      (fun hsize h => by rw [← List.mem_toFinset, htouched]; exact hzero hsize h)
      fun h => by rw [htouched]; exact htransfer h
  obtain ⟨l', hstore, hnodup', hlines⟩ := hfinal
  have hinstr : v.finalizeInstruction P = .ok { v.withLines l' with currentCpu := none } := by
    rw [finalizeInstruction]
    have haccess : v.lastInstrWasAccess = true := rfl
    have hwrite : (!v.accessIsRead && decide (v.oldTransLevel ≠ 0)) = true := decide_eq_true ht
    rw [if_pos haccess, if_pos hwrite, hstore]
    rfl
  rw [act]
  refine ⟨_, by rw [show s.observeAccess false pid (s.level pid) address size = v from rfl, hinstr]
                rfl, ?_⟩
  refine ⟨rfl, fun pid' t' ht' => ?_, hs.result, hs.ne_zero, hs.nodup, hs.versions, hs.left,
    hs.transfers, fun cpu => ?_⟩
  · show ∃ l, _ ∧ _ ∧ _ = s.touchedAfter P false pid address size t'
    rw [touchedAfter, if_pos ⟨rfl, ht⟩]
    by_cases heq : t' = s.level pid
    · subst heq
      refine ⟨l', Function.update_self .., hnodup', ?_⟩
      rw [Function.update_self, hlines, htouched]
    · rw [Function.update_of_ne heq]
      obtain ⟨l₁, hl₁, hrest⟩ := hs.lines pid' t' ht'
      exact ⟨l₁, (Function.update_of_ne heq _ _).trans hl₁, hrest⟩
  · show s.owedAfter P false pid address size cpu = []
    simp only [owedAfter]
    split
    · rename_i henabled
      have hnone : linesOfAccess P address size \ s.touched (s.level pid) = ∅ :=
        Finset.sdiff_eq_empty_iff_subset.2 (htransfer henabled.1)
      rw [hnone, Finset.card_empty, List.replicate_zero, List.append_nil, Function.update_eq_self]
      exact hs.owed cpu
    · exact hs.owed cpu

/-- An access that is no store of a transaction changes nothing. -/
lemma Inv.plainAccess (hs : s.Inv) {isRead : Bool} {address size : ℕ}
    (h : ¬(isRead = false ∧ s.level pid ≠ 0)) :
    ∃ s', s.act P (.access isRead pid address size) = .ok s' ∧ s'.Inv := by
  let v := s.observeAccess isRead pid (s.level pid) address size
  have hinstr : v.finalizeInstruction P = .ok { v with currentCpu := none } := by
    rw [finalizeInstruction]
    have haccess : v.lastInstrWasAccess = true := rfl
    have hwrite : ¬(!v.accessIsRead && decide (v.oldTransLevel ≠ 0)) = true := by
      rw [Bool.and_eq_true, Bool.not_eq_true', decide_eq_true_eq]
      exact h
    rw [if_pos haccess, if_neg hwrite]
    rfl
  rw [act, show s.observeAccess isRead pid (s.level pid) address size = v from rfl, hinstr]
  refine ⟨_, rfl, rfl, fun pid' t' ht' => ?_, hs.result, hs.ne_zero, hs.nodup, hs.versions, hs.left,
    hs.transfers, fun cpu => ?_⟩
  · show ∃ l, _ ∧ _ ∧ _ = s.touchedAfter P isRead pid address size t'
    rw [touchedAfter, if_neg h]
    exact hs.lines pid' t' ht'
  · show s.owedAfter P isRead pid address size cpu = []
    rw [owedAfter, if_neg fun henabled => h henabled.2]
    exact hs.owed cpu

/-- A transaction begins with an empty set and an empty result. -/
lemma Inv.transBegin (hs : s.Inv) (ht : t ≠ 0) (hnone : s.lineSet t = none) :
    ∃ s', s.act P (.transBegin pid t) = .ok s' ∧ s'.Inv := by
  let v := s.observeTransactionInst pid (s.level pid) t .TransBegin
  have hlevel : v.oldTransLevel = 0 ∨ (v.lineSet v.oldTransLevel).isSome = true := hs.level_eq_or pid
  have hinstr : v.finalizeInstruction P = .ok { v with
      lineSet := Function.update v.lineSet t (some [])
      transResultBuffer := v.transResultBuffer ++ [⟨pid, t, []⟩]
      activeTransResultSet := Function.update v.activeTransResultSet t
        (some v.transResultBuffer.length)
      currentCpu := none } := by
    have hbegin : v.finalizeTransaction P = v.finalizeBegin pid := rfl
    have haccess : ¬v.lastInstrWasAccess = true := Bool.false_ne_true
    rw [finalizeInstruction, if_neg haccess, hbegin, finalizeBegin, check_bind hlevel,
      check_bind (p := v.newTransLevel ≠ 0) ht,
      check_bind (p := v.lineSet v.newTransLevel = none) hnone]
    rfl
  rw [act, check_bind (And.intro ht hnone),
    show s.observeTransactionInst pid (s.level pid) t .TransBegin = v from rfl, hinstr]
  have hfresh : ∀ pid', ∀ t' ∈ s.nesting pid', t' ≠ t := by
    rintro pid' t' ht' rfl
    obtain ⟨l, hl, -⟩ := hs.lines pid' t' ht'
    cases hl.symm.trans hnone
  have hnesting : ∀ {pid' t'}, t' ∈ Function.update s.nesting pid (t :: s.nesting pid) pid' →
      t' = t ∧ pid' = pid ∨ t' ∈ s.nesting pid' ∧ t' ≠ t := by
    intro pid' t' ht'
    by_cases hpid : pid' = pid
    · subst hpid
      rw [Function.update_self] at ht'
      rcases List.mem_cons.1 ht' with rfl | ht'
      · exact .inl ⟨rfl, rfl⟩
      · exact .inr ⟨ht', hfresh _ _ ht'⟩
    · rw [Function.update_of_ne hpid] at ht'
      exact .inr ⟨ht', hfresh _ _ ht'⟩
  have hbuffer : ∀ {i r}, s.transResultBuffer[i]? = some r →
      (s.transResultBuffer ++ [⟨pid, t, []⟩])[i]? = some r := fun h =>
    (List.getElem?_append_left (List.getElem?_eq_some_iff.1 h).1).trans h
  refine ⟨_, rfl, rfl, fun pid' t' ht' => ?_, fun pid' t' ht' => ?_, fun pid' h0 => ?_,
    fun pid' => ?_, fun f hf => ?_, fun f hf pid' t' ht' => ?_, hs.transfers, hs.owed⟩
  · rcases hnesting ht' with ⟨rfl, -⟩ | ⟨ht', hne⟩
    · exact ⟨[], Function.update_self .., List.nodup_nil,
        (Function.update_self t' (∅ : Finset VAddr) s.touched).symm⟩
    · obtain ⟨l, hl, hnodup, htouched⟩ := hs.lines pid' t' ht'
      exact ⟨l, (Function.update_of_ne hne _ _).trans hl, hnodup,
        htouched.trans (Function.update_of_ne hne _ _).symm⟩
  · rcases hnesting ht' with ⟨rfl, rfl⟩ | ⟨ht', hne⟩
    · exact ⟨s.transResultBuffer.length, Function.update_self .., List.getElem?_concat_length⟩
    · obtain ⟨i, hi, hr⟩ := hs.result pid' t' ht'
      exact ⟨i, (Function.update_of_ne hne _ _).trans hi, hbuffer hr⟩
  · rcases hnesting h0 with ⟨h0, -⟩ | ⟨h0, -⟩
    · exact ht h0.symm
    · exact hs.ne_zero pid' h0
  · show (Function.update s.nesting pid (t :: s.nesting pid) pid').Nodup
    by_cases hpid : pid' = pid
    · subst hpid
      rw [Function.update_self]
      exact List.nodup_cons.2 ⟨fun h => hfresh _ _ h rfl, hs.nodup pid'⟩
    · rw [Function.update_of_ne hpid]
      exact hs.nodup pid'
  · obtain ⟨r, hr, hrest⟩ := hs.versions f hf
    exact ⟨r, hbuffer hr, hrest⟩
  · rcases hnesting ht' with ⟨rfl, -⟩ | ⟨ht', hne⟩
    · obtain ⟨r, hr, -⟩ := hs.versions f hf
      intro heq
      have hself := Function.update_self t' (some s.transResultBuffer.length) s.activeTransResultSet
      have hindex := Option.some.inj (hself.symm.trans heq)
      exact absurd hindex (Nat.ne_of_gt (List.getElem?_eq_some_iff.1 hr).1)
    · intro heq
      exact hs.left f hf pid' t' ht' ((Function.update_of_ne hne _ _).symm.trans heq)

/-- The innermost transaction of a processor leaves its lines in its result; the sets of the others
hold the lines that these have touched. -/
lemma Inv.leave (hs : s.Inv) {l : List VAddr} {i : ℕ} (hnest : s.nesting pid = t :: ts)
    (hnodup : l.Nodup) (htouched : l.toFinset = s.touched t)
    (hi : s.activeTransResultSet t = some i) (hr : s.transResultBuffer[i]? = some ⟨pid, t, []⟩)
    (hidle : s'.currentCpu = none) (hnesting : s'.nesting = Function.update s.nesting pid ts)
    (hfinished : s'.finished = ⟨i, pid, t, s.touched t⟩ :: s.finished)
    (hbuffer : s'.transResultBuffer = s.transResultBuffer.modify i fun r =>
      { r with versionSet := r.versionSet ++ l })
    (hset : s'.activeTransResultSet = Function.update s.activeTransResultSet t none)
    (hlines : ∀ pid', ∀ t' ∈ s.nesting pid', t' ≠ t → s'.HasLines t')
    (htransfers : ∀ cpu, s'.necessaryTransfers cpu = []) (howed : ∀ cpu, s'.owed cpu = []) :
    s'.Inv := by
  have htmem : t ∈ s.nesting pid := by
    rw [hnest]
    exact List.mem_cons_self
  have hother : ∀ {pid' t'}, t' ∈ s'.nesting pid' → t' ∈ s.nesting pid' ∧ t' ≠ t := by
    intro pid' t' ht'
    rw [hnesting] at ht'
    by_cases hpid : pid' = pid
    · subst hpid
      rw [Function.update_self] at ht'
      have hnot := (List.nodup_cons.1 (hnest ▸ hs.nodup pid')).1
      refine ⟨hnest ▸ List.mem_cons_of_mem t ht', ?_⟩
      rintro rfl
      exact hnot ht'
    · rw [Function.update_of_ne hpid] at ht'
      refine ⟨ht', ?_⟩
      rintro rfl
      exact hpid (hs.eq_pid ht' htmem)
  have hkept : ∀ {j r}, j ≠ i → s.transResultBuffer[j]? = some r →
      s'.transResultBuffer[j]? = some r := by
    intro j r hne hj
    rw [hbuffer, List.getElem?_modify_ne _ _ hne.symm, hj]
  have hsame : ∀ {t'}, t' ≠ t → s'.activeTransResultSet t' = s.activeTransResultSet t' := by
    intro t' hne
    rw [hset, Function.update_of_ne hne]
  refine ⟨hidle, fun pid' t' ht' => ?_, fun pid' t' ht' => ?_, fun pid' h0 => ?_, fun pid' => ?_,
    fun f hf => ?_, fun f hf pid' t' ht' => ?_, htransfers, howed⟩
  · exact hlines pid' t' (hother ht').1 (hother ht').2
  · obtain ⟨hmem, hne⟩ := hother ht'
    obtain ⟨j, hj, hrj⟩ := hs.result pid' t' hmem
    refine ⟨j, (hsame hne).trans hj, hkept ?_ hrj⟩
    rintro rfl
    exact hne (hs.eq_of_index hmem htmem hj hi)
  · exact hs.ne_zero pid' (hother h0).1
  · rw [hnesting]
    by_cases hpid : pid' = pid
    · subst hpid
      rw [Function.update_self]
      exact (List.nodup_cons.1 (hnest ▸ hs.nodup pid')).2
    · rw [Function.update_of_ne hpid]
      exact hs.nodup pid'
  · rw [hfinished] at hf
    rcases List.mem_cons.1 hf with rfl | hold
    · refine ⟨⟨pid, t, [] ++ l⟩, ?_, rfl, rfl, hnodup, htouched⟩
      rw [hbuffer, List.getElem?_modify_eq, hr]
      rfl
    · obtain ⟨r, hrf, hrest⟩ := hs.versions f hold
      refine ⟨r, hkept ?_ hrf, hrest⟩
      rintro rfl
      exact hs.left f hold pid t htmem hi
  · obtain ⟨hmem, hne⟩ := hother ht'
    rw [hsame hne]
    rw [hfinished] at hf
    rcases List.mem_cons.1 hf with rfl | hf
    · intro hj
      exact hne (hs.eq_of_index hmem htmem hj hi)
    · exact hs.left f hf pid' t' hmem

/-- The innermost transaction of a processor. -/
structure Innermost (s : Versioned) (pid : Cpu) (t : TransID) (ts : List TransID) (l : List VAddr)
    (i : ℕ) : Prop where
  nesting : s.nesting pid = t :: ts
  level : s.level pid = t
  ne_zero : t ≠ 0
  parent : s.parent pid ≠ t
  lines : s.lineSet t = some l
  nodup : l.Nodup
  touched : l.toFinset = s.touched t
  index : s.activeTransResultSet t = some i
  result : s.transResultBuffer[i]? = some ⟨pid, t, []⟩

lemma Inv.exists_innermost (hs : s.Inv) (hne : s.nesting pid ≠ []) :
    ∃ t ts l i, s.Innermost pid t ts l i := by
  obtain ⟨t, ts, hnest⟩ := List.exists_cons_of_ne_nil hne
  have htmem : t ∈ s.nesting pid := by
    rw [hnest]
    exact List.mem_cons_self
  have ht0 : t ≠ 0 := by
    rintro rfl
    exact hs.ne_zero pid htmem
  have hparent : s.parent pid ≠ t := by
    intro h
    have hmem : s.parent pid ∈ (s.nesting pid).tail := parent_mem (h ▸ ht0)
    rw [h, hnest] at hmem
    exact (List.nodup_cons.1 (hnest ▸ hs.nodup pid)).1 hmem
  obtain ⟨l, hl, hnodup, htouched⟩ := hs.lines pid t htmem
  obtain ⟨i, hi, hr⟩ := hs.result pid t htmem
  exact ⟨t, ts, l, i, hnest, level_of_cons hnest, ht0, hparent, hl, hnodup, htouched, hi, hr⟩

/-- A committed transaction adds its lines to those of its parent. -/
lemma Inv.transEnd (hs : s.Inv) (hne : s.nesting pid ≠ []) :
    ∃ s', s.act P (.transEnd pid) = .ok s' ∧ s'.Inv := by
  obtain ⟨t, ts, l, i, ht⟩ := hs.exists_innermost hne
  let v := s.observeTransactionInst pid (s.level pid) (s.parent pid) .TransEnd
  have hv : v.oldTransLevel = t := ht.level
  have hfinal := finalizeEnd_eq (v := v) (l := l) (i := i) (by rw [hv]; exact ht.ne_zero)
    (by rw [hv]; exact ht.lines) (hs.parent_eq_or pid) (by rw [hv]; exact ht.parent)
    (by rw [hv]; exact ht.index)
  have hinstr := congrArg (fun x => x >>= fun w : PerfectVersioning =>
    (.ok { w with currentCpu := none } : Except Fault PerfectVersioning)) hfinal
  have hact : s.act P (.transEnd pid) = v.finalizeInstruction P >>= fun w => .ok { s.finish pid w with
      touched := Function.update s.touched (s.parent pid)
        (s.touched (s.parent pid) ∪ s.touched (s.level pid))
      owed := Function.update s.owed pid
        ((s.owed pid).map fun t => if t = s.level pid then s.parent pid else t) } := by
    rw [act, check_bind hne]
    rfl
  rw [hact, show v.finalizeInstruction P = _ from hinstr]
  refine ⟨_, rfl, hs.leave ht.nesting ht.nodup ht.touched ht.index ht.result rfl ?_ ?_ rfl ?_
    ?_ hs.transfers ?_⟩
  · show Function.update s.nesting pid (s.nesting pid).tail = _
    rw [ht.nesting]
    rfl
  · show FinishedTransaction.mk ((s.activeTransResultSet (s.level pid)).getD 0) pid (s.level pid)
      (s.touched (s.level pid)) :: s.finished = _
    rw [ht.level, ht.index]
    rfl
  · show Function.update s.activeTransResultSet (s.level pid) none = _
    rw [ht.level]
  · intro pid' t' ht' hne'
    have hkeep : Function.update (v.mergedLines l) (s.level pid) none t' = v.mergedLines l t' := by
      rw [ht.level, Function.update_of_ne hne']
    show ∃ l', Function.update (v.mergedLines l) (s.level pid) none t' = some l' ∧ l'.Nodup ∧
      l'.toFinset = Function.update s.touched (s.parent pid) _ t'
    rw [hkeep, mergedLines]
    obtain ⟨l', hl', hnodup', htouched'⟩ := hs.lines pid' t' ht'
    by_cases hpar : t' = s.parent pid
    · subst hpar
      have hnew : v.newTransLevel = s.parent pid := rfl
      have hne0 : v.newTransLevel ≠ 0 := fun h => hs.ne_zero pid' (h ▸ ht')
      have hlines : v.linesOf v.newTransLevel = l' := congrArg (fun o => Option.getD o []) hl'
      rw [if_neg hne0, hlines, hnew]
      refine ⟨l ∪ l', Function.update_self .., List.Nodup.union l hnodup', ?_⟩
      rw [Function.update_self, List.toFinset_union, ht.touched, htouched', ht.level,
        Finset.union_comm]
    · rw [Function.update_of_ne hpar]
      refine ⟨l', ?_, hnodup', htouched'⟩
      split
      · exact hl'
      · exact (Function.update_of_ne hpar _ _).trans hl'
  · intro cpu
    show Function.update s.owed pid _ cpu = []
    by_cases hcpu : cpu = pid
    · subst hcpu
      rw [Function.update_self, hs.owed, List.map_nil]
    · rw [Function.update_of_ne hcpu, hs.owed]

lemma Inv.transAbort (hs : s.Inv) (hne : s.nesting pid ≠ []) :
    ∃ s', s.act P (.transAbort pid) = .ok s' ∧ s'.Inv := by
  obtain ⟨t, ts, l, i, ht⟩ := hs.exists_innermost hne
  let v := s.observeTransactionInst pid (s.level pid) (s.parent pid) .TransAbort
  have hv : v.oldTransLevel = t := ht.level
  have hfinal := finalizeAbort_eq (v := v) (P := P) (l := l) (i := i) pid
    (by rw [hv]; exact ht.ne_zero) (by rw [hv]; exact ht.lines) (hs.parent_eq_or pid)
    (by rw [hv]; exact ht.index)
  have hinstr := congrArg (fun x => x >>= fun w : PerfectVersioning =>
    (.ok { w with currentCpu := none } : Except Fault PerfectVersioning)) hfinal
  have hact : s.act P (.transAbort pid) = v.finalizeInstruction P >>= fun w => .ok { s.finish pid w with
      owed := Function.update s.owed pid ((s.owed pid).filter (· ≠ s.level pid)) } := by
    rw [act, check_bind hne]
    rfl
  rw [hact, show v.finalizeInstruction P = _ from hinstr]
  refine ⟨_, rfl, hs.leave ht.nesting ht.nodup ht.touched ht.index ht.result rfl ?_ ?_ rfl ?_
    ?_ ?_ ?_⟩
  · show Function.update s.nesting pid (s.nesting pid).tail = _
    rw [ht.nesting]
    rfl
  · show FinishedTransaction.mk ((s.activeTransResultSet (s.level pid)).getD 0) pid (s.level pid)
      (s.touched (s.level pid)) :: s.finished = _
    rw [ht.level, ht.index]
    rfl
  · show Function.update s.activeTransResultSet (s.level pid) none = _
    rw [ht.level]
  · intro pid' t' ht' hne'
    show ∃ l', Function.update s.lineSet (s.level pid) none t' = some l' ∧ _
    rw [ht.level, Function.update_of_ne hne']
    exact hs.lines pid' t' ht'
  · intro cpu
    show (if P.transferEnabled then Function.update s.necessaryTransfers pid [] else _) cpu = []
    split
    · by_cases hcpu : cpu = pid
      · subst hcpu
        exact Function.update_self ..
      · rw [Function.update_of_ne hcpu]
        exact hs.transfers cpu
    · exact hs.transfers cpu
  · intro cpu
    show Function.update s.owed pid _ cpu = []
    by_cases hcpu : cpu = pid
    · subst hcpu
      rw [Function.update_self, hs.owed, List.filter_nil]
    · rw [Function.update_of_ne hcpu, hs.owed]

lemma Inv.transfer (hs : s.Inv) (cpuID : Cpu) (accept : Bool) :
    s.act P (.transfer cpuID accept) = .error .noSuchEvent := by
  have hhas : s.hasTransfers cpuID = .ok (false, s.toPerfectVersioning) := by
    rw [hasTransfers, check_bind hs.idle, if_pos (hs.transfers cpuID)]
    rfl
  rw [act, hhas]
  rfl

/-- An event that meets the condition is not possible or succeeds. -/
lemma Inv.act (hs : s.Inv) (hlogged : s.Logged P e) :
    s.act P e = .error .noSuchEvent ∨ ∃ s', s.act P e = .ok s' ∧ s'.Inv := by
  cases e with
  | access isRead pid address size =>
    right
    by_cases h : isRead = false ∧ s.level pid ≠ 0
    · obtain ⟨rfl, ht⟩ := h
      exact hs.store ht hlogged
    · exact hs.plainAccess h
  | transBegin pid t =>
    by_cases h : t ≠ 0 ∧ s.lineSet t = none
    · exact .inr (hs.transBegin h.1 h.2)
    · left
      rw [Versioned.act, check_bind_of_not h]
  | transEnd pid =>
    by_cases h : s.nesting pid ≠ []
    · exact .inr (hs.transEnd h)
    · left
      rw [Versioned.act, check_bind_of_not h]
  | transAbort pid =>
    by_cases h : s.nesting pid ≠ []
    · exact .inr (hs.transAbort h)
    · left
      rw [Versioned.act, check_bind_of_not h]
  | rollback isRead pid address size =>
    exact .inr ⟨_, rfl, rfl, hs.lines, hs.result, hs.ne_zero, hs.nodup, hs.versions, hs.left,
      hs.transfers, hs.owed⟩
  | transfer cpuID accept => exact .inl (hs.transfer cpuID accept)

end Versioned

open Versioned

/-- In a run whose stores find line 0 logged when they start there, and touch no new line when transfers
are enabled, every finished transaction has left the lines that it has touched, each once, in its
result; the queues hold the transfers that the stores ought to have queued; and no assertion fails. -/
theorem versions_exact (P : VersioningParams) (es : List VersioningEvent) (s : Versioned)
    (hrun : (versioning P).RunWhere (Logged P) es s) :
    (∀ f ∈ s.finished, s.HasVersions f) ∧
    (∀ cpu, (s.necessaryTransfers cpu).length = (s.owed cpu).length) ∧
    ∀ e, s.Logged P e → (versioning P).step s e ≠ .error .assertion := by
  have hs : s.Inv := by
    refine hrun.invariant ⟨rfl, ?_, ?_, ?_, ?_, ?_, ?_, fun _ => rfl, fun _ => rfl⟩ ?_
    · exact fun _ _ h => absurd h List.not_mem_nil
    · exact fun _ _ h => absurd h List.not_mem_nil
    · exact fun _ => List.not_mem_nil
    · exact fun _ => List.nodup_nil
    · exact fun _ h => absurd h List.not_mem_nil
    · exact fun _ h => absurd h List.not_mem_nil
    · intro s e s' hs hlogged hstep
      rcases hs.act hlogged with h | ⟨s'', h, hs''⟩
      · cases hstep.symm.trans h
      · cases hstep.symm.trans h
        exact hs''
  refine ⟨hs.versions, fun cpu => ?_, fun e hlogged h => ?_⟩
  · rw [hs.transfers, hs.owed, List.length_nil, List.length_nil]
  · rcases hs.act hlogged with h' | ⟨s', h', -⟩
    · cases h.symm.trans h'
    · cases h.symm.trans h'

/-- The parameters of the tests. -/
def lines16 (transferEnabled : Bool) : VersioningParams :=
  ⟨16, Nat.succ_pos 15, transferEnabled, 32⟩

/-- Two processors; on the first one, a committed and an aborted transaction in one that commits. -/
def nestedStores : List VersioningEvent :=
  [.transBegin 0 1, .access false 0 64 4, .transBegin 1 7, .transBegin 0 2, .access false 0 124 8,
    .transEnd 0, .access false 1 40 2, .transBegin 0 3, .access false 0 256 4, .transAbort 0,
    .access true 0 512 4, .transEnd 0, .transEnd 1]

theorem versions_exact_nestedStores : ∃ s, (versioning (lines16 false)).Run nestedStores s ∧
    s.finished.map (fun f => (f.transID, (s.transResultBuffer[f.index]?.map (·.versionSet)))) =
      [(7, some [32]), (1, some [128, 112, 64]), (3, some [256]), (2, some [128, 112])] ∧
    ∀ f ∈ s.finished, s.HasVersions f := by
  have hrun : succeeds (((versioning (lines16 false)).guarded
      (fun s e => decide (s.Logged (lines16 false) e)) .noSuchEvent).exec
      (versioning (lines16 false)).init nestedStores)
      (fun s => decide (s.finished.map (fun f =>
        (f.transID, (s.transResultBuffer[f.index]?.map (·.versionSet)))) =
          [(7, some [32]), (1, some [128, 112, 64]), (3, some [256]), (2, some [128, 112])])) =
      true := by
    decide +kernel
  obtain ⟨s, hs, htest⟩ := succeeds_iff.1 hrun
  have hwhere := (Machine.run_of_exec hs).of_guarded.mono (D := Logged (lines16 false))
    fun _ _ => of_decide_eq_true
  exact ⟨s, hwhere.run, of_decide_eq_true htest, (versions_exact _ _ s hwhere).1⟩

/-- A transaction that stores to line 0 does not list it; the first store of a transaction that
ought to queue a transfer has no address for it. -/
theorem not_versions_exact :
    (∃ s, (versioning (lines16 false)).Run
        [.transBegin 0 1, .access false 0 0 4, .transEnd 0] s ∧
      s.finished = [⟨0, 0, 1, {0}⟩] ∧ s.transResultBuffer = [⟨0, 1, []⟩] ∧
      ¬∀ f ∈ s.finished, s.HasVersions f) ∧
    ∃ s, (versioning (lines16 true)).Run [.transBegin 0 1] s ∧
      (versioning (lines16 true)).step s (.access false 0 64 4) = .error .assertion := by
  constructor
  · have hrun : succeeds ((versioning (lines16 false)).exec (versioning (lines16 false)).init
        [.transBegin 0 1, .access false 0 0 4, .transEnd 0])
        (fun s => decide (s.finished = [⟨0, 0, 1, {0}⟩] ∧ s.transResultBuffer = [⟨0, 1, []⟩])) =
        true := by
      decide +kernel
    obtain ⟨s, hs, htest⟩ := succeeds_iff.1 hrun
    obtain ⟨hfinished, hbuffer⟩ := of_decide_eq_true htest
    refine ⟨s, Machine.run_of_exec hs, hfinished, hbuffer, fun h => ?_⟩
    obtain ⟨r, hr, -, -, -, htouched⟩ := h ⟨0, 0, 1, {0}⟩ (by
      rw [hfinished]
      exact List.mem_cons_self)
    rw [hbuffer] at hr
    cases hr
    exact absurd htouched (by decide)
  · have hrun : succeeds ((versioning (lines16 true)).exec (versioning (lines16 true)).init
        [.transBegin 0 1])
        (fun s => failsWith ((versioning (lines16 true)).step s (.access false 0 64 4))
          .assertion) = true := by
      decide +kernel
    obtain ⟨s, hs, htest⟩ := succeeds_iff.1 hrun
    exact ⟨s, Machine.run_of_exec hs, failsWith_iff.1 htest⟩

end Sesc.Devices
