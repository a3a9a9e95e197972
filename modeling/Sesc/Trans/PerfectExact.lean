import Sesc.Trans.Nesting
import Sesc.Trans.PerfectSteps

/-!
# The collisions that `PerfectCollisionDetection` reports

The exact sets of an active transaction are the lines of its own accesses and of those of its
committed descendants.  The sets of the detection are these without the line 0, which the loops
over the bytes of an access skip.
-/

namespace Sesc.Trans

open Lib

/-! ## The exact sets -/

/-- An access of a transaction: the bytes from `address` on. -/
structure MemoryAccess where
  isRead : Bool
  address : Address
  size : ℕ
deriving DecidableEq, Repr

/-- The active transactions with the accesses that each has made since it began, itself or by a
committed descendant. -/
structure Ledger where
  nesting : Nesting
  accesses : Level → List MemoryAccess

namespace Ledger

def new : Ledger where
  nesting := .new
  accesses := fun _ => []

variable (g : Ledger)

/-- More accesses of a transaction. -/
def add (level : Level) (l : List MemoryAccess) : Ledger :=
  { g with accesses := Function.update g.accesses level (g.accesses level ++ l) }

/-- The ledger after an instruction: a commit adds the accesses to those of the parent, an abort
drops them. -/
def after : Instruction → Ledger
  | .access isRead _ transactionEntry address size =>
    if transactionEntry = 0 then g else g.add transactionEntry [⟨isRead, address, size⟩]
  | .transaction pid oldLevel newLevel .transBegin =>
    { nesting := g.nesting.after (.transaction pid oldLevel newLevel .transBegin)
      accesses := Function.update g.accesses newLevel [] }
  | .transaction pid oldLevel newLevel .transEnd =>
    { g.add newLevel (g.accesses oldLevel) with
      nesting := g.nesting.after (.transaction pid oldLevel newLevel .transEnd) }
  | .transaction pid oldLevel newLevel .transAbort =>
    { g with nesting := g.nesting.after (.transaction pid oldLevel newLevel .transAbort) }

/-- The ledger after an instruction that may be tried again. -/
def execute (e : Execution) : Ledger := if e.retry then g else g.after e.instruction

/-- The transaction has read (or written) the line. -/
def HasLine (lineSize : ℕ) (level : Level) (read : Bool) (line : Address) : Prop :=
  ∃ a ∈ g.accesses level, a.isRead = read ∧ Touches lineSize a.address a.size line

variable {g} in
lemma hasLine_congr {g' : Ledger} {lineSize : ℕ} {level : Level} {read : Bool} {line : Address}
    (h : g'.accesses level = g.accesses level) :
    g'.HasLine lineSize level read line ↔ g.HasLine lineSize level read line := by
  rw [HasLine, HasLine, h]

end Ledger

/-- The ledger at the end of a run. -/
def ledger (es : List Execution) : Ledger := es.foldl Ledger.execute .new

/-- The transaction in which one of a stack has begun, 0 if there is none. -/
def parentIn : List Level → Level → Level
  | [], _ => 0
  | l :: rest, level => if l = level then rest.headD 0 else parentIn rest level

/-- The record of an active transaction: its process, its parent, and its exact sets without the
line 0. -/
structure TransData.Records (lineSize : ℕ) (g : Ledger) (t : TransData) : Prop where
  active : t.transLevel ∈ g.nesting.stack t.pid
  parent : t.parentLevel = parentIn (g.nesting.stack t.pid) t.transLevel
  lines : ∀ read line, line ∈ t.lines read ↔ line ≠ 0 ∧ g.HasLine lineSize t.transLevel read line

/-- There is one record for each active transaction. -/
structure Tabulates (lineSize procCount : ℕ) (active : List TransData) (g : Ledger) : Prop where
  wellFormed : g.nesting.WellFormed procCount
  nodup : (active.map TransData.transLevel).Nodup
  records : ∀ t ∈ active, t.Records lineSize g
  complete : ∀ pid, ∀ level ∈ g.nesting.stack pid, ∃ t ∈ active, t.transLevel = level

namespace Tabulates

variable {lineSize procCount : ℕ} {active : List TransData} {g : Ledger} {s : Perfect}

lemma new : Tabulates lineSize procCount [] .new where
  wellFormed := .new
  nodup := List.nodup_nil
  records _ h := absurd h List.not_mem_nil
  complete _ _ h := absurd h List.not_mem_nil

/-- An active transaction has made more accesses. -/
lemma add (h : Tabulates lineSize procCount active g) {level : Level} {l : List MemoryAccess}
    {f : TransData → TransData} (hpid : ∀ t, (f t).pid = t.pid)
    (hlevel : ∀ t, (f t).transLevel = t.transLevel)
    (hparent : ∀ t, (f t).parentLevel = t.parentLevel)
    (hlines : ∀ t read line, line ∈ (f t).lines read ↔ line ∈ t.lines read ∨
      line ≠ 0 ∧ ∃ a ∈ l, a.isRead = read ∧ Touches lineSize a.address a.size line) :
    Tabulates lineSize procCount (active.map fun t => if t.transLevel = level then f t else t)
      (g.add level l) := by
  have hkeep : ∀ t, (if t.transLevel = level then f t else t).transLevel = t.transLevel := by
    intro t
    split
    · exact hlevel t
    · rfl
  have hlevels : (active.map fun t => if t.transLevel = level then f t else t).map
      TransData.transLevel = active.map TransData.transLevel := by
    rw [List.map_map]
    exact List.map_congr_left fun t _ => hkeep t
  refine ⟨h.wellFormed, hlevels ▸ h.nodup, ?_, fun pid l' hl' => ?_⟩
  · intro t' ht'
    obtain ⟨t, ht, rfl⟩ := List.mem_map.1 ht'
    have hrec := h.records t ht
    split
    · rename_i heq
      refine ⟨?_, ?_, fun read line => ?_⟩
      · rw [hpid, hlevel]
        exact hrec.active
      · rw [hpid, hlevel, hparent]
        exact hrec.parent
      · rw [hlines, hrec.lines, hlevel, ← and_or_left]
        refine and_congr_right fun _ => ?_
        simp [Ledger.HasLine, Ledger.add, heq, or_and_right, exists_or]
    · rename_i hne
      refine ⟨hrec.active, hrec.parent, fun read line => ?_⟩
      rw [hrec.lines]
      exact and_congr_right fun _ => (Ledger.hasLine_congr (Function.update_of_ne hne _ _)).symm
  · obtain ⟨t, ht, heq⟩ := h.complete pid l' hl'
    exact ⟨_, List.mem_map_of_mem ht, (hkeep t).trans heq⟩

/-- A process has begun a transaction. -/
lemma push (h : Tabulates lineSize procCount active g) {pid : Pid} {level : Level}
    (hpid : pid < procCount) (hzero : level ≠ 0)
    (hfresh : ∀ q < procCount, level ∉ g.nesting.stack q) :
    Tabulates lineSize procCount
      (active ++ [{ pid := pid, transLevel := level, parentLevel := g.nesting.level pid
                    readSet := [], writeSet := [] }])
      { nesting := g.nesting.set pid (level :: g.nesting.stack pid)
        accesses := Function.update g.accesses level [] } := by
  have hfresh := h.wellFormed.fresh hfresh
  have hne : ∀ t ∈ active, t.transLevel ≠ level := by
    intro t ht heq
    exact hfresh t.pid (heq ▸ (h.records t ht).active)
  refine ⟨h.wellFormed.push hpid hzero hfresh, ?_, ?_, fun q l hl => ?_⟩
  · rw [List.map_append, List.nodup_append]
    refine ⟨h.nodup, List.nodup_singleton _, fun l hl l' hl' => ?_⟩
    obtain ⟨t, ht, rfl⟩ := List.mem_map.1 hl
    rw [List.mem_singleton.1 hl']
    exact hne t ht
  · intro t ht
    rcases List.mem_append.1 ht with ht | ht
    · have hrec := h.records t ht
      refine ⟨?_, ?_, fun read line => ?_⟩
      · rw [Nesting.stack_set]
        split
        · rename_i heq
          exact List.mem_cons_of_mem _ (heq ▸ hrec.active)
        · exact hrec.active
      · rw [hrec.parent, Nesting.stack_set]
        split
        · rename_i heq
          rw [heq, parentIn, if_neg (hne t ht).symm]
        · rfl
      · rw [hrec.lines]
        exact and_congr_right fun _ =>
          (Ledger.hasLine_congr (Function.update_of_ne (hne t ht) _ _)).symm
    · rw [List.mem_singleton.1 ht]
      refine ⟨?_, ?_, fun read line => ?_⟩
      · rw [Nesting.stack_set, if_pos rfl]
        exact List.mem_cons_self
      · rw [Nesting.stack_set, if_pos rfl, parentIn, if_pos rfl]
        rfl
      · cases read <;> simp [TransData.lines, Ledger.HasLine]
  · rw [Nesting.stack_set] at hl
    split at hl
    · rcases List.mem_cons.1 hl with rfl | hl
      · exact ⟨_, List.mem_append_right _ List.mem_cons_self, rfl⟩
      · obtain ⟨t, ht, heq⟩ := h.complete pid l hl
        exact ⟨t, List.mem_append_left _ ht, heq⟩
    · obtain ⟨t, ht, heq⟩ := h.complete q l hl
      exact ⟨t, List.mem_append_left _ ht, heq⟩

/-- The innermost transaction of a process has ended. -/
lemma pop (h : Tabulates lineSize procCount active g) {pid : Pid} {level : Level}
    {rest : List Level} (hstack : g.nesting.stack pid = level :: rest) :
    Tabulates lineSize procCount (active.filter fun t => t.transLevel ≠ level)
      { g with nesting := g.nesting.set pid rest } := by
  have hnodup := h.wellFormed.nodup pid
  rw [hstack] at hnodup
  have hwf : (g.nesting.set pid (g.nesting.stack pid).tail).WellFormed procCount := h.wellFormed.pop
  rw [hstack, List.tail_cons] at hwf
  refine ⟨hwf, ?_, ?_, fun q l hl => ?_⟩
  · exact h.nodup.sublist (List.filter_sublist.map _)
  · intro t ht
    obtain ⟨ht, hne⟩ := List.mem_filter.1 ht
    have hne := of_decide_eq_true hne
    have hrec := h.records t ht
    refine ⟨?_, ?_, hrec.lines⟩
    · rw [Nesting.stack_set]
      split
      · rename_i heq
        have hactive := hrec.active
        rw [heq, hstack] at hactive
        exact (List.mem_cons.1 hactive).resolve_left hne
      · exact hrec.active
    · rw [hrec.parent, Nesting.stack_set]
      split
      · rename_i heq
        rw [heq, hstack, parentIn, if_neg hne.symm]
      · rfl
  · have hl' : l ∈ g.nesting.stack q ∧ l ≠ level := by
      rw [Nesting.stack_set] at hl
      split at hl
      · rename_i heq
        rw [heq, hstack]
        refine ⟨List.mem_cons_of_mem _ hl, ?_⟩
        rintro rfl
        exact (List.nodup_cons.1 hnodup).1 hl
      · rename_i hq
        refine ⟨hl, ?_⟩
        rintro rfl
        refine hq (h.wellFormed.disjoint q pid l hl ?_)
        rw [hstack]
        exact List.mem_cons_self
    obtain ⟨t, ht, heq⟩ := h.complete q l hl'.1
    exact ⟨t, List.mem_filter.2 ⟨ht, decide_eq_true (heq ▸ hl'.2)⟩, heq⟩

variable {s' : Perfect} {pid : Pid}

/-- An access of an active transaction. -/
lemma access (h : Tabulates lineSize procCount s.activeTransactions g) (level : Level)
    (isRead : Bool) (address : Address) (size : ℕ) :
    Tabulates lineSize procCount
      (s.modify level fun t => t.insert isRead (accessLines lineSize address size))
      (g.add level [⟨isRead, address, size⟩]) := by
  refine h.add (fun _ => TransData.pid_insert) (fun _ => TransData.transLevel_insert)
    (fun _ => TransData.parentLevel_insert) fun t read line => ?_
  rw [TransData.mem_lines_insert, mem_accessLines]
  simp only [List.mem_singleton, exists_eq_left]
  refine or_congr_right ⟨?_, ?_⟩
  · rintro ⟨rfl, hzero, htouch⟩
    exact ⟨hzero, rfl, htouch⟩
  · rintro ⟨hzero, rfl, htouch⟩
    exact ⟨rfl, hzero, htouch⟩

/-- The end of a transaction adds its sets to those of its parent. -/
lemma promote (h : Tabulates lineSize procCount s.activeTransactions g) {t : TransData}
    (ht : t ∈ s.activeTransactions) :
    Tabulates lineSize procCount (s.promote t)
      (g.add t.parentLevel (g.accesses t.transLevel)) := by
  have hmap : s.promote t = s.activeTransactions.map fun p => if p.transLevel = t.parentLevel then
      (p.insert true t.readSet).insert false t.writeSet else p := by
    rw [Perfect.promote]
    split
    · -- no transaction has the level 0
      rename_i hzero
      have hid : ∀ p ∈ s.activeTransactions, (if p.transLevel = t.parentLevel then
          (p.insert true t.readSet).insert false t.writeSet else p) = p := by
        intro p hp
        refine if_neg fun heq => h.wellFormed.nonzero p.pid ?_
        rw [← hzero, ← heq]
        exact (h.records p hp).active
      rw [List.map_congr_left hid, List.map_id']
    · rfl
  rw [hmap]
  refine h.add (fun _ => by simp) (fun _ => by simp) (fun _ => by simp) fun p read line => ?_
  have hlines := (h.records t ht).lines read line
  rw [TransData.mem_lines_insert, TransData.mem_lines_insert, or_assoc]
  refine or_congr_right (Iff.trans ?_ hlines)
  cases read <;> simp [TransData.lines]

/-- The end of the innermost transaction of a process, committed or aborted. -/
lemma finish (h : Tabulates lineSize procCount s.activeTransactions g) {old new : Level}
    {op : TMOpCode} {t : TransData} (hop : op ≠ .transBegin)
    (hallows : g.nesting.Allows procCount (.transaction pid old new op))
    (hfind : s.find old = some t) (hpid : t.pid = pid) :
    Tabulates lineSize procCount
      ((if op = .transEnd then s.promote t else s.activeTransactions).filter
        fun t => t.transLevel ≠ old)
      (g.after (.transaction pid old new op)) := by
  have hallows' : g.nesting.stack pid ≠ [] ∧ old = g.nesting.level pid ∧
      new = (g.nesting.stack pid).tail.headD 0 := by
    cases op with
    | transBegin => exact absurd rfl hop
    | transEnd => exact hallows
    | transAbort => exact hallows
  obtain ⟨hne, hold, hnew⟩ := hallows'
  obtain ⟨level, rest, hstack⟩ := List.exists_cons_of_ne_nil hne
  rw [Nesting.level, hstack, List.headD_cons] at hold
  rw [hstack, List.tail_cons] at hnew
  obtain ⟨ht, hlevel⟩ := Perfect.find_eq_some hfind
  have hparent : t.parentLevel = new := by
    rw [(h.records t ht).parent, hpid, hlevel, hstack, hold, parentIn, if_pos rfl, hnew]
  have htail : g.nesting.set pid (g.nesting.stack pid).tail = g.nesting.set pid rest := by
    rw [hstack, List.tail_cons]
  cases op with
  | transBegin => exact absurd rfl hop
  | transEnd =>
    have hstack' : (g.add t.parentLevel (g.accesses t.transLevel)).nesting.stack pid =
        level :: rest := hstack
    have hpop := (h.promote ht).pop hstack'
    rw [← hold, hparent, hlevel] at hpop
    rw [Ledger.after, Nesting.after, htail, if_pos rfl]
    · exact hpop
    · exact hop
  | transAbort =>
    rw [Ledger.after, Nesting.after, htail, if_neg TMOpCode.noConfusion, hold]
    · exact h.pop hstack
    · exact hop

lemma ledger_of_isIdle {e : Execution} (he : e.IsIdle) : g.execute e = g := by
  rcases e with ⟨i, retry⟩
  rcases he with hretry | ⟨isRead, pid, address, size, hi⟩
  · exact if_pos hretry
  · cases hi
    cases retry <;> rfl

lemma step (h : Tabulates lineSize procCount s.activeTransactions g) {e : Execution}
    (hpid : e.instruction.pid < procCount) (hallows : g.nesting.Allows procCount e.instruction)
    (hstep : (Perfect.detection lineSize).execute e.instruction e.retry s = .ok s') :
    Tabulates lineSize procCount s'.activeTransactions (g.execute e) := by
  rcases e with ⟨i, retry⟩
  rcases Perfect.execute_eq_ok hstep with ⟨hidle, hactive⟩ |
    ⟨isRead, pid, level, address, size, hi, hretry, hlevel, hactive⟩ |
    ⟨pid, old, new, op, hi, hretry, ⟨hop, -, hactive⟩ | ⟨hop, t, hfind, ht, hactive⟩⟩
  · rw [hactive, ledger_of_isIdle hidle]
    exact h
  · cases hi
    cases hretry
    have hledger : g.execute ⟨.access isRead pid level address size, false⟩ =
        g.add level [⟨isRead, address, size⟩] := if_neg hlevel
    rw [hactive, hledger]
    exact h.access level isRead address size
  · cases hi
    cases hretry
    subst hop
    have hpid : pid < procCount := hpid
    obtain ⟨hold, hzero, hfresh⟩ := hallows
    have hnew := h.push hpid hzero hfresh
    rw [← hold] at hnew
    rw [hactive]
    exact hnew
  · cases hi
    cases hretry
    rw [hactive]
    exact h.finish hop hallows hfind ht

end Tabulates

section

variable {lineSize procCount : ℕ} {es : List Execution} {s : Perfect}

end

end Sesc.Trans
