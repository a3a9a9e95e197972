import Sesc.Trans.Detector

/-!
# Nested transactions

A process begins a transaction inside the innermost one that is active and ends the innermost
one.  Flattening keeps the outermost transactions only.
-/

namespace Sesc.Trans

open Lib

/-- The active transactions of each process, the innermost first. -/
structure Nesting where
  stack : Pid → List Level

namespace Nesting

def new : Nesting where
  stack := fun _ => []

variable (n : Nesting)

/-- The innermost active transaction of a process, 0 if there is none. -/
def level (pid : Pid) : Level := (n.stack pid).headD 0

/-- The outermost active transaction of a process, 0 if there is none. -/
def outermost (pid : Pid) : Level := (n.stack pid).getLastD 0

/-- An instruction that may come next: an access of an active transaction of its process, or of
none, the begin of a new transaction, and the end of the innermost one. -/
def Allows (procCount : ℕ) : Instruction → Prop
  | .access _ pid transactionEntry _ _ =>
    transactionEntry = 0 ∨ transactionEntry ∈ n.stack pid
  | .transaction pid oldLevel newLevel .transBegin =>
    oldLevel = n.level pid ∧ newLevel ≠ 0 ∧ ∀ q < procCount, newLevel ∉ n.stack q
  | .transaction pid oldLevel newLevel _ =>
    n.stack pid ≠ [] ∧ oldLevel = n.level pid ∧ newLevel = (n.stack pid).tail.headD 0

instance (procCount : ℕ) : ∀ i, Decidable (n.Allows procCount i)
  | .access .. => inferInstanceAs (Decidable (_ ∨ _))
  | .transaction _ _ _ .transBegin => inferInstanceAs (Decidable (_ ∧ _ ∧ _))
  | .transaction _ _ _ .transEnd => inferInstanceAs (Decidable (_ ∧ _ ∧ _))
  | .transaction _ _ _ .transAbort => inferInstanceAs (Decidable (_ ∧ _ ∧ _))

/-- A process has other active transactions. -/
def set (pid : Pid) (levels : List Level) : Nesting where
  stack := Function.update n.stack pid levels

lemma stack_set {pid q : Pid} {levels : List Level} :
    (n.set pid levels).stack q = if q = pid then levels else n.stack q :=
  Function.update_apply _ _ _ _

/-- The active transactions after an instruction. -/
def after : Instruction → Nesting
  | .access .. => n
  | .transaction pid _ newLevel .transBegin => n.set pid (newLevel :: n.stack pid)
  | .transaction pid .. => n.set pid (n.stack pid).tail

/-- What is left of an instruction when only outermost transactions count: their begins and ends,
and all accesses, which are those of the outermost transaction. -/
def outermostPart : Instruction → Option Instruction
  | .access isRead pid transactionEntry address size =>
    some (.access isRead pid (if transactionEntry = 0 then 0 else n.outermost pid) address size)
  | .transaction pid oldLevel newLevel .transBegin =>
    if n.stack pid = [] then some (.transaction pid oldLevel newLevel .transBegin) else none
  | .transaction pid oldLevel newLevel opCode =>
    if (n.stack pid).tail = [] then some (.transaction pid oldLevel newLevel opCode) else none

/-- Transactions have different identifiers, other than 0. -/
structure WellFormed (procCount : ℕ) : Prop where
  nodup : ∀ pid, (n.stack pid).Nodup
  nonzero : ∀ pid, 0 ∉ n.stack pid
  disjoint : ∀ pid q level, level ∈ n.stack pid → level ∈ n.stack q → pid = q
  idle : ∀ pid, procCount ≤ pid → n.stack pid = []

variable {n} {procCount : ℕ} {pid : Pid}

lemma WellFormed.new : Nesting.new.WellFormed procCount where
  nodup _ := List.nodup_nil
  nonzero _ := List.not_mem_nil
  disjoint _ _ _ h := absurd h List.not_mem_nil
  idle _ _ := rfl

/-- A new identifier belongs to no process. -/
lemma WellFormed.fresh (h : n.WellFormed procCount) {level : Level}
    (hfresh : ∀ q < procCount, level ∉ n.stack q) (q : Pid) : level ∉ n.stack q := by
  by_cases hq : q < procCount
  · exact hfresh q hq
  · rw [h.idle q (Nat.le_of_not_lt hq)]
    exact List.not_mem_nil

/-- The stack of a process after a begin. -/
lemma WellFormed.push (h : n.WellFormed procCount) {level : Level} (hpid : pid < procCount)
    (hzero : level ≠ 0) (hfresh : ∀ q, level ∉ n.stack q) :
    (n.set pid (level :: n.stack pid)).WellFormed procCount := by
  refine ⟨fun q => ?_, fun q => ?_, fun q q' l hq hq' => ?_, fun q hq => ?_⟩
  · rw [stack_set]
    split
    · exact List.nodup_cons.2 ⟨hfresh pid, h.nodup pid⟩
    · exact h.nodup q
  · rw [stack_set]
    split
    · rw [List.mem_cons, not_or]
      exact ⟨Ne.symm hzero, h.nonzero pid⟩
    · exact h.nonzero q
  · -- the new transaction is only in the new stack
    have hmem : ∀ q, l ∈ (n.set pid (level :: n.stack pid)).stack q →
        l = level ∧ q = pid ∨ l ∈ n.stack q ∧ l ≠ level := by
      intro q hl
      rw [stack_set] at hl
      split at hl
      · rename_i heq
        subst heq
        rcases List.mem_cons.1 hl with rfl | hold
        · exact .inl ⟨rfl, rfl⟩
        · exact .inr ⟨hold, fun heq => hfresh q (heq ▸ hold)⟩
      · exact .inr ⟨hl, fun heq => hfresh q (heq ▸ hl)⟩
    rcases hmem q hq with ⟨rfl, rfl⟩ | ⟨hold, hne⟩
    · exact ((hmem q' hq').resolve_right fun h => h.2 rfl).2.symm
    · rcases hmem q' hq' with ⟨rfl, -⟩ | ⟨hold', -⟩
      · exact absurd rfl hne
      · exact h.disjoint q q' l hold hold'
  · rw [stack_set, if_neg (Nat.ne_of_gt (Nat.lt_of_lt_of_le hpid hq))]
    exact h.idle q hq

/-- The stack of a process after an end. -/
lemma WellFormed.pop (h : n.WellFormed procCount) :
    (n.set pid (n.stack pid).tail).WellFormed procCount := by
  have hsublist : ∀ q, ((n.set pid (n.stack pid).tail).stack q).Sublist (n.stack q) := by
    intro q
    rw [stack_set]
    split
    · rename_i hq
      rw [hq]
      exact List.tail_sublist _
    · exact List.Sublist.refl _
  refine ⟨fun q => (h.nodup q).sublist (hsublist q), fun q h0 => ?_, fun q q' l hq hq' => ?_,
    fun q hq => ?_⟩
  · exact h.nonzero q ((hsublist q).subset h0)
  · exact h.disjoint q q' l ((hsublist q).subset hq) ((hsublist q').subset hq')
  · have hnil := hsublist q
    rw [h.idle q hq] at hnil
    exact List.sublist_nil.1 hnil

end Nesting

/-! ## Runs -/

/-- A detection with the active transactions and the collisions reported so far, each with the
transactions that were active. -/
structure Nested (σ : Type) where
  detector : σ
  nesting : Nesting
  reported : List (Collision × Nesting)

variable {σ : Type}

def Nested.new (detector : σ) : Nested σ where
  detector := detector
  nesting := .new
  reported := []

/-- An instruction has been executed. -/
def Nested.commit (s : Nested σ) (i : Instruction) (result : Outcome × σ) : Nested σ where
  detector := result.2
  nesting := if result.1.retried then s.nesting else s.nesting.after i
  reported := s.reported ++ result.1.collisions.map fun c => (c, s.nesting)

/-- The machine that executes the instructions of well-nested transactions in a given way. -/
def nestedMachine (procCount : ℕ) (execute : Nesting → Request → σ → Except Fault (Outcome × σ))
    (init : σ) : Machine (Nested σ) Request Fault where
  init := .new init
  step s r := do
    check .noSuchEvent (r.instruction.pid < procCount ∧
      s.nesting.Allows procCount r.instruction)
    let result ← execute s.nesting r s.detector
    return s.commit r.instruction result

namespace Detector

variable (T : Detector σ)

/-- The execution of what is left of an instruction when only outermost transactions count. -/
def executeOutermost (n : Nesting) (r : Request) (s : σ) : Except Fault (Outcome × σ) :=
  match n.outermostPart r.instruction with
  | some i => T.execute { r with instruction := i } s
  | none => .ok (⟨[], !r.forced && decide (r.delay ≠ 0)⟩, s)

/-- The machine of a detection that is given only outermost transactions. -/
def outermostMachine (procCount : ℕ) (init : σ) : Machine (Nested σ) Request Fault :=
  nestedMachine procCount T.executeOutermost init

/-- The machine of a detection that is given all transactions. -/
def allMachine (procCount : ℕ) (init : σ) : Machine (Nested σ) Request Fault :=
  nestedMachine procCount (fun _ => T.execute) init

end Detector

end Sesc.Trans
