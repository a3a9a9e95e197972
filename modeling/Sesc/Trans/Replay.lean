import Mathlib.Data.List.Induction
import Sesc.Trans.LogTMConflicts
import Sesc.Trans.NoBlend

/-!
# The replay of deferred begins

What the detection inside a `CollisionDetectionNoBlend` is told is compared with the stack and
the queue of each process.  As long as no queued begin is released, the stack is that of the
transactions that have begun and not ended; a release puts the level of the instruction that has
caused it on the stack, instead of that of the queued begin.
-/

namespace Sesc.Trans

open Lib

variable {σ : Type}

/-! ## What a detection is told -/

/-- A detection with the instructions that it has been told and that were not rolled back. -/
structure Logged (σ : Type) where
  inner : σ
  current : Option Instruction
  log : List Instruction

def Logged.new (inner : σ) : Logged σ where
  inner := inner
  current := none
  log := []

namespace Detector

variable (T : Detector σ)

/-- The same detection, with a log. -/
def logged : Detector (Logged σ) where
  observe i s := do
    let inner ← T.observe i s.inner
    return { s with inner := inner, current := some i }
  checkCollisions s := do
    let (collisions, inner) ← T.checkCollisions s.inner
    return (collisions, { s with inner := inner })
  getDelay s := T.getDelay s.inner
  mayNotDelay s := do
    let inner ← T.mayNotDelay s.inner
    return { s with inner := inner }
  finalizeInstruction s := do
    let inner ← T.finalizeInstruction s.inner
    return ⟨inner, none, s.log ++ s.current.toList⟩
  rollbackInstruction s := do
    let inner ← T.rollbackInstruction s.inner
    return { s with inner := inner, current := none }

/-- Whether an execution ends with a delay. -/
def retries (r : Request) (s : σ) : Prop :=
  r.forced = false ∧ Ensures (fun own => max own r.delay ≠ 0) (do
    let s ← T.observe r.instruction s
    let (_, s) ← T.checkCollisions s
    T.getDelay s)

end Detector

/-- The level that a process begins. -/
def Instruction.begun (pid : Pid) : Instruction → Option Level
  | transaction p _ newLevel .transBegin => if p = pid then some newLevel else none
  | _ => none

/-- The levels that a process begins, in order. -/
def beginsOf (pid : Pid) (l : List Instruction) : List Level := l.filterMap (Instruction.begun pid)

/-- The transactions of a process that are open after an instruction. -/
def Instruction.effect (pid : Pid) (levels : List Level) : Instruction → List Level
  | access .. => levels
  | transaction p _ newLevel .transBegin => if p = pid then newLevel :: levels else levels
  | transaction p oldLevel _ _ => if p = pid then levels.erase oldLevel else levels

/-- The transactions of a process that have begun and not ended, the innermost first. -/
def opened (pid : Pid) (l : List Instruction) : List Level :=
  l.foldl (Instruction.effect pid) []

variable {pid : Pid} {l : List Instruction} {i : Instruction} {level : Level}

lemma beginsOf_append : beginsOf pid (l ++ [i]) = beginsOf pid l ++ (i.begun pid).toList := by
  rw [beginsOf, List.filterMap_append]
  refine congrArg _ ?_
  rw [List.filterMap_cons]
  cases i.begun pid <;> rfl

lemma opened_append : opened pid (l ++ [i]) = i.effect pid (opened pid l) := by
  rw [opened, List.foldl_append]
  rfl

/-- A transaction that is open has begun, and inside those that have begun before it. -/
lemma opened_sublist : (opened pid l).Sublist (beginsOf pid l).reverse := by
  induction l using List.reverseRecOn with
  | nil => exact List.Sublist.refl _
  | append_singleton l i ih =>
    rw [opened_append, beginsOf_append, List.reverse_append]
    cases i with
    | access => exact ih
    | transaction p old new op =>
      cases op with
      | transBegin =>
        rw [Instruction.effect, Instruction.begun]
        split
        · exact ih.cons_cons new
        · exact ih
      | _ =>
        show (if p = pid then (opened pid l).erase old else opened pid l).Sublist _
        split
        · exact List.erase_sublist.trans ih
        · exact ih

lemma mem_beginsOf_of_opened (h : level ∈ opened pid l) : level ∈ beginsOf pid l :=
  List.mem_reverse.1 (opened_sublist.subset h)

/-! ## Runs -/

/-- A `CollisionDetectionNoBlend` and the instructions that were executed and not delayed. -/
structure Blended (σ : Type) where
  detector : NoBlend (Logged σ)
  accepted : List Instruction

namespace Blended

def new (init : σ) : Blended σ where
  detector := .new (.new init)
  accepted := []

variable (s : Blended σ)

/-- What the detection that is wrapped has been told. -/
def log : List Instruction := s.detector.wrapped.log

/-- A transaction that begins is new, and one that ends goes back to the one around it. -/
def Allows : Instruction → Prop
  | .access .. => True
  | .transaction _ _ newLevel .transBegin =>
    newLevel ≠ 0 ∧ ∀ i ∈ s.accepted, i.begun i.pid ≠ some newLevel
  | .transaction pid _ newLevel _ => newLevel = (opened pid s.log).tail.headD 0

instance : ∀ i, Decidable (s.Allows i)
  | .access .. => .isTrue trivial
  | .transaction _ _ _ .transBegin => inferInstanceAs (Decidable (_ ∧ _))
  | .transaction _ _ _ .transEnd => inferInstanceAs (Decidable (_ = _))
  | .transaction _ _ _ .transAbort => inferInstanceAs (Decidable (_ = _))

/-- An instruction has been executed. -/
def commit (i : Instruction) (result : Outcome × NoBlend (Logged σ)) : Blended σ where
  detector := result.2
  accepted := if result.1.retried then s.accepted else s.accepted ++ [i]

end Blended

/-- The machine that executes instructions with a `CollisionDetectionNoBlend` around the
detection `T`. -/
def blendMachine (T : Detector σ) (procCount : ℕ) (init : σ) :
    Machine (Blended σ) Request Fault where
  init := .new init
  step s r := do
    check .noSuchEvent (r.instruction.pid < procCount ∧ s.Allows r.instruction)
    let result ← (NoBlend.detector T.logged).execute r s.detector
    return s.commit r.instruction result

/-- The stack of each process has the open transactions, each once; every begin that was executed
has been told once, or is still queued; and no access has been told before the begin of its
transaction. -/
structure Blended.Faithful (s : Blended σ) : Prop where
  stack : ∀ pid, s.detector.currentTrans pid = opened pid s.log
  nodup : ∀ pid, (opened pid s.log).Nodup
  fresh : ∀ pid, (beginsOf pid s.accepted).Nodup
  once : ∀ pid, (beginsOf pid s.accepted).Perm
    (beginsOf pid s.log ++ (s.detector.forcedOps pid).map (·.newTrans))
  before : ∀ l isRead pid transactionEntry address size l',
    s.log = l ++ .access isRead pid transactionEntry address size :: l' →
    transactionEntry = 0 ∨ ∃ q, transactionEntry ∈ beginsOf q l

/-- The instruction ends the only open transaction of its process while begins are queued, and
it is not delayed. -/
def Blended.Releases (T : Detector σ) (s : Blended σ) (r : Request) : Prop :=
  (∃ pid old new op, r.instruction = .transaction pid old new op ∧ op ≠ .transBegin ∧
    s.detector.currentTrans pid = [old] ∧ s.detector.forcedOps pid ≠ []) ∧
  ¬(NoBlend.detector T.logged).retries r s.detector

/-! ## One step -/

namespace Detector

variable {T : Detector σ} {w w' : Logged σ}

lemma logged_observe (h : T.logged.observe i w = .ok w') :
    w'.log = w.log ∧ w'.current = some i := by
  obtain ⟨_, -, hret⟩ := bind_eq_ok.1 h
  cases hret
  exact ⟨rfl, rfl⟩

lemma logged_checkCollisions {collisions : List Collision}
    (h : T.logged.checkCollisions w = .ok (collisions, w')) :
    w'.log = w.log ∧ w'.current = w.current := by
  obtain ⟨_, -, hret⟩ := bind_eq_ok.1 h
  cases hret
  exact ⟨rfl, rfl⟩

lemma logged_mayNotDelay (h : T.logged.mayNotDelay w = .ok w') :
    w'.log = w.log ∧ w'.current = w.current := by
  obtain ⟨_, -, hret⟩ := bind_eq_ok.1 h
  cases hret
  exact ⟨rfl, rfl⟩

lemma logged_finalizeInstruction (h : T.logged.finalizeInstruction w = .ok w') :
    w'.log = w.log ++ w.current.toList := by
  obtain ⟨_, -, hret⟩ := bind_eq_ok.1 h
  cases hret
  rfl

lemma logged_rollbackInstruction (h : T.logged.rollbackInstruction w = .ok w') :
    w'.log = w.log := by
  obtain ⟨_, -, hret⟩ := bind_eq_ok.1 h
  cases hret
  rfl

end Detector

namespace NoBlend

variable {T : Detector σ} {d d' : NoBlend (Logged σ)} {r : Request} {out : Outcome}
  {old new : Level} {op : TMOpCode}

/-- The stacks, the queues and the log have not changed. -/
structure Same (d d' : NoBlend (Logged σ)) : Prop where
  currentTrans : d'.currentTrans = d.currentTrans
  currentActiveTrans : d'.currentActiveTrans = d.currentActiveTrans
  forcedOps : d'.forcedOps = d.forcedOps
  log : d'.wrapped.log = d.wrapped.log

/-- The registers between the observation of an instruction and its end. -/
structure Observed (d : NoBlend (Logged σ)) (i : Instruction) (d' : NoBlend (Logged σ)) : Prop
    extends Same d d' where
  current : d'.stallCommand = false → d'.wrapped.current = some i
  access : ∀ isRead pid transactionEntry address size,
    i = .access isRead pid transactionEntry address size →
    (transactionEntry = 0 ∨ transactionEntry ∈ d.currentActiveTrans) ∧
    d'.stallCommand = false ∧ d'.lastWasAccess = true
  transaction : ∀ pid old new op, i = .transaction pid old new op →
    d'.lastWasAccess = false ∧ d'.currentPid = pid ∧ d'.currentOp = ⟨old, new, op⟩ ∧
    stalls old new op pid d = .ok d'.stallCommand

lemma observed_observe (h : observe T.logged i d = .ok d') : Observed d i d' := by
  cases i with
  | access =>
    obtain ⟨hactive, h⟩ := check_bind_eq_ok.1 h
    obtain ⟨w, hw, hret⟩ := bind_eq_ok.1 h
    cases hret
    obtain ⟨hlog, hcurrent⟩ := Detector.logged_observe hw
    refine ⟨⟨rfl, rfl, rfl, hlog⟩, fun _ => hcurrent, ?_, fun _ _ _ _ hi => (by cases hi)⟩
    intro isRead pid entry address size hi
    cases hi
    exact ⟨hactive, rfl, rfl⟩
  | transaction pid old new op =>
    obtain ⟨stall, hstall, h⟩ := bind_eq_ok.1 h
    split at h
    · rename_i hstalled
      cases h
      refine ⟨⟨rfl, rfl, rfl, rfl⟩, fun hfalse => ?_, fun _ _ _ _ _ hi => (by cases hi), ?_⟩
      · exact absurd (hstalled.symm.trans hfalse) Bool.noConfusion
      · intro pid old new op hi
        cases hi
        exact ⟨rfl, rfl, rfl, hstall⟩
    · obtain ⟨w, hw, hret⟩ := bind_eq_ok.1 h
      cases hret
      obtain ⟨hlog, hcurrent⟩ := Detector.logged_observe hw
      refine ⟨⟨rfl, rfl, rfl, hlog⟩, fun _ => hcurrent, fun _ _ _ _ _ hi => (by cases hi), ?_⟩
      intro pid old new op hi
      cases hi
      exact ⟨rfl, rfl, rfl, hstall⟩

/-- The detection that is wrapped may go on. -/
lemma Observed.rewrap (h : Observed d i d') {w : Logged σ} (hlog : w.log = d'.wrapped.log)
    (hcurrent : w.current = d'.wrapped.current) {b : Bool} :
    Observed d i { d' with wrapped := w, forced := b } where
  currentTrans := h.currentTrans
  currentActiveTrans := h.currentActiveTrans
  forcedOps := h.forcedOps
  log := hlog.trans h.log
  current hstall := hcurrent.trans (h.current hstall)
  access := h.access
  transaction := h.transaction

/-- An execution observes the instruction and then rolls it back or finalizes it. -/
lemma execute_eq_ok (h : (detector T.logged).execute r d = .ok (out, d')) :
    (out.retried = true ↔ (detector T.logged).retries r d) ∧
    ∃ d₁, Observed d r.instruction d₁ ∧ (out.retried = true ∧ Same d d' ∨
      out.retried = false ∧ finalizeInstruction T.logged d₁ = .ok d') := by
  obtain ⟨d₁, hd₁, h⟩ := bind_eq_ok.1 h
  obtain ⟨⟨cs, d₂⟩, hd₂, h⟩ := bind_eq_ok.1 h
  obtain ⟨⟨retried, d₃⟩, hd₃, hret⟩ := bind_eq_ok.1 h
  cases hret
  have hobserved : Observed d r.instruction d₂ := by
    obtain ⟨⟨cs', w⟩, hw, hret⟩ := bind_eq_ok.1 hd₂
    cases hret
    obtain ⟨hlog, hcurrent⟩ := Detector.logged_checkCollisions hw
    exact (observed_observe hd₁).rewrap hlog hcurrent
  rw [Detector.conclude] at hd₃
  split at hd₃
  · rename_i hforced
    obtain ⟨d₄, hd₄, h⟩ := bind_eq_ok.1 hd₃
    obtain ⟨d₅, hd₅, hret⟩ := bind_eq_ok.1 h
    cases hret
    refine ⟨iff_of_false Bool.false_ne_true fun hretries => ?_, d₄, ?_, .inr ⟨rfl, hd₅⟩⟩
    · exact absurd (hforced.symm.trans hretries.1) Bool.noConfusion
    · obtain ⟨-, hd₄⟩ := check_bind_eq_ok.1 hd₄
      dsimp only at hd₄
      split at hd₄
      · cases hd₄
        exact hobserved.rewrap rfl rfl
      · obtain ⟨w, hw, hret⟩ := bind_eq_ok.1 hd₄
        cases hret
        obtain ⟨hlog, hcurrent⟩ := Detector.logged_mayNotDelay hw
        exact hobserved.rewrap hlog hcurrent
  · rename_i hforced
    obtain ⟨own, hown, hd₃⟩ := bind_eq_ok.1 hd₃
    have hdelay : ((detector T.logged).observe r.instruction d >>= fun s =>
        (detector T.logged).checkCollisions s >>= fun p => (detector T.logged).getDelay p.2) =
        .ok own :=
      bind_eq_ok.2 ⟨d₁, hd₁, bind_eq_ok.2 ⟨_, hd₂, hown⟩⟩
    split at hd₃
    · rename_i hzero
      obtain ⟨d₅, hd₅, hret⟩ := bind_eq_ok.1 hd₃
      cases hret
      refine ⟨iff_of_false Bool.false_ne_true fun hretries => ?_, d₂, hobserved, .inr ⟨rfl, hd₅⟩⟩
      exact hretries.2 own hdelay hzero
    · rename_i hdelayed
      obtain ⟨d₅, hd₅, hret⟩ := bind_eq_ok.1 hd₃
      cases hret
      refine ⟨iff_of_true rfl ⟨eq_false_of_ne_true hforced, fun own' hown' => ?_⟩, d₂, hobserved,
        .inl ⟨rfl, ?_⟩⟩
      · cases hdelay.symm.trans hown'
        exact hdelayed
      · have hrollback : rollbackInstruction T.logged d₂ = .ok d' := hd₅
        rw [rollbackInstruction] at hrollback
        split at hrollback
        · cases hrollback
          exact hobserved.toSame
        · obtain ⟨w, hw, hret⟩ := bind_eq_ok.1 hrollback
          cases hret
          exact ⟨hobserved.currentTrans, hobserved.currentActiveTrans, hobserved.forcedOps,
            (Detector.logged_rollbackInstruction hw).trans hobserved.log⟩

/-- An access is told to the detection that is wrapped. -/
lemma finalize_access {d₁ : NoBlend (Logged σ)} {isRead : Bool} {entry : Level} {address : Address}
    {size : ℕ} (h : Observed d (.access isRead pid entry address size) d₁)
    (hd' : finalizeInstruction T.logged d₁ = .ok d') :
    d'.currentTrans = d.currentTrans ∧ d'.currentActiveTrans = d.currentActiveTrans ∧
    d'.forcedOps = d.forcedOps ∧
    d'.wrapped.log = d.wrapped.log ++ [.access isRead pid entry address size] := by
  obtain ⟨-, hstall, haccess⟩ := h.access _ _ _ _ _ rfl
  rw [finalizeInstruction, hstall, if_neg Bool.false_ne_true] at hd'
  obtain ⟨w, hw, hd'⟩ := bind_eq_ok.1 hd'
  dsimp only at hd'
  rw [haccess] at hd'
  cases hd'
  refine ⟨h.currentTrans, h.currentActiveTrans, h.forcedOps, ?_⟩
  show w.log = _
  rw [Detector.logged_finalizeInstruction hw, h.current hstall, h.log]
  rfl

/-- A begin is queued if it is stalled, and otherwise it is told to the detection that is
wrapped. -/
lemma finalize_begin {d₁ : NoBlend (Logged σ)}
    (h : Observed d (.transaction pid old new .transBegin) d₁)
    (hd' : finalizeInstruction T.logged d₁ = .ok d') :
    d'.currentTrans = d.currentTrans ∧ d'.currentActiveTrans = d.currentActiveTrans ∧
    d'.forcedOps = Function.update d.forcedOps pid (d.forcedOps pid ++ [⟨old, new, .transBegin⟩]) ∧
    d'.wrapped.log = d.wrapped.log ∨
    d'.currentTrans = Function.update d.currentTrans pid (new :: d.currentTrans pid) ∧
    d'.currentActiveTrans = d.currentActiveTrans.insert new ∧ d'.forcedOps = d.forcedOps ∧
    d'.wrapped.log = d.wrapped.log ++ [.transaction pid old new .transBegin] := by
  obtain ⟨haccess, hpid, hop, -⟩ := h.transaction _ _ _ _ rfl
  rw [finalizeInstruction] at hd'
  split at hd'
  · obtain ⟨-, hd'⟩ := check_bind_eq_ok.1 hd'
    cases hd'
    refine .inl ⟨h.currentTrans, h.currentActiveTrans, ?_, h.log⟩
    show Function.update d₁.forcedOps _ _ = _
    rw [hpid, hop, h.forcedOps]
  · rename_i hstall
    have hstall' := eq_false_of_ne_true hstall
    obtain ⟨w, hw, hd'⟩ := bind_eq_ok.1 hd'
    dsimp only at hd'
    rw [haccess, if_neg Bool.false_ne_true, finalizeTransaction] at hd'
    dsimp only at hd'
    rw [hop] at hd'
    obtain ⟨-, hd'⟩ := check_bind_eq_ok.1 hd'
    cases hd'
    refine .inr ⟨?_, ?_, h.forcedOps, ?_⟩
    · show Function.update d₁.currentTrans _ (_ :: _) = _
      rw [hpid, h.currentTrans]
    · show d₁.currentActiveTrans.insert _ = _
      rw [h.currentActiveTrans]
    · show w.log = _
      rw [Detector.logged_finalizeInstruction hw, h.current hstall', h.log]
      rfl

/-- The state in which the queue is looked at after an end. -/
structure Popped (d : NoBlend (Logged σ)) (i : Instruction) (st : StoredTransOp)
    (d' : NoBlend (Logged σ)) : Prop where
  currentPid : d'.currentPid = i.pid
  currentOp : d'.currentOp = st
  currentTrans : d'.currentTrans =
    Function.update d.currentTrans i.pid (d.currentTrans i.pid).tail
  currentActiveTrans : d'.currentActiveTrans = d.currentActiveTrans.erase st.oldTrans
  forcedOps : d'.forcedOps = d.forcedOps
  log : d'.wrapped.log = d.wrapped.log ++ [i]

/-- An end is told to the detection that is wrapped, and the queue is looked at if no transaction
is left. -/
lemma finalize_end {d₁ : NoBlend (Logged σ)} (hop : op ≠ .transBegin)
    (h : Observed d (.transaction pid old new op) d₁)
    (hd' : finalizeInstruction T.logged d₁ = .ok d') :
    (d.currentTrans pid).head? = some old ∧ ∃ d₂,
      Popped d (.transaction pid old new op) ⟨old, new, op⟩ d₂ ∧
      ((d.currentTrans pid).tail ≠ [] ∧ d' = d₂ ∨
        (d.currentTrans pid).tail = [] ∧ release T.logged (d.forcedOps pid) d₂ = .ok d') := by
  obtain ⟨haccess, hpid, hcurrent, hstalls⟩ := h.transaction _ _ _ _ rfl
  have hstall : d₁.stallCommand = false ∧ (d.currentTrans pid).head? = some old := by
    cases op with
    | transBegin => exact absurd rfl hop
    | _ =>
      obtain ⟨-, hstalls⟩ := check_bind_eq_ok.1 hstalls
      obtain ⟨hhead, hret⟩ := check_bind_eq_ok.1 hstalls
      exact ⟨(Except.ok.inj hret).symm, hhead⟩
  rw [finalizeInstruction, hstall.1, if_neg Bool.false_ne_true] at hd'
  obtain ⟨w, hw, hd'⟩ := bind_eq_ok.1 hd'
  dsimp only at hd'
  rw [haccess, if_neg Bool.false_ne_true] at hd'
  have hend : ∃ d₂, Popped d (.transaction pid old new op) ⟨old, new, op⟩ d₂ ∧
      (if (d.currentTrans pid).tail = [] then release T.logged (d.forcedOps pid) d₂
        else pure d₂) = .ok d' := by
    refine ⟨{ d₁ with
      wrapped := w
      currentActiveTrans := d.currentActiveTrans.erase old
      currentTrans := Function.update d.currentTrans pid (d.currentTrans pid).tail }, ?_, ?_⟩
    · refine ⟨hpid, hcurrent, rfl, rfl, h.forcedOps, ?_⟩
      show w.log = _
      rw [Detector.logged_finalizeInstruction hw, h.current hstall.1, h.log]
      rfl
    · rw [finalizeTransaction] at hd'
      dsimp only at hd'
      rw [hcurrent, hpid, h.currentTrans, h.currentActiveTrans, h.forcedOps] at hd'
      cases op with
      | transBegin => exact absurd rfl hop
      | _ =>
        obtain ⟨-, hd'⟩ := check_bind_eq_ok.1 hd'
        obtain ⟨-, hd'⟩ := check_bind_eq_ok.1 hd'
        rw [hcurrent, hpid, h.forcedOps, haccess, hstall.1]
        exact hd'
  obtain ⟨d₂, hd₂, hrest⟩ := hend
  refine ⟨hstall.2, d₂, hd₂, ?_⟩
  split at hrest
  · rename_i htail
    exact .inr ⟨htail, hrest⟩
  · rename_i htail
    cases hrest
    exact .inl ⟨htail, rfl⟩

end NoBlend

/-! ## The release of queued begins -/

namespace NoBlend

variable {T : Detector σ} {d d' : NoBlend (Logged σ)}

/-- A queued begin that is released is told to the detection that is wrapped, and the level of the
current instruction goes on the stack. -/
lemma release_cons {st : StoredTransOp} {rest : List StoredTransOp}
    (h : release T.logged (st :: rest) d = .ok d') :
    d.currentTrans d.currentPid ≠ [] ∧ d' = d ∨ ∃ d₁,
      d₁.currentPid = d.currentPid ∧ d₁.currentOp = d.currentOp ∧
      d₁.currentTrans d.currentPid = d.currentOp.newTrans :: d.currentTrans d.currentPid ∧
      d₁.wrapped.log = d.wrapped.log ++ [.transaction d.currentPid st.oldTrans st.newTrans
        .transBegin] ∧
      release T.logged rest d₁ = .ok d' := by
  rw [release] at h
  obtain ⟨hop, h⟩ := check_bind_eq_ok.1 h
  dsimp only at h
  split at h
  · rename_i hbreak
    cases h
    exact .inl ⟨hbreak.1, rfl⟩
  · obtain ⟨w₁, hw₁, h⟩ := bind_eq_ok.1 h
    obtain ⟨w₂, hw₂, h⟩ := bind_eq_ok.1 h
    obtain ⟨w₃, hw₃, h⟩ := bind_eq_ok.1 h
    obtain ⟨hlog₁, hcurrent₁⟩ := Detector.logged_observe hw₁
    obtain ⟨hlog₂, hcurrent₂⟩ := Detector.logged_mayNotDelay hw₂
    refine .inr ⟨_, ?_, ?_, ?_, ?_, h⟩
    · rfl
    · rfl
    · exact Function.update_self _ _ _
    show w₃.log = _
    rw [Detector.logged_finalizeInstruction hw₃, hlog₂, hcurrent₂, hlog₁, hcurrent₁,
      StoredTransOp.instruction, hop]
    rfl

/-- After the end of an outermost transaction the level 0 stays on the stack, and it is not that of
an open transaction. -/
lemma zero_release {q : List StoredTransOp} (h : release T.logged q d = .ok d')
    (hzero : d.currentOp.newTrans = 0) (hq : ∀ st ∈ q, st.newTrans ≠ 0)
    (hopened : 0 ∉ opened d.currentPid d.wrapped.log) :
    0 ∉ opened d.currentPid d'.wrapped.log ∧
    (0 ∈ d.currentTrans d.currentPid → 0 ∈ d'.currentTrans d.currentPid) := by
  induction q generalizing d with
  | nil =>
    cases h
    exact ⟨hopened, id⟩
  | cons st rest ih =>
    rcases release_cons h with ⟨-, rfl⟩ | ⟨d₁, hpid, hop, htrans, hlog, h⟩
    · exact ⟨hopened, id⟩
    · have hnew := hq st List.mem_cons_self
      have hopened₁ : 0 ∉ opened d₁.currentPid d₁.wrapped.log := by
        rw [hlog, hpid, opened_append, Instruction.effect, if_pos rfl, List.mem_cons, not_or]
        exact ⟨hnew.symm, hopened⟩
      have hih := ih h (hop ▸ hzero) (fun st' hst' => hq st' (List.mem_cons_of_mem st hst'))
        hopened₁
      rw [hpid] at hih
      refine ⟨hih.1, fun hmem => hih.2 ?_⟩
      rw [htrans]
      exact List.mem_cons_of_mem _ hmem

end NoBlend

/-! ## What holds before and after every step -/

/-- Only what is on a stack is active, and the level 0 is never begun. -/
structure Blended.Books (s : Blended σ) : Prop extends Blended.Faithful s where
  active : ∀ level ∈ s.detector.currentActiveTrans, ∃ pid, level ∈ s.detector.currentTrans pid
  nonzero : ∀ pid, 0 ∉ beginsOf pid s.accepted

variable {T : Detector σ} {procCount : ℕ} {init : σ} {s s' : Blended σ} {r : Request}

lemma Blended.Books.new : (Blended.new init).Books where
  stack _ := rfl
  nodup _ := List.nodup_nil
  fresh _ := List.nodup_nil
  once _ := List.Perm.refl _
  before l _ _ _ _ _ _ h :=
    absurd h.symm (List.append_ne_nil_of_right_ne_nil l (List.cons_ne_nil _ _))
  active _ h := absurd h (ListSet.not_mem_empty _)
  nonzero _ := List.not_mem_nil

/-- The last instruction of a log, or one before it. -/
lemma append_singleton_eq {α : Type*} {l l₁ l₂ : List α} {i x : α}
    (h : l ++ [i] = l₁ ++ x :: l₂) : l = l₁ ∧ i = x ∨ ∃ l₃, l = l₁ ++ x :: l₃ := by
  induction l₂ using List.reverseRecOn with
  | nil =>
    obtain ⟨hl, hi⟩ := List.append_inj' h rfl
    cases hi
    exact .inl ⟨hl, rfl⟩
  | append_singleton l₃ y =>
    rw [← List.cons_append, ← List.append_assoc] at h
    exact .inr ⟨l₃, (List.append_inj' h rfl).1⟩

/-- What has been told is told after one more instruction, which is no access before the begin of
its transaction. -/
lemma before_append {l : List Instruction} {i : Instruction}
    (h : ∀ l₁ isRead pid entry address size l₂, l = l₁ ++ .access isRead pid entry address size :: l₂ →
      entry = 0 ∨ ∃ q, entry ∈ beginsOf q l₁)
    (hi : ∀ isRead pid entry address size, i = .access isRead pid entry address size →
      entry = 0 ∨ ∃ q, entry ∈ beginsOf q l) :
    ∀ l₁ isRead pid entry address size l₂,
      l ++ [i] = l₁ ++ .access isRead pid entry address size :: l₂ →
      entry = 0 ∨ ∃ q, entry ∈ beginsOf q l₁ := by
  intro l₁ isRead pid entry address size l₂ heq
  rcases append_singleton_eq heq with ⟨rfl, hi'⟩ | ⟨l₃, hl⟩
  · exact hi _ _ _ _ _ hi'
  · exact h _ _ _ _ _ _ _ hl

/-- The begins that were told are those of different transactions. -/
lemma nodup_opened {pid : Pid} {l l' : List Instruction} {st : List StoredTransOp}
    (h : (beginsOf pid l').Nodup)
    (hperm : (beginsOf pid l').Perm (beginsOf pid l ++ st.map (·.newTrans))) :
    (opened pid l).Nodup := by
  have hnodup := (List.nodup_append.1 (hperm.nodup_iff.1 h)).1
  exact (List.nodup_reverse.2 hnodup).sublist opened_sublist

/-- A level that no instruction begins. -/
lemma not_mem_beginsOf {l : List Instruction} {level : Level}
    (h : ∀ i ∈ l, i.begun i.pid ≠ some level) (pid : Pid) : level ∉ beginsOf pid l := by
  intro hmem
  obtain ⟨i, hi, hbegun⟩ := List.mem_filterMap.1 hmem
  have hpid : i.pid = pid := by
    cases i with
    | access => cases hbegun
    | transaction p old new op =>
      cases op with
      | transBegin =>
        rw [Instruction.begun] at hbegun
        by_contra hne
        have hne' : ¬p = pid := hne
        rw [if_neg hne'] at hbegun
        cases hbegun
      | _ => cases hbegun
  exact h i hi (hpid.symm ▸ hbegun)

/-- An instruction that begins nothing leaves the begins as they are. -/
lemma beginsOf_append_of_none {l : List Instruction} {i : Instruction} {pid : Pid}
    (h : i.begun pid = none) : beginsOf pid (l ++ [i]) = beginsOf pid l := by
  rw [beginsOf_append, h]
  exact List.append_nil _

/-- A begin of a new level. -/
lemma beginsOf_append_begin {l : List Instruction} {pid q : Pid} {old new : Level} :
    beginsOf q (l ++ [.transaction pid old new .transBegin]) =
      if pid = q then beginsOf q l ++ [new] else beginsOf q l := by
  rw [beginsOf_append, Instruction.begun]
  split
  · rfl
  · exact List.append_nil _

namespace Blended.Books

variable {d : NoBlend (Logged σ)} {pid : Pid} {old new : Level} {op : TMOpCode}

/-- Nothing is kept of an instruction that is delayed. -/
lemma same (h : s.Books) (hd : NoBlend.Same s.detector d) : Blended.Books ⟨d, s.accepted⟩ where
  stack q := by
    show d.currentTrans q = opened q d.wrapped.log
    rw [hd.currentTrans, hd.log]
    exact h.stack q
  nodup q := by
    show (opened q d.wrapped.log).Nodup
    rw [hd.log]
    exact h.nodup q
  fresh := h.fresh
  once q := by
    show (beginsOf q s.accepted).Perm (beginsOf q d.wrapped.log ++ (d.forcedOps q).map _)
    rw [hd.log, hd.forcedOps]
    exact h.once q
  before := by
    show ∀ l isRead pid entry address size l', d.wrapped.log = _ → _
    rw [hd.log]
    exact h.before
  active := by
    show ∀ level ∈ d.currentActiveTrans, ∃ q, level ∈ d.currentTrans q
    rw [hd.currentActiveTrans, hd.currentTrans]
    exact h.active
  nonzero := h.nonzero

/-- An instruction that begins nothing and is told to the detection that is wrapped. -/
lemma tell {i : Instruction} (h : s.Books) (hbegun : ∀ q, i.begun q = none)
    (hstack : ∀ q, d.currentTrans q = i.effect q (opened q s.log))
    (hactive : ∀ level ∈ d.currentActiveTrans, ∃ q, level ∈ d.currentTrans q)
    (hops : d.forcedOps = s.detector.forcedOps) (hlog : d.wrapped.log = s.log ++ [i])
    (haccess : ∀ isRead pid entry address size, i = .access isRead pid entry address size →
      entry = 0 ∨ ∃ q, entry ∈ beginsOf q s.log) :
    Blended.Books ⟨d, s.accepted ++ [i]⟩ := by
  have hfresh : ∀ q, (beginsOf q (s.accepted ++ [i])).Nodup := by
    intro q
    rw [beginsOf_append_of_none (hbegun q)]
    exact h.fresh q
  have honce : ∀ q, (beginsOf q (s.accepted ++ [i])).Perm
      (beginsOf q d.wrapped.log ++ (d.forcedOps q).map (·.newTrans)) := by
    intro q
    rw [hlog, hops, beginsOf_append_of_none (hbegun q), beginsOf_append_of_none (hbegun q)]
    exact h.once q
  refine ⟨⟨fun q => ?_, fun q => nodup_opened (hfresh q) (honce q), hfresh, honce, ?_⟩, hactive,
    fun q => ?_⟩
  · show d.currentTrans q = opened q d.wrapped.log
    rw [hlog, opened_append, hstack]
  · show ∀ l isRead pid entry address size l', d.wrapped.log = _ → _
    rw [hlog]
    exact before_append h.before haccess
  · show 0 ∉ beginsOf q (s.accepted ++ [i])
    rw [beginsOf_append_of_none (hbegun q)]
    exact h.nonzero q

/-- The begins among the accepted instructions after one more. -/
lemma fresh_append (h : s.Books) (hnew : new ≠ 0 ∧ ∀ i ∈ s.accepted, i.begun i.pid ≠ some new)
    (q : Pid) :
    (beginsOf q (s.accepted ++ [.transaction pid old new .transBegin])).Nodup ∧
    0 ∉ beginsOf q (s.accepted ++ [.transaction pid old new .transBegin]) := by
  rw [beginsOf_append_begin]
  split
  · refine ⟨List.nodup_append.2 ⟨h.fresh q, List.nodup_singleton _, ?_⟩, ?_⟩
    · rintro a ha b hb rfl
      cases List.mem_singleton.1 hb
      exact not_mem_beginsOf hnew.2 q ha
    · rw [List.mem_append, List.mem_singleton, not_or]
      exact ⟨h.nonzero q, hnew.1.symm⟩
  · exact ⟨h.fresh q, h.nonzero q⟩

/-- A begin is queued. -/
lemma queue (h : s.Books) (hnew : new ≠ 0 ∧ ∀ i ∈ s.accepted, i.begun i.pid ≠ some new)
    (htrans : d.currentTrans = s.detector.currentTrans)
    (hactive : d.currentActiveTrans = s.detector.currentActiveTrans)
    (hops : d.forcedOps = Function.update s.detector.forcedOps pid
      (s.detector.forcedOps pid ++ [⟨old, new, .transBegin⟩]))
    (hlog : d.wrapped.log = s.log) :
    Blended.Books ⟨d, s.accepted ++ [.transaction pid old new .transBegin]⟩ := by
  refine ⟨⟨fun q => ?_, fun q => ?_, fun q => (h.fresh_append hnew q).1, fun q => ?_, ?_⟩, ?_,
    fun q => (h.fresh_append hnew q).2⟩
  · show d.currentTrans q = opened q d.wrapped.log
    rw [hlog, htrans]
    exact h.stack q
  · show (opened q d.wrapped.log).Nodup
    rw [hlog]
    exact h.nodup q
  · show (beginsOf q (s.accepted ++ [_])).Perm
      (beginsOf q d.wrapped.log ++ (d.forcedOps q).map (·.newTrans))
    rw [hlog, hops, beginsOf_append_begin, Function.update_apply]
    by_cases hq : q = pid
    · subst hq
      rw [if_pos rfl, if_pos rfl, List.map_append, ← List.append_assoc]
      exact (h.once q).append_right _
    · rw [if_neg (Ne.symm hq), if_neg hq]
      exact h.once q
  · show ∀ l isRead pid entry address size l', d.wrapped.log = _ → _
    rw [hlog]
    exact h.before
  · show ∀ level ∈ d.currentActiveTrans, ∃ q, level ∈ d.currentTrans q
    rw [hactive, htrans]
    exact h.active

/-- A begin is told to the detection that is wrapped. -/
lemma told_begin (h : s.Books) (hnew : new ≠ 0 ∧ ∀ i ∈ s.accepted, i.begun i.pid ≠ some new)
    (htrans : d.currentTrans =
      Function.update s.detector.currentTrans pid (new :: s.detector.currentTrans pid))
    (hactive : d.currentActiveTrans = s.detector.currentActiveTrans.insert new)
    (hops : d.forcedOps = s.detector.forcedOps)
    (hlog : d.wrapped.log = s.log ++ [.transaction pid old new .transBegin]) :
    Blended.Books ⟨d, s.accepted ++ [.transaction pid old new .transBegin]⟩ := by
  have honce : ∀ q, (beginsOf q (s.accepted ++ [.transaction pid old new .transBegin])).Perm
      (beginsOf q d.wrapped.log ++ (d.forcedOps q).map (·.newTrans)) := by
    intro q
    rw [hlog, hops, beginsOf_append_begin, beginsOf_append_begin]
    split
    · -- the new begin stands before the queued ones
      rw [List.append_assoc]
      refine ((h.once q).append_right [new]).trans ?_
      rw [List.append_assoc]
      exact List.perm_append_comm.append_left _
    · exact h.once q
  refine ⟨⟨fun q => ?_, fun q => nodup_opened (h.fresh_append hnew q).1 (honce q),
    fun q => (h.fresh_append hnew q).1, honce, ?_⟩, ?_, fun q => (h.fresh_append hnew q).2⟩
  · show d.currentTrans q = opened q d.wrapped.log
    rw [hlog, htrans, opened_append, Instruction.effect, Function.update_apply]
    by_cases hq : q = pid
    · subst hq
      rw [if_pos rfl, if_pos rfl, h.stack]
    · rw [if_neg hq, if_neg (Ne.symm hq)]
      exact h.stack q
  · show ∀ l isRead pid entry address size l', d.wrapped.log = _ → _
    rw [hlog]
    exact before_append h.before fun _ _ _ _ _ hi => by cases hi
  · show ∀ level ∈ d.currentActiveTrans, ∃ q, level ∈ d.currentTrans q
    rw [hactive, htrans]
    intro level hlevel
    rcases ListSet.mem_insert.1 hlevel with rfl | hold
    · exact ⟨pid, by rw [Function.update_self]; exact List.mem_cons_self⟩
    · obtain ⟨q, hq⟩ := h.active level hold
      refine ⟨q, ?_⟩
      rw [Function.update_apply]
      split
      · rename_i heq
        exact List.mem_cons_of_mem _ (heq ▸ hq)
      · exact hq

/-- An access is told to the detection that is wrapped. -/
lemma access {isRead : Bool} {entry : Level} {address : Address} {size : ℕ} (h : s.Books)
    (hentry : entry = 0 ∨ entry ∈ s.detector.currentActiveTrans)
    (htrans : d.currentTrans = s.detector.currentTrans)
    (hactive : d.currentActiveTrans = s.detector.currentActiveTrans)
    (hops : d.forcedOps = s.detector.forcedOps)
    (hlog : d.wrapped.log = s.log ++ [.access isRead pid entry address size]) :
    Blended.Books ⟨d, s.accepted ++ [.access isRead pid entry address size]⟩ := by
  refine h.tell (fun q => rfl) (fun q => ?_) ?_ hops hlog ?_
  · rw [htrans, h.stack]
    rfl
  · rw [hactive, htrans]
    exact h.active
  · intro isRead' pid' entry' address' size' hi
    cases hi
    refine hentry.imp_right fun hmem => ?_
    obtain ⟨q, hq⟩ := h.active entry hmem
    rw [h.stack] at hq
    exact ⟨q, mem_beginsOf_of_opened hq⟩

/-- An end is told to the detection that is wrapped. -/
lemma popped (h : s.Books) (hop : op ≠ .transBegin)
    (hhead : (s.detector.currentTrans pid).head? = some old)
    (hd : NoBlend.Popped s.detector (.transaction pid old new op) ⟨old, new, op⟩ d) :
    Blended.Books ⟨d, s.accepted ++ [.transaction pid old new op]⟩ := by
  obtain ⟨rest, hrest⟩ : ∃ rest, s.detector.currentTrans pid = old :: rest :=
    List.head?_eq_some_iff.1 hhead
  have htrans : ∀ q, d.currentTrans q = if q = pid then rest else s.detector.currentTrans q := by
    intro q
    have htrans' : d.currentTrans = Function.update s.detector.currentTrans pid
        (s.detector.currentTrans pid).tail := hd.currentTrans
    rw [htrans', Function.update_apply, hrest]
    rfl
  have hbegun : ∀ q, (Instruction.transaction pid old new op).begun q = none := by
    intro q
    cases op with
    | transBegin => exact absurd rfl hop
    | _ => rfl
  have heffect : ∀ q levels, (Instruction.transaction pid old new op).effect q levels =
      if pid = q then levels.erase old else levels := by
    intro q levels
    cases op with
    | transBegin => exact absurd rfl hop
    | _ => rfl
  refine h.tell hbegun (fun q => ?_) ?_ hd.forcedOps hd.log fun _ _ _ _ _ hi => by cases hi
  · rw [htrans, heffect]
    by_cases hq : q = pid
    · subst hq
      rw [if_pos rfl, if_pos rfl, ← h.stack, hrest, List.erase_cons_head]
    · rw [if_neg hq, if_neg (Ne.symm hq), h.stack]
  · intro level hlevel
    rw [hd.currentActiveTrans] at hlevel
    obtain ⟨hne, hold⟩ := ListSet.mem_erase.1 hlevel
    obtain ⟨q, hq⟩ := h.active level hold
    refine ⟨q, ?_⟩
    rw [htrans]
    split
    · rename_i heq
      rw [heq, hrest] at hq
      exact (List.mem_cons.1 hq).resolve_left hne
    · exact hq

end Blended.Books

/-! ## Runs -/

/-- A step that releases no queued begin keeps the books. -/
lemma Blended.Books.step (h : s.Books) (hreleases : ¬s.Releases T r)
    (hs : (blendMachine T procCount init).step s r = .ok s') : s'.Books := by
  obtain ⟨⟨-, hallows⟩, hs⟩ := check_bind_eq_ok.1 hs
  obtain ⟨⟨out, d⟩, hd, hret⟩ := bind_eq_ok.1 hs
  cases hret
  obtain ⟨hretries, d₁, hobserved, hend⟩ := NoBlend.execute_eq_ok hd
  show Blended.Books ⟨d, if out.retried then s.accepted else s.accepted ++ [r.instruction]⟩
  rcases hend with ⟨hretried, hsame⟩ | ⟨hretried, hfinal⟩
  · rw [if_pos hretried]
    exact h.same hsame
  · rw [hretried, if_neg Bool.false_ne_true]
    obtain ⟨i, force, delay⟩ := r
    cases i with
    | access isRead pid entry address size =>
      obtain ⟨htrans, hactive, hops, hlog⟩ := NoBlend.finalize_access hobserved hfinal
      exact h.access (hobserved.access _ _ _ _ _ rfl).1 htrans hactive hops hlog
    | transaction pid old new op =>
      by_cases hop : op = .transBegin
      · subst hop
        rcases NoBlend.finalize_begin hobserved hfinal with ⟨htrans, hactive, hops, hlog⟩ |
          ⟨htrans, hactive, hops, hlog⟩
        · exact h.queue hallows htrans hactive hops hlog
        · exact h.told_begin hallows htrans hactive hops hlog
      · obtain ⟨hhead, d₂, hpopped, hrest⟩ := NoBlend.finalize_end hop hobserved hfinal
        have hbooks := h.popped hop hhead hpopped
        rcases hrest with ⟨-, rfl⟩ | ⟨htail, hrelease⟩
        · exact hbooks
        · by_cases hqueue : s.detector.forcedOps pid = []
          · rw [hqueue] at hrelease
            cases hrelease
            exact hbooks
          · have hstack : s.detector.currentTrans pid = [old] := by
              obtain ⟨rest, hrest⟩ := List.head?_eq_some_iff.1 hhead
              rw [hrest] at htail ⊢
              exact congrArg _ htail
            refine absurd ⟨⟨pid, old, new, op, rfl, hop, hstack, hqueue⟩, fun hr => ?_⟩ hreleases
            exact Bool.noConfusion (hretried.symm.trans (hretries.2 hr))

/-- After the release of a queued begin the stack is not that of the open transactions. -/
lemma Blended.Books.not_faithful (h : s.Books) (hreleases : s.Releases T r)
    (hs : (blendMachine T procCount init).step s r = .ok s') : ¬s'.Faithful := by
  obtain ⟨⟨pid, old, new, op, hi, hop, hstack, hqueue⟩, hnot⟩ := hreleases
  obtain ⟨i, force, delay⟩ := r
  cases hi
  obtain ⟨⟨-, hallows⟩, hs⟩ := check_bind_eq_ok.1 hs
  obtain ⟨⟨out, d⟩, hd, hret⟩ := bind_eq_ok.1 hs
  cases hret
  obtain ⟨hretries, d₁, hobserved, hend⟩ := NoBlend.execute_eq_ok hd
  rcases hend with ⟨hretried, -⟩ | ⟨-, hfinal⟩
  · exact absurd (hretries.1 hretried) hnot
  obtain ⟨hhead, d₂, hpopped, hrest⟩ := NoBlend.finalize_end hop hobserved hfinal
  rw [hstack] at hrest
  rcases hrest with ⟨htail, -⟩ | ⟨-, hrelease⟩
  · exact absurd rfl htail
  have hbooks := h.popped hop hhead hpopped
  -- the transaction around an outermost one is 0
  have hopened : opened pid s.log = [old] := (h.stack pid).symm.trans hstack
  have hnew : new = 0 := by
    have hnew' : new = (opened pid s.log).tail.headD 0 := by
      cases op with
      | transBegin => exact absurd rfl hop
      | _ => exact hallows
    rw [hnew', hopened]
    rfl
  have hnone : d₂.currentTrans pid = [] := by
    have htrans : d₂.currentTrans = Function.update s.detector.currentTrans pid
        (s.detector.currentTrans pid).tail := hpopped.currentTrans
    rw [htrans, Function.update_self, hstack]
    rfl
  have hqueued : ∀ st ∈ s.detector.forcedOps pid, st.newTrans ≠ 0 := by
    intro st hst hzero
    refine h.nonzero pid ((h.once pid).mem_iff.2 (List.mem_append_right _ ?_))
    exact hzero ▸ List.mem_map_of_mem hst
  obtain ⟨st, rest, hcons⟩ := List.exists_cons_of_ne_nil hqueue
  rw [hcons] at hrelease hqueued
  have hpid : d₂.currentPid = pid := hpopped.currentPid
  rcases NoBlend.release_cons hrelease with ⟨hne, -⟩ | ⟨d₃, hpid₃, hop₃, htrans₃, hlog₃, hrelease₃⟩
  · rw [hpid] at hne
    exact absurd hnone hne
  rw [hpid] at hpid₃ htrans₃ hlog₃
  rw [hpopped.currentOp] at hop₃ htrans₃
  have hzero : d₃.currentOp.newTrans = 0 := by
    rw [hop₃]
    exact hnew
  have hopened₃ : 0 ∉ opened d₃.currentPid d₃.wrapped.log := by
    rw [hpid₃, hlog₃, opened_append, Instruction.effect, if_pos rfl, List.mem_cons, not_or]
    refine ⟨(hqueued st List.mem_cons_self).symm, ?_⟩
    have hstack₂ : d₂.currentTrans pid = opened pid d₂.wrapped.log := hbooks.stack pid
    rw [← hstack₂, hnone]
    exact List.not_mem_nil
  obtain ⟨hnot₄, hmem₄⟩ := NoBlend.zero_release hrelease₃ hzero
    (fun st' hst' => hqueued st' (List.mem_cons_of_mem st hst')) hopened₃
  rw [hpid₃] at hnot₄ hmem₄
  intro hfaithful
  have hstack₄ : d.currentTrans pid = opened pid d.wrapped.log := hfaithful.stack pid
  refine hnot₄ (hstack₄ ▸ hmem₄ ?_)
  rw [htrans₃, hnew]
  exact List.mem_cons_self

/-- The deferred begins are replayed faithfully all along a run if and only if none is released. -/
theorem replay_faithful_iff (T : Detector σ) (procCount : ℕ) (init : σ) (rs : List Request)
    (s : Blended σ) (h : (blendMachine T procCount init).Run rs s) :
    (∀ rs' s', rs' <+: rs → (blendMachine T procCount init).Run rs' s' → s'.Faithful) ↔
      (blendMachine T procCount init).RunWhere (fun s r => ¬s.Releases T r) rs s :=
  h.always_iff_runWhere (I := Blended.Books) .new (fun _ hs => hs.toFaithful)
    (fun _ _ _ hs hC hstep => hs.step hC hstep)
    fun _ _ _ hs hC hstep => hs.not_faithful (not_not.1 hC) hstep

/-- Process 0 begins transaction 1, writes line 0, and begins transaction 2 beside transaction 1
without a delay. -/
def besideRun : List Request :=
  [⟨.transaction 0 0 1 .transBegin, true, 0⟩, ⟨.access false 0 1 0 4, false, 0⟩,
    ⟨.transaction 0 0 2 .transBegin, true, 0⟩]

open LogTMConfig in
/-- Transaction 2 is queued. -/
theorem replay_faithful_iff_besideRun : ∃ s,
    (blendMachine twoProcesses.logTM.detection.detector 2 twoProcesses.logTM.new).Run besideRun s ∧
    s.detector.forcedOps 0 = [⟨0, 2, .transBegin⟩] ∧
    ((∀ rs' s', rs' <+: besideRun →
      (blendMachine twoProcesses.logTM.detection.detector 2 twoProcesses.logTM.new).Run rs' s' →
        s'.Faithful) ↔
      (blendMachine twoProcesses.logTM.detection.detector 2 twoProcesses.logTM.new).RunWhere
        (fun s r => ¬s.Releases twoProcesses.logTM.detection.detector r) besideRun s) := by
  have hrun : succeeds
      ((blendMachine twoProcesses.logTM.detection.detector 2 twoProcesses.logTM.new).exec
        (.new twoProcesses.logTM.new) besideRun)
      (fun s => decide (s.detector.forcedOps 0 = [⟨0, 2, .transBegin⟩])) = true := by
    decide +kernel
  obtain ⟨s, hs, hqueue⟩ := succeeds_iff.1 hrun
  have hrun := Machine.run_of_exec hs
  exact ⟨s, hrun, of_decide_eq_true hqueue,
    replay_faithful_iff twoProcesses.logTM.detection.detector 2 twoProcesses.logTM.new besideRun s
      hrun⟩

open LogTMConfig in
/-- When transaction 1 ends, transaction 2 begins, but the level 0 is on the stack. -/
theorem not_replay_faithful_besideRun : ∃ s,
    (blendMachine twoProcesses.logTM.detection.detector 2 twoProcesses.logTM.new).Run
      (besideRun ++ [⟨.transaction 0 1 0 .transEnd, true, 0⟩]) s ∧
    opened 0 s.log = [2] ∧ s.detector.currentTrans 0 = [0] ∧ ¬s.Faithful := by
  have hrun : succeeds
      ((blendMachine twoProcesses.logTM.detection.detector 2 twoProcesses.logTM.new).exec
        (.new twoProcesses.logTM.new) (besideRun ++ [⟨.transaction 0 1 0 .transEnd, true, 0⟩]))
      (fun s => decide (opened 0 s.log = [2] ∧ s.detector.currentTrans 0 = [0])) = true := by
    decide +kernel
  obtain ⟨s, hs, htest⟩ := succeeds_iff.1 hrun
  obtain ⟨hopened, hstack⟩ := of_decide_eq_true htest
  refine ⟨s, Machine.run_of_exec hs, hopened, hstack, fun h => ?_⟩
  have heq := h.stack 0
  rw [hopened, hstack] at heq
  cases heq

end Sesc.Trans
