import Mathlib.Data.List.Nodup
import Mathlib.Data.List.Pairwise
import Sesc.Core.ProcessId
import Sesc.Lib.Machine

/-!
# The process queue is a stable priority queue

The queue has exactly the runnable processes, sorted by their priority and, within a priority, by the
time at which they entered it.  A process that gets a better priority is compared only with those
before it in the queue, so it may miss the process that it should preempt; a process that keeps its
priority loses its place.
-/

namespace Sesc.Core

open Lib

/-- The calls on processes. -/
inductive ProcessEvent
  | becomeReady (p : Pid)
  | becomeNonReady (p : Pid)
  | switchIn (p : Pid) (nCPU : CPU)
  | switchOut (p : Pid)
  | setPriority (p : Pid) (newPriority : ℤ)
deriving DecidableEq, Repr

/-- The processes, with when each of them entered its priority in the queue and what the last call
got from `queuePromote`, if it called it. -/
structure Ranked extends Processes where
  clock : ℕ
  entered : Pid → ℕ
  promoted : Option (Pid × Option Pid)

namespace Ranked

variable (s : Ranked) (p q : Pid)

/-- What a call leaves, when the process has entered a priority or not. -/
def next (procs : Processes) (enters : Bool) (promoted : Option (Pid × Option Pid)) : Ranked where
  toProcesses := procs
  clock := s.clock + 1
  entered := if enters then Function.update s.entered p (s.clock + 1) else s.entered
  promoted

def perform : ProcessEvent → Except Fault Ranked
  | .becomeReady p => do
    let (retVal, procs) ← s.becomeReady p
    return s.next p procs true (some (p, retVal))
  | .becomeNonReady p => do
    let procs ← s.becomeNonReady p
    return s.next p procs false none
  | .switchIn p nCPU => do
    let procs ← s.switchIn p nCPU
    return s.next p procs false none
  | .switchOut p => do
    let procs ← s.switchOut p
    return s.next p procs false none
  | .setPriority p newPriority => do
    let (retVal, procs) ← s.setPriority p newPriority
    return s.next p procs (newPriority ≠ (s.procs p).priority)
      (if (s.procs p).queuePosition ≠ none ∧ newPriority < (s.procs p).priority then some (p, retVal)
        else none)

/-- The processes in the queue, in order. -/
def queue : List Pid := s.processQueue.map Node.proc

/-- A process has a better rank than another: a better priority, or the same one and it entered it
earlier. -/
def Ahead : Prop :=
  (s.procs p).priority < (s.procs q).priority ∨
    (s.procs p).priority = (s.procs q).priority ∧ s.entered p < s.entered q

instance : Decidable (s.Ahead p q) := inferInstanceAs (Decidable (_ ∨ _))

/-- A process is running on a processor compatible with another one. -/
def Compatible : Prop :=
  (s.procs q).state = .running ∧ (s.procs p).mayRunOn (s.procs q).cpu = true

instance : Decidable (s.Compatible p q) := inferInstanceAs (Decidable (_ ∧ _))

/-- The result for a promoted process is the one of lowest priority among the running, compatible
processes of lower priority. -/
def Preempts (retVal : Option Pid) : Prop :=
  (retVal = none → ∀ q, s.Compatible p q → ¬(s.procs p).priority < (s.procs q).priority) ∧
  ∀ q, retVal = some q → s.Compatible p q ∧ (s.procs p).priority < (s.procs q).priority ∧
    ∀ q', s.Compatible p q' → (s.procs q').priority ≤ (s.procs q).priority

/-- A process is ready and may run on a processor. -/
def Eligible (cpu : CPU) : Prop := (s.procs q).state = .ready ∧ (s.procs q).mayRunOn cpu = true

/-- The result for a processor is the best-ranked process that is eligible. -/
def BestFor (cpu : CPU) (retVal : Option Pid) : Prop :=
  (retVal = none → ∀ q, ¬s.Eligible q cpu) ∧
  ∀ q, retVal = some q → s.Eligible q cpu ∧ ∀ q', s.Eligible q' cpu → q' ≠ q → s.Ahead q q'

/-- The queue is a stable priority queue of exactly the runnable processes. -/
structure StableQueue : Prop where
  nodup : s.queue.Nodup
  mem_queue : ∀ p, p ∈ s.queue ↔ (s.procs p).state = .ready ∨ (s.procs p).state = .running
  nodup_addr : (s.processQueue.map Node.addr).Nodup
  queuePosition : ∀ n ∈ s.processQueue, (s.procs n.proc).queuePosition = some n.addr
  sorted : s.queue.Pairwise s.Ahead
  promoted : ∀ p retVal, s.promoted = some (p, retVal) → s.Preempts p retVal
  queueGet : ∀ cpu, ∃ retVal, s.queueGet cpu = .ok retVal ∧ s.BestFor cpu retVal

/-- A call does not change a priority in the queue so that the order or the result goes wrong: when
the priority gets better, each running, compatible process behind has one of its own priority in
front, and when the priority stays what it is, no process of it is behind. -/
def Harmless : ProcessEvent → Prop
  | .setPriority p newPriority => p ∈ s.queue →
    (newPriority < (s.procs p).priority → ∀ q ∈ s.queue, s.Ahead p q → s.Compatible p q →
      ∃ q' ∈ s.queue, s.Ahead q' p ∧ s.Compatible p q' ∧
        (s.procs q').priority = (s.procs q).priority) ∧
    (newPriority = (s.procs p).priority → ∀ q ∈ s.queue, s.Ahead p q →
      (s.procs q).priority ≠ (s.procs p).priority)
  | _ => True

instance : ∀ e, Decidable (s.Harmless e)
  | .setPriority _ _ => inferInstanceAs (Decidable (_ → _ ∧ _))
  | .becomeReady _ => inferInstanceAs (Decidable True)
  | .becomeNonReady _ => inferInstanceAs (Decidable True)
  | .switchIn _ _ => inferInstanceAs (Decidable True)
  | .switchOut _ => inferInstanceAs (Decidable True)

end Ranked

/-- The processes that have been created with some mapping each. -/
def processes (mapping : Pid → CPU × Bool × Bool) : Machine Ranked ProcessEvent Fault where
  init :=
    { procs := fun p => .create (mapping p).1 (mapping p).2.1 (mapping p).2.2
      processQueue := []
      nextNode := 0
      clock := 0
      entered := fun _ => 0
      promoted := none }
  step := Ranked.perform

/-! ## The walks -/

namespace Cursor

variable (c : Cursor)

/-- The nodes on both sides of a position. -/
def nodes : List Node := c.before.reverse ++ c.after

end Cursor

namespace Processes

variable {s : Processes} {p : Pid} {before after : List Node} {retVal : Option Pid}

/-- A test for the result of `queuePromote`. -/
def isCandidate (s : Processes) (p q : Pid) : Bool :=
  (s.procs q).state = .running && (s.procs p).mayRunOn (s.procs q).cpu

lemma candidate_eq (s : Processes) (p : Pid) (retVal : Option Pid) (q : Pid) :
    s.candidate p retVal q = retVal.or (if s.isCandidate p q then some q else none) := by
  rw [candidate, isCandidate]
  cases retVal <;> simp

/-- The walk forward passes over the nodes of a worse priority. -/
lemma promoteWalk_eq (s : Processes) (p : Pid) (before after : List Node) (retVal : Option Pid) :
    ∃ passed kept, before = passed ++ kept ∧
      s.promoteWalk p before after retVal = ⟨kept, passed.reverse ++ after,
        retVal.or ((passed.map Node.proc).find? (s.isCandidate p))⟩ ∧
      (∀ n ∈ passed, (s.procs p).priority < (s.procs n.proc).priority) ∧
      ∀ n ∈ kept.head?, (s.procs n.proc).priority ≤ (s.procs p).priority := by
  induction before generalizing after retVal with
  | nil => exact ⟨[], [], by simp [promoteWalk]⟩
  | cons n before ih =>
    rw [promoteWalk]
    split
    · rename_i hle
      exact ⟨[], n :: before, by simp [hle]⟩
    · rename_i hlt
      obtain ⟨passed, kept, rfl, heq, hpassed, hkept⟩ := ih (n :: after) (s.candidate p retVal n.proc)
      refine ⟨n :: passed, kept, rfl, ?_, ?_, hkept⟩
      · rw [heq, candidate_eq, List.map_cons, List.find?_cons, List.reverse_cons, List.append_assoc]
        cases hc : s.isCandidate p n.proc <;> cases retVal <;> simp
      · exact List.forall_mem_cons.2 ⟨Int.not_le.1 hlt, hpassed⟩

/-- The walk backward passes over the nodes of a priority that is not worse. -/
lemma demoteWalk_eq (s : Processes) (p : Pid) (before after : List Node) (retVal : Option Pid) :
    ∃ passed kept, after = passed ++ kept ∧
      (s.demoteWalk p before after retVal).before = passed.reverse ++ before ∧
      (s.demoteWalk p before after retVal).after = kept ∧
      (∀ n ∈ passed, (s.procs n.proc).priority ≤ (s.procs p).priority) ∧
      ∀ n ∈ kept.head?, (s.procs p).priority < (s.procs n.proc).priority := by
  induction after generalizing before retVal with
  | nil => exact ⟨[], [], by simp [demoteWalk]⟩
  | cons n after ih =>
    rw [demoteWalk]
    split
    · rename_i hlt
      exact ⟨[], n :: after, by simp [hlt]⟩
    · rename_i hle
      obtain ⟨passed, kept, rfl, hbefore, hafter, hpassed, hkept⟩ :=
        ih (n :: before) (s.demoteCandidate p retVal n.proc)
      refine ⟨n :: passed, kept, rfl, ?_, hafter, ?_, hkept⟩
      · rw [hbefore, List.reverse_cons, List.append_assoc]
        rfl
      · exact List.forall_mem_cons.2 ⟨Int.not_lt.1 hle, hpassed⟩

/-! ## The nodes -/

/-- The iterators of the processes are those to the nodes of the queue. -/
structure Books (s : Processes) : Prop where
  nodup : (s.processQueue.map Node.addr).Nodup
  lt : ∀ n ∈ s.processQueue, n.addr < s.nextNode
  mem_iff : ∀ n, n ∈ s.processQueue ↔ (s.procs n.proc).queuePosition = some n.addr

/-- The processes of the queue, in order. -/
def order (s : Processes) : List Pid := s.processQueue.map Node.proc

lemma Books.nodup_order (h : Books s) : s.order.Nodup := by
  rw [order, List.nodup_map_iff_inj_on (List.Nodup.of_map _ h.nodup)]
  intro n hn n' hn' heq
  have haddr := ((h.mem_iff n).1 hn).symm.trans ((congrArg (fun p => (s.procs p).queuePosition)
    heq).trans ((h.mem_iff n').1 hn'))
  cases n
  cases n'
  cases heq
  cases haddr
  rfl

lemma Books.mem_order (h : Books s) (p : Pid) :
    p ∈ s.order ↔ (s.procs p).queuePosition ≠ none := by
  rw [order, List.mem_map, Option.ne_none_iff_exists']
  constructor
  · rintro ⟨n, hn, rfl⟩
    exact ⟨n.addr, (h.mem_iff n).1 hn⟩
  · rintro ⟨a, ha⟩
    exact ⟨⟨a, p⟩, (h.mem_iff ⟨a, p⟩).2 ha, rfl⟩

/-- The nodes before and after that of a process. -/
lemma Books.split {pos : ℕ} (h : Books s) (hpos : (s.procs p).queuePosition = some pos) :
    ∃ as bs, s.processQueue = as ++ ⟨pos, p⟩ :: bs ∧ s.cursor pos = ⟨as.reverse, bs, none⟩ ∧
      ∀ n ∈ as ++ bs, n.proc ≠ p := by
  have hmem : (⟨pos, p⟩ : Node) ∈ s.processQueue := (h.mem_iff ⟨pos, p⟩).2 hpos
  obtain ⟨as, bs, hqueue⟩ := List.append_of_mem hmem
  have hnodup := h.nodup
  rw [hqueue, List.map_append, List.map_cons, List.nodup_append] at hnodup
  obtain ⟨-, hbs, has⟩ := hnodup
  have hpos' : ∀ n ∈ as, decide (n.addr ≠ pos) = true := by
    intro n hn
    exact decide_eq_true (has _ (List.mem_map_of_mem hn) pos List.mem_cons_self)
  refine ⟨as, bs, hqueue, ?_, ?_⟩
  · rw [cursor, hqueue, List.takeWhile_append_of_pos hpos', List.takeWhile_cons_of_neg (by simp),
      List.dropWhile_append_of_pos hpos', List.dropWhile_cons_of_neg (by simp), List.append_nil]
    rfl
  · -- another node of the process would have the address of this one
    intro n hn heq
    have hn' : n ∈ s.processQueue := by
      rw [hqueue, List.mem_append, List.mem_cons]
      exact (List.mem_append.1 hn).imp_right Or.inr
    have haddr : n.addr = pos := by
      have := (h.mem_iff n).1 hn'
      rw [heq, hpos] at this
      exact (Option.some.inj this).symm
    rcases List.mem_append.1 hn with hn | hn
    · exact has _ (List.mem_map_of_mem hn) pos List.mem_cons_self haddr
    · refine (List.nodup_cons.1 hbs).1 ?_
      rw [show (⟨pos, p⟩ : Node).addr = n.addr from haddr.symm]
      exact List.mem_map_of_mem hn

/-- A process with a changed record that keeps its node. -/
lemma Books.modify {f : ProcessId → ProcessId} (h : Books s)
    (hf : (f (s.procs p)).queuePosition = (s.procs p).queuePosition) : Books (s.modify p f) := by
  refine ⟨h.nodup, h.lt, fun n => ?_⟩
  rw [show (s.modify p f).processQueue = s.processQueue from rfl, h.mem_iff, Processes.modify]
  by_cases hp : n.proc = p
  · simp [hp, hf]
  · simp [hp]

/-- A process gets its only node at a position. -/
lemma Books.insertAt {c : Cursor} (h : Books s) (hsub : c.nodes.Sublist s.processQueue)
    (hmem : ∀ n, n ∈ c.nodes ↔ n ∈ s.processQueue ∧ n.proc ≠ p) : Books (s.insertAt p c) := by
  have hperm : (s.insertAt p c).processQueue.Perm (⟨s.nextNode, p⟩ :: c.nodes) :=
    List.perm_middle
  have hlt : ∀ n ∈ c.nodes, n.addr < s.nextNode := fun n hn => h.lt n ((hmem n).1 hn).1
  refine ⟨?_, ?_, fun n => ?_⟩
  · rw [(hperm.map _).nodup_iff, List.map_cons, List.nodup_cons]
    refine ⟨fun hin => ?_, (hsub.map _).nodup h.nodup⟩
    obtain ⟨n, hn, haddr⟩ := List.mem_map.1 hin
    exact Nat.ne_of_lt (hlt n hn) haddr
  · intro n hn
    show n.addr < s.nextNode + 1
    rcases List.mem_cons.1 (hperm.mem_iff.1 hn) with rfl | hn
    · exact Nat.lt_succ_self _
    · exact Nat.lt_succ_of_lt (hlt n hn)
  · rw [hperm.mem_iff, List.mem_cons, hmem, h.mem_iff, Processes.insertAt, Processes.modify]
    obtain ⟨a, q⟩ := n
    by_cases hq : q = p
    · simp [hq, eq_comm]
    · simp [hq]

/-- The records of the processes, but for their iterators. -/
def records (s : Processes) (p : Pid) : ProcessId := { s.procs p with queuePosition := none }

lemma priority_eq {s t : Processes} {q : Pid} (h : t.records q = s.records q) :
    (t.procs q).priority = (s.procs q).priority :=
  show (t.records q).priority = (s.records q).priority by rw [h]

lemma state_eq {s t : Processes} {q : Pid} (h : t.records q = s.records q) :
    (t.procs q).state = (s.procs q).state :=
  show (t.records q).state = (s.records q).state by rw [h]

lemma records_insertAt (s : Processes) (p : Pid) (c : Cursor) :
    (s.insertAt p c).records = s.records := by
  funext q
  by_cases hq : q = p
  · subst hq
    simp [records, insertAt, modify]
  · simp [records, insertAt, modify, hq]

lemma records_modify {f : ProcessId → ProcessId} {q : Pid} (hq : q ≠ p) :
    (s.modify p f).records q = s.records q := by
  simp [records, modify, hq]

lemma procs_modify_self {f : ProcessId → ProcessId} : (s.modify p f).procs p = f (s.procs p) := by
  simp [modify]

lemma isCandidate_eq {s t : Processes} (h : t.records = s.records) (p : Pid) :
    t.isCandidate p = s.isCandidate p := by
  funext q
  exact congrArg (fun r => decide ((r q).state = .running) && (r p).mayRunOn (r q).cpu) h

lemma order_insertAt (s : Processes) (p : Pid) (c : Cursor) : (s.insertAt p c).order =
    (c.before.reverse.map Node.proc) ++ p :: c.after.map Node.proc := by
  simp [order, insertAt]

/-- In a list where the elements with a property come before the others, the test of the head of a
part tells that of all. -/
lemma forall_of_head {α : Type*} {l : List α} {P : α → Prop}
    (hl : l.Pairwise fun a b => P a → P b) (hhead : ∀ a ∈ l.head?, P a) : ∀ a ∈ l, P a := by
  cases l with
  | nil => exact fun a ha => absurd ha List.not_mem_nil
  | cons b l =>
    have hb : P b := hhead b rfl
    intro a ha
    rcases List.mem_cons.1 ha with rfl | ha
    · exact hb
    · exact (List.pairwise_cons.1 hl).1 a ha hb

/-- The nodes on both sides of a process with given neighbours. -/
lemma Books.split_order {as bs : List Pid} (h : Books s) (horder : s.order = as ++ p :: bs) :
    ∃ pos as' bs', (s.procs p).queuePosition = some pos ∧
      s.processQueue = as' ++ ⟨pos, p⟩ :: bs' ∧ s.cursor pos = ⟨as'.reverse, bs', none⟩ ∧
      (∀ n ∈ as' ++ bs', n.proc ≠ p) ∧ as = as'.map Node.proc ∧ bs = bs'.map Node.proc := by
  have hp : p ∈ s.order := by
    rw [horder]
    exact List.mem_append_right _ List.mem_cons_self
  obtain ⟨pos, hpos⟩ := Option.ne_none_iff_exists'.1 ((h.mem_order p).1 hp)
  obtain ⟨as', bs', hqueue, hcursor, hne⟩ := h.split hpos
  have heq : as ++ p :: bs = as'.map Node.proc ++ p :: bs'.map Node.proc := by
    rw [← horder, order, hqueue, List.map_append, List.map_cons]
  have hnodup := h.nodup_order
  rw [horder, List.nodup_append] at hnodup
  obtain ⟨-, hbs, has⟩ := hnodup
  obtain ⟨has', -, hbs'⟩ := (List.append_cons_inj_of_notMem
    (fun hin => has p hin p List.mem_cons_self rfl) (List.nodup_cons.1 hbs).1).1 heq
  exact ⟨pos, as', bs', hpos, hqueue, hcursor, hne, has', hbs'⟩

/-- The nodes of the other processes. -/
lemma mem_around {as bs : List Node} {pos : ℕ} (hqueue : s.processQueue = as ++ ⟨pos, p⟩ :: bs)
    (hne : ∀ n ∈ as ++ bs, n.proc ≠ p) (n : Node) :
    n ∈ as ++ bs ↔ n ∈ s.processQueue ∧ n.proc ≠ p := by
  rw [hqueue]
  constructor
  · intro hn
    refine ⟨?_, hne n hn⟩
    rw [List.mem_append, List.mem_cons]
    exact (List.mem_append.1 hn).imp_right Or.inr
  · rintro ⟨hn, hproc⟩
    rw [List.mem_append, List.mem_cons] at hn
    rcases hn with hn | rfl | hn
    · exact List.mem_append_left _ hn
    · exact absurd rfl hproc
    · exact List.mem_append_right _ hn

/-- A process moves to another position in the queue. -/
lemma Books.move {as bs : List Node} {pos : ℕ} {c : Cursor} (h : Books s)
    (hqueue : s.processQueue = as ++ ⟨pos, p⟩ :: bs) (hne : ∀ n ∈ as ++ bs, n.proc ≠ p)
    (hc : c.nodes = as ++ bs) : Books (s.insertAt p c) := by
  refine h.insertAt ?_ fun n => ?_
  · rw [hc, hqueue]
    exact List.Sublist.append_left (List.sublist_cons_self _ _) _
  · rw [hc]
    exact mem_around hqueue hne n

/-- A process leaves the queue. -/
lemma Books.queueRemove {as bs : List Pid} (h : Books s) (horder : s.order = as ++ p :: bs) :
    ∃ s', s.queueRemove p = .ok s' ∧ Books s' ∧ (∀ q, q ≠ p → s'.records q = s.records q) ∧
      s'.order = as ++ bs ∧ (s'.procs p).state = (s.procs p).state := by
  obtain ⟨pos, as', bs', hpos, hqueue, -, hne, rfl, rfl⟩ := h.split_order horder
  have hmem := mem_around hqueue hne
  -- the only node that goes is that of the process
  have hfilter : s.processQueue.filter (fun n => decide (n.addr ≠ pos)) = as' ++ bs' := by
    have hkeep : ∀ n ∈ as' ++ bs', decide (n.addr ≠ pos) = true := by
      intro n hn
      refine decide_eq_true fun haddr => hne n hn ?_
      have hnodup := List.inj_on_of_nodup_map h.nodup ((hmem n).1 hn).1
        ((h.mem_iff ⟨pos, p⟩).2 hpos) haddr
      rw [hnodup]
    rw [hqueue, List.filter_append, List.filter_cons_of_neg (by simp), ← List.filter_append]
    exact List.filter_eq_self.2 hkeep
  rw [Processes.queueRemove, hpos]
  simp only [hfilter]
  refine ⟨_, rfl, ⟨?_, ?_, fun n => ?_⟩, fun q hq => ?_, ?_, ?_⟩
  · show ((as' ++ bs').map Node.addr).Nodup
    refine List.Nodup.sublist (List.Sublist.map _ ?_) h.nodup
    rw [hqueue]
    exact List.Sublist.append_left (List.sublist_cons_self _ _) _
  · exact fun n hn => h.lt n ((hmem n).1 hn).1
  · show n ∈ as' ++ bs' ↔ _
    rw [hmem, h.mem_iff, Processes.modify]
    by_cases hn : n.proc = p <;> simp [hn]
  · simp [records, Processes.modify, hq]
  · show (as' ++ bs').map Node.proc = _
    rw [List.map_append]
  · simp [Processes.modify]

/-- A process is promoted over those in front of it that have a worse priority. -/
lemma Books.queuePromote {as bs : List Pid} (h : Books s) (horder : s.order = as ++ p :: bs)
    (hsorted : as.Pairwise fun q q' => (s.procs q).priority ≤ (s.procs q').priority) :
    ∃ as₁ as₂ s', as = as₁ ++ as₂ ∧
      s.queuePromote p = .ok (as₂.reverse.find? (s.isCandidate p), s') ∧
      Books s' ∧ s'.records = s.records ∧ s'.order = as₁ ++ p :: (as₂ ++ bs) ∧
      (∀ q ∈ as₁, (s.procs q).priority ≤ (s.procs p).priority) ∧
      ∀ q ∈ as₂, (s.procs p).priority < (s.procs q).priority := by
  obtain ⟨pos, as', bs', hpos, hqueue, hcursor, hne, rfl, rfl⟩ := h.split_order horder
  obtain ⟨passed, kept, heq, hwalk, hpassed, hkept⟩ := s.promoteWalk_eq p as'.reverse bs' none
  have has : as' = kept.reverse ++ passed.reverse := by
    rw [← List.reverse_append, ← heq, List.reverse_reverse]
  -- the nodes in front of the first one of no worse priority have no worse priority
  have hkept : ∀ n ∈ kept, (s.procs n.proc).priority ≤ (s.procs p).priority := by
    refine forall_of_head ?_ hkept
    rw [has, List.map_append, List.pairwise_append, List.pairwise_map, List.pairwise_reverse]
      at hsorted
    exact hsorted.1.imp fun hle hle' => Int.le_trans hle hle'
  refine ⟨kept.reverse.map Node.proc, passed.reverse.map Node.proc, ?_⟩
  have hresult : (passed.reverse.map Node.proc).reverse = passed.map Node.proc := by
    rw [← List.map_reverse, List.reverse_reverse]
  rw [hresult, Processes.queuePromote, hpos]
  simp only [hcursor, hwalk, Option.none_or]
  split
  · -- the process stays where it is
    rename_i hstay
    have hnil : passed = [] := by
      have hlength := congrArg List.length (hstay.trans heq)
      rw [List.length_append] at hlength
      exact List.eq_nil_of_length_eq_zero (by omega)
    subst hnil
    refine ⟨s, ?_, rfl, h, rfl, ?_, ?_, ?_⟩
    · rw [has]
      simp
    · rw [horder, has]
      simp
    · simpa using hkept
    · simp
  · refine ⟨s.insertAt p ⟨kept, passed.reverse ++ bs', _⟩, ?_, rfl, h.move hqueue hne ?_,
      s.records_insertAt p _, ?_, ?_, ?_⟩
    · rw [has, List.map_append]
    · rw [Cursor.nodes, ← List.append_assoc, ← has]
    · rw [order_insertAt, List.map_append]
    · simpa using hkept
    · simpa using hpassed

/-- A process is demoted over those behind it that do not have a worse priority. -/
lemma Books.queueDemote {as bs : List Pid} (h : Books s) (horder : s.order = as ++ p :: bs)
    (hsorted : bs.Pairwise fun q q' => (s.procs q).priority ≤ (s.procs q').priority) :
    ∃ bs₁ bs₂ retVal s', bs = bs₁ ++ bs₂ ∧ s.queueDemote p = .ok (retVal, s') ∧
      Books s' ∧ s'.records = s.records ∧ s'.order = (as ++ bs₁) ++ p :: bs₂ ∧
      (∀ q ∈ bs₁, (s.procs q).priority ≤ (s.procs p).priority) ∧
      ∀ q ∈ bs₂, (s.procs p).priority < (s.procs q).priority := by
  obtain ⟨pos, as', bs', hpos, hqueue, hcursor, hne, rfl, rfl⟩ := h.split_order horder
  obtain ⟨passed, kept, rfl, hbefore, hafter, hpassed, hkept⟩ :=
    s.demoteWalk_eq p as'.reverse bs' none
  have hkept : ∀ n ∈ kept, (s.procs p).priority < (s.procs n.proc).priority := by
    refine forall_of_head ?_ hkept
    rw [List.map_append, List.pairwise_append, List.pairwise_map, List.pairwise_map] at hsorted
    exact hsorted.2.1.imp fun hle hlt => Int.lt_of_lt_of_le hlt hle
  rw [Processes.queueDemote, hpos]
  simp only [hcursor]
  refine ⟨passed.map Node.proc, kept.map Node.proc, _, _, List.map_append, rfl,
    h.move hqueue hne ?_, s.records_insertAt p _, ?_, ?_, ?_⟩
  · rw [Cursor.nodes, hbefore, hafter]
    simp
  · rw [order_insertAt, hbefore, hafter]
    simp
  · simpa using hpassed
  · simpa using hkept

/-- A process is inserted at the end and promoted. -/
lemma Books.queueInsert (h : Books s) (hp : (s.procs p).queuePosition = none)
    (hsorted : s.order.Pairwise fun q q' => (s.procs q).priority ≤ (s.procs q').priority) :
    ∃ as₁ as₂ s', s.order = as₁ ++ as₂ ∧
      s.queueInsert p = .ok (as₂.reverse.find? (s.isCandidate p), s') ∧
      Books s' ∧ s'.records = s.records ∧ s'.order = as₁ ++ p :: as₂ ∧
      (∀ q ∈ as₁, (s.procs q).priority ≤ (s.procs p).priority) ∧
      ∀ q ∈ as₂, (s.procs p).priority < (s.procs q).priority := by
  generalize hs' : s.insertAt p ⟨s.processQueue.reverse, [], none⟩ = s'
  have hnodes : (⟨s.processQueue.reverse, [], none⟩ : Cursor).nodes = s.processQueue := by
    simp [Cursor.nodes]
  have hbooks : Books s' := by
    rw [← hs']
    refine h.insertAt (by rw [hnodes]) fun n => ?_
    rw [hnodes]
    refine ⟨fun hn => ⟨hn, fun heq => ?_⟩, And.left⟩
    rw [h.mem_iff, heq, hp] at hn
    cases hn
  have hrecords : s'.records = s.records := hs' ▸ s.records_insertAt p _
  have hpriority : ∀ q, (s'.procs q).priority = (s.procs q).priority := fun q =>
    priority_eq (congrFun hrecords q)
  have horder : s'.order = s.order ++ p :: [] := by
    rw [← hs', order_insertAt]
    simp [order]
  obtain ⟨as₁, as₂, s₂, has, heq, hbooks₂, hrecords₂, horder₂, has₁, has₂⟩ :=
    hbooks.queuePromote horder (by simpa only [hpriority] using hsorted)
  simp only [hpriority] at has₁ has₂
  refine ⟨as₁, as₂, s₂, has, ?_, hbooks₂, hrecords₂.trans hrecords, ?_, has₁, has₂⟩
  · rw [Processes.queueInsert, check_bind hp, hs', heq, isCandidate_eq hrecords]
  · rw [horder₂, List.append_nil]

/-- The loop of `queueGet` finds the first process that is ready and may run. -/
lemma getLoop_eq (s : Processes) (cpu : CPU) {ns : List Node}
    (hrun : ∀ n ∈ ns, (s.procs n.proc).state = .ready ∨ (s.procs n.proc).state = .running) :
    s.getLoop cpu ns = .ok ((ns.map Node.proc).find? fun q =>
      (s.procs q).state = .ready && (s.procs q).mayRunOn cpu) := by
  induction ns with
  | nil => rfl
  | cons n ns ih =>
    obtain ⟨hn, hns⟩ := List.forall_mem_cons.1 hrun
    rw [getLoop, List.map_cons, List.find?_cons]
    cases htest : decide ((s.procs n.proc).state = .ready) && (s.procs n.proc).mayRunOn cpu with
    | true => simp
    | false =>
      simp only [Bool.false_eq_true, if_false]
      rw [check_bind, ih hns]
      refine hn.imp_left fun hready => ⟨hready, ?_⟩
      rw [decide_eq_true hready, Bool.true_and, ProcessId.mayRunOn, Bool.or_eq_false_iff] at htest
      exact ⟨by simpa using htest.1, of_decide_eq_false htest.2⟩

end Processes

/-! ## The invariant -/

namespace Ranked

open Processes

variable {s : Ranked} {t : Processes} {p q : Pid} {e : ProcessEvent} {retVal : Option Pid}

/-- What holds of the queue after every call. -/
structure Ordered (s : Ranked) : Prop where
  books : Books s.toProcesses
  runnable_iff : ∀ p, p ∈ s.queue ↔ (s.procs p).state = .ready ∨ (s.procs p).state = .running
  sorted : s.queue.Pairwise s.Ahead
  entered_le : ∀ p, s.entered p ≤ s.clock

/-- The queue is in order, and the last promotion gave the right result. -/
structure Inv (s : Ranked) : Prop extends Ordered s where
  promoted : ∀ p retVal, s.promoted = some (p, retVal) → s.Preempts p retVal

lemma Ahead.le (h : s.Ahead p q) : (s.procs p).priority ≤ (s.procs q).priority :=
  h.elim Int.le_of_lt fun h => Int.le_of_eq h.1

/-- A position in the queue and a rank are the same. -/
lemma Ordered.queueGet (h : s.Ordered) (cpu : CPU) :
    ∃ retVal, s.queueGet cpu = .ok retVal ∧ s.BestFor cpu retVal := by
  have hrun : ∀ n ∈ s.processQueue,
      (s.procs n.proc).state = .ready ∨ (s.procs n.proc).state = .running :=
    fun n hn => (h.runnable_iff n.proc).1 (List.mem_map_of_mem hn)
  refine ⟨_, getLoop_eq s.toProcesses cpu hrun, fun hnone q hq => ?_, fun q hq => ?_⟩
  · have := List.find?_eq_none.1 hnone q ((h.runnable_iff q).2 (.inl hq.1))
    simp [hq.1, hq.2] at this
  · obtain ⟨htest, as, bs, horder, has⟩ := List.find?_eq_some_iff_append.1 hq
    rw [Bool.and_eq_true_iff] at htest
    refine ⟨⟨of_decide_eq_true htest.1, htest.2⟩, fun q' hq' hne => ?_⟩
    have hmem : q' ∈ s.queue := (h.runnable_iff q').2 (.inl hq'.1)
    have hsorted := h.sorted
    rw [queue, horder] at hmem hsorted
    rcases List.mem_append.1 hmem with hmem | hmem
    · have := has q' hmem
      simp [hq'.1, hq'.2] at this
    · refine (List.pairwise_cons.1 (List.pairwise_append.1 hsorted).2.1).1 q' ?_
      exact (List.mem_cons.1 hmem).resolve_left hne

lemma Inv.stableQueue (h : s.Inv) : s.StableQueue where
  nodup := h.books.nodup_order
  mem_queue := h.runnable_iff
  nodup_addr := h.books.nodup
  queuePosition := fun n hn => (h.books.mem_iff n).1 hn
  sorted := h.sorted
  promoted := h.promoted
  queueGet := h.toOrdered.queueGet

/-- The rank of the other processes stays. -/
lemma ahead_next {enters : Bool} {promoted : Option (Pid × Option Pid)} {q q' : Pid}
    (hrecords : ∀ q, q ≠ p → t.records q = s.records q) (hq : q ≠ p) (hq' : q' ≠ p) :
    (s.next p t enters promoted).Ahead q q' ↔ s.Ahead q q' := by
  have hentered : ∀ q, q ≠ p → (s.next p t enters promoted).entered q = s.entered q := by
    intro q hq
    rw [next]
    cases enters <;> simp [hq]
  rw [Ahead, Ahead, hentered q hq, hentered q' hq', ← priority_eq (hrecords q hq),
    ← priority_eq (hrecords q' hq')]
  rfl

/-- A call leaves the other processes in the queue as they are. -/
lemma Ordered.next {enters : Bool} {promoted : Option (Pid × Option Pid)} (h : s.Ordered)
    (ht : Books t) (hrecords : ∀ q, q ≠ p → t.records q = s.records q)
    (hmem : ∀ q, q ≠ p → (q ∈ t.order ↔ q ∈ s.queue))
    (hp : p ∈ t.order ↔ (t.procs p).state = .ready ∨ (t.procs p).state = .running)
    (hsorted : t.order.Pairwise (s.next p t enters promoted).Ahead) :
    (s.next p t enters promoted).Ordered := by
  refine ⟨ht, fun q => ?_, hsorted, fun q => ?_⟩
  · show q ∈ t.order ↔ (t.procs q).state = .ready ∨ (t.procs q).state = .running
    by_cases hq : q = p
    · rw [hq, hp]
    · rw [state_eq (hrecords q hq), ← h.runnable_iff, hmem q hq]
  · show _ ≤ s.clock + 1
    have hle := h.entered_le q
    rw [Ranked.next]
    cases enters with
    | false => exact Nat.le_succ_of_le hle
    | true =>
      by_cases hq : q = p
      · subst hq
        simp
      · simpa [hq] using Nat.le_succ_of_le hle

/-- A process is put into a place of its rank. -/
lemma Ordered.place {as bs : List Pid} {enters : Bool} {promoted : Option (Pid × Option Pid)}
    (h : s.Ordered) (ht : Books t) (hrecords : ∀ q, q ≠ p → t.records q = s.records q)
    (horder : t.order = as ++ p :: bs) (hsub : (as ++ bs).Sublist s.queue)
    (hmem : ∀ q ∈ s.queue, q ≠ p → q ∈ as ++ bs)
    (hrun : (t.procs p).state = .ready ∨ (t.procs p).state = .running)
    (has : ∀ q ∈ as, (s.next p t enters promoted).Ahead q p)
    (hbs : ∀ q ∈ bs, (s.next p t enters promoted).Ahead p q) :
    (s.next p t enters promoted).Ordered := by
  have hnodup := ht.nodup_order
  rw [horder, List.nodup_middle, List.nodup_cons] at hnodup
  refine h.next ht hrecords (fun q hq => ?_) ?_ ?_
  · rw [horder, List.mem_append, List.mem_cons]
    constructor
    · intro hin
      refine hsub.mem (List.mem_append.2 ?_)
      exact hin.imp_right fun hin => hin.resolve_left hq
    · intro hin
      exact (List.mem_append.1 (hmem q hin hq)).imp_right Or.inr
  · rw [horder]
    exact iff_of_true (List.mem_append_right _ List.mem_cons_self) hrun
  · have hold : (as ++ bs).Pairwise (s.next p t enters promoted).Ahead := by
      refine (h.sorted.sublist hsub).imp_of_mem ?_
      intro q q' hq hq' hahead
      exact (ahead_next hrecords (fun heq => hnodup.1 (heq ▸ hq))
        fun heq => hnodup.1 (heq ▸ hq')).2 hahead
    obtain ⟨has', hbs', hacross⟩ := List.pairwise_append.1 hold
    rw [horder, List.pairwise_append, List.pairwise_cons]
    refine ⟨has', ⟨hbs, hbs'⟩, fun q hq q' hq' => ?_⟩
    rcases List.mem_cons.1 hq' with rfl | hq'
    · exact has q hq
    · exact hacross q hq q' hq'

/-- A process that enters a priority is behind those of it and better ones, and in front of those of
a worse priority. -/
lemma Ordered.place_entering {as bs : List Pid} {promoted : Option (Pid × Option Pid)}
    (h : s.Ordered) (ht : Books t) (hrecords : ∀ q, q ≠ p → t.records q = s.records q)
    (horder : t.order = as ++ p :: bs) (hsub : (as ++ bs).Sublist s.queue)
    (hmem : ∀ q ∈ s.queue, q ≠ p → q ∈ as ++ bs)
    (hrun : (t.procs p).state = .ready ∨ (t.procs p).state = .running)
    (has : ∀ q ∈ as, (t.procs q).priority ≤ (t.procs p).priority)
    (hbs : ∀ q ∈ bs, (t.procs p).priority < (t.procs q).priority) :
    (s.next p t true promoted).Ordered := by
  have hnodup := ht.nodup_order
  rw [horder, List.nodup_middle, List.nodup_cons] at hnodup
  refine h.place ht hrecords horder hsub hmem hrun (fun q hq => ?_) fun q hq => .inl (hbs q hq)
  have hne : q ≠ p := fun heq => hnodup.1 (List.mem_append_left _ (heq ▸ hq))
  rcases Int.lt_or_eq_of_le (has q hq) with hlt | heq
  · exact .inl hlt
  · refine .inr ⟨heq, ?_⟩
    have hle := h.entered_le q
    simp only [Ranked.next, if_true, Function.update_of_ne hne, Function.update_self]
    omega

/-- A process stays where it is. -/
lemma Ordered.stay {promoted : Option (Pid × Option Pid)} (h : s.Ordered) (ht : Books t)
    (hrecords : ∀ q, q ≠ p → t.records q = s.records q) (horder : t.order = s.queue)
    (hp : p ∈ s.queue) (hpriority : (t.procs p).priority = (s.procs p).priority)
    (hrun : (t.procs p).state = .ready ∨ (t.procs p).state = .running) :
    (s.next p t false promoted).Ordered := by
  have hahead : ∀ q q', (s.next p t false promoted).Ahead q q' ↔ s.Ahead q q' := by
    have hall : ∀ q, (t.procs q).priority = (s.procs q).priority := by
      intro q
      by_cases hq : q = p
      · rw [hq, hpriority]
      · exact priority_eq (hrecords q hq)
    intro q q'
    rw [Ahead, Ahead, ← hall, ← hall]
    rfl
  refine h.next ht hrecords (fun q _ => by rw [horder]) ?_ ?_
  · rw [horder]
    exact iff_of_true hp hrun
  · rw [horder]
    exact h.sorted.imp (hahead _ _).2

/-- A process is not in the queue after the call. -/
lemma Ordered.out {enters : Bool} (h : s.Ordered) (ht : Books t)
    (hrecords : ∀ q, q ≠ p → t.records q = s.records q) (hsub : t.order.Sublist s.queue)
    (hmem : ∀ q ∈ s.queue, q ≠ p → q ∈ t.order) (hp : p ∉ t.order)
    (hrun : ¬((t.procs p).state = .ready ∨ (t.procs p).state = .running)) :
    (s.next p t enters none).Ordered := by
  refine h.next ht hrecords (fun q hq => ⟨fun hin => hsub.mem hin, fun hin => hmem q hin hq⟩)
    (iff_of_false hp hrun) ((h.sorted.sublist hsub).imp_of_mem fun hq hq' hahead => ?_)
  exact (ahead_next hrecords (fun heq => hp (heq ▸ hq)) fun heq => hp (heq ▸ hq')).2 hahead

/-- Rank and position agree. -/
lemma Ordered.ahead_iff {as bs : List Pid} (h : s.Ordered) (horder : s.queue = as ++ p :: bs)
    (hq : q ∈ s.queue) : (s.Ahead p q ↔ q ∈ bs) ∧ (s.Ahead q p ↔ q ∈ as) := by
  have hasymm : ∀ {q q'}, s.Ahead q q' → ¬s.Ahead q' q := by
    rintro q q' (hlt | ⟨heq, hlt⟩) (hlt' | ⟨heq', hlt'⟩) <;> omega
  have hsorted := h.sorted
  rw [horder, List.pairwise_append, List.pairwise_cons] at hsorted
  obtain ⟨-, ⟨hbs, -⟩, has⟩ := hsorted
  have has : ∀ q ∈ as, s.Ahead q p := fun q hq => has q hq p List.mem_cons_self
  rw [horder, List.mem_append, List.mem_cons] at hq
  constructor
  · refine ⟨fun hahead => ?_, hbs q⟩
    rcases hq with hq | rfl | hq
    · exact absurd hahead (hasymm (has q hq))
    · exact absurd hahead (hasymm hahead)
    · exact hq
  · refine ⟨fun hahead => ?_, has q⟩
    rcases hq with hq | rfl | hq
    · exact hq
    · exact absurd hahead (hasymm hahead)
    · exact absurd hahead (hasymm (hbs q hq))

lemma Ordered.sorted_priority (h : s.Ordered) :
    s.queue.Pairwise fun q q' => (s.procs q).priority ≤ (s.procs q').priority :=
  h.sorted.imp Ahead.le

/-- The result of a promotion is right if and only if no compatible process behind has a worse
priority than those that it passed over. -/
lemma Ordered.preempts_iff (as₁ as₂ bs : List Pid) (h : s.Ordered)
    (horder : s.queue = as₁ ++ p :: (as₂ ++ bs))
    (has₁ : ∀ q ∈ as₁, (s.procs q).priority ≤ (s.procs p).priority)
    (hlt : ∀ q ∈ as₂ ++ bs, (s.procs p).priority < (s.procs q).priority) :
    s.Preempts p (as₂.reverse.find? (s.isCandidate p)) ↔
      ∀ q ∈ bs, s.Compatible p q →
        ∃ q' ∈ as₂, s.Compatible p q' ∧ (s.procs q').priority = (s.procs q).priority := by
  have htest : ∀ q, s.isCandidate p q = true ↔ s.Compatible p q := by
    intro q
    rw [isCandidate, Bool.and_eq_true_iff, decide_eq_true_eq]
    rfl
  have hsorted := h.sorted_priority
  rw [horder, List.pairwise_append, List.pairwise_cons, List.pairwise_append] at hsorted
  obtain ⟨-, ⟨-, has₂, -, hacross⟩, -⟩ := hsorted
  have hmem : ∀ q, s.Compatible p q → (s.procs p).priority < (s.procs q).priority →
      q ∈ as₂ ∨ q ∈ bs := by
    intro q hq hworse
    have hin := (h.runnable_iff q).2 (.inr hq.1)
    rw [horder, List.mem_append, List.mem_cons, List.mem_append] at hin
    rcases hin with hin | rfl | hin
    · exact absurd (has₁ q hin) (Int.not_le.2 hworse)
    · exact absurd hworse (Int.lt_irrefl _)
    · exact hin
  cases hfind : as₂.reverse.find? (s.isCandidate p) with
  | none =>
    rw [List.find?_eq_none] at hfind
    have hnone : ∀ q ∈ as₂, ¬s.Compatible p q := fun q hq hcomp =>
      hfind q (List.mem_reverse.2 hq) ((htest q).2 hcomp)
    constructor
    · intro hright q hq hcomp
      exact absurd (hlt q (List.mem_append_right _ hq)) (hright.1 rfl q hcomp)
    · intro hbehind
      refine ⟨fun _ q hcomp hworse => ?_, fun q hq => by cases hq⟩
      rcases hmem q hcomp hworse with hq | hq
      · exact hnone q hq hcomp
      · obtain ⟨q', hq', hcomp', -⟩ := hbehind q hq hcomp
        exact hnone q' hq' hcomp'
  | some r =>
    obtain ⟨hr, ls, rs, hls, hfirst⟩ := List.find?_eq_some_iff_append.1 hfind
    have hin : r ∈ as₂ := by
      rw [← List.mem_reverse, hls]
      exact List.mem_append_right _ List.mem_cons_self
    -- those that were passed over after the result have no worse priority
    have hworst : ∀ q ∈ as₂, s.Compatible p q → (s.procs q).priority ≤ (s.procs r).priority := by
      intro q hq hcomp
      have hsorted := List.pairwise_reverse.2 has₂
      rw [hls, List.pairwise_append, List.pairwise_cons] at hsorted
      have hq' := List.mem_reverse.2 hq
      rw [hls, List.mem_append, List.mem_cons] at hq'
      rcases hq' with hq' | rfl | hq'
      · have := hfirst q hq'
        rw [(htest q).2 hcomp] at this
        cases this
      · exact Int.le_refl _
      · exact hsorted.2.1.1 q hq'
    constructor
    · intro hright q hq hcomp
      obtain ⟨-, -, hall⟩ := hright.2 r rfl
      exact ⟨r, hin, (htest r).1 hr, Int.le_antisymm (hacross r hin q hq) (hall q hcomp)⟩
    · intro hbehind
      refine ⟨fun hnone => (by cases hnone), ?_⟩
      rintro q ⟨⟩
      refine ⟨(htest r).1 hr, hlt r (List.mem_append_left _ hin), fun q hcomp => ?_⟩
      by_cases hworse : (s.procs p).priority < (s.procs q).priority
      · rcases hmem q hcomp hworse with hq | hq
        · exact hworst q hq hcomp
        · obtain ⟨q', hq', hcomp', heq⟩ := hbehind q hq hcomp
          exact heq ▸ hworst q' hq' hcomp'
      · have := hlt r (List.mem_append_left _ hin)
        omega

/-! ## The calls -/

lemma inv_becomeReady {s' : Ranked} (h : s.Inv) (hstep : s.perform (.becomeReady p) = .ok s') :
    s'.Inv := by
  obtain ⟨⟨retVal, t'⟩, hready, heq⟩ := bind_eq_ok.1 hstep
  rw [Processes.becomeReady, check_bind_eq_ok] at hready
  obtain ⟨hinvalid, hready⟩ := hready
  have hout : p ∉ s.queue := by
    rw [h.runnable_iff, hinvalid]
    simp
  have hposition : (s.procs p).queuePosition = none := by
    by_contra hne
    exact hout ((h.books.mem_order p).2 hne)
  generalize ht : s.modify p (fun proc => { proc with state := .ready }) = t at hready
  have hbooks : Books t := ht ▸ h.books.modify rfl
  have horder : t.order = s.queue := ht ▸ rfl
  have hrecords : ∀ q, q ≠ p → t.records q = s.records q := fun q hq => ht ▸ records_modify hq
  have hself : t.procs p = { s.procs p with state := .ready } := ht ▸ procs_modify_self
  have hsorted : t.order.Pairwise fun q q' => (t.procs q).priority ≤ (t.procs q').priority := by
    rw [horder]
    refine h.sorted_priority.imp_of_mem fun hq hq' hle => ?_
    rw [priority_eq (hrecords _ fun heq => hout (heq ▸ hq)),
      priority_eq (hrecords _ fun heq => hout (heq ▸ hq'))]
    exact hle
  obtain ⟨as₁, as₂, t₂, has, hinsert, hbooks₂, hrecords₂, horder₂, has₁, has₂⟩ :=
    hbooks.queueInsert (by rw [hself]; exact hposition) hsorted
  cases hready.symm.trans hinsert
  cases heq
  have hall : ∀ q, (t'.procs q).priority = (t.procs q).priority := fun q =>
    priority_eq (congrFun hrecords₂ q)
  have hordered : (s.next p t' true (some (p, as₂.reverse.find? (t.isCandidate p)))).Ordered := by
    refine h.toOrdered.place_entering hbooks₂
      (fun q hq => (congrFun hrecords₂ q).trans (hrecords q hq)) horder₂
      (by rw [← has, horder]) (fun q hq _ => by rwa [← has, horder]) ?_ ?_ ?_
    · rw [state_eq (congrFun hrecords₂ p), hself]
      exact .inl rfl
    · simpa only [hall] using has₁
    · simpa only [hall] using has₂
  refine ⟨hordered, ?_⟩
  rintro _ _ ⟨⟩
  rw [← isCandidate_eq hrecords₂]
  refine (hordered.preempts_iff as₁ as₂ [] ?_ ?_ ?_).2 fun q hq => absurd hq List.not_mem_nil
  · rw [List.append_nil]
    exact horder₂
  · show ∀ q ∈ as₁, (t'.procs q).priority ≤ (t'.procs p).priority
    simpa only [hall] using has₁
  · show ∀ q ∈ as₂ ++ [], (t'.procs p).priority < (t'.procs q).priority
    simpa only [hall, List.append_nil] using has₂

lemma inv_becomeNonReady {s' : Ranked} (h : s.Inv)
    (hstep : s.perform (.becomeNonReady p) = .ok s') : s'.Inv := by
  obtain ⟨t', hnonready, heq⟩ := bind_eq_ok.1 hstep
  cases heq
  refine ⟨?_, fun _ _ hnone => by cases hnone⟩
  rw [Processes.becomeNonReady, check_bind_eq_ok] at hnonready
  obtain ⟨hready, hremove⟩ := hnonready
  obtain ⟨as, bs, horder⟩ := List.append_of_mem ((h.runnable_iff p).2 (.inl hready))
  have hbooks : Books (s.modify p fun proc => { proc with state := .invalid }) :=
    h.books.modify rfl
  obtain ⟨t, ht, hbooks', hrecords, horder', hstate⟩ := hbooks.queueRemove horder
  cases hremove.symm.trans ht
  have hnodup := h.books.nodup_order
  rw [show s.order = _ from horder, List.nodup_middle, List.nodup_cons] at hnodup
  refine h.toOrdered.out hbooks' (fun q hq => (hrecords q hq).trans (records_modify hq)) ?_ ?_ ?_ ?_
  · rw [horder', horder]
    exact List.Sublist.append_left (List.sublist_cons_self _ _) _
  · intro q hq hne
    rw [horder, List.mem_append, List.mem_cons] at hq
    rw [horder', List.mem_append]
    exact hq.imp_right fun hq => hq.resolve_left hne
  · rw [horder']
    exact hnodup.1
  · rw [hstate, procs_modify_self]
    simp

/-- A process in the queue that changes only its state or its processor. -/
lemma Inv.change {f : ProcessId → ProcessId} (h : s.Inv) (hp : p ∈ s.queue)
    (hposition : (f (s.procs p)).queuePosition = (s.procs p).queuePosition)
    (hpriority : (f (s.procs p)).priority = (s.procs p).priority)
    (hrun : (f (s.procs p)).state = .ready ∨ (f (s.procs p)).state = .running) :
    (s.next p (s.modify p f) false none).Inv := by
  refine ⟨?_, fun _ _ hnone => by cases hnone⟩
  refine h.toOrdered.stay (h.books.modify hposition) (fun q hq => records_modify hq) rfl hp ?_ ?_
  · rw [procs_modify_self, hpriority]
  · rw [procs_modify_self]
    exact hrun

lemma inv_switchIn {s' : Ranked} {nCPU : CPU} (h : s.Inv)
    (hstep : s.perform (.switchIn p nCPU) = .ok s') : s'.Inv := by
  obtain ⟨t, hin, heq⟩ := bind_eq_ok.1 hstep
  cases heq
  rw [Processes.switchIn, check_bind_eq_ok] at hin
  obtain ⟨hready, hin⟩ := hin
  rw [check_bind_eq_ok] at hin
  cases hin.2
  exact h.change ((h.runnable_iff p).2 (.inl hready)) rfl rfl (.inr rfl)

lemma inv_switchOut {s' : Ranked} (h : s.Inv) (hstep : s.perform (.switchOut p) = .ok s') :
    s'.Inv := by
  obtain ⟨t, hout, heq⟩ := bind_eq_ok.1 hstep
  cases heq
  rw [Processes.switchOut, check_bind_eq_ok] at hout
  obtain ⟨hrunning, hout⟩ := hout
  cases hout
  exact h.change ((h.runnable_iff p).2 (.inr hrunning)) rfl rfl (.inl rfl)

/-- The processes while one of them gets a priority. -/
abbrev reprioritized (s : Ranked) (p : Pid) (newPriority : ℤ) : Processes :=
  s.modify p fun proc => { proc with priority := newPriority }

lemma priority_reprioritized (s : Ranked) (p : Pid) (newPriority : ℤ) :
    ((s.reprioritized p newPriority).procs p).priority = newPriority := by
  rw [procs_modify_self]

/-- What does not change with a priority. -/
lemma same_reprioritized {newPriority : ℤ}
    (hrecords : t.records = (s.reprioritized p newPriority).records) (q : Pid) :
    (t.procs q).state = (s.procs q).state ∧ (t.procs q).cpu = (s.procs q).cpu ∧
      (t.procs q).pinned = (s.procs q).pinned := by
  have hrecord := congrFun hrecords q
  by_cases hq : q = p
  · subst hq
    rw [records, records, procs_modify_self] at hrecord
    simp only [ProcessId.mk.injEq] at hrecord
    exact ⟨hrecord.1, hrecord.2.2.2.1, hrecord.2.2.2.2.2⟩
  · rw [records_modify hq, records, records] at hrecord
    simp only [ProcessId.mk.injEq] at hrecord
    exact ⟨hrecord.1, hrecord.2.2.2.1, hrecord.2.2.2.2.2⟩

lemma compatible_iff {s s' : Ranked} (h : ∀ q, (s'.procs q).state = (s.procs q).state ∧
    (s'.procs q).cpu = (s.procs q).cpu ∧ (s'.procs q).pinned = (s.procs q).pinned) (q : Pid) :
    s'.Compatible p q ↔ s.Compatible p q := by
  rw [Compatible, Compatible, ProcessId.mayRunOn, ProcessId.mayRunOn, (h q).1, (h q).2.1, (h p).2.1,
    (h p).2.2]

/-- What surrounds a process whose priority changes. -/
lemma Ordered.around {as bs : List Pid} (h : s.Ordered) (horder : s.queue = as ++ p :: bs)
    (newPriority : ℤ) :
    (∀ q ∈ as ++ bs, q ≠ p ∧
      ((s.reprioritized p newPriority).procs q).priority = (s.procs q).priority) ∧
    (∀ q ∈ as, (s.procs q).priority ≤ (s.procs p).priority) ∧
    (∀ q ∈ bs, (s.procs p).priority ≤ (s.procs q).priority) ∧
    (as ++ bs).Pairwise fun q q' => ((s.reprioritized p newPriority).procs q).priority ≤
      ((s.reprioritized p newPriority).procs q').priority := by
  have hnodup := h.books.nodup_order
  rw [show s.order = _ from horder, List.nodup_middle, List.nodup_cons] at hnodup
  have hothers : ∀ q ∈ as ++ bs, q ≠ p ∧
      ((s.reprioritized p newPriority).procs q).priority = (s.procs q).priority := by
    intro q hq
    have hne : q ≠ p := fun heq => hnodup.1 (heq ▸ hq)
    exact ⟨hne, priority_eq (records_modify hne)⟩
  have hsorted := h.sorted_priority
  rw [horder] at hsorted
  have hsub : ((as ++ bs).Sublist (as ++ p :: bs)) :=
    List.Sublist.append_left (List.sublist_cons_self _ _) _
  have hpair := hsorted.sublist hsub
  rw [List.pairwise_append, List.pairwise_cons] at hsorted
  refine ⟨hothers, fun q hq => hsorted.2.2 q hq p List.mem_cons_self, hsorted.2.1.1,
    hpair.imp_of_mem fun hq hq' hle => ?_⟩
  rw [(hothers _ hq).2, (hothers _ hq').2]
  exact hle

/-- A process that gets a better priority is put into its place, and the result is right if and only
if the call is harmless. -/
lemma Inv.improve {newPriority : ℤ} {t : Processes} (h : s.Inv) (hp : p ∈ s.queue)
    (hlt : newPriority < (s.procs p).priority)
    (ht : (s.reprioritized p newPriority).queuePromote p = .ok (retVal, t)) :
    (s.next p t true (some (p, retVal))).Ordered ∧
      ((s.next p t true (some (p, retVal))).Preempts p retVal ↔
        s.Harmless (.setPriority p newPriority)) := by
  obtain ⟨as, bs, horder⟩ := List.append_of_mem hp
  obtain ⟨hothers, has, hbs, hpair⟩ := h.toOrdered.around horder newPriority
  have hbooks : Books (s.reprioritized p newPriority) := h.books.modify rfl
  obtain ⟨as₁, as₂, t₂, rfl, hpromote, hbooks₂, hrecords₂, horder₂, has₁, has₂⟩ :=
    hbooks.queuePromote horder (List.pairwise_append.1 hpair).1
  cases ht.symm.trans hpromote
  have hrecords : ∀ q, q ≠ p → t.records q = s.records q := fun q hq =>
    (congrFun hrecords₂ q).trans (records_modify hq)
  have hself : (t.procs p).priority = newPriority :=
    (priority_eq (congrFun hrecords₂ p)).trans (s.priority_reprioritized p newPriority)
  have hall : ∀ q ∈ as₁ ++ as₂ ++ bs, q ≠ p ∧ (t.procs q).priority = (s.procs q).priority :=
    fun q hq => ⟨(hothers q hq).1, priority_eq (hrecords q (hothers q hq).1)⟩
  have has₁ : ∀ q ∈ as₁, (t.procs q).priority ≤ (t.procs p).priority := by
    intro q hq
    rw [priority_eq (congrFun hrecords₂ q), priority_eq (congrFun hrecords₂ p)]
    exact has₁ q hq
  have hworse : ∀ q ∈ as₂ ++ bs, (t.procs p).priority < (t.procs q).priority := by
    intro q hq
    rcases List.mem_append.1 hq with hq | hq
    · rw [priority_eq (congrFun hrecords₂ q), priority_eq (congrFun hrecords₂ p)]
      exact has₂ q hq
    · rw [(hall q (List.mem_append_right _ hq)).2, hself]
      exact Int.lt_of_lt_of_le hlt (hbs q hq)
  have hstate : (t.procs p).state = (s.procs p).state := by
    rw [state_eq (congrFun hrecords₂ p), procs_modify_self]
  generalize hnext : s.next p t true (some (p, as₂.reverse.find?
    (isCandidate (s.reprioritized p newPriority) p))) = s'
  have hs' : s'.toProcesses = t := hnext ▸ rfl
  have hordered : s'.Ordered := by
    rw [← hnext]
    refine h.toOrdered.place_entering hbooks₂ hrecords horder₂ ?_ ?_ ?_ has₁ hworse
    · rw [horder, ← List.append_assoc]
      exact List.Sublist.append_left (List.sublist_cons_self _ _) _
    · intro q hq hne
      rw [horder, List.mem_append, List.mem_cons] at hq
      rw [← List.append_assoc, List.mem_append]
      exact hq.imp_right fun hq => hq.resolve_left hne
    · rw [hstate]
      exact (h.runnable_iff p).1 hp
  refine ⟨hordered, ?_⟩
  have hcompatible : ∀ q, s'.Compatible p q ↔ s.Compatible p q :=
    compatible_iff fun q => hs' ▸ same_reprioritized hrecords₂ q
  rw [← isCandidate_eq hrecords₂, ← hs', hordered.preempts_iff as₁ as₂ bs (hnext ▸ horder₂)
    (hs' ▸ has₁) (hs' ▸ hworse)]
  rw [hs']
  have hmem : ∀ q ∈ as₁ ++ as₂ ++ bs, q ∈ s.queue := by
    intro q hq
    rw [horder]
    rw [List.mem_append] at hq ⊢
    exact hq.imp_right (List.mem_cons_of_mem _)
  constructor
  · intro hright _
    refine ⟨fun _ q hq hahead hcomp => ?_, fun heq => absurd heq (Int.ne_of_lt hlt)⟩
    have hq := ((h.toOrdered.ahead_iff horder hq).1).1 hahead
    obtain ⟨q', hq', hcomp', heq⟩ := hright q hq ((hcompatible q).2 hcomp)
    have hin := List.mem_append_left bs (List.mem_append_right as₁ hq')
    refine ⟨q', hmem q' hin, ?_, (hcompatible q').1 hcomp', ?_⟩
    · exact ((h.toOrdered.ahead_iff horder (hmem q' hin)).2).2 (List.mem_append_right _ hq')
    · rw [← (hall q' hin).2, ← (hall q (List.mem_append_right _ hq)).2]
      exact heq
  · intro hharmless q hq hcomp
    have hin := List.mem_append_right (as₁ ++ as₂) hq
    obtain ⟨q', hq', hahead, hcomp', heq⟩ := (hharmless hp).1 hlt q (hmem q hin)
      (((h.toOrdered.ahead_iff horder (hmem q hin)).1).2 hq) ((hcompatible q).1 hcomp)
    have hq' := ((h.toOrdered.ahead_iff horder hq').2).1 hahead
    have hin' := List.mem_append_left bs hq'
    rcases List.mem_append.1 hq' with hfirst | hsecond
    · -- those that stay in front have a better priority than those behind
      have hle := has₁ q' hfirst
      have hlt' := hworse q (List.mem_append_right _ hq)
      rw [(hall q' hin').2, heq, ← (hall q hin).2] at hle
      omega
    · refine ⟨q', hsecond, (hcompatible q').2 hcomp', ?_⟩
      rw [(hall q' hin').2, (hall q hin).2]
      exact heq

/-- A process that gets a worse priority is put into its place. -/
lemma Inv.worsen {newPriority : ℤ} {t : Processes} (h : s.Inv) (hp : p ∈ s.queue)
    (hlt : (s.procs p).priority < newPriority)
    (ht : (s.reprioritized p newPriority).queueDemote p = .ok (retVal, t)) :
    (s.next p t true none).Inv := by
  obtain ⟨as, bs, horder⟩ := List.append_of_mem hp
  obtain ⟨hothers, has, -, hpair⟩ := h.toOrdered.around horder newPriority
  have hbooks : Books (s.reprioritized p newPriority) := h.books.modify rfl
  obtain ⟨bs₁, bs₂, _, t₂, rfl, hdemote, hbooks₂, hrecords₂, horder₂, hbs₁, hbs₂⟩ :=
    hbooks.queueDemote horder (List.pairwise_append.1 hpair).2.1
  cases ht.symm.trans hdemote
  have hall : ∀ q, (t.procs q).priority = ((s.reprioritized p newPriority).procs q).priority :=
    fun q => priority_eq (congrFun hrecords₂ q)
  refine ⟨?_, fun _ _ hnone => by cases hnone⟩
  refine h.toOrdered.place_entering hbooks₂
    (fun q hq => (congrFun hrecords₂ q).trans (records_modify hq)) horder₂ ?_ ?_ ?_ ?_ ?_
  · rw [horder, List.append_assoc]
    exact List.Sublist.append_left (List.sublist_cons_self _ _) _
  · intro q hq hne
    rw [horder, List.mem_append, List.mem_cons] at hq
    rw [List.append_assoc, List.mem_append]
    exact hq.imp_right fun hq => hq.resolve_left hne
  · rw [(same_reprioritized hrecords₂ p).1]
    exact (h.runnable_iff p).1 hp
  · intro q hq
    rw [hall, hall]
    rcases List.mem_append.1 hq with hq | hq
    · rw [(hothers q (List.mem_append_left _ hq)).2, s.priority_reprioritized]
      exact Int.le_trans (has q hq) (Int.le_of_lt hlt)
    · exact hbs₁ q hq
  · intro q hq
    rw [hall, hall]
    exact hbs₂ q hq

/-- A process that keeps its priority goes behind all others of it. -/
lemma Inv.requeue {t : Processes} (h : s.Inv) (hp : p ∈ s.queue)
    (ht : (s.reprioritized p (s.procs p).priority).queueDemote p = .ok (retVal, t)) :
    (s.Harmless (.setPriority p (s.procs p).priority) → (s.next p t false none).Inv) ∧
      (¬s.Harmless (.setPriority p (s.procs p).priority) →
        ¬(s.next p t false none).StableQueue) := by
  obtain ⟨as, bs, horder⟩ := List.append_of_mem hp
  obtain ⟨hothers, -, hbs, hpair⟩ := h.toOrdered.around horder (s.procs p).priority
  have hbooks : Books (s.reprioritized p (s.procs p).priority) := h.books.modify rfl
  obtain ⟨bs₁, bs₂, _, t₂, rfl, hdemote, hbooks₂, hrecords₂, horder₂, hbs₁, hbs₂⟩ :=
    hbooks.queueDemote horder (List.pairwise_append.1 hpair).2.1
  cases ht.symm.trans hdemote
  have hself := s.priority_reprioritized p (s.procs p).priority
  have hall : ∀ q ∈ bs₁ ++ bs₂,
      ((s.reprioritized p (s.procs p).priority).procs q).priority = (s.procs q).priority :=
    fun q hq => (hothers q (List.mem_append_right _ hq)).2
  have hmem : ∀ q ∈ bs₁ ++ bs₂, q ∈ s.queue := by
    intro q hq
    rw [horder]
    exact List.mem_append_right _ (List.mem_cons_of_mem _ hq)
  constructor
  · intro hharmless
    -- nobody of the same priority is behind
    have hnil : bs₁ = [] := by
      refine List.eq_nil_iff_forall_not_mem.2 fun q hq => ?_
      have hin := List.mem_append_left bs₂ hq
      have hle := hbs₁ q hq
      rw [hall q hin, hself] at hle
      exact (hharmless hp).2 rfl q (hmem q hin)
        (((h.toOrdered.ahead_iff horder (hmem q hin)).1).2 hin)
        (Int.le_antisymm hle (hbs q hin))
    subst hnil
    refine ⟨?_, fun _ _ hnone => by cases hnone⟩
    refine h.toOrdered.stay hbooks₂
      (fun q hq => (congrFun hrecords₂ q).trans (records_modify hq)) ?_ hp ?_ ?_
    · rw [horder₂, horder, List.append_nil]
      rfl
    · rw [priority_eq (congrFun hrecords₂ p), hself]
    · rw [(same_reprioritized hrecords₂ p).1]
      exact (h.runnable_iff p).1 hp
  · intro hharmful hstable
    refine hharmful fun _ => ⟨fun hlt => absurd hlt (Int.lt_irrefl _), fun _ q hq hahead heq => ?_⟩
    have hq := ((h.toOrdered.ahead_iff horder hq).1).1 hahead
    have hfirst : q ∈ bs₁ := by
      rcases List.mem_append.1 hq with hfirst | hsecond
      · exact hfirst
      · have hlt := hbs₂ q hsecond
        rw [hall q hq, hself, heq] at hlt
        exact absurd hlt (Int.lt_irrefl _)
    have hsorted := hstable.sorted
    rw [show (s.next p t false none).queue = _ from horder₂, List.pairwise_append] at hsorted
    -- the other process is in front now
    have hfront := hsorted.2.2 q (List.mem_append_right _ hfirst) p List.mem_cons_self
    have hpriority : ∀ q, (t.procs q).priority =
        ((s.reprioritized p (s.procs p).priority).procs q).priority :=
      fun q => priority_eq (congrFun hrecords₂ q)
    have hentered : s.entered p < s.entered q := by
      rcases hahead with hlt | ⟨-, hlt⟩
      · omega
      · exact hlt
    rcases hfront with hlt | ⟨-, hlt⟩
    · replace hlt : (t.procs q).priority < (t.procs p).priority := hlt
      rw [hpriority, hpriority, hall q hq, hself, heq] at hlt
      exact Int.lt_irrefl _ hlt
    · exact Nat.lt_asymm hentered hlt

/-- A harmless priority keeps the invariant, and another one breaks the order or the result. -/
lemma Inv.setPriority {newPriority : ℤ} {s' : Ranked} (h : s.Inv)
    (hstep : s.perform (.setPriority p newPriority) = .ok s') :
    (s.Harmless (.setPriority p newPriority) → s'.Inv) ∧
      (¬s.Harmless (.setPriority p newPriority) → ¬s'.StableQueue) := by
  obtain ⟨⟨retVal, t⟩, hset, heq⟩ := bind_eq_ok.1 hstep
  cases heq
  rw [Processes.setPriority] at hset
  simp only [procs_modify_self] at hset
  by_cases hp : p ∈ s.queue
  · have hposition := (h.books.mem_order p).1 hp
    simp only [if_pos hposition] at hset
    rcases Int.lt_trichotomy newPriority (s.procs p).priority with hlt | heq | hlt
    · rw [if_pos hlt] at hset
      simp only [hposition, hlt, not_false_eq_true, and_self, if_true, Int.ne_of_lt hlt, ne_eq,
        decide_true]
      obtain ⟨hordered, hright⟩ := h.improve hp hlt hset
      constructor
      · intro hharmless
        refine ⟨hordered, ?_⟩
        rintro _ _ ⟨⟩
        exact hright.2 hharmless
      · exact fun hharmful hstable => hharmful (hright.1 (hstable.promoted p retVal rfl))
    · subst heq
      rw [if_neg (Int.lt_irrefl _)] at hset
      simpa only [Int.lt_irrefl, and_false, if_false, ne_eq, not_true_eq_false, decide_false] using
        h.requeue hp hset
    · rw [if_neg (Int.not_lt.2 (Int.le_of_lt hlt))] at hset
      simp only [Int.not_lt.2 (Int.le_of_lt hlt), and_false, if_false, ne_eq, Int.ne_of_gt hlt,
        not_false_eq_true, decide_true]
      exact ⟨fun _ => h.worsen hp hlt hset, fun hharmful => absurd (fun _ =>
        ⟨fun hlt' => by omega, fun heq => by omega⟩) hharmful⟩
  · -- the process is not in the queue
    have hposition : (s.procs p).queuePosition = none := by
      by_contra hne
      exact hp ((h.books.mem_order p).2 hne)
    rw [if_neg (fun hne => hne hposition)] at hset
    cases hset
    rw [if_neg (fun hne => hne.1 hposition)]
    refine ⟨fun _ => ⟨?_, fun _ _ hnone => by cases hnone⟩,
      fun hharmful => absurd (fun hin => absurd hin hp) hharmful⟩
    refine h.toOrdered.out (h.books.modify rfl) (fun q hq => records_modify hq)
      (List.Sublist.refl _) (fun q hq _ => hq) hp ?_
    rw [procs_modify_self, ← h.runnable_iff]
    exact hp

end Ranked

open Ranked

variable {mapping : Pid → CPU × Bool × Bool} {es : List ProcessEvent} {s : Ranked}

lemma inv_init (mapping : Pid → CPU × Bool × Bool) : (processes mapping).init.Inv := by
  refine ⟨⟨⟨List.nodup_nil, ?_, ?_⟩, ?_, List.Pairwise.nil, fun p => Nat.le_refl _⟩, ?_⟩
  · exact fun n hn => absurd hn List.not_mem_nil
  · exact fun n => iff_of_false List.not_mem_nil (fun hsome => by cases hsome)
  · refine fun p => iff_of_false List.not_mem_nil ?_
    simp [processes, ProcessId.create]
  · exact fun _ _ hnone => by cases hnone

/-- The queue is a stable priority queue of the runnable processes, with the right results, at all
times if and only if all calls are harmless. -/
theorem always_stableQueue_iff (h : (processes mapping).Run es s) :
    (∀ es' s', es' <+: es → (processes mapping).Run es' s' → s'.StableQueue) ↔
      (processes mapping).RunWhere Harmless es s := by
  refine h.always_iff_runWhere (inv_init mapping) (fun _ hs => hs.stableQueue) ?_ ?_
  · intro s e s' hs hharmless hstep
    cases e with
    | becomeReady p => exact inv_becomeReady hs hstep
    | becomeNonReady p => exact inv_becomeNonReady hs hstep
    | switchIn p nCPU => exact inv_switchIn hs hstep
    | switchOut p => exact inv_switchOut hs hstep
    | setPriority p newPriority => exact (hs.setPriority hstep).1 hharmless
  · intro s e s' hs hharmful hstep
    cases e with
    | setPriority p newPriority => exact (hs.setPriority hstep).2 hharmful
    | _ => exact absurd trivial hharmful

/-- All processes are on processor 0, from which they may move. -/
def migrable : Pid → CPU × Bool × Bool := fun _ => (0, true, false)

/-- Two processes run with priorities 9 and 5, and a third one gets ready with priority 7, then gets
priority 11, and 3. -/
def threeProcesses : List ProcessEvent :=
  [.setPriority 0 9, .setPriority 1 5, .setPriority 2 7, .becomeReady 0, .becomeReady 1,
    .switchIn 0 0, .switchIn 1 1, .becomeReady 2, .setPriority 2 11, .setPriority 2 3]

/-- The third process preempts the one of priority 9. -/
theorem always_stableQueue_threeProcesses : ∃ s, (processes migrable).Run threeProcesses s ∧
    s.queue = [2, 1, 0] ∧ s.promoted = some (2, some 0) ∧
    ((∀ es' s', es' <+: threeProcesses → (processes migrable).Run es' s' → s'.StableQueue) ↔
      (processes migrable).RunWhere Harmless threeProcesses s) ∧
    (processes migrable).RunWhere Harmless threeProcesses s := by
  have hrun : succeeds (((processes migrable).guarded (fun s e => decide (s.Harmless e))
      .noSuchEvent).exec (processes migrable).init threeProcesses)
      (fun s => decide (s.queue = [2, 1, 0] ∧ s.promoted = some (2, some 0))) = true := by
    decide +kernel
  obtain ⟨s, hs, htest⟩ := succeeds_iff.1 hrun
  obtain ⟨hqueue, hpromoted⟩ := of_decide_eq_true htest
  have hwhere := (Machine.run_of_exec hs).of_guarded.mono
    (D := Harmless) fun _ _ => of_decide_eq_true
  exact ⟨s, hwhere.run, hqueue, hpromoted, always_stableQueue_iff hwhere.run, hwhere⟩

/-- A process gets a better priority and misses the running process behind it. -/
theorem not_always_stableQueue : ∃ s, (processes migrable).Run
      [.setPriority 0 9, .setPriority 1 7, .becomeReady 0, .becomeReady 1, .switchIn 0 0,
        .setPriority 1 3] s ∧
    s.queue = [1, 0] ∧ s.Compatible 1 0 ∧ (s.procs 1).priority < (s.procs 0).priority ∧
    s.promoted = some (1, none) ∧ ¬s.StableQueue := by
  have hrun : succeeds ((processes migrable).exec (processes migrable).init
      [.setPriority 0 9, .setPriority 1 7, .becomeReady 0, .becomeReady 1, .switchIn 0 0,
        .setPriority 1 3])
      (fun s => decide (s.queue = [1, 0] ∧ s.Compatible 1 0 ∧
        (s.procs 1).priority < (s.procs 0).priority ∧ s.promoted = some (1, none))) = true := by
    decide +kernel
  obtain ⟨s, hs, htest⟩ := succeeds_iff.1 hrun
  obtain ⟨hqueue, hcompatible, hworse, hpromoted⟩ := of_decide_eq_true htest
  exact ⟨s, Machine.run_of_exec hs, hqueue, hcompatible, hworse, hpromoted,
    fun hstable => (hstable.promoted 1 none hpromoted).1 rfl 0 hcompatible hworse⟩

end Sesc.Core
