import Mathlib.Logic.Function.Basic
import Mathlib.Tactic.Common
import Sesc.Lib.Machine
import Sesc.Lib.Check

/-!
# Pipes

A pipe of the simulated system, the descriptors that refer to its two ends, and the threads that use it.
A thread that finds the pipe empty is suspended in the system call and enters its number in `rdBlocked`; a
write signals all the threads that are entered there.  The number stays there when another signal resumes
the thread.
-/

namespace Sesc.Files

open Lib

inductive Fault
  /-- An assertion does not hold. -/
  | assertion
  /-- No program does this. -/
  | refused
deriving DecidableEq, Repr

abbrev Tid := ℕ

inductive Status
  | running
  /-- Suspended in a read from the pipe. -/
  | reading
  /-- Suspended by another system call. -/
  | suspended
  | exited
  /-- There is no thread with the number, or nobody waits for it any more. -/
  | gone
deriving DecidableEq, Repr

structure Thread where
  status : Status
  /-- The number of signals in `readySig`. -/
  readySig : ℕ
deriving DecidableEq, Repr

/-- `ThreadContext::signal`, of the thread with a number if there is one. -/
def Thread.signal (th : Thread) : Except Fault Thread :=
  match th.status with
  | .gone => .ok th
  | .exited => .error .assertion
  | _ => .ok ⟨.running, th.readySig + 1⟩

structure Pipe where
  data : List UInt8
  readers : ℕ
  writers : ℕ
  rdBlocked : List Tid
  /-- The descriptors of the two ends. -/
  rdRefs : ℕ
  wrRefs : ℕ
  thread : Tid → Thread
  /-- All the bytes that have been written to the pipe, and that have been read from it. -/
  written : List UInt8
  taken : List UInt8

namespace Pipe

/-- `sysPipe`. -/
def new : Pipe := ⟨[], 1, 1, [], 1, 1, fun _ => ⟨.gone, 0⟩, [], []⟩

variable (s : Pipe)

def status (t : Tid) : Status := (s.thread t).status

def setThread (t : Tid) (th : Thread) : Pipe := { s with thread := Function.update s.thread t th }

def willRdBlock : Bool := s.data.isEmpty && s.writers != 0

/-- `StreamNode::unblock`. -/
def unblock : List Tid → (Tid → Thread) → Except Fault (Tid → Thread)
  | [], thread => .ok thread
  | t :: pids, thread => do
    let th ← (thread t).signal
    unblock pids (Function.update thread t th)

def rdUnblock : Except Fault Pipe := do
  check .assertion (s.willRdBlock = false)
  let thread ← unblock s.rdBlocked s.thread
  return { s with thread := thread, rdBlocked := [] }

/-- `PipeNode::read`. -/
def take (count : ℕ) : Except Fault Pipe := do
  check .assertion (s.readers ≠ 0)
  if s.data = [] then
    check .assertion (s.writers = 0)
    return s
  else
    check .assertion (0 < (s.data.take count).length)
    return { s with data := s.data.drop count, taken := s.taken ++ s.data.take count }

/-- `sysRead`. -/
def read (t : Tid) (count : ℕ) : Except Fault Pipe := do
  check .refused (s.status t = .running ∧ 0 < s.rdRefs)
  if s.willRdBlock then
    -- A ready signal interrupts the call and is handled.
    if (s.thread t).readySig ≠ 0 then return s.setThread t ⟨.running, (s.thread t).readySig - 1⟩
    else return { s.setThread t ⟨.reading, 0⟩ with rdBlocked := s.rdBlocked ++ [t] }
  else s.take count

/-- `sysWrite`, and `PipeNode::write`. -/
def write (t : Tid) (buf : List UInt8) : Except Fault Pipe := do
  check .refused (s.status t = .running ∧ 0 < s.wrRefs)
  check .assertion (s.writers ≠ 0)
  let s' : Pipe := { s with data := s.data ++ buf, written := s.written ++ buf }
  s'.rdUnblock

/-- The node is deleted with its last end. -/
def delete : Except Fault Pipe := do
  check .assertion (s.readers = 0 ∧ s.writers = 0 → s.rdBlocked = [])
  return s

def delReader : Except Fault Pipe := do
  check .assertion (s.readers ≠ 0)
  let s' : Pipe := { s with readers := s.readers - 1 }
  s'.delete

def delWriter : Except Fault Pipe := do
  check .assertion (s.writers ≠ 0)
  let s' : Pipe := { s with writers := s.writers - 1 }
  s'.delete

/-- A descriptor of the end for reading is closed; the description is deleted with the last one. -/
def closeReader : Except Fault Pipe := do
  check .refused (0 < s.rdRefs)
  let s' : Pipe := { s with rdRefs := s.rdRefs - 1 }
  if s.rdRefs = 1 then s'.delReader else return s'

def closeWriter : Except Fault Pipe := do
  check .refused (0 < s.wrRefs)
  let s' : Pipe := { s with wrRefs := s.wrRefs - 1 }
  if s.wrRefs = 1 then s'.delWriter else return s'

/-- A thread goes from one status to another. -/
def move (t : Tid) (st st' : Status) : Except Fault Pipe := do
  check .refused (s.status t = st)
  return s.setThread t ⟨st', (s.thread t).readySig⟩

inductive Event
  | read (t : Tid) (count : ℕ)
  | write (t : Tid) (buf : List UInt8)
  /-- `sysDup`, `sysDup2` and `sysFork`. -/
  | dupReader
  | dupWriter
  | closeReader
  | closeWriter
  /-- A signal that does not come from the pipe. -/
  | signal (t : Tid)
  /-- `handleSignals`, for one signal. -/
  | handle (t : Tid)
  /-- Another system call suspends the thread, and what it waits for happens. -/
  | suspend (t : Tid)
  | resume (t : Tid)
  | exit (t : Tid)
  | reap (t : Tid)
  | spawn (t : Tid)
deriving DecidableEq

def step : Event → Except Fault Pipe
  | .read t count => s.read t count
  | .write t buf => s.write t buf
  | .dupReader => do
    check .refused (0 < s.rdRefs)
    return { s with rdRefs := s.rdRefs + 1 }
  | .dupWriter => do
    check .refused (0 < s.wrRefs)
    return { s with wrRefs := s.wrRefs + 1 }
  | .closeReader => s.closeReader
  | .closeWriter => s.closeWriter
  | .signal t => do
    check .refused (s.status t ≠ .gone ∧ s.status t ≠ .exited)
    return s.setThread t ⟨.running, (s.thread t).readySig + 1⟩
  | .handle t => do
    check .refused (s.status t = .running ∧ (s.thread t).readySig ≠ 0)
    return s.setThread t ⟨.running, (s.thread t).readySig - 1⟩
  | .suspend t => s.move t .running .suspended
  | .resume t => s.move t .suspended .running
  | .exit t => s.move t .running .exited
  | .reap t => s.move t .exited .gone
  | .spawn t => do
    check .refused (s.status t = .gone)
    return s.setThread t ⟨.running, 0⟩

/-- A pipe and all the threads, in any order of their steps. -/
def machine : Machine Pipe Event Fault := ⟨new, step⟩

variable {s} {s' : Pipe} {t : Tid} {e : Event} {pids : List Tid} {thread thread' : Tid → Thread}

/-! ### Threads -/

@[simp] lemma status_setThread (th : Thread) (t' : Tid) :
    (s.setThread t th).status t' = if t' = t then th.status else s.status t' := by
  simp only [status, setThread, Function.update_apply]
  split_ifs <;> rfl

/-- What a signal makes of the status of a thread. -/
lemma signal_eq_ok {th th' : Thread} (hs : th.signal = .ok th') :
    th.status ≠ .exited ∧ th'.status = if th.status = .gone then .gone else .running := by
  obtain ⟨st, n⟩ := th
  cases st <;> cases hs <;> simp

/-- All the threads in the list run from now on. -/
lemma unblock_eq_ok (hs : unblock pids thread = .ok thread') (t : Tid) : (thread' t).status =
    if t ∈ pids ∧ (thread t).status ≠ .gone then .running else (thread t).status := by
  induction pids generalizing thread with
  | nil =>
    cases hs
    simp
  | cons u pids ih =>
    obtain ⟨th, hth, hs⟩ := bind_eq_ok.1 hs
    obtain ⟨-, hstatus⟩ := signal_eq_ok hth
    rw [ih hs]
    by_cases htu : t = u
    · subst htu
      by_cases hgone : (thread t).status = .gone <;> simp [hstatus, hgone]
    · simp [htu]

structure Inv (s : Pipe) : Prop where
  readers : s.readers = if 0 < s.rdRefs then 1 else 0
  writers : s.writers = if 0 < s.wrRefs then 1 else 0
  blocked : ∀ t, s.status t = .reading → t ∈ s.rdBlocked
  empty : s.rdBlocked ≠ [] → s.data = []
  bytes : s.written = s.taken ++ s.data

lemma Inv.new : new.Inv where
  readers := rfl
  writers := rfl
  blocked t ht := by cases ht
  empty h := absurd rfl h
  bytes := rfl

lemma willRdBlock_eq_true : s.willRdBlock = true ↔ s.data = [] ∧ s.writers ≠ 0 := by
  rw [willRdBlock]
  cases s.data <;> simp

/-- A thread that is not reading changes. -/
lemma Inv.setThread (h : s.Inv) {th : Thread} (hth : th.status ≠ .reading) : (s.setThread t th).Inv where
  readers := h.readers
  writers := h.writers
  blocked t' ht' := by
    rw [status_setThread] at ht'
    split_ifs at ht'
    · exact absurd ht' hth
    · exact h.blocked t' ht'
  empty := h.empty
  bytes := h.bytes

lemma move_eq_ok {st st' : Status} : s.move t st st' = .ok s' ↔
    s.status t = st ∧ s' = s.setThread t ⟨st', (s.thread t).readySig⟩ := by
  rw [move, check_bind_eq_ok]
  simp only [pure, Except.pure, Except.ok.injEq, eq_comm (b := s')]

/-- A read takes bytes from the pipe, is interrupted or suspends the thread. -/
lemma read_eq_ok {count : ℕ} (hs : s.read t count = .ok s') : s.status t = .running ∧
    (s' = s ∨ (∃ k, s' = s.setThread t ⟨.running, k⟩) ∨
      (s.data = [] ∧ s.writers ≠ 0 ∧
        s' = { s.setThread t ⟨.reading, 0⟩ with rdBlocked := s.rdBlocked ++ [t] }) ∨
      (s.data ≠ [] ∧ s' = { s with data := s.data.drop count, taken := s.taken ++ s.data.take count })) := by
  obtain ⟨⟨hrun, -⟩, hs⟩ := check_bind_eq_ok.1 hs
  refine ⟨hrun, ?_⟩
  split_ifs at hs with hblock hready
  · cases hs
    exact .inr (.inl ⟨_, rfl⟩)
  · cases hs
    obtain ⟨hdata, hwriters⟩ := willRdBlock_eq_true.1 hblock
    exact .inr (.inr (.inl ⟨hdata, hwriters, rfl⟩))
  · obtain ⟨-, hs⟩ := check_bind_eq_ok.1 hs
    split_ifs at hs with hdata
    · obtain ⟨-, hs⟩ := check_bind_eq_ok.1 hs
      cases hs
      exact .inl rfl
    · obtain ⟨-, hs⟩ := check_bind_eq_ok.1 hs
      cases hs
      exact .inr (.inr (.inr ⟨hdata, rfl⟩))

/-- A write resumes all the threads that are entered in `rdBlocked`. -/
lemma write_eq_ok {buf : List UInt8} (hs : s.write t buf = .ok s') : 0 < s.wrRefs ∧ ∃ thread',
    s' = { s with data := s.data ++ buf, written := s.written ++ buf, thread := thread', rdBlocked := [] } ∧
      ∀ t', s'.status t' = if t' ∈ s.rdBlocked ∧ s.status t' ≠ .gone then .running else s.status t' := by
  obtain ⟨⟨-, hrefs⟩, hs⟩ := check_bind_eq_ok.1 hs
  obtain ⟨-, hs⟩ := check_bind_eq_ok.1 hs
  obtain ⟨-, hs⟩ := check_bind_eq_ok.1 hs
  obtain ⟨thread', hthread, hs⟩ := bind_eq_ok.1 hs
  cases hs
  exact ⟨hrefs, thread', rfl, unblock_eq_ok hthread⟩

lemma delete_eq_ok : s.delete = .ok s' ↔ (s.readers = 0 ∧ s.writers = 0 → s.rdBlocked = []) ∧ s' = s := by
  rw [delete, check_bind_eq_ok]
  simp only [pure, Except.pure, Except.ok.injEq, eq_comm (b := s')]

lemma closeReader_eq_ok (h : s.Inv) : s.closeReader = .ok s' ↔ 0 < s.rdRefs ∧
    (s.rdRefs = 1 → s.wrRefs = 0 → s.rdBlocked = []) ∧
      s' = { s with rdRefs := s.rdRefs - 1, readers := if s.rdRefs = 1 then 0 else s.readers } := by
  rw [closeReader, check_bind_eq_ok]
  refine and_congr_right fun hpos => ?_
  have hreaders : s.readers = 1 := by rw [h.readers, if_pos hpos]
  have hwriters : s.writers = 0 ↔ s.wrRefs = 0 := by simp [h.writers]
  split_ifs with hone
  · simp [delReader, check, hreaders, delete_eq_ok, hwriters, hone]
  · simp [hone, pure, Except.pure, eq_comm]

lemma closeWriter_eq_ok (h : s.Inv) : s.closeWriter = .ok s' ↔ 0 < s.wrRefs ∧
    (s.wrRefs = 1 → s.rdRefs = 0 → s.rdBlocked = []) ∧
      s' = { s with wrRefs := s.wrRefs - 1, writers := if s.wrRefs = 1 then 0 else s.writers } := by
  rw [closeWriter, check_bind_eq_ok]
  refine and_congr_right fun hpos => ?_
  have hwriters : s.writers = 1 := by rw [h.writers, if_pos hpos]
  have hreaders : s.readers = 0 ↔ s.rdRefs = 0 := by simp [h.readers]
  split_ifs with hone
  · simp [delWriter, check, hwriters, delete_eq_ok, hreaders, hone]
  · simp [hone, pure, Except.pure, eq_comm]

/-- Every event keeps the invariant. -/
lemma Inv.step (h : s.Inv) (hs : s.step e = .ok s') : s'.Inv := by
  cases e with
  | read t count =>
    obtain ⟨-, rfl | ⟨k, rfl⟩ | ⟨hdata, -, rfl⟩ | ⟨hdata, rfl⟩⟩ := read_eq_ok hs
    · exact h
    · exact h.setThread (by simp)
    · refine ⟨h.readers, h.writers, fun t' ht' => ?_, fun _ => hdata, h.bytes⟩
      rw [List.mem_append, List.mem_singleton]
      by_cases htt : t' = t
      · exact .inr htt
      · refine .inl (h.blocked t' ?_)
        simpa [htt] using (status_setThread (s := s) (t := t) ⟨.reading, 0⟩ t').symm.trans ht'
    · -- Nobody is entered while there are bytes in the pipe.
      refine ⟨h.readers, h.writers, h.blocked, fun hne => absurd (h.empty hne) hdata, ?_⟩
      simp only [h.bytes, List.append_assoc, List.take_append_drop]
  | write t buf =>
    obtain ⟨-, thread', rfl, hstatus⟩ := write_eq_ok hs
    refine ⟨h.readers, h.writers, fun t' ht' => ?_, fun hne => absurd rfl hne, ?_⟩
    · rw [hstatus] at ht'
      split_ifs at ht' with hin
      have hgone : s.status t' ≠ .gone := by simp [ht']
      exact absurd ⟨h.blocked t' ht', hgone⟩ hin
    · simp only [h.bytes, List.append_assoc]
  | dupReader =>
    obtain ⟨hpos, hs⟩ := check_bind_eq_ok.1 hs
    cases hs
    refine ⟨?_, h.writers, h.blocked, h.empty, h.bytes⟩
    simpa [hpos] using h.readers
  | dupWriter =>
    obtain ⟨hpos, hs⟩ := check_bind_eq_ok.1 hs
    cases hs
    refine ⟨h.readers, ?_, h.blocked, h.empty, h.bytes⟩
    simpa [hpos] using h.writers
  | closeReader =>
    obtain ⟨hpos, -, rfl⟩ := (closeReader_eq_ok h).1 hs
    refine ⟨?_, h.writers, h.blocked, h.empty, h.bytes⟩
    show (if s.rdRefs = 1 then 0 else s.readers) = if 0 < s.rdRefs - 1 then 1 else 0
    rw [h.readers]
    split_ifs <;> omega
  | closeWriter =>
    obtain ⟨hpos, -, rfl⟩ := (closeWriter_eq_ok h).1 hs
    refine ⟨h.readers, ?_, h.blocked, h.empty, h.bytes⟩
    show (if s.wrRefs = 1 then 0 else s.writers) = if 0 < s.wrRefs - 1 then 1 else 0
    rw [h.writers]
    split_ifs <;> omega
  | signal t =>
    obtain ⟨-, hs⟩ := check_bind_eq_ok.1 hs
    cases hs
    exact h.setThread (by simp)
  | handle t =>
    obtain ⟨-, hs⟩ := check_bind_eq_ok.1 hs
    cases hs
    exact h.setThread (by simp)
  | spawn t =>
    obtain ⟨-, hs⟩ := check_bind_eq_ok.1 hs
    cases hs
    exact h.setThread (by simp)
  | suspend t | resume t | exit t | reap t =>
    obtain ⟨-, rfl⟩ := move_eq_ok.1 hs
    exact h.setThread (by simp)

lemma inv_of_reachable (h : machine.Reachable s) : s.Inv := h.invariant .new fun _ _ _ h => h.step

/-- The bytes come out of the pipe in the order in which they were put in, and none is lost; a thread waits in
a read only while there is none, and it is entered in `rdBlocked`. -/
theorem fifo (h : machine.Reachable s) :
    s.written = s.taken ++ s.data ∧ ∀ t, s.status t = .reading → s.data = [] ∧ t ∈ s.rdBlocked := by
  have hinv := inv_of_reachable h
  refine ⟨hinv.bytes, fun t ht => ?_⟩
  have hmem := hinv.blocked t ht
  exact ⟨hinv.empty (List.ne_nil_of_mem hmem), hmem⟩

/-- One thread waits for another one to write. -/
def waiting : List Event := [.spawn 1, .spawn 2, .write 2 [5, 6, 7], .read 1 2, .read 1 2, .read 1 2]

theorem fifo_waiting : ∃ s, machine.Run waiting s ∧ s.status 1 = .reading ∧ s.taken = [5, 6, 7] ∧
    s.written = s.taken ++ s.data :=
  ⟨_, Machine.run_of_exec rfl, rfl, rfl, (fifo ⟨waiting, Machine.run_of_exec rfl⟩).1⟩

/-! ### Who wakes a reader -/

/-- The events that fail an assertion. -/
def Fails (s : Pipe) : Event → Prop
  | .read t count => s.status t = .running ∧ 0 < s.rdRefs ∧ s.data ≠ [] ∧ count = 0
  | .write t buf => s.status t = .running ∧ 0 < s.wrRefs ∧
      (s.data ++ buf = [] ∨ ∃ t' ∈ s.rdBlocked, s.status t' = .exited)
  | .closeReader => s.rdRefs = 1 ∧ s.wrRefs = 0 ∧ s.rdBlocked ≠ []
  | .closeWriter => s.wrRefs = 1 ∧ s.rdRefs = 0 ∧ s.rdBlocked ≠ []
  | _ => False

end Pipe

end Sesc.Files
