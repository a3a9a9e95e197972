import Sesc.Heap.Live
import Sesc.Tm.System

/-!
# The heap under transactions

`DoAllocate` and `DoFree` change the heap at once, and nothing takes this back when the
transaction is aborted.  The heap is compared with the calls of those transactions that have not
been aborted.
-/

namespace Sesc.Tm

open Lib Sesc.Trans Sesc.Heap

/-- A call of the heap by the simulated program; an allocation that fails is none. -/
inductive HeapOp
  | allocated (addr : ℕ)
  | freed (addr : ℕ)
deriving DecidableEq, Repr

/-- The addresses that are live after a call. -/
def HeapOp.apply (live : ℕ → Prop) : HeapOp → ℕ → Prop
  | allocated addr => fun a => a = addr ∨ live a
  | freed addr => fun a => a ≠ addr ∧ live a

/-- The addresses that are live after a number of calls. -/
def liveAfter (ops : List HeapOp) : ℕ → Prop := ops.foldl HeapOp.apply fun _ => False

/-- The interface and the heap.  No function reads the rest: for every transaction the list of it
and of the transactions that it is nested in, the transactions that have been aborted or are
executed again, and the calls of the heap with the transactions that they are part of. -/
structure HeapSystem where
  tm : TMInterface
  heap : HeapManager
  enclosing : Level → List Level
  undone : List Level
  ops : List (List Level × HeapOp)

/-- An event of the interface, or a call of the heap. -/
inductive HeapEvent
  | tm (e : Event)
  | doAllocate (pid : Pid) (size : ℕ)
  | doFree (pid : Pid) (addr : ℕ)
deriving DecidableEq, Repr

namespace HeapSystem

variable (w : Widths) (tracking : Bool) (s : HeapSystem)

/-- The transactions of which a call of a process is part. -/
def current (pid : Pid) : List Level := s.enclosing (s.tm.currentTransID pid)

/-- A new transaction is nested in the current one of its process. -/
def begins : Event → Level → List Level
  | .call (.processBegin pid) _ =>
    Function.update s.enclosing s.tm.globalTransactionID
      (s.tm.globalTransactionID :: s.current pid)
  | _ => s.enclosing

/-- The transaction that an event aborts, or that it lets be executed again. -/
def undoes (tm : TMInterface) : Event → Option Level
  | .next _ => match tm.frames with
    | .abortSelf id :: _ => some id
    | .rerun _ id :: _ => some id
    | _ => none
  | _ => none

def stepTM (e : Event) : Except Fault HeapSystem := do
  let tm ← s.tm.step e
  return { s with
    tm := tm
    enclosing := s.begins e
    undone := s.undone ++ (undoes s.tm e).toList }

/-- `DoAllocate`. -/
def doAllocate (pid : Pid) (size : ℕ) : Except Fault HeapSystem := do
  check .noSuchEvent (s.tm.mayCall = true)
  let r ← s.heap.allocate w size
  return { s with
    heap := r.2
    ops := if r.1 = 0 then s.ops else s.ops ++ [(s.current pid, .allocated r.1)] }

/-- The body of `DoFree`, which is empty without `TRANSACTIONAL_COMPOSITION_TRACKING`. -/
def freeIn (heap : HeapManager) (addr : ℕ) : Except Fault HeapManager :=
  if tracking then (heap.deallocate w addr).map Prod.snd else .ok heap

/-- `DoFree`. -/
def doFree (pid : Pid) (addr : ℕ) : Except Fault HeapSystem := do
  check .noSuchEvent (s.tm.mayCall = true)
  let heap ← freeIn w tracking s.heap addr
  return { s with heap := heap, ops := s.ops ++ [(s.current pid, .freed addr)] }

def step : HeapEvent → Except Fault HeapSystem
  | .tm e => s.stepTM e
  | .doAllocate pid size => s.doAllocate w pid size
  | .doFree pid addr => s.doFree w tracking pid addr

end HeapSystem

/-- The interface with a heap as a machine, in one of the two builds. -/
def heapSystem (w : Widths) (tracking : Bool) (heap : HeapManager) :
    Machine HeapSystem HeapEvent Fault where
  init :=
    { tm := .new
      heap := heap
      enclosing := fun _ => []
      undone := []
      ops := [] }
  step := HeapSystem.step w tracking

namespace HeapSystem

variable {w : Widths} {tracking : Bool} {s s' : HeapSystem} {e : HeapEvent}

/-- The calls that are part of no transaction that has been aborted or is executed again. -/
def effective (s : HeapSystem) : List HeapOp :=
  (s.ops.filter fun op => op.1.all fun id => id ∉ s.undone).map Prod.snd

/-- The live blocks are those of the code outside of transactions, of the committed transactions
and of the running ones. -/
def HeapExact (s : HeapSystem) : Prop := ∀ a, s.heap.Live a ↔ liveAfter s.effective a

/-- No transaction that has called the heap is aborted or executed again, no call of the heap is
part of one that has been, and nothing is freed in the build in which `DoFree` is empty. -/
def LeavesHeap (tracking : Bool) (s : HeapSystem) : HeapEvent → Prop
  | .tm e => ∀ id ∈ undoes s.tm e, ∀ op ∈ s.ops, id ∉ op.1
  | .doAllocate pid _ => ∀ id ∈ s.current pid, id ∉ s.undone
  | .doFree pid addr => (∀ id ∈ s.current pid, id ∉ s.undone) ∧ (tracking = true ∨ ¬s.heap.Live addr)

lemma liveAfter_concat {ops : List HeapOp} {op : HeapOp} :
    liveAfter (ops ++ [op]) = op.apply (liveAfter ops) := by
  rw [liveAfter, List.foldl_append]
  rfl

/-- All calls are effective, and the live blocks are theirs. -/
structure HeapInv (w : Widths) (s : HeapSystem) : Prop where
  within : s.heap.Within w
  effective : ∀ op ∈ s.ops, ∀ id ∈ op.1, id ∉ s.undone
  live : ∀ a, s.heap.Live a ↔ liveAfter (s.ops.map Prod.snd) a

lemma HeapInv.exact (hs : s.HeapInv w) : s.HeapExact := by
  have heffective : s.effective = s.ops.map Prod.snd := by
    refine congrArg (List.map Prod.snd) (List.filter_eq_self.2 fun op hop => ?_)
    exact List.all_eq_true.2 fun id hid => decide_eq_true (hs.effective op hop id hid)
  intro a
  rw [heffective]
  exact hs.live a

/-- A call of the heap is noted. -/
lemma HeapInv.note {heap : HeapManager} {pid : Pid} {op : HeapOp} (hs : s.HeapInv w)
    (hheap : heap.Within w) (hcurrent : ∀ id ∈ s.current pid, id ∉ s.undone)
    (hlive : ∀ a, heap.Live a ↔ op.apply s.heap.Live a) :
    HeapInv w { s with heap := heap, ops := s.ops ++ [(s.current pid, op)] } where
  within := hheap
  effective op' hop' := by
    rcases List.mem_append.1 hop' with hop' | hop'
    · exact hs.effective op' hop'
    · rw [List.mem_singleton.1 hop']
      exact hcurrent
  live a := by
    have hsame : s.heap.Live = liveAfter (s.ops.map Prod.snd) := funext fun a => propext (hs.live a)
    dsimp only
    rw [hlive, hsame, List.map_append, List.map_singleton, liveAfter_concat]

lemma HeapInv.doAllocate {pid : Pid} {size : ℕ} (hs : s.HeapInv w)
    (hcurrent : ∀ id ∈ s.current pid, id ∉ s.undone) (h : s.doAllocate w pid size = .ok s') :
    s'.HeapInv w := by
  obtain ⟨-, h⟩ := check_bind_eq_ok.1 h
  obtain ⟨r, hr, h⟩ := bind_eq_ok.1 h
  cases h
  obtain ⟨hwithin, hzero, hnew⟩ := hs.within.allocate r hr
  by_cases hfails : r.1 = 0
  · rw [if_pos hfails, hzero hfails]
    exact hs
  · rw [if_neg hfails]
    exact hs.note hwithin hcurrent (hnew hfails)

lemma HeapInv.doFree {pid : Pid} {addr : ℕ} (hs : s.HeapInv w)
    (hcurrent : ∀ id ∈ s.current pid, id ∉ s.undone)
    (hbuild : tracking = true ∨ ¬s.heap.Live addr) (h : s.doFree w tracking pid addr = .ok s') :
    s'.HeapInv w := by
  obtain ⟨-, h⟩ := check_bind_eq_ok.1 h
  obtain ⟨heap, hheap, h⟩ := bind_eq_ok.1 h
  cases h
  cases tracking with
  | true =>
    rw [freeIn, if_pos rfl] at hheap
    cases hr : s.heap.deallocate w addr with
    | error f =>
      rw [hr] at hheap
      cases hheap
    | ok r =>
      rw [hr] at hheap
      cases hheap
      obtain ⟨hwithin, -, hfreed⟩ := hs.within.deallocate r hr
      exact hs.note hwithin hcurrent hfreed
  | false =>
    -- nothing is freed, and nothing should be
    cases hheap
    have hdead : ¬s.heap.Live addr := hbuild.resolve_left Bool.false_ne_true
    refine hs.note hs.within hcurrent fun a => (and_iff_right_of_imp fun ha => ?_).symm
    rintro rfl
    exact hdead ha

lemma HeapInv.stepTM {e : Event} (hs : s.HeapInv w)
    (hquiet : ∀ id ∈ undoes s.tm e, ∀ op ∈ s.ops, id ∉ op.1) (h : s.stepTM e = .ok s') :
    s'.HeapInv w := by
  obtain ⟨tm, -, h⟩ := bind_eq_ok.1 h
  cases h
  refine ⟨hs.within, fun op hop id hid hundone => ?_, hs.live⟩
  rcases List.mem_append.1 hundone with hundone | hundone
  · exact hs.effective op hop id hid hundone
  · exact hquiet id (Option.mem_toList.1 hundone) op hop hid

/-- The heap is right in every run in which only transactions that have not called it are
aborted. -/
theorem heapExact_of_runWhere (w : Widths) (tracking : Bool) (base size : ℕ) (heap : HeapManager)
    (hnew : HeapManager.new w base size = .ok heap) (hfits : base + size < 2 ^ w.vaddrBits)
    (es : List HeapEvent) (s : HeapSystem)
    (h : (heapSystem w tracking heap).RunWhere (LeavesHeap tracking) es s) : s.HeapExact := by
  obtain ⟨hwithin, hnone⟩ := HeapManager.Within.new hnew hfits
  have hinv : s.HeapInv w := by
    refine h.invariant ⟨hwithin, fun _ hop => (nomatch hop), fun a => iff_of_false (hnone a) id⟩ ?_
    intro s e s' hs hquiet hstep
    cases e with
    | tm e => exact hs.stepTM hquiet hstep
    | doAllocate pid size => exact hs.doAllocate hquiet hstep
    | doFree pid addr => exact hs.doFree hquiet.1 hquiet.2 hstep
  exact hinv.exact

/-! ### Transactions that are aborted -/

instance decidableLeavesHeap (tracking : Bool) (s : HeapSystem) :
    (e : HeapEvent) → Decidable (LeavesHeap tracking s e)
  | .tm e => inferInstanceAs (Decidable (∀ id ∈ undoes s.tm e, ∀ op ∈ s.ops, id ∉ op.1))
  | .doAllocate pid _ => inferInstanceAs (Decidable (∀ id ∈ s.current pid, id ∉ s.undone))
  | .doFree pid addr => inferInstanceAs (Decidable ((∀ id ∈ s.current pid, id ∉ s.undone) ∧
      (tracking = true ∨ ¬s.heap.Live addr)))

/-- The abort of a transaction without children. -/
def abortEvents (id : Level) : List HeapEvent :=
  [.tm (.call (.abortTransaction id) .none), .tm (.next .none), .tm (.next .none)]

/-- Process 0 allocates outside of transactions and in transaction 1, where it also frees the first
block, and transaction 2 of process 1 is aborted. -/
def quietRun : List HeapEvent :=
  [HeapEvent.doAllocate 0 100, HeapEvent.tm (.call (.processBegin 0) .none),
    HeapEvent.doAllocate 0 64, HeapEvent.tm (.call (.processBegin 1) .none)] ++ abortEvents 2 ++
    [HeapEvent.doFree 0 64]

/-- The block of transaction 1 is live. -/
theorem heapExact_quietRun : ∃ heap s, HeapManager.new .narrow 64 640 = .ok heap ∧
    (heapSystem .narrow true heap).Run quietRun s ∧ s.undone = [2] ∧
    s.effective = [.allocated 64, .allocated 192, .freed 64] ∧ s.HeapExact := by
  obtain ⟨heap, hnew⟩ : ∃ heap, HeapManager.new .narrow 64 640 = .ok heap := ⟨_, rfl⟩
  have hrun : succeeds (HeapManager.new .narrow 64 640) (fun heap =>
      succeeds (((heapSystem .narrow true heap).guarded (fun s e => decide (LeavesHeap true s e))
        .noSuchEvent).exec (heapSystem .narrow true heap).init quietRun) fun s =>
          decide (s.undone = [2] ∧
            s.effective = [.allocated 64, .allocated 192, .freed 64])) = true := by
    decide +kernel
  obtain ⟨heap', hnew', htest⟩ := succeeds_iff.1 hrun
  cases hnew'.symm.trans hnew
  obtain ⟨s, hs, htest⟩ := succeeds_iff.1 htest
  obtain ⟨hundone, heffective⟩ := of_decide_eq_true htest
  have hwhere : (heapSystem .narrow true heap).RunWhere (LeavesHeap true) quietRun s :=
    (Machine.run_of_exec hs).of_guarded.mono fun _ _ => of_decide_eq_true
  exact ⟨heap, s, hnew, hwhere.run, hundone, heffective,
    heapExact_of_runWhere .narrow true 64 640 heap hnew (by decide) quietRun s hwhere⟩

/-- Transaction 1 allocates a block and is aborted. -/
def leakRun : List HeapEvent :=
  [.tm (.call (.processBegin 0) .none), .doAllocate 0 64] ++ abortEvents 1

/-- Transaction 1 frees a block, is aborted, and begins again as transaction 2. -/
def freedRun : List HeapEvent :=
  [HeapEvent.doAllocate 0 64, HeapEvent.tm (.call (.processBegin 0) .none),
    HeapEvent.doFree 0 64] ++ abortEvents 1 ++ [HeapEvent.tm (.call (.processBegin 0) .none)]

/-- In both builds the block of the aborted transaction remains allocated.  With
`TRANSACTIONAL_COMPOSITION_TRACKING` the block that it has freed is gone, and to free it again is
an error. -/
theorem not_heapExact_abortedRun : ∃ heap, HeapManager.new .narrow 64 640 = .ok heap ∧
    (∀ tracking, ∃ s, (heapSystem .narrow tracking heap).Run leakRun s ∧ s.effective = [] ∧
      s.heap.Live 64 ∧ ¬s.HeapExact) ∧
    ∃ s, (heapSystem .narrow true heap).Run freedRun s ∧ s.effective = [.allocated 64] ∧
      ¬s.heap.Live 64 ∧ ¬s.HeapExact ∧ s.step .narrow true (.doFree 0 64) = .error .assertion := by
  obtain ⟨heap, hnew⟩ : ∃ heap, HeapManager.new .narrow 64 640 = .ok heap := ⟨_, rfl⟩
  have hleak : succeeds (HeapManager.new .narrow 64 640) (fun heap =>
      decide (∀ tracking, succeeds ((heapSystem .narrow tracking heap).exec
        (heapSystem .narrow tracking heap).init leakRun) (fun s =>
          decide (s.effective = [] ∧ s.heap.Live 64)) = true)) = true := by
    decide +kernel
  have hfreed : succeeds (HeapManager.new .narrow 64 640) (fun heap =>
      succeeds ((heapSystem .narrow true heap).exec (heapSystem .narrow true heap).init freedRun)
        fun s => decide (s.effective = [.allocated 64] ∧ ¬s.heap.Live 64) &&
          failsWith (s.step .narrow true (.doFree 0 64)) .assertion) = true := by
    decide +kernel
  refine ⟨heap, hnew, fun tracking => ?_, ?_⟩
  · obtain ⟨heap', hnew', htest⟩ := succeeds_iff.1 hleak
    cases hnew'.symm.trans hnew
    obtain ⟨s, hs, htest⟩ := succeeds_iff.1 (of_decide_eq_true htest tracking)
    obtain ⟨heffective, hlive⟩ := of_decide_eq_true htest
    refine ⟨s, Machine.run_of_exec hs, heffective, hlive, fun h => ?_⟩
    have hnone := (h 64).1 hlive
    rw [heffective] at hnone
    exact hnone
  · obtain ⟨heap', hnew', htest⟩ := succeeds_iff.1 hfreed
    cases hnew'.symm.trans hnew
    obtain ⟨s, hs, htest⟩ := succeeds_iff.1 htest
    obtain ⟨htest, hfails⟩ := Bool.and_eq_true_iff.1 htest
    obtain ⟨heffective, hdead⟩ := of_decide_eq_true htest
    refine ⟨s, Machine.run_of_exec hs, heffective, hdead, fun h => hdead ((h 64).2 ?_),
      failsWith_iff.1 hfails⟩
    rw [heffective]
    exact .inl rfl

end HeapSystem

end Sesc.Tm
