import Sesc.Lib.Check
import Sesc.Lib.Machine
import Sesc.Lib.Ring
import Sesc.Messages

/-!
# The fast queue

`FastQueue` is a queue in a ring whose size is a power of two, with an interface to go over its elements
by position.  A position is the end when it is the next one to be written; in a full ring that is also
the position of the oldest element.

A ring has at most `2 ^ 18` cells, so the counters, which have 32 bits, do not overflow.
-/

namespace Sesc.Core

open Lib

structure FastQueue (α : Type*) where
  /-- The cells, which are not initialized when they are allocated. -/
  pipe : ℕ → Option α
  pipeMask : ℕ
  start : ℕ
  end_ : ℕ
  nElems : ℕ

namespace FastQueue

variable {α : Type*}

/-- The loop that finds the closest power of two; it makes less than `size` steps. -/
def closestPower2 : ℕ → ℕ → ℕ
  | 0, size => size
  | steps + 1, size => if size &&& (size - 1) = 0 then size else closestPower2 steps (size + 1)

def new (size : ℕ) : Except Fault (FastQueue α) := do
  check .assertion (size ≠ 0)
  check .assertion (size < 256 * 1024)
  return { pipe := fun _ => none, pipeMask := closestPower2 size size - 1, start := 0, end_ := 0,
           nElems := 0 }

variable (q : FastQueue α)

def push (d : α) : Except Fault (FastQueue α) := do
  check .assertion (q.nElems ≤ q.pipeMask)
  check .assertion (q.end_ = (q.start + q.nElems) &&& q.pipeMask)
  return { q with
    pipe := Function.update q.pipe q.end_ (some d)
    end_ := (q.end_ + 1) &&& q.pipeMask
    nElems := q.nElems + 1 }

/-- The contents of a cell; reading one that has not been written is undefined. -/
def read (id : ℕ) : Except Fault α := (q.pipe id).elim (.error .assertion) .ok

def top : Except Fault α := do
  check .assertion (q.nElems ≠ 0)
  q.read q.start

def pop : FastQueue α :=
  { q with nElems := q.nElems - 1, start := (q.start + 1) &&& q.pipeMask }

def getIdFromTop (i : ℕ) : Except Fault ℕ := do
  check .assertion (i < q.nElems)
  return (q.start + i) &&& q.pipeMask

def getNextId (id : ℕ) : ℕ := (id + 1) &&& q.pipeMask

def isEnd (id : ℕ) : Bool := id = q.end_

def getData (id : ℕ) : Except Fault α := do
  check .assertion (id ≤ q.pipeMask)
  check .assertion (id ≠ q.end_)
  q.read id

def size : ℕ := q.nElems

/-- The elements from a position until the end, by a loop that tests for the end first; `none` when an
assertion fails or the loop is not left within the steps. -/
def visit : ℕ → ℕ → Option (List α)
  | 0, _ => none
  | steps + 1, id =>
    if q.isEnd id then some []
    else (q.getData id).toOption.bind fun d => (visit steps (q.getNextId id)).map (d :: ·)

/-- The same by the loop of `GProcessor::replay`, which tests for the end after each element. -/
def visitROB : ℕ → ℕ → Option (List α)
  | 0, _ => none
  | steps + 1, id => (q.getData id).toOption.bind fun d =>
    let next := q.getNextId id
    if q.isEnd next then some [d] else (visitROB steps next).map (d :: ·)

/-- What is done to a queue; an element is removed after it has been read. -/
inductive QueueEvent (α : Type*)
  | push (d : α)
  | pop
deriving DecidableEq, Repr

def step (q : FastQueue α) : QueueEvent α → Except Fault (FastQueue α)
  | .push d => q.push d
  | .pop => do
    check .assertion (q.nElems ≠ 0)
    return q.pop

/-- The use of a queue. -/
def uses (q : FastQueue α) : Machine (FastQueue α) (QueueEvent α) Fault := ⟨q, step⟩

/-- The elements that have been pushed and not been popped, the oldest first. -/
def contents (es : List (QueueEvent α)) : List α :=
  es.foldl (fun xs e => match e with
    | .push d => xs ++ [d]
    | .pop => xs.tail) []

/-- Going over the elements from the oldest one on, in either loop, visits the given ones. -/
def Visits (xs : List α) : Prop :=
  ∀ id, q.getIdFromTop 0 = .ok id →
    (∃ steps, q.visit steps id = some xs) ∧ ∃ steps, q.visitROB steps id = some xs

/-! ## The size of the ring -/

lemma closestPower2_spec {k steps : ℕ} : ∀ {size}, 0 < size → size ≤ 2 ^ k → 2 ^ k < size + steps →
    ∃ j, closestPower2 steps size = 2 ^ j ∧ size ≤ 2 ^ j ∧ 2 ^ j < size + steps := by
  induction steps with
  | zero =>
    intro size _ hle hlt
    omega
  | succ steps ih =>
    intro size hpos hle hlt
    rw [closestPower2]
    by_cases hpow : size &&& (size - 1) = 0
    · obtain ⟨j, hj⟩ := (Nat.and_sub_one_eq_zero_iff_isPowerOfTwo hpos.ne').1 hpow
      rw [if_pos hpow]
      exact ⟨j, hj, hj.le, by omega⟩
    · have hne : size ≠ 2 ^ k := by
        rintro rfl
        exact hpow ((Nat.and_sub_one_eq_zero_iff_isPowerOfTwo hpos.ne').2 ⟨k, rfl⟩)
      obtain ⟨j, hj, hle, hlt⟩ := ih (Nat.succ_pos size) (by omega) (by omega)
      rw [if_neg hpow]
      exact ⟨j, hj, (Nat.le_succ size).trans hle, by omega⟩

/-- The loop finds a power of two, since there is one below `2 * size`. -/
lemma exists_closestPower2 {size : ℕ} (hpos : 0 < size) :
    ∃ j, closestPower2 size size = 2 ^ j ∧ size ≤ 2 ^ j ∧ 2 ^ j < size + size := by
  rcases Nat.lt_or_ge 1 size with hsize | hsize
  · have hlow : 2 ^ Nat.log2 (size - 1) ≤ size - 1 := Nat.log2_self_le (by omega)
    have hhigh : size - 1 < 2 ^ (Nat.log2 (size - 1) + 1) := Nat.lt_log2_self
    have hsucc : 2 ^ (Nat.log2 (size - 1) + 1) = 2 ^ Nat.log2 (size - 1) * 2 := pow_succ _ _
    exact closestPower2_spec (k := Nat.log2 (size - 1) + 1) hpos (by omega) (by omega)
  · exact closestPower2_spec (k := 0) hpos hsize (by omega)

/-! ## The elements in the ring -/

/-- The ring holds the given elements. -/
structure Holds (xs : List α) : Prop where
  mask : ∃ k, q.pipeMask + 1 = 2 ^ k
  start : q.start ≤ q.pipeMask
  end_ : q.end_ = (q.start + q.nElems) % (q.pipeMask + 1)
  nElems : q.nElems = xs.length
  room : q.nElems ≤ q.pipeMask + 1
  cells : Ring.window q.pipe (q.pipeMask + 1) q.start q.nElems = xs.map some

variable {q} {xs : List α} {d : α} {q' : FastQueue α}

lemma Holds.and_pipeMask (h : q.Holds xs) (i : ℕ) : i &&& q.pipeMask = i % (q.pipeMask + 1) := by
  obtain ⟨k, hk⟩ := h.mask
  have hmask : q.pipeMask = 2 ^ k - 1 := by omega
  rw [hk, hmask, Nat.and_two_pow_sub_one_eq_mod]

lemma holds_new {size : ℕ} (h : new size = .ok q) : q.Holds [] := by
  simp only [new, check_bind_eq_ok] at h
  obtain ⟨hne, -, h⟩ := h
  obtain ⟨j, hj, -⟩ := exists_closestPower2 (Nat.pos_of_ne_zero hne)
  cases h
  have hpos : 0 < 2 ^ j := Nat.two_pow_pos j
  refine ⟨⟨j, ?_⟩, Nat.zero_le _, (Nat.zero_mod _).symm, rfl, Nat.zero_le _, rfl⟩
  show closestPower2 size size - 1 + 1 = 2 ^ j
  omega

/-- A ring has fewer than two cells for each element that is asked for. -/
lemma pipeMask_lt_of_new {size : ℕ} (h : new size = .ok q) : q.pipeMask + 1 < size + size := by
  simp only [new, check_bind_eq_ok] at h
  obtain ⟨hne, -, h⟩ := h
  obtain ⟨j, hj, hle, hlt⟩ := exists_closestPower2 (Nat.pos_of_ne_zero hne)
  cases h
  show closestPower2 size size - 1 + 1 < size + size
  omega

lemma Holds.push (h : q.Holds xs) (hpush : q.push d = .ok q') : q'.Holds (xs ++ [d]) := by
  simp only [FastQueue.push, check_bind_eq_ok] at hpush
  obtain ⟨hroom, -, hpush⟩ := hpush
  cases hpush
  refine ⟨h.mask, h.start, ?_, ?_, Nat.succ_le_succ hroom, ?_⟩
  · show (q.end_ + 1) &&& q.pipeMask = (q.start + (q.nElems + 1)) % (q.pipeMask + 1)
    rw [h.and_pipeMask, h.end_, Nat.mod_add_mod, Nat.add_assoc]
  · show q.nElems + 1 = (xs ++ [d]).length
    rw [List.length_append, h.nElems, List.length_singleton]
  · show Ring.window (Function.update q.pipe q.end_ (some d)) (q.pipeMask + 1) q.start
      (q.nElems + 1) = (xs ++ [d]).map some
    rw [h.end_, Ring.window_succ_update _ (Nat.lt_succ_of_le hroom), h.cells, List.map_append,
      List.map_singleton]

/-- A queue with elements is taken apart into the oldest one and the others. -/
lemma Holds.exists_cons (h : q.Holds xs) (hne : q.nElems ≠ 0) :
    ∃ d rest, xs = d :: rest ∧ q.pipe q.start = some d ∧ q.pop.Holds rest := by
  rcases xs with _ | ⟨d, rest⟩
  · exact absurd h.nElems hne
  · have hn : q.nElems = rest.length + 1 := h.nElems
    have hcells := h.cells
    rw [hn, Ring.window_succ, List.map_cons, List.cons.injEq,
      Nat.mod_eq_of_lt (Nat.lt_succ_of_le h.start)] at hcells
    have hpred : q.pop.nElems = rest.length := by
      show q.nElems - 1 = rest.length
      rw [hn, Nat.add_sub_cancel]
    have hstart : q.pop.start = (q.start + 1) % (q.pipeMask + 1) := h.and_pipeMask _
    refine ⟨d, rest, rfl, hcells.1, h.mask, ?_, ?_, hpred, ?_, ?_⟩
    · rw [hstart]
      exact Nat.le_of_lt_succ (Nat.mod_lt _ (Nat.succ_pos _))
    · rw [hpred, hstart]
      show q.end_ = ((q.start + 1) % (q.pipeMask + 1) + rest.length) % (q.pipeMask + 1)
      rw [Nat.mod_add_mod, h.end_, hn, Nat.add_assoc, Nat.add_comm 1]
    · have hroom := h.room
      rw [hn] at hroom
      rw [hpred]
      exact Nat.le_of_succ_le hroom
    · rw [hpred, hstart]
      exact hcells.2

lemma contents_snoc_push (es : List (QueueEvent α)) (d : α) :
    contents (es ++ [.push d]) = contents es ++ [d] := List.foldl_append

lemma contents_snoc_pop (es : List (QueueEvent α)) :
    contents (es ++ [.pop]) = (contents es).tail := List.foldl_append

lemma holds_run {s : FastQueue α} {es : List (QueueEvent α)} (hq : q.Holds [])
    (h : q.uses.Run es s) : s.Holds (contents es) := by
  induction h with
  | nil => exact hq
  | @snoc es s s' e hrun _ hstep ih =>
    cases e with
    | push d =>
      rw [contents_snoc_push]
      exact ih.push hstep
    | pop =>
      obtain ⟨hne, hpop⟩ := check_bind_eq_ok.1 hstep
      cases hpop
      obtain ⟨d, rest, hxs, -, hrest⟩ := ih.exists_cons hne
      rw [contents_snoc_pop, hxs]
      exact hrest

/-! ## Going over the elements -/

lemma visit_pop (steps : ℕ) : ∀ id, q.pop.visit steps id = q.visit steps id := by
  induction steps with
  | zero => exact fun _ => rfl
  | succ steps ih =>
    intro id
    rw [visit, visit]
    simp only [ih]
    rfl

lemma visitROB_pop (steps : ℕ) : ∀ id, q.pop.visitROB steps id = q.visitROB steps id := by
  induction steps with
  | zero => exact fun _ => rfl
  | succ steps ih =>
    intro id
    rw [visitROB, visitROB]
    simp only [ih]
    rfl

/-- The oldest element is at the end exactly when the ring is empty or full. -/
lemma Holds.isEnd_start (h : q.Holds xs) :
    q.isEnd q.start = true ↔ xs = [] ∨ xs.length = q.pipeMask + 1 := by
  have hstart := h.start
  have hroom := h.room
  have hend : q.end_ = (q.start + xs.length) % (q.pipeMask + 1) := by rw [h.end_, h.nElems]
  rw [h.nElems] at hroom
  rw [isEnd, decide_eq_true_eq, hend, ← List.length_eq_zero_iff]
  rcases Nat.lt_or_ge xs.length (q.pipeMask + 1) with hlt | hge
  · rcases Nat.eq_zero_or_pos xs.length with hzero | hpos
    · simp [hzero, Nat.mod_eq_of_lt (Nat.lt_succ_of_le hstart)]
    · have hne := Ring.add_mod_ne q.start hpos hlt
      rw [Nat.add_zero, Nat.mod_eq_of_lt (Nat.lt_succ_of_le hstart)] at hne
      simp only [hne, false_iff]
      omega
  · have hfull : xs.length = q.pipeMask + 1 := Nat.le_antisymm hroom hge
    rw [hfull, Nat.add_mod_right, Nat.mod_eq_of_lt (Nat.lt_succ_of_le hstart)]
    simp

lemma Holds.getData_start (h : q.Holds (d :: xs)) (hroom : (d :: xs).length ≤ q.pipeMask) :
    q.isEnd q.start = false ∧ q.getData q.start = .ok d := by
  have hne : q.isEnd q.start = false := by
    rw [Bool.eq_false_iff, Ne, h.isEnd_start, not_or]
    exact ⟨List.cons_ne_nil _ _, by omega⟩
  have hpos : q.nElems ≠ 0 := by simp [h.nElems]
  obtain ⟨_, _, heq, hcell, -⟩ := h.exists_cons hpos
  cases heq
  refine ⟨hne, ?_⟩
  rw [getData, check_bind h.start, check_bind (of_decide_eq_false hne), read, hcell]
  rfl

/-- Until the ring is full, the loop that tests first visits all elements. -/
lemma Holds.visit_start (h : q.Holds xs) (hroom : xs.length ≤ q.pipeMask) :
    q.visit (xs.length + 1) q.start = some xs := by
  induction xs generalizing q with
  | nil => rw [visit, if_pos (h.isEnd_start.2 (.inl rfl))]
  | cons d xs ih =>
    obtain ⟨hend, hdata⟩ := h.getData_start hroom
    have hpos : q.nElems ≠ 0 := by simp [h.nElems]
    obtain ⟨_, _, heq, -, hrest⟩ := h.exists_cons hpos
    cases heq
    have hih := ih hrest (Nat.le_of_succ_le hroom)
    rw [visit_pop] at hih
    rw [visit, hend, hdata, List.length_cons]
    show (q.visit (xs.length + 1) q.pop.start).map (d :: ·) = some (d :: xs)
    rw [hih]
    rfl

/-- The same for the loop that tests after each element. -/
lemma Holds.visitROB_start (h : q.Holds xs) (hne : xs ≠ []) (hroom : xs.length ≤ q.pipeMask) :
    q.visitROB xs.length q.start = some xs := by
  induction xs generalizing q with
  | nil => exact absurd rfl hne
  | cons d xs ih =>
    obtain ⟨-, hdata⟩ := h.getData_start hroom
    have hpos : q.nElems ≠ 0 := by simp [h.nElems]
    obtain ⟨_, _, heq, -, hrest⟩ := h.exists_cons hpos
    cases heq
    have hend := hrest.isEnd_start
    rw [List.length_cons, visitROB, hdata]
    show (if q.isEnd q.pop.start then some [d]
      else (q.visitROB xs.length q.pop.start).map (d :: ·)) = some (d :: xs)
    rcases eq_or_ne xs [] with rfl | hxs
    · exact if_pos (hend.2 (.inl rfl))
    · have hih := ih hrest hxs (Nat.le_of_succ_le hroom)
      rw [visitROB_pop] at hih
      have hlt : ¬(xs = [] ∨ xs.length = q.pipeMask + 1) := by
        rw [not_or]
        exact ⟨hxs, by rw [List.length_cons] at hroom; omega⟩
      have hnot : ¬q.isEnd q.pop.start = true := fun h => hlt (hend.1 h)
      rw [if_neg hnot, hih]
      rfl

lemma Holds.visits_iff (h : q.Holds xs) : q.Visits xs ↔ xs.length ≠ q.pipeMask + 1 := by
  have hstart : (q.start + 0) &&& q.pipeMask = q.start := by
    rw [h.and_pipeMask, Nat.add_zero, Nat.mod_eq_of_lt (Nat.lt_succ_of_le h.start)]
  constructor
  · intro hvisits hfull
    have hpos : 0 < q.nElems := by
      rw [h.nElems, hfull]
      exact Nat.succ_pos _
    have hend : q.isEnd q.start = true := h.isEnd_start.2 (.inr hfull)
    have hid : q.getIdFromTop 0 = .ok q.start := by
      rw [getIdFromTop, check_bind hpos, hstart]
      rfl
    obtain ⟨⟨steps, hsteps⟩, -⟩ := hvisits _ hid
    cases steps with
    | zero => cases hsteps
    | succ steps =>
      rw [visit, if_pos hend, Option.some.injEq] at hsteps
      rw [← hsteps] at hfull
      cases hfull
  · intro hfull id hid
    obtain ⟨hpos, hid⟩ := check_bind_eq_ok.1 hid
    rw [hstart] at hid
    cases hid
    have hroom := h.room
    have hlength := h.nElems
    have hne : xs ≠ [] := List.length_pos_iff.1 (hlength ▸ hpos)
    have hle : xs.length ≤ q.pipeMask := by omega
    exact ⟨⟨_, h.visit_start hle⟩, _, h.visitROB_start hne hle⟩

/-- After every sequence of pushes and pops, the queue has the elements in order; going over them works
exactly when the ring is not full. -/
theorem fifo_visits_iff {size : ℕ} {s : FastQueue α} {es : List (QueueEvent α)}
    (hnew : new size = .ok q) (h : q.uses.Run es s) :
    s.size = (contents es).length ∧ (∀ d, s.top = .ok d ↔ (contents es).head? = some d) ∧
    (s.Visits (contents es) ↔ (contents es).length ≠ s.pipeMask + 1) := by
  have hs := holds_run (holds_new hnew) h
  refine ⟨hs.nElems, fun d => ?_, hs.visits_iff⟩
  rw [top, check_bind_eq_ok]
  constructor
  · rintro ⟨hne, hread⟩
    obtain ⟨d', rest, hxs, hcell, -⟩ := hs.exists_cons hne
    rw [read, hcell] at hread
    cases hread
    rw [hxs, List.head?_cons]
  · intro hhead
    obtain ⟨rest, hxs⟩ := List.head?_eq_some_iff.1 hhead
    have hne : s.nElems ≠ 0 := by
      rw [hs.nElems, hxs, List.length_cons]
      exact Nat.succ_ne_zero _
    obtain ⟨d', rest', hxs', hcell, -⟩ := hs.exists_cons hne
    rw [hxs] at hxs'
    cases hxs'
    refine ⟨hne, ?_⟩
    rw [read, hcell]
    rfl

/-- A queue of size 3 has four cells; here the last element is in the first of them. -/
theorem fifo_visits_iff_wrapped : ∃ q s : FastQueue ℕ, new 3 = .ok q ∧
    q.uses.Run [.push 1, .push 2, .push 3, .pop, .push 4, .pop, .push 5] s ∧ s.end_ = 1 ∧
    s.top = .ok 3 ∧ s.Visits [3, 4, 5] := by
  obtain ⟨q, hq⟩ : ∃ q : FastQueue ℕ, new 3 = .ok q := ⟨_, rfl⟩
  obtain ⟨s, hrun, hend, hmask⟩ : ∃ s : FastQueue ℕ,
      q.uses.Run [.push 1, .push 2, .push 3, .pop, .push 4, .pop, .push 5] s ∧ s.end_ = 1 ∧
        s.pipeMask = 3 := by
    cases hq
    exact ⟨_, Machine.run_of_exec rfl, rfl, rfl⟩
  obtain ⟨-, htop, hvisits⟩ := fifo_visits_iff hq hrun
  exact ⟨q, s, hq, hrun, hend, (htop 3).2 rfl, hvisits.2 (by rw [hmask]; decide)⟩

/-- A ring of one cell is full with one element, and no position of it is before the end. -/
theorem not_fifo_visits : ∃ q s : FastQueue ℕ, new 1 = .ok q ∧ q.uses.Run [.push 5] s ∧
    s.top = .ok 5 ∧ s.getIdFromTop 0 = .ok 0 ∧ s.visit 1 0 = some [] ∧
    s.getData 0 = .error .assertion ∧ ¬s.Visits [5] := by
  refine ⟨_, _, rfl, Machine.run_of_exec rfl, rfl, rfl, rfl, rfl, fun h => ?_⟩
  obtain ⟨⟨steps, hsteps⟩, -⟩ := h 0 rfl
  cases steps with
  | zero => cases hsteps
  | succ steps => cases hsteps

end FastQueue

end Sesc.Core
