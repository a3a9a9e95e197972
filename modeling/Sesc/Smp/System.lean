import Sesc.Smp.Coherence

/-!
# The caches and the bus

A cache that allocates a line may have to evict another one; nothing else relates two lines.  Which line
`findLine2Replace` finds is left open.
-/

namespace Sesc.Smp

open Lib Mshr

/-- What `findLine2Replace` finds. -/
inductive Victim
  /-- All lines of the set are locked. -/
  | none
  /-- A line that is not valid. -/
  | invalid
  | line (rpl : Addr)
deriving DecidableEq, Repr

/-- The lines of the memory. -/
abbrev System (n : ℕ) := Addr → Line n

inductive Event (n : ℕ)
  | access (c : Fin n) (addr : Addr) (memOp : MemOperation)
  | run (c : Fin n) (addr : Addr)
  | send (c : Fin n) (addr : Addr) (victim : Victim)
  /-- `doAllocateLine` that calls `allocateLine` once more. -/
  | retryAllocate (c : Fin n) (addr : Addr) (victim : Victim)
  /-- `doAllocateLine` after the line `rpl` has given way. -/
  | doAllocateLine (c : Fin n) (rpl : Addr)
  | bus (c : Fin n) (addr : Addr)
  | receive (c d : Fin n) (addr : Addr)
  | upperInvalidated (d : Fin n) (addr : Addr)
  | ack (c d : Fin n) (addr : Addr)
  | memory (c : Fin n) (addr : Addr)
  | answer (c : Fin n) (addr : Addr)
deriving DecidableEq, Repr

namespace System

variable {n : ℕ} (upperCaches : ℕ) (s : System n)

def onLine (addr : Addr) (e : LineEvent n) : Except Fault (System n) := do
  let L ← (s addr).step upperCaches e
  .ok (Function.update s addr L)

def allocateLine (c : Fin n) (addr : Addr) : Victim → Except Fault (Line.Allocated × System n)
  | .none => .ok (.retry, s)
  | .invalid => .ok (.line, s)
  | .line rpl => do
    check .client (rpl ≠ addr)
    if upperCaches = 0 then do
      let s ← s.onLine upperCaches rpl (.evict c)
      .ok (.line, s)
    else do
      let s ← s.onLine upperCaches rpl (.startEviction c addr)
      .ok (.waiting rpl, s)

def send (c : Fin n) (addr : Addr) (victim : Victim) : Except Fault (System n) :=
  if ((s addr).state c).isValid then s.onLine upperCaches addr (.send c .line)
  else do
    let (allocated, s) ← s.allocateLine upperCaches c addr victim
    s.onLine upperCaches addr (.send c allocated)

def retryAllocate (c : Fin n) (addr : Addr) (victim : Victim) : Except Fault (System n) := do
  let (allocated, s) ← s.allocateLine upperCaches c addr victim
  s.onLine upperCaches addr (.retryAllocate c allocated)

def doAllocateLine (c : Fin n) (rpl : Addr) : Except Fault (System n) :=
  match (s rpl).replacing c with
  | none => .error .client
  | some addr => do
    let s ← s.onLine upperCaches rpl (.finishEviction c)
    s.onLine upperCaches addr (.reserve c rpl)

def step : Event n → Except Fault (System n)
  | .access c addr memOp => s.onLine upperCaches addr (.access c memOp)
  | .run c addr => s.onLine upperCaches addr (.run c)
  | .send c addr victim => s.send upperCaches c addr victim
  | .retryAllocate c addr victim => s.retryAllocate upperCaches c addr victim
  | .doAllocateLine c rpl => s.doAllocateLine upperCaches c rpl
  | .bus c addr => s.onLine upperCaches addr (.bus c)
  | .receive c d addr => s.onLine upperCaches addr (.receive c d)
  | .upperInvalidated d addr => s.onLine upperCaches addr (.upperInvalidated d)
  | .ack c d addr => s.onLine upperCaches addr (.ack c d)
  | .memory c addr => s.onLine upperCaches addr (.memory c)
  | .answer c addr => s.onLine upperCaches addr (.answer c)

end System

/-- `n` caches with their bus, each below `upperCaches` other caches. -/
def machine (n upperCaches : ℕ) : Machine (System n) (Event n) Fault where
  init := fun _ => .new
  step s e := s.step upperCaches e

namespace System

variable {n upperCaches : ℕ} {s s' : System n}

/-- A property of lines that the events of a line keep. -/
structure Preserved (upperCaches : ℕ) (P : Line n → Prop) : Prop where
  new : P .new
  step : ∀ L e L', P L → L.step upperCaches e = .ok L' → P L'

lemma onLine_eq_ok {addr : Addr} {e : LineEvent n} : s.onLine upperCaches addr e = .ok s' ↔
    ∃ L, (s addr).step upperCaches e = .ok L ∧ s' = Function.update s addr L := by
  rw [onLine, bind_eq_ok]
  constructor
  · rintro ⟨L, hL, hs⟩
    exact ⟨L, hL, (Except.ok.inj hs).symm⟩
  · rintro ⟨L, hL, rfl⟩
    exact ⟨L, hL, rfl⟩

section

variable {P : Line n → Prop} (hP : Preserved upperCaches P) (h : ∀ addr, P (s addr))

include hP h

lemma Preserved.onLine {addr : Addr} {e : LineEvent n} (hs : s.onLine upperCaches addr e = .ok s')
    (addr' : Addr) : P (s' addr') := by
  obtain ⟨L, hL, rfl⟩ := onLine_eq_ok.1 hs
  by_cases ha : addr' = addr
  · subst ha
    simpa using hP.step _ _ _ (h addr') hL
  · simpa [ha] using h addr'

lemma Preserved.allocateLine {c : Fin n} {addr : Addr} {victim : Victim} {allocated : Line.Allocated}
    (hs : s.allocateLine upperCaches c addr victim = .ok (allocated, s')) (addr' : Addr) : P (s' addr') := by
  cases victim with
  | none =>
    cases hs
    exact h addr'
  | invalid =>
    cases hs
    exact h addr'
  | line rpl =>
    obtain ⟨-, hs⟩ := check_bind_eq_ok.1 hs
    split_ifs at hs
    · obtain ⟨s₁, hs₁, hs⟩ := bind_eq_ok.1 hs
      cases hs
      exact hP.onLine h hs₁ addr'
    · obtain ⟨s₁, hs₁, hs⟩ := bind_eq_ok.1 hs
      cases hs
      exact hP.onLine h hs₁ addr'

lemma Preserved.system_step {e : Event n} (hs : s.step upperCaches e = .ok s') (addr' : Addr) :
    P (s' addr') := by
  unfold System.step at hs
  cases e with
  | send c addr victim =>
    dsimp only [send] at hs
    split_ifs at hs
    · exact hP.onLine h hs addr'
    · obtain ⟨⟨allocated, s₁⟩, hs₁, hs⟩ := bind_eq_ok.1 hs
      exact hP.onLine (hP.allocateLine h hs₁) hs addr'
  | retryAllocate c addr victim =>
    obtain ⟨⟨allocated, s₁⟩, hs₁, hs⟩ := bind_eq_ok.1 hs
    exact hP.onLine (hP.allocateLine h hs₁) hs addr'
  | doAllocateLine c rpl =>
    dsimp only [doAllocateLine] at hs
    split at hs
    · cases hs
    · obtain ⟨s₁, hs₁, hs⟩ := bind_eq_ok.1 hs
      exact hP.onLine (hP.onLine h hs₁) hs addr'
  | access c addr memOp => exact hP.onLine h hs addr'
  | run c addr => exact hP.onLine h hs addr'
  | bus c addr => exact hP.onLine h hs addr'
  | receive c d addr => exact hP.onLine h hs addr'
  | upperInvalidated d addr => exact hP.onLine h hs addr'
  | ack c d addr => exact hP.onLine h hs addr'
  | memory c addr => exact hP.onLine h hs addr'
  | answer c addr => exact hP.onLine h hs addr'

end

/-- What holds of a line in all its runs holds of each line of the system. -/
lemma Preserved.reachable {P : Line n → Prop} (hP : Preserved upperCaches P)
    (h : (machine n upperCaches).Reachable s) (addr : Addr) : P (s addr) := by
  have hall : ∀ addr, P (s addr) := by
    refine h.invariant (I := fun s : System n => ∀ addr, P (s addr)) (fun _ => hP.new) ?_
    intro s e s' hI hs
    exact hP.system_step hI (e := e) hs
  exact hall addr

/-- The first of two caches. -/
def c₀ : Fin 2 := 0

/-- The second of two caches. -/
def c₁ : Fin 2 := 1

/-- A cache reads the line, and then another one writes it. -/
def readThenWrite : List (Event 2) :=
  [.access c₀ 7 .MemRead, .run c₀ 7, .send c₀ 7 .invalid, .bus c₀ 7, .receive c₀ c₁ 7, .answer c₀ 7, .bus c₀ 7,
    .memory c₀ 7, .answer c₀ 7, .access c₁ 7 .MemWrite, .run c₁ 7, .send c₁ 7 .invalid, .bus c₁ 7,
    .receive c₁ c₀ 7, .ack c₁ c₀ 7, .answer c₁ 7]

end System

end Sesc.Smp
