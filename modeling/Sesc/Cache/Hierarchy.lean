import Sesc.Cache.Moves
import Sesc.Lib.Machine

/-!
# A hierarchy of two caches

A top cache, whose local connection is the processor, over a lower cache.  A message between
the two arrives after the delay it is sent with and the latency of the connection; time only
passes when nothing is due, and messages that are due at the same time arrive in any order.
What the top cache sends to the processor and the lower one to the level below it leaves the
system.
-/

namespace Sesc.Cache

open Lib

inductive Level
  | l1
  | l2
deriving DecidableEq, Repr

/-- The two caches and the latency of the connection between them. -/
structure HierarchyConfig where
  cache : Level → CacheConfig
  latency : TimeDelta
  top : (cache .l1).topCache = true
  lower : (cache .l2).topCache = false
  lineSize : (cache .l1).lineSize = (cache .l2).lineSize

/-- A message on its way between the caches. -/
structure Transit where
  dest : Level
  due : TickTime
  msg : Msg

structure Hierarchy where
  cache : Level → BIPMOESICache
  flight : List Transit
  currentMsgStamp : MessageID
  currentTick : TickTime

def Hierarchy.new : Hierarchy where
  cache := fun _ => .new
  flight := []
  currentMsgStamp := 1
  currentTick := 0

/-- The events of a hierarchy; `rands` are the next values of `rand`. -/
inductive HierarchyEvent
  /-- The processor sends a message to the top cache. -/
  | processor (msg : Msg) (rands : List ℕ)
  /-- The level below sends a message to the lower cache. -/
  | remote (msg : Msg) (rands : List ℕ)
  /-- A message between the caches arrives. -/
  | deliver (k : ℕ) (rands : List ℕ)
  /-- `EventManager::ProcessTick`. -/
  | processTick
deriving DecidableEq, Repr

/-- The messages of a processor. -/
def isProcessorMsg : Msg → Bool
  | .read _ => true
  | .write _ => true
  | _ => false

/-- The messages that the level below sends unasked or as the answer to a read. -/
def isRemoteMsg : Msg → Bool
  | .read _ => true
  | .readResponse _ => true
  | .invalidate _ => true
  | _ => false

/-- The connection on which a cache hears from the other one. -/
def Level.port : Level → Port
  | .l1 => .remoteConnection
  | .l2 => .localConnection

/-- Where a message goes that the cache of a level sends; none if it leaves the system. -/
def Level.dest : Level → Port → Option Level
  | .l1, .remoteConnection => some .l2
  | .l2, .localConnection => some .l1
  | _, _ => none

namespace HierarchyConfig

variable (cfg : HierarchyConfig)

/-- What a cache sends at the given time to the other one. -/
def transit (level : Level) (now : TickTime) (s : Sent) : Option Transit :=
  (level.dest s.port).map fun dest => ⟨dest, now + s.delay + cfg.latency, s.msg⟩

/-- The activation of a handler of a cache. -/
def activation (s : Hierarchy) (level : Level) (rands : List ℕ) : Activation where
  cache := s.cache level
  currentMsgStamp := s.currentMsgStamp
  currentTick := s.currentTick
  rands := rands
  sent := []

/-- The state after a handler of a cache; `flight` is left in flight. -/
def commit (s : Hierarchy) (level : Level) (flight : List Transit) (a : Activation) :
    Hierarchy where
  cache := Function.update s.cache level a.cache
  flight := flight ++ a.sent.filterMap (cfg.transit level s.currentTick)
  currentMsgStamp := a.currentMsgStamp
  currentTick := s.currentTick

def step (s : Hierarchy) : HierarchyEvent → Except Fault Hierarchy
  | .processor msg rands => do
    check .noSuchEvent (isProcessorMsg msg = true)
    let a ← (cfg.cache .l1).recvMsg .localConnection msg (activation s .l1 rands)
    return cfg.commit s .l1 s.flight a
  | .remote msg rands => do
    check .noSuchEvent (isRemoteMsg msg = true)
    let a ← (cfg.cache .l2).recvMsg .remoteConnection msg (activation s .l2 rands)
    return cfg.commit s .l2 s.flight a
  | .deliver k rands =>
    match s.flight[k]? with
    | none => .error .noSuchEvent
    | some t => do
      check .noSuchEvent (t.due ≤ s.currentTick)
      let a ← (cfg.cache t.dest).recvMsg t.dest.port t.msg (activation s t.dest rands)
      return cfg.commit s t.dest (s.flight.eraseIdx k) a
  | .processTick => do
    check .noSuchEvent (∀ t ∈ s.flight, s.currentTick < t.due)
    return { s with currentTick := s.currentTick + 1 }

/-- The machine of a hierarchy. -/
def machine : Machine Hierarchy HierarchyEvent Fault where
  init := .new
  step := cfg.step

variable {cfg}

/-- What a step can do: time passes, or the cache of a level handles a message that comes from
outside or from the messages in flight. -/
lemma step_eq_ok {s s' : Hierarchy} {e : HierarchyEvent} (h : cfg.step s e = .ok s') :
    (e = .processTick ∧ s' = { s with currentTick := s.currentTick + 1 }) ∨
    ∃ level port msg rands flight a,
      (cfg.cache level).recvMsg port msg (activation s level rands) = .ok a ∧
      s' = cfg.commit s level flight a ∧
      (e = .processor msg rands ∧ level = .l1 ∧ port = .localConnection ∧
          isProcessorMsg msg = true ∧ flight = s.flight ∨
        e = .remote msg rands ∧ level = .l2 ∧ port = .remoteConnection ∧
          isRemoteMsg msg = true ∧ flight = s.flight ∨
        ∃ k t, e = .deliver k rands ∧ s.flight[k]? = some t ∧ level = t.dest ∧
          port = t.dest.port ∧ msg = t.msg ∧ flight = s.flight.eraseIdx k) := by
  cases e with
  | processor msg rands =>
    obtain ⟨hmsg, h⟩ := check_bind_eq_ok.1 h
    obtain ⟨a, ha, hret⟩ := bind_eq_ok.1 h
    cases hret
    exact .inr ⟨_, _, msg, rands, _, a, ha, rfl, .inl ⟨rfl, rfl, rfl, hmsg, rfl⟩⟩
  | remote msg rands =>
    obtain ⟨hmsg, h⟩ := check_bind_eq_ok.1 h
    obtain ⟨a, ha, hret⟩ := bind_eq_ok.1 h
    cases hret
    exact .inr ⟨_, _, msg, rands, _, a, ha, rfl, .inr (.inl ⟨rfl, rfl, rfl, hmsg, rfl⟩)⟩
  | deliver k rands =>
    rw [step] at h
    split at h
    · cases h
    · rename_i t ht
      obtain ⟨-, h⟩ := check_bind_eq_ok.1 h
      obtain ⟨a, ha, hret⟩ := bind_eq_ok.1 h
      cases hret
      exact .inr ⟨_, _, _, rands, _, a, ha, rfl, .inr (.inr ⟨k, t, rfl, ht, rfl, rfl, rfl, rfl⟩)⟩
  | processTick =>
    obtain ⟨-, hret⟩ := check_bind_eq_ok.1 h
    cases hret
    exact .inl ⟨rfl, rfl⟩

end HierarchyConfig

end Sesc.Cache
