import Sesc.Trans.Instruction

/-!
# Wrapped collision detections

`CollisionDetectionFlatten` and `CollisionDetectionNoBlend` are put around another collision
detection.  They may refuse an instruction and may ask for a delay, so that the calls of
`TMInterface` are given here in full: an instruction is observed, its collisions are fetched,
and it is finalized if nobody asks for a delay or if it may not be delayed, and rolled back
otherwise.
-/

namespace Sesc.Trans

open Lib

/-- An instruction that `TMInterface` executes, with the delay for which the collision manager
and the versioning ask.  Only transaction instructions are forced. -/
structure Request where
  instruction : Instruction
  forceNoDelay : Bool
  delay : ℕ
deriving DecidableEq, Repr

/-- Whether an instruction may not be delayed. -/
def Request.forced (r : Request) : Bool :=
  match r.instruction with
  | .access .. => false
  | .transaction .. => r.forceNoDelay

/-- The collisions that an execution has reported to the manager, and whether the instruction is
to be tried again. -/
structure Outcome where
  collisions : List Collision
  retried : Bool
deriving DecidableEq, Repr

/-- The part of `ITMCollisionDetection` that `TMInterface` calls for an instruction. -/
structure Detector (σ : Type) where
  /-- `ObserveAccess` and `ObserveTransactionInst`. -/
  observe : Instruction → σ → Except Fault σ
  /-- `CollisionCount`, with as many calls of `FetchCollision`. -/
  checkCollisions : σ → Except Fault (List Collision × σ)
  getDelay : σ → Except Fault ℕ
  mayNotDelay : σ → Except Fault σ
  finalizeInstruction : σ → Except Fault σ
  rollbackInstruction : σ → Except Fault σ

/-- A collision detection that never asks for a delay. -/
def ITMCollisionDetection.detector {σ : Type} (d : ITMCollisionDetection σ) : Detector σ where
  observe i s := .ok (d.observe i s)
  checkCollisions := d.checkCollisions
  getDelay _ := .ok 0
  mayNotDelay s := .ok s
  finalizeInstruction := d.finalizeInstruction
  rollbackInstruction s := .ok (d.rollbackInstruction s)

namespace Detector

variable {σ : Type} (d : Detector σ)

/-- The end of an execution: the instruction is finalized or rolled back; the latter is `true`. -/
def conclude (forced : Bool) (delay : ℕ) (s : σ) : Except Fault (Bool × σ) :=
  if forced then do
    let s ← d.mayNotDelay s
    let s ← d.finalizeInstruction s
    return (false, s)
  else do
    let own ← d.getDelay s
    if max own delay = 0 then
      let s ← d.finalizeInstruction s
      return (false, s)
    else
      let s ← d.rollbackInstruction s
      return (true, s)

/-- `TMInterface::ExecuteAccess` and `ExecuteTransactionInst`. -/
def execute (r : Request) (s : σ) : Except Fault (Outcome × σ) := do
  let s ← d.observe r.instruction s
  let (collisions, s) ← d.checkCollisions s
  let (retried, s) ← d.conclude r.forced r.delay s
  return (⟨collisions, retried⟩, s)

end Detector

end Sesc.Trans
