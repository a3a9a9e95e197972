import Mathlib.Data.List.Nodup
import Mathlib.Logic.Function.Basic
import Sesc.Lib.Check
import Sesc.Lib.Machine
import Sesc.Messages

/-!
# The load/store queue

`LDSTQ` has the loads and stores in flight, with a queue for each word, in program order.  When an
instruction is executed, its address is resolved, and the queue of its word is searched backward: for
younger instructions that were resolved too early, and for an older store to forward from.

The reorder buffer, which `replay` reads, has the loads and stores in flight; other instructions are
left out.
-/

namespace Sesc.Core

open Lib

abbrev Word := ℕ

/-- A pointer to an instruction. -/
abbrev Ptr := ℕ

/-- The instructions that the queue is for. -/
inductive MemOp
  | load
  | store
deriving DecidableEq, Repr

structure DInst where
  op : MemOp
  vaddr : ℕ
  resolved : Bool
  deadInst : Bool
deriving DecidableEq, Repr

namespace DInst

variable (d : DInst)

def isLoad : Bool := d.op = .load
def isStore : Bool := d.op = .store
def calcWord : Word := d.vaddr >>> 2

end DInst

structure LDSTQ where
  insts : Ptr → DInst
  /-- The loads and stores in the reorder buffer, the oldest first. -/
  rob : List Ptr
  inflightInsts : Ptr → Bool
  instMap : Word → Option (List Ptr)
  ldldViolations : ℕ
  stldViolations : ℕ
  ststViolations : ℕ
  stldForwarding : ℕ
  /-- The instructions that the processor was told to replay. -/
  replayed : List Ptr

namespace LDSTQ

def new : LDSTQ where
  insts := fun _ => ⟨.load, 0, false, false⟩
  rob := []
  inflightInsts := fun _ => false
  instMap := fun _ => none
  ldldViolations := 0
  stldViolations := 0
  ststViolations := 0
  stldForwarding := 0
  replayed := []

variable (s : LDSTQ) (dinst : Ptr)

/-- The queue of the word of an instruction, which is empty when there is none. -/
def queue : List Ptr := (s.instMap (s.insts dinst).calcWord).getD []

/-- An instruction changes. -/
def modify (f : DInst → DInst) : LDSTQ :=
  { s with insts := Function.update s.insts dinst (f (s.insts dinst)) }

def markResolved : LDSTQ := s.modify dinst fun d => { d with resolved := true }

/-- `insert`, after the instruction has been created. -/
def insert (op : MemOp) (vaddr : ℕ) : Except Fault LDSTQ := do
  check .assertion (s.inflightInsts dinst = false)
  let s := s.modify dinst fun _ => ⟨op, vaddr, false, false⟩
  return { s with
    rob := s.rob ++ [dinst]
    instMap := Function.update s.instMap (s.insts dinst).calcWord (some (s.queue dinst ++ [dinst]))
    inflightInsts := Function.update s.inflightInsts dinst true }

/-- `GProcessor::replay`: the instructions from the given one on are dead. -/
def replay (qdinst : Ptr) : LDSTQ :=
  let s := { s with replayed := s.replayed ++ [qdinst] }
  if (s.insts qdinst).deadInst then s
  else
    let younger := s.rob.dropWhile (· ≠ qdinst)
    { s with insts := fun d => if d ∈ younger then { s.insts d with deadInst := true } else s.insts d }

/-- The processor is told to replay an instruction unless the one executed is dead. -/
def replayUnlessDead (qdinst : Ptr) : LDSTQ :=
  if (s.insts dinst).deadInst then s else s.replay qdinst

/-- The state of the loop of `executed`. -/
structure Search where
  lsq : LDSTQ
  beforeInst : Bool
  doReplay : Bool

/-- The violation by a younger instruction that is resolved. -/
def violation (qdinst : Ptr) : LDSTQ × Bool :=
  match (s.insts dinst).op, (s.insts qdinst).op with
  | .load, .load =>
    ({ s with ldldViolations := s.ldldViolations + 1 }.replayUnlessDead dinst qdinst, true)
  | .store, .store => ({ s with ststViolations := s.ststViolations + 1 }, false)
  | .store, .load =>
    ({ s with stldViolations := s.stldViolations + 1 }.replayUnlessDead dinst qdinst, true)
  | .load, .store => (s, false)

/-- An iteration of the loop, up to the search for a store to forward from. -/
def visit (r : Search) (qdinst : Ptr) : Search :=
  let beforeInst := r.beforeInst && qdinst ≠ dinst
  if beforeInst && (r.lsq.insts qdinst).resolved then
    let (lsq, violated) := r.lsq.violation dinst qdinst
    { lsq, beforeInst, doReplay := r.doReplay || violated }
  else { r with beforeInst }

/-- The load that is executed is forwarded from a store. -/
def forwards (r : Search) (qdinst : Ptr) : Bool :=
  !r.beforeInst && (r.lsq.insts dinst).isLoad && (r.lsq.insts qdinst).isStore &&
    (r.lsq.insts qdinst).resolved

/-- The loop over the instructions of a queue, from the youngest on.  It ends when it reaches
`begin()`, without looking at the instruction there. -/
def search : List Ptr → Search → Search
  | q :: q' :: rest, r =>
    let r := visit dinst r q
    if forwards dinst r q then
      { r with lsq := { r.lsq with stldForwarding := r.lsq.stldForwarding + 1 } }
    else search (q' :: rest) r
  | _, r => r

/-- `executed` returns whether something is replayed. -/
def executed : Except Fault (Bool × LDSTQ) :=
  if (s.insts dinst).deadInst then .ok (false, s)
  else do
    check .assertion (s.inflightInsts dinst)
    check .assertion (s.instMap (s.insts dinst).calcWord).isSome
    let r := search dinst (s.queue dinst).reverse ⟨s.markResolved dinst, true, false⟩
    return (r.doReplay, r.lsq)

def remove : Except Fault LDSTQ := do
  check .assertion (s.inflightInsts dinst)
  check .assertion (s.instMap (s.insts dinst).calcWord).isSome
  check .assertion (dinst ∈ s.queue dinst)
  let queue := (s.queue dinst).erase dinst
  return { s with
    rob := s.rob.erase dinst
    instMap := Function.update s.instMap (s.insts dinst).calcWord
      (if queue = [] then none else some queue)
    inflightInsts := Function.update s.inflightInsts dinst false }

end LDSTQ

/-- What is done with the load/store queue: an instruction is created and inserted, it is executed,
or it is removed. -/
inductive LsqEvent
  | insert (dinst : Ptr) (op : MemOp) (vaddr : ℕ)
  | executed (dinst : Ptr)
  | remove (dinst : Ptr)
deriving DecidableEq, Repr

namespace LDSTQ

def perform (s : LDSTQ) : LsqEvent → Except Fault LDSTQ
  | .insert dinst op vaddr => s.insert dinst op vaddr
  | .executed dinst => do
    let (_, s) ← s.executed dinst
    return s
  | .remove dinst => s.remove dinst

end LDSTQ

def ldstq : Machine LDSTQ LsqEvent Fault where
  init := .new
  step := LDSTQ.perform

end Sesc.Core
