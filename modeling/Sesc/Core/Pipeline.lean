import Mathlib.Data.List.MinMax
import Mathlib.Data.List.Nodup
import Mathlib.Data.List.Range
import Mathlib.Data.List.Perm.Basic
import Mathlib.Logic.Function.Basic
import Sesc.Core.LDSTQ
import Sesc.Lib.Check
import Sesc.Lib.Machine
import Sesc.Messages

/-!
# The fetch pipeline

`Pipeline` hands out buckets, which the fetch unit fills with instructions.  The instruction cache may
make them ready in any order: a bucket that is not the next one waits in the priority queue `received`
until all buckets before it have come.  Then it goes to `buffer`, which gives it to the processor not
before `PipeLength` cycles have passed, or back to the pool when it is empty.

There are no clean marks here.
-/

namespace Sesc.Core

open Lib

/-- A pointer to a bucket. -/
abbrev Bucket := ℕ

structure IBucket where
  pipeId : ℕ
  clock : ℕ
  /-- The instructions, the top one first. -/
  insts : List Ptr

/-- The arguments of the constructor. -/
structure PipelineParams where
  PipeLength : ℕ
  fetchWidth : ℕ
  MaxIRequests : ℕ

/-- The loop that finds the closest power of two. -/
def closestPowerOfTwo : ℕ → ℕ → ℕ
  | 0, mask => mask
  | fuel + 1, mask =>
    if mask &&& (mask - 1) = 0 then mask else closestPowerOfTwo fuel (mask + 1)

/-- The mask of a `FastQueue`, which has room for one element more. -/
def pipeMask (size : ℕ) : ℕ := closestPowerOfTwo size size - 1

namespace PipelineParams

variable (p : PipelineParams)

def bucketPoolMaxSize : ℕ := p.PipeLength + 1 + p.MaxIRequests
def bufferMask : ℕ := pipeMask (2 * p.PipeLength + 1 + p.MaxIRequests)
def bucketMask : ℕ := pipeMask (p.fetchWidth + 1)

end PipelineParams

structure Pipeline where
  nIRequests : ℤ
  buffer : List Bucket
  /-- The pool, its back first. -/
  bucketPool : List Bucket
  /-- The elements of the priority queue. -/
  received : List Bucket
  maxItemCntr : ℕ
  minItemCntr : ℕ
  bucket : Bucket → IBucket
  globalClock : ℕ

namespace Pipeline

def new (p : PipelineParams) : Pipeline where
  nIRequests := p.MaxIRequests
  buffer := []
  bucketPool := (List.range p.bucketPoolMaxSize).reverse
  received := []
  maxItemCntr := 0
  minItemCntr := 0
  bucket := fun _ => ⟨0, 0, []⟩
  globalClock := 0

variable (p : PipelineParams) (s : Pipeline) (b : Bucket)

/-- The bucket of `received` with the least `pipeId`. -/
def receivedTop : Option Bucket := s.received.argmin fun b => (s.bucket b).pipeId

def setBucket (f : IBucket → IBucket) : Pipeline :=
  { s with bucket := Function.update s.bucket b (f (s.bucket b)) }

def newItem : Except Fault (Option Bucket × Pipeline) :=
  match s.bucketPool with
  | [] => .ok (none, s)
  | b :: bucketPool =>
    if s.nIRequests = 0 then .ok (none, s)
    else do
      check .assertion ((s.bucket b).insts = [])
      return (some b, { s.setBucket b fun i => { i with pipeId := s.maxItemCntr } with
        nIRequests := s.nIRequests - 1
        bucketPool
        maxItemCntr := s.maxItemCntr + 1 })

def hasOutstandingItems : Bool :=
  !s.buffer.isEmpty || !s.received.isEmpty || s.nIRequests < p.MaxIRequests

def doneItem : Except Fault Pipeline := do
  check .assertion ((s.bucket b).pipeId < s.minItemCntr)
  check .assertion ((s.bucket b).insts = [])
  return { s with bucketPool := b :: s.bucketPool }

def pushBuffer : Except Fault Pipeline := do
  check .assertion (s.buffer.length ≤ p.bufferMask)
  return { s with buffer := s.buffer ++ [b] }

/-- The bucket is the next one: it goes to the buffer, or to the pool when it is empty. -/
def takeIn : Except Fault Pipeline :=
  let s := { s with minItemCntr := s.minItemCntr + 1 }
  if (s.bucket b).insts = [] then s.doneItem b else s.pushBuffer p b

/-- The loop of `clearItems`; each iteration takes a bucket out of `received`. -/
def clearItems : ℕ → Pipeline → Except Fault Pipeline
  | 0, s => .ok s
  | fuel + 1, s =>
    match s.receivedTop with
    | none => .ok s
    | some b =>
      if (s.bucket b).pipeId = s.minItemCntr then do
        let s ← { s with received := s.received.erase b }.takeIn p b
        clearItems fuel s
      else .ok s

def readyItem : Except Fault Pipeline :=
  let s := { s.setBucket b fun i => { i with clock := s.globalClock } with
    nIRequests := s.nIRequests + 1 }
  if (s.bucket b).pipeId = s.minItemCntr then do
    let s ← s.takeIn p b
    s.clearItems p s.received.length
  else .ok { s with received := b :: s.received }

def nextItem : Except Fault (Option Bucket × Pipeline) :=
  match s.buffer with
  | [] => .ok (none, s)
  | b :: buffer =>
    if s.globalClock < (s.bucket b).clock + p.PipeLength then .ok (none, s)
    else do
      check .assertion ((s.bucket b).insts ≠ [])
      return (some b, { s with buffer })

end Pipeline

/-- What `nextItem` has returned: the item, which is the bucket that `newItem` has returned as the
given one, and the time. -/
structure Delivery where
  item : ℕ
  bucket : Bucket
  time : ℕ
deriving DecidableEq, Repr

/-- The pipeline with the buckets that are not in it, and what has happened. -/
structure Fetching extends Pipeline where
  /-- The buckets that `newItem` has returned, in order. -/
  handedOut : List Bucket
  /-- The buckets that are not ready yet. -/
  outstanding : List Bucket
  /-- The buckets that `nextItem` has returned and that are not done. -/
  delivered : List Bucket
  /-- When an item was made ready, and whether it had any instruction. -/
  ready : ℕ → Option (ℕ × Bool)
  deliveries : List Delivery

inductive PipelineEvent
  | newItem
  /-- The fetch unit puts an instruction into a bucket. -/
  | push (b : Bucket) (inst : Ptr)
  | readyItem (b : Bucket)
  | nextItem
  /-- The processor takes an instruction out of a bucket. -/
  | pop (b : Bucket)
  | doneItem (b : Bucket)
  | tick (cycles : ℕ)
deriving DecidableEq, Repr

namespace Fetching

variable (p : PipelineParams) (s : Fetching)

def act : PipelineEvent → Except Fault Fetching
  | .newItem => do
    let (b, pipeLine) ← s.toPipeline.newItem
    return { s with
      toPipeline := pipeLine
      handedOut := s.handedOut ++ b.toList
      outstanding := b.toList ++ s.outstanding }
  | .push b inst => do
    check .noSuchEvent (b ∈ s.outstanding ∧ (s.bucket b).insts.length ≤ p.bucketMask)
    return { s with
      toPipeline := s.setBucket b fun i => { i with insts := i.insts ++ [inst] } }
  | .readyItem b => do
    check .noSuchEvent (b ∈ s.outstanding)
    let pipeLine ← s.toPipeline.readyItem p b
    return { s with
      toPipeline := pipeLine
      outstanding := s.outstanding.erase b
      ready := Function.update s.ready (s.bucket b).pipeId
        (some (s.globalClock, (s.bucket b).insts ≠ [])) }
  | .nextItem => do
    let (b, pipeLine) ← s.toPipeline.nextItem p
    return { s with
      toPipeline := pipeLine
      delivered := b.toList ++ s.delivered
      deliveries := s.deliveries ++
        b.toList.map fun b => ⟨(s.bucket b).pipeId, b, s.globalClock⟩ }
  | .pop b => do
    check .noSuchEvent (b ∈ s.delivered)
    return { s with toPipeline := s.setBucket b fun i => { i with insts := i.insts.tail } }
  | .doneItem b => do
    check .noSuchEvent (b ∈ s.delivered ∧ (s.bucket b).insts = [])
    let pipeLine ← s.toPipeline.doneItem b
    return { s with toPipeline := pipeLine, delivered := s.delivered.erase b }
  | .tick cycles => .ok { s with globalClock := s.globalClock + cycles }

/-- An item was made ready with instructions in it. -/
def filled (item : ℕ) : Bool := (s.ready item).elim false Prod.snd

end Fetching

/-- The pipeline with its caller. -/
def pipeline (p : PipelineParams) : Machine Fetching PipelineEvent Fault where
  init :=
    { Pipeline.new p with
      handedOut := [], outstanding := [], delivered := [], ready := fun _ => none
      deliveries := [] }
  step s e := s.act p e

end Sesc.Core
