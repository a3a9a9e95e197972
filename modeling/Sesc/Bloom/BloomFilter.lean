import Mathlib.Data.Multiset.AddSub
import Sesc.Lib.Check
import Sesc.Lib.Machine
import Sesc.Messages

/-!
# Counting Bloom filters

A filter has some vectors of counters.  Each vector takes some bits of an element, as an index of the
counter that counts it.  The filter also keeps the number of the counters of each vector that are not
zero, and the number of its elements.

The counters are `int32_t`, so that the sums are taken with 32 bits.  The histograms and the names of
filters are left out.
-/

namespace Sesc.Bloom

open Lib

/-- An `unsigned` element. -/
abbrev Element := BitVec 32

/-- The value of a sum as an `int32_t`. -/
def wrap (x : ℤ) : ℤ := x.bmod 4294967296

/-! ## The vectors -/

/-- The bits of an element that a vector takes, and the size of the vector. -/
structure Chunk where
  vBits : ℕ
  vSize : ℕ
  vMask : BitVec 32
  rShift : ℕ
deriving DecidableEq, Repr

/-- The mask of the lowest bits. -/
def lowMask : ℕ → BitVec 32
  | 0 => 0
  | m + 1 => lowMask m ||| 1#32 <<< m

/-- The chunks of the vectors with the given numbers of bits and sizes, the lowest bits first. -/
def initMasks : ℕ → List (ℕ × ℕ) → List Chunk
  | _, [] => []
  | totShift, (vBits, vSize) :: vectors =>
    { vBits, vSize, vMask := lowMask vBits <<< totShift, rShift := totShift } ::
      initMasks (totShift + vBits) vectors

/-- The index of the counter of an element. -/
def Chunk.getIndex (c : Chunk) (val : Element) : ℕ :=
  ((val &&& c.vMask) >>> c.rShift).toNat % c.vSize

/-- A vector: the array `countVec[i]` and `nonZeroCount[i]`. -/
structure CountVector where
  chunk : Chunk
  counts : List ℤ
  nonZeroCount : ℤ
deriving DecidableEq, Repr

namespace CountVector

variable (v w : CountVector) (e : Element)

def new (chunk : Chunk) : CountVector where
  chunk := chunk
  counts := List.replicate chunk.vSize 0
  nonZeroCount := 0

def count (j : ℕ) : ℤ := v.counts.getD j 0

/-- The number of counters that are not zero. -/
def countNonZero (counts : List ℤ) : ℤ := counts.countP fun c => c ≠ 0

def insert : CountVector :=
  let idx := v.chunk.getIndex e
  { v with
    nonZeroCount := if v.count idx = 0 then wrap (v.nonZeroCount + 1) else v.nonZeroCount
    counts := v.counts.set idx (wrap (v.count idx + 1)) }

def remove : Except Fault CountVector := do
  let idx := v.chunk.getIndex e
  let c := wrap (v.count idx - 1)
  check .assertion (0 ≤ c)
  return { v with
    counts := v.counts.set idx c
    nonZeroCount := if c = 0 then wrap (v.nonZeroCount - 1) else v.nonZeroCount }

def clear : CountVector := .new v.chunk

def mergeWith : CountVector :=
  let counts := List.zipWith (fun a b => wrap (a + b)) v.counts w.counts
  { v with counts, nonZeroCount := countNonZero counts }

def subtract : Except Fault CountVector := do
  let counts := List.zipWith (fun a b => wrap (a - b)) v.counts w.counts
  check .assertion (∀ c ∈ counts, 0 ≤ c)
  return { v with counts, nonZeroCount := countNonZero counts }

def mayExist : Bool := v.count (v.chunk.getIndex e) ≠ 0

/-- Some counter is positive in both vectors. -/
def mayIntersect : Bool := (v.counts.zip w.counts).any fun p => 0 < p.1 ∧ 0 < p.2

/-- No counter is greater than that of the other vector. -/
def isSubsetOf : Bool := (v.counts.zip w.counts).all fun p => p.1 ≤ p.2

end CountVector

/-! ## The filters -/

structure BloomFilter where
  vectors : List CountVector
  nElements : ℤ
  BFBuild : Bool
deriving DecidableEq, Repr

/-- The number of bits that some vectors take. -/
def totalBits : List (ℕ × ℕ) → ℕ
  | [] => 0
  | (vBits, _) :: vectors => vBits + totalBits vectors

/-- What a filter is built of: the number of bits and the size of each vector. -/
structure Shape where
  vectors : List (ℕ × ℕ)
  vBits_le : totalBits vectors ≤ 32
  vSize_pos : ∀ v ∈ vectors, 0 < v.2
  vSize_lt : ∀ v ∈ vectors, v.2 < 2147483648

def Shape.chunks (shape : Shape) : List Chunk := initMasks 0 shape.vectors

namespace BloomFilter

variable (f bf : BloomFilter) (e : Element)

def new (shape : Shape) : BloomFilter where
  vectors := shape.chunks.map .new
  nElements := 0
  BFBuild := true

def insert : BloomFilter :=
  if !f.BFBuild then f
  else { f with vectors := f.vectors.map (·.insert e), nElements := wrap (f.nElements + 1) }

/-- The loop of `remove` over the vectors. -/
def removeFrom (e : Element) : List CountVector → Except Fault (List CountVector)
  | [] => .ok []
  | v :: vs => do
    let v ← v.remove e
    let vs ← removeFrom e vs
    return v :: vs

def remove : Except Fault BloomFilter :=
  if !f.BFBuild then .ok f
  else do
    let vectors ← removeFrom e f.vectors
    check .assertion (0 < f.nElements)
    return { f with vectors, nElements := wrap (f.nElements - 1) }

def clear : BloomFilter :=
  if !f.BFBuild then f
  else { f with vectors := f.vectors.map (·.clear), nElements := 0 }

/-- The assertion that two filters have vectors of the same sizes. -/
def checkSizes : Except Fault PUnit :=
  check .assertion (f.vectors.map (·.chunk.vSize) = bf.vectors.map (·.chunk.vSize))

/-- `operator=` for another filter. -/
def assign : Except Fault BloomFilter :=
  if !bf.BFBuild then .ok (if f.BFBuild then f.clear else f)
  else do
    f.checkSizes bf
    return { vectors := bf.vectors, nElements := bf.nElements, BFBuild := true }

def mergeWith : Except Fault BloomFilter :=
  if !f.BFBuild || !bf.BFBuild then .ok f
  else do
    f.checkSizes bf
    return { f with vectors := List.zipWith CountVector.mergeWith f.vectors bf.vectors }

/-- The loop of `subtract` over the vectors. -/
def subtractFrom : List CountVector → List CountVector → Except Fault (List CountVector)
  | v :: vs, w :: ws => do
    let v ← v.subtract w
    let vs ← subtractFrom vs ws
    return v :: vs
  | _, _ => .ok []

def subtract : Except Fault BloomFilter :=
  if !f.BFBuild || !bf.BFBuild then .ok f
  else do
    f.checkSizes bf
    let vectors ← subtractFrom f.vectors bf.vectors
    return { f with vectors }

def mayExist : Bool := !f.BFBuild || f.vectors.all (·.mayExist e)

def mayIntersect : Bool :=
  !f.BFBuild || !bf.BFBuild || (f.vectors.zip bf.vectors).all fun p => p.1.mayIntersect p.2

def isSubsetOf : Bool :=
  !f.BFBuild || !bf.BFBuild || (f.vectors.zip bf.vectors).all fun p => p.1.isSubsetOf p.2

/-- The number of elements that a filter says it has. -/
def size : ℤ := f.nElements

end BloomFilter

/-! ## Filters of the same shape -/

/-- What is done with the filters. -/
inductive Operation
  | insert (i : ℕ) (e : Element)
  | remove (i : ℕ) (e : Element)
  | clear (i : ℕ)
  | assign (i j : ℕ)
  | mergeWith (i j : ℕ)
  | subtract (i j : ℕ)
deriving DecidableEq, Repr

/-- The filters, and the multisets that they should represent. -/
structure Filters where
  filter : ℕ → BloomFilter
  elements : ℕ → Multiset Element

namespace Filters

variable (s : Filters)

/-- A filter and its multiset change. -/
def set (i : ℕ) (f : BloomFilter) (M : Multiset Element) : Filters where
  filter := Function.update s.filter i f
  elements := Function.update s.elements i M

/-- Performing an operation.  Only contained elements are removed, and only multisets that are
contained are subtracted. -/
def perform : Operation → Except Fault Filters
  | .insert i e => .ok (s.set i ((s.filter i).insert e) (e ::ₘ s.elements i))
  | .remove i e => do
    check .noSuchEvent (e ∈ s.elements i)
    let f ← (s.filter i).remove e
    return s.set i f ((s.elements i).erase e)
  | .clear i => .ok (s.set i (s.filter i).clear 0)
  | .assign i j =>
    if i = j then .ok s
    else do
      let f ← (s.filter i).assign (s.filter j)
      return s.set i f (s.elements j)
  | .mergeWith i j => do
    let f ← (s.filter i).mergeWith (s.filter j)
    return s.set i f (s.elements i + s.elements j)
  | .subtract i j => do
    check .noSuchEvent (s.elements j ≤ s.elements i)
    let f ← (s.filter i).subtract (s.filter j)
    return s.set i f (s.elements i - s.elements j)

end Filters

/-- The machine of the filters of a shape. -/
def filterMachine (shape : Shape) : Machine Filters Operation Fault where
  init :=
    { filter := fun _ => .new shape
      elements := fun _ => 0 }
  step := Filters.perform

end Sesc.Bloom
