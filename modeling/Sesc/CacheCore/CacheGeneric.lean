import Sesc.Lib.Check
import Sesc.Lib.Machine
import Sesc.Lib.Segments
import Sesc.Messages

/-!
# Cache arrays

The lines of a cache are in the array `mem`; the array `content` has pointers to them, which are
their indices in `mem`, set by set.  A line is valid when its tag is not 0.

The number of the set and the index of a set are computed with 32 bits, which changes nothing for the
sizes and the addresses of the simulator.  Energy counters are left out, and so are the assertions of
the lookups, which hold while no invalid line is locked.
-/

namespace Sesc.CacheCore

open Lib

abbrev Addr := ℕ
abbrev Tag := ℕ

inductive ReplacementPolicy
  | LRU
  | RANDOM
deriving DecidableEq, Repr

/-- The class of a cache array. -/
inductive Implementation
  | cacheAssoc (policy : ReplacementPolicy)
  | cacheDM
  | cacheDMSkew
deriving DecidableEq, Repr

/-- The sizes of a cache array.  The arrays of one without a set have no entries. -/
structure Geometry where
  size : ℕ
  assoc : ℕ
  lineSize : ℕ
  addrUnit : ℕ
  size_isPowerOfTwo : size.isPowerOfTwo
  assoc_isPowerOfTwo : assoc.isPowerOfTwo
  lineSize_isPowerOfTwo : lineSize.isPowerOfTwo
  addrUnit_isPowerOfTwo : addrUnit.isPowerOfTwo
  sets_pos : 0 < size / lineSize / assoc

namespace Geometry

variable (g : Geometry)

def log2Assoc : ℕ := g.assoc.log2
def log2AddrLs : ℕ := (g.lineSize / g.addrUnit).log2
def maskAssoc : ℕ := g.assoc - 1
def sets : ℕ := g.size / g.lineSize / g.assoc
def maskSets : ℕ := g.sets - 1
def numLines : ℕ := g.size / g.lineSize

def calcTag (addr : Addr) : Tag := addr >>> g.log2AddrLs
def calcSet4Tag (tag : Tag) : ℕ := tag &&& g.maskSets
def calcIndex4Set (set : ℕ) : ℕ := set <<< g.log2Assoc
def calcIndex4Tag (tag : Tag) : ℕ := g.calcIndex4Set (g.calcSet4Tag tag)
def calcAddr4Tag (tag : Tag) : Addr := tag <<< g.log2AddrLs

end Geometry

/-- What the lookups read of the state of a line. -/
structure CacheLine where
  tag : Tag
  locked : Bool
deriving DecidableEq, Repr

namespace CacheLine

variable (l : CacheLine)

def isValid : Bool := l.tag ≠ 0
def isLocked : Bool := l.locked
def setTag (tag : Tag) : CacheLine := { l with tag }
def clearTag : CacheLine := { l with tag := 0 }
def invalidate : CacheLine := { l.clearTag with locked := false }

end CacheLine

/-- A pointer to a line. -/
abbrev Line := ℕ

structure CacheGeneric where
  mem : List CacheLine
  content : List Line
  irand : ℕ
deriving DecidableEq, Repr

namespace CacheGeneric

def new (g : Geometry) : CacheGeneric where
  mem := List.replicate g.numLines ⟨0, false⟩
  content := List.range g.numLines
  irand := 0

variable (g : Geometry) (c : CacheGeneric)

/-- The line at a pointer. -/
def line (l : Line) : CacheLine := c.mem.getD l ⟨0, false⟩

/-- Changing the line at a pointer. -/
def modifyLine (l : Line) (f : CacheLine → CacheLine) : CacheGeneric :=
  { c with mem := c.mem.modify l f }

/-! ## `CacheAssoc` -/

namespace CacheAssoc

/-- The pointers of the set of a tag. -/
def theSet (tag : Tag) : List Line := segment c.content (g.calcIndex4Tag tag) g.assoc

/-- The line at a position of the set moves to its front. -/
def toFront (tag : Tag) (k : ℕ) : CacheGeneric :=
  { c with content :=
      setSegment c.content (g.calcIndex4Tag tag) (moveToFront (theSet g c tag) k) }

def findLinePrivate (addr : Addr) : Option Line × CacheGeneric :=
  let tag := g.calcTag addr
  -- the line at the front stays there
  match (theSet g c tag).findIdx? fun l => (c.line l).tag = tag with
  | none => (none, c)
  | some k => ((theSet g c tag)[k]?, toFront g c tag k)

/-- The loop of `findLine2Replace` over the first `n` positions of the set, from the last one on,
with the position `lineFree` that it has found so far: the positions `lineHit` and `lineFree`. -/
def scan (set : List Line) (tag : Tag) : ℕ → Option ℕ → Option ℕ × Option ℕ
  | 0, lineFree => (none, lineFree)
  | n + 1, lineFree =>
    let l := c.line (set.getD n 0)
    if l.tag = tag then (some n, lineFree)
    else if !l.isValid then scan set tag n (some n)
    else if lineFree = none ∧ !l.isLocked then scan set tag n (some n)
    else scan set tag n lineFree

/-- The position that `findLine2Replace` replaces when no line of the set has the tag, and the
`irand` after that. -/
def victim (policy : ReplacementPolicy) (set : List Line) (lineFree : Option ℕ)
    (ignoreLocked : Bool) : Option ℕ × ℕ :=
  match lineFree with
  | none =>
    if !ignoreLocked then (none, c.irand)
    else match policy with
      | .RANDOM => (some c.irand, (c.irand + 1) &&& g.maskAssoc)
      | .LRU => (some (g.assoc - 1), c.irand)
  | some k =>
    if ignoreLocked ∧ policy = .RANDOM ∧ (c.line (set.getD k 0)).isValid then
      (some c.irand, (c.irand + 1) &&& g.maskAssoc)
    else (some k, c.irand)

def findLine2Replace (policy : ReplacementPolicy) (addr : Addr) (ignoreLocked : Bool) :
    Option Line × CacheGeneric :=
  let tag := g.calcTag addr
  let set := theSet g c tag
  if (c.line (set.getD 0 0)).tag = tag then (set[0]?, c)
  else
    let (lineHit, lineFree) := scan c set tag g.assoc none
    match lineHit with
    | some k => (set[k]?, c)
    | none =>
      let (lineFree, irand) := victim g c policy set lineFree ignoreLocked
      match lineFree with
      | none => (none, c)
      | some k => (set[k]?, toFront g { c with irand } tag k)

end CacheAssoc

/-! ## `CacheDM` -/

namespace CacheDM

/-- The only place of an address. -/
def place (addr : Addr) : Option Line := c.content[g.calcIndex4Tag (g.calcTag addr)]?

def findLinePrivate (addr : Addr) : Option Line := do
  let line ← place g c addr
  if (c.line line).tag = g.calcTag addr then some line else none

def findLine2Replace (addr : Addr) (ignoreLocked : Bool) : Option Line := do
  let line ← place g c addr
  if ignoreLocked then some line
  else if (c.line line).tag = g.calcTag addr then some line
  else if (c.line line).isLocked then none
  else some line

end CacheDM

/-! ## `CacheDMSkew` -/

namespace CacheDMSkew

/-- The first place of an address. -/
def place (addr : Addr) : Option Line := c.content[g.calcIndex4Tag (g.calcTag addr)]?

/-- The second place of an address. -/
def place2 (addr : Addr) : Option Line :=
  c.content[g.calcIndex4Tag (g.calcTag (addr ^^^ addr >>> 7))]?

def findLinePrivate (addr : Addr) : Option Line := do
  let line ← place g c addr
  let line2 ← place2 g c addr
  if (c.line line).tag = g.calcTag addr then some line
  else if (c.line line2).tag = g.calcTag addr then some line2
  else none

/-- The flag says whether `rand_number` is odd, which all skewed caches have in common. -/
def findLine2Replace (addr : Addr) (ignoreLocked odd : Bool) : Option Line := do
  let line ← place g c addr
  let line2 ← place2 g c addr
  if ignoreLocked then some line
  else if (c.line line).tag = g.calcTag addr then some line
  else if (c.line line).isLocked then none
  else if (c.line line2).tag = g.calcTag addr then some line2
  else if odd then some line
  else some line2

end CacheDMSkew

/-! ## The operations -/

def findLine (addr : Addr) : Implementation → Option Line × CacheGeneric
  | .cacheAssoc _ => CacheAssoc.findLinePrivate g c addr
  | .cacheDM => (CacheDM.findLinePrivate g c addr, c)
  | .cacheDMSkew => (CacheDMSkew.findLinePrivate g c addr, c)

def findLine2Replace (addr : Addr) (ignoreLocked odd : Bool) :
    Implementation → Option Line × CacheGeneric
  | .cacheAssoc policy => CacheAssoc.findLine2Replace g c policy addr ignoreLocked
  | .cacheDM => (CacheDM.findLine2Replace g c addr ignoreLocked, c)
  | .cacheDMSkew => (CacheDMSkew.findLine2Replace g c addr ignoreLocked odd, c)

/-- The line that is filled, the address that it was used for, and the cache after that. -/
def fillLine (impl : Implementation) (addr : Addr) (ignoreLocked odd : Bool) :
    Option Line × Addr × CacheGeneric :=
  match c.findLine2Replace g addr ignoreLocked odd impl with
  | (none, c) => (none, 0, c)
  | (some l, c) =>
    let newTag := g.calcTag addr
    let curTag := (c.line l).tag
    let rplcAddr := if (c.line l).isValid ∧ curTag ≠ newTag then g.calcAddr4Tag curTag else 0
    (some l, rplcAddr, c.modifyLine l fun line => line.setTag newTag)

end CacheGeneric

/-- What the users of a cache do.  A line is invalidated, locked or unlocked through a pointer. -/
inductive Operation
  | findLine (addr : Addr)
  | fillLine (addr : Addr) (ignoreLocked odd : Bool)
  | invalidate (l : Line)
  | lock (l : Line)
  | unlock (l : Line)
deriving DecidableEq, Repr

namespace CacheGeneric

/-- Performing an operation on addresses whose tag is not 0. -/
def perform (impl : Implementation) (g : Geometry) (c : CacheGeneric) :
    Operation → Except Fault CacheGeneric
  | .findLine addr => do
    check .noSuchEvent (g.calcTag addr ≠ 0)
    return (c.findLine g addr impl).2
  | .fillLine addr ignoreLocked odd => do
    check .assertion (g.calcTag addr ≠ 0)
    return (c.fillLine g impl addr ignoreLocked odd).2.2
  | .invalidate l => do
    check .noSuchEvent (l < g.numLines)
    return c.modifyLine l CacheLine.invalidate
  | .lock l => do
    check .noSuchEvent (l < g.numLines)
    check .assertion (c.line l).isValid
    return c.modifyLine l fun line => { line with locked := true }
  | .unlock l => do
    check .noSuchEvent (l < g.numLines)
    return c.modifyLine l fun line => { line with locked := false }

end CacheGeneric

/-- The machine of a cache array. -/
def cacheMachine (impl : Implementation) (g : Geometry) :
    Machine CacheGeneric Operation Fault where
  init := .new g
  step := CacheGeneric.perform impl g

end Sesc.CacheCore
