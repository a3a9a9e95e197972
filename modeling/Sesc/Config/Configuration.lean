import Sesc.Lib.Check
import Sesc.Lib.Scanning

/-!
# `Configuration`

The trees of configuration nodes, the text that `WriteTo` puts out for a tree, and `LoadFrom`, which
reads the nodes of a tree from a text.

A stream from which a read has failed stays so: no later read changes its variable, an assertion on
a marker fails, and the loop of `LoadFrom` never sees the word that ends it.  So a failed read is a
fault here.
-/

namespace Sesc.Config

open Lib

/-- Why `LoadFrom` does not accept a text: an assertion, a failed read, or, which never happens, the
bound on the number of its turns. -/
inductive LoadFault
  | assertion
  | failedRead
  | bound
deriving DecidableEq, Repr

/-- Real numbers and their text.  A finite number is read back as it has been printed, with the
precision of the stream; one that is not finite is printed as a word that is not read as a number.
An integer is read as a number, too. -/
structure RealFormat where
  Real : Type
  finite : Real → Bool
  print : Real → List Char
  scan : List Char → Option (Real × List Char)
  /-- The number that is read when a number has been printed. -/
  printed : Real → Real
  isWord_print : ∀ r, IsWord (print r)
  scan_print : ∀ r c l, finite r = true → isSpace c = true →
    scan (print r ++ c :: l) = some (printed r, c :: l)
  scan_infinite : ∀ r l, finite r = false → scan (print r ++ l) = none
  scan_int : ∀ (i : Int32) c l, isSpace c = true →
    ∃ r, scan (printInt i.toInt ++ c :: l) = some (r, c :: l)
  finite_scan : ∀ l r l', scan l = some (r, l') → finite r = true
  length_scan : ∀ l r l', scan l = some (r, l') → l'.length ≤ l.length

/-- `ConfigNode::NodeType`. -/
inductive NodeType
  | root
  | int
  | real
  | string
  | intSet
  | realSet
  | stringSet
deriving DecidableEq, Repr

/-- The types of the values of a node. -/
inductive Storage
  | int
  | real
  | string
deriving DecidableEq, Repr

section

variable (F : RealFormat)

/-- `ConfigInt`, `ConfigReal` and `ConfigString`. -/
def Storage.Value : Storage → Type
  | int => Int64
  | real => F.Real
  | string => List Char

/-- The nodes: those with a value, those with a set of values, and those with sub-nodes. -/
inductive ConfigNode
  | primitive (s : Storage) (name : List Char) (value : s.Value F)
  | set (s : Storage) (name : List Char) (values : List (s.Value F))
  | root (name : List Char) (nodes : List ConfigNode)

end

variable {F : RealFormat}

/-! ## The kinds of nodes -/

/-- The container types of `IntConfigNode`, `RealConfigNode` and `StringConfigNode`. -/
def Storage.containerType : Storage → NodeType
  | int => .int
  | real => .real
  | string => .string

/-- The container types of `IntSetConfigNode`, `RealSetConfigNode` and `StringSetConfigNode`. -/
def Storage.setContainerType : Storage → NodeType
  | int => .int
  | real => .real
  | string => .string

namespace ConfigNode

/-- `Type`. -/
def type : ConfigNode F → NodeType
  | primitive s _ _ => s.containerType
  | set s _ _ => s.setContainerType
  | root _ _ => .root

/-- `Name`. -/
def name : ConfigNode F → List Char
  | primitive _ name _ => name
  | set _ name _ => name
  | root name _ => name

end ConfigNode

def IntConfigNode (name : List Char) (value : Int64) : ConfigNode F := .primitive .int name value

def RealConfigNode (name : List Char) (value : F.Real) : ConfigNode F := .primitive .real name value

def StringConfigNode (name value : List Char) : ConfigNode F := .primitive .string name value

def IntSetConfigNode (name : List Char) (values : List Int64) : ConfigNode F :=
  .set .int name values

def RealSetConfigNode (name : List Char) (values : List F.Real) : ConfigNode F :=
  .set .real name values

def StringSetConfigNode (name : List Char) (values : List (List Char)) : ConfigNode F :=
  .set .string name values

/-! ## Writing -/

/-- `std::endl`. -/
def endl : Char := Char.ofNat 10

def blank : Char := Char.ofNat 32

/-- The word that `WriteTo` puts out for a type. -/
def NodeType.word : NodeType → List Char
  | root => ['R', 'o', 'o', 't']
  | int => ['I', 'n', 't']
  | real => ['R', 'e', 'a', 'l']
  | string => ['S', 't', 'r', 'i', 'n', 'g']
  | intSet => ['I', 'n', 't', 'S', 'e', 't']
  | realSet => ['R', 'e', 'a', 'l', 'S', 'e', 't']
  | stringSet => ['S', 't', 'r', 'i', 'n', 'g', 'S', 'e', 't']

def beginWord : List Char := ['B', 'e', 'g', 'i', 'n']

def endWord : List Char := ['E', 'n', 'd']

/-- The text of a value. -/
def Storage.print : (s : Storage) → s.Value F → List Char
  | int, value => printInt (Int64.toInt value)
  | real, value => F.print value
  | string, value => value

/-- The size of a set as an `int`. -/
def setSize (n : ℕ) : ℤ := (Int32.ofNat n).toInt

/-- `WriteTo` of a node with a set of values. -/
def Storage.writeSet (s : Storage) (values : List (s.Value F)) : List Char :=
  printInt (setSize values.length) ++ [blank, '{', blank] ++
    (values.take (setSize values.length).toNat).flatMap (fun value => s.print value ++ [blank]) ++
    ['}', endl]

mutual

/-- `WriteTo`. -/
def ConfigNode.writeTo : ConfigNode F → List Char
  | .primitive s _ value => s.print value ++ [endl]
  | .set s _ values => s.writeSet values
  | .root _ nodes => beginWord ++ endl :: writeNodes nodes ++ endWord ++ [endl]

/-- The sub-nodes of a node in a text, each after its type and its name. -/
def writeNodes : List (ConfigNode F) → List Char
  | [] => []
  | n :: nodes => n.type.word ++ blank :: n.name ++ blank :: n.writeTo ++ writeNodes nodes

end

/-! ## Loading -/

/-- A read that must succeed. -/
def require {α : Type} (o : Option (α × List Char)) : Except LoadFault (α × List Char) :=
  o.elim (.error .failedRead) .ok

@[simp] lemma require_some {α : Type} {r : α × List Char} : require (some r) = .ok r := rfl

@[simp] lemma require_none {α : Type} : require (none : Option (α × List Char)) = .error .failedRead :=
  rfl

/-- An integer of a type whose values are those from `-b` to `b - 1`. -/
def inRange (b : ℤ) (i : ℤ) : Bool := -b ≤ i && i < b

/-- `>>` on an `int`. -/
def scanInt32 (l : List Char) : Option (Int32 × List Char) :=
  (scanInt l).bind fun r =>
    if inRange 0x80000000 r.1 then some (Int32.ofInt r.1, r.2) else none

/-- `>>` on a `long long`. -/
def scanInt64 (l : List Char) : Option (Int64 × List Char) :=
  (scanInt l).bind fun r =>
    if inRange 0x8000000000000000 r.1 then some (Int64.ofInt r.1, r.2) else none

/-- `>>` on a value. -/
def Storage.scan : (s : Storage) → List Char → Option (s.Value F × List Char)
  | int, l => scanInt64 l
  | real, l => F.scan (skipSpace l)
  | string, l => scanWord l

/-- A character that must be the given one. -/
def expect (c : Char) (l : List Char) : Except LoadFault (Unit × List Char) := do
  let (trash, l) ← require (scanChar l)
  check .assertion (trash = c)
  return ((), l)

/-- The values of a set. -/
def loadValues (s : Storage) : ℕ → List Char → Except LoadFault (List (s.Value F) × List Char)
  | 0, l => .ok ([], l)
  | k + 1, l => do
    let (value, l) ← require (s.scan l)
    let (values, l) ← loadValues s k l
    return (value :: values, l)

/-- `LoadFrom` of a node with a set of values. -/
def Storage.loadSet (s : Storage) (l : List Char) :
    Except LoadFault (List (s.Value F) × List Char) := do
  let (size, l) ← require (scanInt32 l)
  let (_, l) ← expect '{' l
  let (values, l) ← loadValues s size.toInt.toNat l
  let (_, l) ← expect '}' l
  return (values, l)

/-- What reads the sub-nodes of a node. -/
abbrev Loop (F : RealFormat) := List Char → Except LoadFault (List (ConfigNode F) × List Char)

/-- The type that `LoadFrom` takes a word for. -/
def NodeType.ofWord (w : List Char) : Option NodeType :=
  [int, real, string, intSet, realSet, stringSet, root].find? fun t => t.word = w

/-- `LoadFrom` of a node with a value. -/
def loadPrimitive (s : Storage) (name l : List Char) :
    Except LoadFault (ConfigNode F × List Char) := do
  let (value, l) ← require (s.scan l)
  return (.primitive s name value, l)

def loadSetNode (s : Storage) (name l : List Char) :
    Except LoadFault (ConfigNode F × List Char) := do
  let (values, l) ← s.loadSet l
  return (.set s name values, l)

/-- `LoadFrom` of a node with sub-nodes; `loop` is the loop that reads them. -/
def loadRoot (loop : Loop F) : Loop F := fun l => do
  let (marker, l) ← require (scanWord l)
  check .assertion (marker = beginWord)
  loop l

def loadRootNode (loop : Loop F) (name l : List Char) :
    Except LoadFault (ConfigNode F × List Char) := do
  let (nodes, l) ← loadRoot loop l
  return (.root name nodes, l)

/-- A node of the given type and name. -/
def loadNode (loop : Loop F) (type : Option NodeType) (name l : List Char) :
    Except LoadFault (ConfigNode F × List Char) :=
  match type with
  | some .int => loadPrimitive .int name l
  | some .real => loadPrimitive .real name l
  | some .string => loadPrimitive .string name l
  | some .intSet => loadSetNode .int name l
  | some .realSet => loadSetNode .real name l
  | some .stringSet => loadSetNode .string name l
  | some .root => loadRootNode loop name l
  | none => .error .assertion

/-- A node of the given type and name, and the nodes after it. -/
def loadFollowing (loop : Loop F) (type : Option NodeType) (name l : List Char) :
    Except LoadFault (List (ConfigNode F) × List Char) := do
  let (n, l) ← loadNode loop type name l
  let (nodes, l) ← loop l
  return (n :: nodes, l)

/-- A turn of the loop, and the turns after it. -/
def loadNext (loop : Loop F) (nodeType l : List Char) :
    Except LoadFault (List (ConfigNode F) × List Char) := do
  let (nodeName, l) ← require (scanWord l)
  loadFollowing loop (NodeType.ofWord nodeType) nodeName l

/-- The loop of `LoadFrom`; it reads nodes until the word that ends them.  Every turn reads a word,
so that the length of the text bounds the number of turns. -/
def loadLoop : ℕ → Loop F
  | 0, _ => .error .bound
  | k + 1, l => do
    let (nodeType, l) ← require (scanWord l)
    if nodeType = endWord then .ok ([], l) else loadNext (loadLoop k) nodeType l

/-- `LoadFrom`: the nodes that are read from a text. -/
def loadFrom : Loop F := fun l => loadRoot (loadLoop (l.length + 1)) l

end Sesc.Config
