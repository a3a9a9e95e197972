import Sesc.Config.Configuration

/-!
# Streams from which a read has failed

What the reads of `LoadFrom` do to the stream, also after one of them has failed.  A failed read
leaves its variable as it was, and all later reads fail.  The assertions still stop the program, but
the loop over the sub-nodes tests nothing but the word for the type.
-/

namespace Sesc.Config

open Lib

/-- An input stream: the text that is left, or none when a read has failed. -/
abbrev Stream := Option (List Char)

namespace Stream

/-- `>>` of a word. -/
def readWord (input : Stream) (target : List Char) : List Char × Stream :=
  match input.bind scanWord with
  | some (w, l) => (w, some l)
  | none => (target, none)

/-- `>>` of a character. -/
def readChar (input : Stream) (target : Char) : Char × Stream :=
  match input.bind scanChar with
  | some (c, l) => (c, some l)
  | none => (target, none)

/-- What a failed `>>` of an `int` leaves when there was some text: 0 if it is no number, and else
the bound that the number exceeds. -/
def failedInt32 (l : List Char) : Int32 :=
  match scanInt l with
  | none => 0
  | some (i, _) => if i < 0 then Int32.minValue else Int32.maxValue

/-- `>>` of an `int`. -/
def readInt32 (input : Stream) (target : Int32) : Int32 × Stream :=
  match input with
  | none => (target, none)
  | some l =>
    match scanInt32 l with
    | some (i, l') => (i, some l')
    | none => (if skipSpace l = [] then target else failedInt32 l, none)

/-- `>>` of a value. -/
def readValue (F : RealFormat) (s : Storage) (input : Stream) : Stream :=
  (input.bind (s.scan (F := F))).map Prod.snd

/-- The values of a set. -/
def readValues (F : RealFormat) (s : Storage) : ℕ → Stream → Stream
  | 0, input => input
  | k + 1, input => readValues F s k (readValue F s input)

end Stream

/-- The variables of `LoadFrom` that have no initial value. -/
structure Uninitialised where
  setSize : Int32
  trash : Char

namespace Stream

/-- `LoadFrom` of a node with a set of values. -/
def loadSet (F : RealFormat) (u : Uninitialised) (s : Storage) (input : Stream) :
    Except LoadFault Stream := do
  let (setSize, input) := input.readInt32 u.setSize
  let (trash, input) := input.readChar u.trash
  check .assertion (trash = '{')
  let input := readValues F s setSize.toInt.toNat input
  let (trash, input) := input.readChar trash
  check .assertion (trash = '}')
  return input

/-- `LoadFrom` of a node with sub-nodes; `loop` is the loop that reads them. -/
def loadRoot (loop : Stream → Except LoadFault Stream) (input : Stream) :
    Except LoadFault Stream := do
  let (marker, input) := input.readWord []
  check .assertion (marker = beginWord)
  loop input

/-- `LoadFrom` of a node of the given type. -/
def loadNode (F : RealFormat) (u : Uninitialised) (loop : Stream → Except LoadFault Stream)
    (type : Option NodeType) (input : Stream) : Except LoadFault Stream :=
  match type with
  | some .int => .ok (readValue F .int input)
  | some .real => .ok (readValue F .real input)
  | some .string => .ok (readValue F .string input)
  | some .intSet => loadSet F u .int input
  | some .realSet => loadSet F u .real input
  | some .stringSet => loadSet F u .string input
  | some .root => loadRoot loop input
  | none => .error .assertion

/-- The loop of `LoadFrom` with its variables, which a node with sub-nodes has anew; it fails with
`bound` when it has not left after so many turns. -/
def loadLoop (F : RealFormat) (u : Uninitialised) :
    ℕ → List Char → List Char → Stream → Except LoadFault Stream
  | 0, _, _, _ => .error .bound
  | k + 1, nodeType, nodeName, input =>
    let (nodeType, input) := input.readWord nodeType
    if nodeType = endWord then .ok input
    else do
      let (nodeName, input) := input.readWord nodeName
      let input ← loadNode F u (loadLoop F u k [] []) (NodeType.ofWord nodeType) input
      loadLoop F u k nodeType nodeName input

/-- `LoadFrom`, of which no loop makes more than `k` turns. -/
def loadFrom (F : RealFormat) (u : Uninitialised) (k : ℕ) (l : List Char) :
    Except LoadFault Stream :=
  loadRoot (loadLoop F u k [] []) (some l)

end Stream

/-- `LoadFrom` leaves all its loops. -/
def Terminates (F : RealFormat) (u : Uninitialised) (l : List Char) : Prop :=
  ∃ k, Stream.loadFrom F u k l ≠ .error .bound

end Sesc.Config
