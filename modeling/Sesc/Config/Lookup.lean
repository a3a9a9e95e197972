import Sesc.Config.Configuration
import Sesc.Messages

/-!
# Looking up the nodes of a configuration

`IsA` compares the types of two nodes.  A node with a set of values has the type of a node with one
value, so that it passes the test; reading it as one value is then undefined and a fault here.
-/

namespace Sesc.Config

open Lib

variable {F : RealFormat}

namespace ConfigNode

variable (n : ConfigNode F)

/-- `IsA`. -/
def isA (t : NodeType) : Bool := n.type = t

/-- The sub-nodes of a `RootConfigNode`. -/
def nodeSet : ConfigNode F → List (ConfigNode F)
  | root _ nodes => nodes
  | _ => []

/-- The sub-nodes of a name, in the order in which `SubNode` counts them. -/
def named (name : List Char) : List (ConfigNode F) := n.nodeSet.filter fun k => k.name = name

/-- `SubNodeCount`. -/
def subNodeCount (name : List Char) : ℕ := (n.named name).length

/-- `ContainsSubNode`. -/
def containsSubNode (name : List Char) : Bool := n.nodeSet.any fun k => k.name = name

/-- `SubNode`. -/
def subNode (name : List Char) (iteration : ℕ) : Except Fault (ConfigNode F) :=
  ((n.named name)[iteration]?).elim (.error .assertion) .ok

/-- `Value` of a `StringConfigNode`. -/
def stringValue : ConfigNode F → Except Fault (List Char)
  | primitive .string _ value => .ok value
  | _ => .error .assertion

/-- `Value` of an `IntConfigNode`. -/
def intValue : ConfigNode F → Except Fault Int64
  | primitive .int _ value => .ok value
  | _ => .error .assertion

/-- The first sub-node of a name, which must be there and must have the given type. -/
def required (name : List Char) (t : NodeType) : Except Fault (ConfigNode F) := do
  check .assertion (n.containsSubNode name = true)
  let k ← n.subNode name 0
  check .assertion (k.isA t = true)
  return k

/-- The value of a sub-node that must be a string. -/
def requiredString (name : List Char) : Except Fault (List Char) := do
  let k ← n.required name .string
  k.stringValue

/-- The value of a sub-node that must be an integer. -/
def requiredInt (name : List Char) : Except Fault Int64 := do
  let k ← n.required name .int
  k.intValue

end ConfigNode

end Sesc.Config
