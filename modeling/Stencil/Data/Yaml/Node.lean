import Stencil.Data.Yaml.Schema

/-!
The nodes of a YAML document: aliases, scalars with their values, lists and maps, with what is
noted about each.
-/

namespace Stencil.Data.Yaml

/-- The styles of scalars. -/
inductive Style where
  | plain
  | single
  | double
  | literal
  | folded
  deriving DecidableEq, Repr, Inhabited

/-- What is noted about a node besides what it holds. An anchor has a number, which tells it from
other anchors of the same name.
-/
structure Facts where
  anchor? : Option (String × Nat) := none
  tag? : Option String := none
  comment : String := ""
  commentBefore : String := ""
  isSpaced : Bool := false
  deriving DecidableEq, Repr, Inhabited

/-- A node. An alias knows the number of the anchor that it stands for, a scalar its text as it
was spelled. The pairs of a list are maps with one entry each, told apart from maps by the list.
-/
inductive Node where
  | reference (name : String) (target? : Option Nat) (facts : Facts)
  | scalar (reading : Reading) (source : String) (style : Style) (facts : Facts)
  | list (items : List Node) (facts : Facts)
  | map (entries : List (Node × Option Node)) (isSet : Bool) (facts : Facts)
  | pairs (entries : List (Node × Option Node)) (isOrdered : Bool) (facts : Facts)
  deriving Inhabited, Repr

namespace Node

/-- What is noted about a node. -/
def facts : Node → Facts
  | reference _ _ facts => facts
  | scalar _ _ _ facts => facts
  | list _ facts => facts
  | map _ _ facts => facts
  | pairs _ _ facts => facts

/-- A node about which something else is noted. -/
def withFacts (change : Facts → Facts) : Node → Node
  | reference name target? facts => reference name target? (change facts)
  | scalar reading source style facts => scalar reading source style (change facts)
  | list items facts => list items (change facts)
  | map entries isSet facts => map entries isSet (change facts)
  | pairs entries isOrdered facts => pairs entries isOrdered (change facts)

/-- A text with a comment below it. -/
def joinComments (comment below : String) : String :=
  if below = "" then comment else if comment = "" then below else comment ++ "\n" ++ below

/-- A node with one more comment after it. -/
def withComment (comment : String) (node : Node) : Node :=
  node.withFacts fun facts => { facts with comment := joinComments facts.comment comment }

/-- Whether a node is a list or a map. -/
def isCollection : Node → Bool
  | reference _ _ _ => false
  | scalar _ _ _ _ => false
  | _ => true

/-- Whether two scalars have the same value, so that they cannot both be keys of a map. Times and
bytes are never the same, and neither is what is no number.
-/
def isSameValue : Plain → Plain → Bool
  | .null, .null => true
  | .boolean a, .boolean b => a == b
  | .text a, .text b => a == b
  | .number a, .number b =>
    match a.toInt?, b.toInt? with
    | some m, some n => m == n
    | _, _ => a == b && a != .nan
  | _, _ => false

/-- Whether two keys are the same. -/
def isSameKey : Node → Node → Bool
  | scalar a _ _ _, scalar b _ _ _ => isSameValue a.value b.value
  | _, _ => false

/-- Whether the value of an entry is nothing, and nothing is noted about it. -/
def isVoid : Option Node → Bool
  | none => true
  | some (scalar reading _ _ facts) =>
    reading.value matches .null && facts.comment = "" && facts.commentBefore = ""
      && facts.tag?.isNone
  | some _ => false

end Node

end Stencil.Data.Yaml
