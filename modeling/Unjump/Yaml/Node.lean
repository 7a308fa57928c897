import Unjump.Yaml.Scalar

/-!
# Nodes

A document is one node: a scalar, a list or a map. A node may have an anchor, and an alias stands
for the node with its anchor. Anchors are numbered by how many names of anchors are known in front
of them; of several nodes with one number, an alias stands for the last.
-/

namespace Unjump.Yaml

/-- What a tag says of a scalar. -/
inductive Tag where
  | null
  | bool
  | int
  | float
  /-- A tag of the program that reads the document. It starts with an exclamation mark. -/
  | custom
  /-- A tag that starts like one of the program but is no text. It says nothing. -/
  | garbled
  /-- Any other tag, which says that the scalar is a text. -/
  | other
  deriving DecidableEq

/-- The tags of the language itself start with this. -/
def Tag.languageStart : List UInt8 :=
  "tag:yaml.org,2002:".toUTF8.toList

/-- What a tag says that is none of the language itself. Its octets are given, and whether they are
a text. -/
def Tag.ofForeign (octets : List UInt8) (isText : Bool) : Tag :=
  if octets.head? ≠ some 0x21 then .other else if isText then .custom else .garbled

/-- What the octets of a tag say. -/
def Tag.ofOctets (octets : List UInt8) : Tag :=
  match String.fromUTF8? octets.toByteArray with
  | some "tag:yaml.org,2002:null" => .null
  | some "tag:yaml.org,2002:bool" => .bool
  | some "tag:yaml.org,2002:int" => .int
  | some "tag:yaml.org,2002:float" => .float
  | text? => .ofForeign octets text?.isSome

/-- A node of a document. -/
inductive Node where
  | scalar (tag : Option Tag) (value : Scalar)
  | list (items : List Node)
  | map (pairs : List (Node × Node))
  /-- A node with an anchor. -/
  | anchored (number : Nat) (node : Node)
  | alias (number : Nat)

namespace Node

mutual

/-- The nodes with anchors inside a node, in the order of the document. -/
def targets : Node → List (Nat × Node)
  | .scalar .. | .alias _ => []
  | .list items => targetsOfItems items
  | .map pairs => targetsOfPairs pairs
  | .anchored number node => (number, node) :: targets node

/-- The nodes with anchors inside the items of a list. -/
def targetsOfItems : List Node → List (Nat × Node)
  | [] => []
  | item :: rest => targets item ++ targetsOfItems rest

/-- The nodes with anchors inside the keys and values of a map. -/
def targetsOfPairs : List (Node × Node) → List (Nat × Node)
  | [] => []
  | (key, value) :: rest => targets key ++ targets value ++ targetsOfPairs rest

end

mutual

/-- How many parts a node is written with. A scalar or an alias is one part. A list or a map has its
start and its end besides what it holds. -/
def partCount : Node → Nat
  | .scalar .. | .alias _ => 1
  | .list items => 2 + partCountOfItems items
  | .map pairs => 2 + partCountOfPairs pairs
  | .anchored _ node => partCount node

/-- How many parts the items of a list are written with. -/
def partCountOfItems : List Node → Nat
  | [] => 0
  | item :: rest => partCount item + partCountOfItems rest

/-- How many parts the keys and values of a map are written with. -/
def partCountOfPairs : List (Node × Node) → Nat
  | [] => 0
  | (key, value) :: rest => partCount key + partCount value + partCountOfPairs rest

end

end Node

end Unjump.Yaml
