import Unjump.Yaml.Node
import Unjump.Yaml.Scalar.Meaning

/-!
# Reading values out of nodes

Values are read out of a document from its root down, and an alias is followed wherever a value is
wanted. A few aliases of aliases can stand for a document of any size, so the aliases that are
followed are counted: there may be a hundred for every part that the document is written with.
A scalar is read as what is wanted in its place: any scalar can be a text.
-/

namespace Unjump.Yaml

/-- What is known of the document around a node that is read. -/
structure References where
  /-- The nodes with anchors and their numbers, the last one first. -/
  targets : List (Nat × Node)
  /-- How many aliases may still be followed. -/
  left : Nat

/-- A way to read values out of nodes. -/
abbrev Reader := StateT References Option

/-- The node is a null. A tag that calls anything else a null is refused. -/
def Node.isNull? : Node → Option Bool
  | .scalar tag value =>
    let isNullWord := Meaning.isNull value.text.toList
    if value.style ≠ .plain then some false
    else
      match tag with
      | none => some (value.text.isEmpty || isNullWord)
      | some .null => if isNullWord then some true else none
      | some _ => some false
  | _ => some false

namespace Reader

/-- How many aliases may be followed for every part of a document. -/
def aliasesPerPart : Nat := 100

/-- What is known of a document before its root is read. -/
def start (root : Node) : References :=
  ⟨root.targets.reverse, aliasesPerPart * root.partCount⟩

/-- Reads a value out of a document. -/
def run? {α : Type} (read : Node → Reader α) (root : Node) : Option α :=
  (read root (start root)).map (·.1)

/-- The node that an alias stands for. -/
def target (number : Nat) : Reader Node := do
  let references ← get
  if references.left = 0 then failure
  set { references with left := references.left - 1 }
  references.targets.lookup number

/-- The node without its anchor, or the node that an alias stands for. -/
def follow : Node → Reader Node
  | .anchored _ node => return node
  | .alias number => target number
  | node => return node

/-- The text of a scalar. -/
def text (node : Node) : Reader String := do
  match ← follow node with
  | .scalar _ value => return value.text
  | _ => failure

/-- The items of a list, which may be left out. -/
def items (node : Node) : Reader (List Node) := do
  match ← follow node with
  | .list items => return items
  | .scalar _ value => if value = .empty then return [] else failure
  | _ => failure

/-- The list whose items are read in one way. -/
def listOf {α : Type} (read : Node → Reader α) (node : Node) : Reader (List α) := do
  (← items node).mapM read

/-- The parts of a map that have one of some names. No part may be given twice. -/
def parts (names : List String) (node : Node) : Reader (List (String × Node)) := do
  match ← follow node with
  | .map pairs =>
    let parts ← pairs.mapM fun (key, value) => return (← text key, value)
    let parts := parts.filter fun (name, _) => names.contains name
    if (parts.map (·.1)).Nodup then return parts else failure
  | _ => failure

/-- A part that may be missing. -/
def optional {α : Type} (read : Node → Reader α) : Option Node → Reader (Option α)
  | none => return none
  | some node => do
    let node ← follow node
    if ← node.isNull? then return none else return some (← read node)

/-- A list that is empty if it is missing. -/
def listOrEmpty {α : Type} (read : Node → Reader α) : Option Node → Reader (List α)
  | none => return []
  | some node => listOf read node

end Reader

end Unjump.Yaml
