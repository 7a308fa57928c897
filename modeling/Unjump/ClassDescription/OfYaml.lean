import Unjump.ClassDescription
import Unjump.Yaml.Node.OfTokens
import Unjump.Yaml.Node.Reader

/-!
# Class descriptions in YAML

A description is a map from the names of its parts. A part that is not known is skipped, one that is
known may be given once.
-/

namespace Unjump

namespace ClassDescription

open Yaml (Reader)

/-- The number of a slot. -/
def readSlot (node : Yaml.Node) : Reader UInt16 := do
  match ← Reader.follow node with
  | .scalar tag value =>
    if value.style = .plain ∨ (value.style = .literal ∧ tag = some .int) then
      ((Yaml.Meaning.natural? value.text.toList).filter (· < 65536)).map UInt16.ofNat
    else failure
  | _ => failure

/-- The constant that a number stands for. -/
def intConstant? (n : Int) : Option Constant :=
  if -2147483648 ≤ n ∧ n ≤ 2147483647 then some (.int (Int32.ofInt n)) else none

/-- The constant that a scalar without a tag stands for. -/
def untaggedConstant? (value : Yaml.Scalar) : Option Constant :=
  if value.style ≠ .plain then some (.text value.text)
  else
    match Yaml.Meaning.ofPlain value.text with
    | .int n => intConstant? n
    | .text => some (.text value.text)
    | _ => none

/-- The constant that a scalar stands for. -/
def scalarConstant? (tag : Option Yaml.Tag) (value : Yaml.Scalar) : Option Constant :=
  match tag with
  | none | some .garbled => untaggedConstant? value
  | some .int => (Yaml.Meaning.integer? value.text.toList).bind intConstant?
  | some .other => some (.text value.text)
  | some _ => none

/-- A constant: a number of 32 bits or a text. -/
def readConstant (node : Yaml.Node) : Reader Constant := do
  match ← Reader.follow node with
  | .scalar tag value => scalarConstant? tag value
  | _ => failure

/-- A local variable. -/
def readLocal (node : Yaml.Node) : Reader LocalDescription := do
  let parts ← Reader.parts ["index", "name", "type"] node
  let slot ← readSlot (← parts.lookup "index")
  let name ← Reader.text (← parts.lookup "name")
  return ⟨slot, name, ← Reader.text (← parts.lookup "type")⟩

/-- A method. -/
def readMethod (node : Yaml.Node) : Reader MethodDescription := do
  let names := ["name", "descriptor", "locals", "constants", "code", "bytecode"]
  let parts ← Reader.parts names node
  let name ← Reader.text (← parts.lookup "name")
  let descriptor ← Reader.optional Reader.text (parts.lookup "descriptor")
  let locals ← Reader.listOrEmpty readLocal (parts.lookup "locals")
  let constants ← Reader.listOrEmpty readConstant (parts.lookup "constants")
  let listing ← Reader.optional (Reader.listOf Reader.text) (parts.lookup "code")
  let bytecode ← Reader.optional Reader.text (parts.lookup "bytecode")
  return ⟨name, descriptor, locals, constants, listing, bytecode⟩

/-- A class. -/
def readClass (node : Yaml.Node) : Reader ClassDescription := do
  let parts ← Reader.parts ["name", "methods"] node
  let name ← Reader.text (← parts.lookup "name")
  return ⟨name, ← Reader.listOrEmpty readMethod (parts.lookup "methods")⟩

/-- The description that a YAML text holds. -/
def ofYaml? (text : String) : Option ClassDescription :=
  (Yaml.Node.ofText? text).bind (Reader.run? readClass)

end ClassDescription

end Unjump
