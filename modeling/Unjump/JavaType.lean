/-!
# Java types

The types of values, as a method's descriptor and its table of local variables name them.
`JavaType.descriptor` is the coded form of a type and `JavaType.text` the form that Java source
uses.
-/

namespace Unjump

/-- A type of values, or `void`. -/
inductive JavaType where
  | void
  | boolean
  | byte
  | char
  | short
  | int
  | long
  | float
  | double
  /-- A class by its internal name, in which slashes divide the packages. -/
  | object (name : String)
  | array (component : JavaType)
  deriving DecidableEq

namespace JavaType

/-- The class of all objects. -/
def javaObject : JavaType := .object "java/lang/Object"

/-- The class of texts. -/
def javaString : JavaType := .object "java/lang/String"

/-- The type of an array's elements. -/
def component? : JavaType → Option JavaType
  | .array component => some component
  | _ => none

/-- How many slots of local variables a value takes. -/
def slots : JavaType → UInt16
  | .long | .double => 2
  | .void => 0
  | _ => 1

/-- The coded form of the type. -/
def descriptor : JavaType → String
  | .void => "V"
  | .boolean => "Z"
  | .byte => "B"
  | .char => "C"
  | .short => "S"
  | .int => "I"
  | .long => "J"
  | .float => "F"
  | .double => "D"
  | .object name => "L" ++ name ++ ";"
  | .array component => "[" ++ component.descriptor

/-- A class name as source text: the package `java/lang` is left out, and dots divide the rest. -/
def className (name : String) : String :=
  let cs := name.toList
  let rest := if "java/lang/".toList.isPrefixOf cs then cs.drop 10 else cs
  String.ofList (rest.map fun c => if c = '/' then '.' else c)

/-- The type as source text. -/
def text : JavaType → String
  | .void => "void"
  | .boolean => "boolean"
  | .byte => "byte"
  | .char => "char"
  | .short => "short"
  | .int => "int"
  | .long => "long"
  | .float => "float"
  | .double => "double"
  | .object name => className name
  | .array component => component.text ++ "[]"

end JavaType

end Unjump
