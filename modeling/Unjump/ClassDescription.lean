import Unjump.Instr

/-!
# Class descriptions

What a class file is described by: the name of the class and, for every method, its code, the
variables that its slots hold and the constants it refers to. Nothing has been checked yet.
-/

namespace Unjump

/-- A local variable as it is described. -/
structure LocalDescription where
  slot : UInt16
  name : String
  descriptor : String

/-- A method as it is described. Its code is given as a listing or as bytes. -/
structure MethodDescription where
  name : String
  descriptor : Option String
  locals : List LocalDescription
  constants : List Constant
  /-- The lines of an assembly listing. -/
  listing : Option (List String)
  /-- The bytes in hexadecimal. -/
  bytecode : Option String

/-- A class as it is described. -/
structure ClassDescription where
  name : String
  methods : List MethodDescription

end Unjump
