import Unjump.ClassDescription
import Unjump.Instr.Bytecode
import Unjump.Instr.Listing
import Unjump.JavaType.Descriptor
import Unjump.Method
import Unjump.Text.Visible

/-!
# The methods of a class description

A method is read from its listing, or from its bytes if it has no listing. Blanks between the digits
of the bytes do not count. The types of the variables are read after the code.
-/

namespace Unjump

open Text

/-- Why the description of a method is refused. -/
inductive MethodDescription.Fault where
  | listing (error : Listing.Error)
  | bytecode (error : Bytecode.Error)
  /-- Two characters that are no byte in hexadecimal, or one at the end. -/
  | hexByte (text : String)
  | noCode
  | descriptor (name : String) (error : Descriptor.Error)
  deriving DecidableEq

/-- The wording of a fault. -/
def MethodDescription.Fault.message : MethodDescription.Fault → String
  | .listing error => error.message
  | .bytecode error => error.message
  | .hexByte text => "invalid hex byte " ++ Visible.quote text
  | .noCode => "either \x60code\x60 or \x60bytecode\x60 is required"
  | .descriptor name error => s!"local {name}: {error.message}"

namespace MethodDescription

/-- The instructions whose bytes a text gives in hexadecimal. -/
def readBytecode (hex : String) : Except Fault (List Instr) :=
  match Hex.bytesOfText hex.toList with
  | .error pair => .error (.hexByte (String.ofList pair))
  | .ok bytes => (Bytecode.decode bytes).mapError .bytecode

/-- The instructions of a method. -/
def instructions (d : MethodDescription) : Except Fault (List Instr) :=
  match d.listing, d.bytecode with
  | some lines, _ => (Listing.assemble lines).mapError .listing
  | none, some hex => readBytecode hex
  | none, none => .error .noCode

/-- The variable that a description stands for. -/
def readLocal (d : LocalDescription) : Except Fault Local :=
  match Descriptor.parse d.descriptor with
  | .error error => .error (.descriptor d.name error)
  | .ok type => .ok ⟨d.slot, d.name, type⟩

/-- The method that a description stands for. -/
def toMethod (d : MethodDescription) : Except Fault Method :=
  match d.instructions with
  | .error fault => .error fault
  | .ok code =>
    match d.locals.mapM readLocal with
    | .error fault => .error fault
    | .ok locals => .ok ⟨d.name, d.descriptor, .ofList locals, d.constants, code⟩

end MethodDescription

namespace ClassDescription

/-- Why a description is refused: the fault of one of its methods. -/
structure Error where
  method : String
  fault : MethodDescription.Fault
  deriving DecidableEq

/-- The wording of an error. -/
def Error.message (error : Error) : String :=
  s!"method {error.method}: {error.fault.message}"

/-- The methods of a class, unless one of them is refused. -/
def toMethods (d : ClassDescription) : Except Error (List Method) :=
  d.methods.mapM fun m => m.toMethod.mapError (⟨m.name, ·⟩)

end ClassDescription

end Unjump
