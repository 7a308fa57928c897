import Unjump.JavaType.Descriptor
import Unjump.Statement.Printer

/-!
# Methods as source text

A method is declared with the types of its descriptor. The names of its parameters are those of
the slots that hold them when the method starts: every parameter takes one slot, or two if it is a
`long` or a `double`, from slot zero on.
-/

namespace Unjump.Method

/-- The parameters of a method as source text, the first of them at a slot. Slots are numbers of
16 bits. -/
def parametersFrom (locals : LocalTable) (slot : UInt16) : List JavaType → List String
  | [] => []
  | type :: rest =>
    (type.text ++ " " ++ (locals.resolve slot type).name) ::
      parametersFrom locals (slot + type.slots) rest

/-- A method with its body as Java source, if its descriptor can be read. -/
def source (name descriptor : String) (locals : LocalTable) (body : List Statement) :
    Except Descriptor.Error String :=
  match Descriptor.parseMethod descriptor with
  | .error e => .error e
  | .ok (parameters, result) =>
    let list := ", ".intercalate (parametersFrom locals 0 parameters)
    .ok (s!"static {result.text} {name}({list}) " ++ "\x7b\n" ++
      Statement.sourceAllAt 1 body ++ "\x7d\n")

end Unjump.Method
