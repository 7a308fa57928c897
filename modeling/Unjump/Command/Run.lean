import Unjump.BlockGraph.Printer
import Unjump.ClassDescription.Methods
import Unjump.ClassDescription.OfYaml
import Unjump.Command
import Unjump.InputPath
import Unjump.Method.Printer
import Unjump.OutputPath
import Unjump.Record.Printer
import Unjump.Record.Syntax
import Unjump.Text.Lines

/-!
# Carrying out commands

A command is given the text of its file and answers with what it prints and writes. A method whose
body cannot be found does not stop a command: its declaration holds the reason in place of a body.
-/

namespace Unjump

open Text

/-- Why a command fails. -/
inductive Command.Error where
  | missingFile (path : String)
  /-- The file is no description of a class. -/
  | malformed
  | method (error : ClassDescription.Error)

/-- The wording of an error. -/
def Command.Error.message : Command.Error → String
  | .missingFile path => s!"{path}: {(InputPath.fault path.toList).message}"
  | .malformed => "invalid class description"
  | .method error => error.message

/-- A file below the output directory. -/
structure OutputFile where
  /-- The entries that lead to it, its own name last. -/
  path : List String
  text : String

/-- What a command does. -/
structure Outcome where
  /-- The text printed, also when the command fails after it. -/
  printed : String
  file : Option OutputFile
  error : Option Command.Error

namespace Outcome

/-- A command that prints a text. -/
def print (text : String) : Outcome := ⟨text, none, none⟩

/-- A command that prints a text and fails. -/
def fail (text : String) (error : Command.Error) : Outcome := ⟨text, none, some error⟩

end Outcome

namespace Method

/-- The descriptor of a method; without one, it has no parameters and no result. -/
def descriptorText (m : Method) : String :=
  m.descriptor.getD "()V"

/-- The line that declares a local variable. -/
def localLine (v : Local) : String :=
  s!"    .local {v.slot.toNat} {v.name} {v.type.descriptor}\n"

/-- The blocks of a method as text. -/
def blockText (m : Method) : String :=
  s!".method {m.name} {m.descriptorText}\n" ++ String.join (m.locals.entries.map localLine) ++
    (BlockGraph.build m.code).text ++ "\n"

/-- The statements of a method, or the reason why there are none, as a record. -/
def statementRecord (m : Method) : Record :=
  .object [("name", .text m.name),
    match m.decompile with
    | .ok body => ("statements", .list (Statement.records body))
    | .error failure => ("error", .text failure.message)]

/-- The statements of a method, or a comment with the reason why there are none. -/
def bodyOrComment (m : Method) : List Statement :=
  match m.decompile with
  | .ok body => body
  | .error failure => [.comment s!"decompilation failed: {failure.message}"]

/-- A method inside a class, every line of it four blanks from the margin. A method whose descriptor
cannot be read is one line of comment. -/
def memberText (m : Method) (body : List Statement) : String :=
  let descriptor := m.descriptorText
  match source m.name descriptor m.locals body with
  | .error error =>
    s!"    // {m.name}: bad descriptor " ++ Visible.quote descriptor ++ s!": {error.message}\n"
  | .ok text =>
    String.join ((lines text.toList).map fun line => "    " ++ String.ofList line ++ "\n")

end Method

/-- The last part of a class name. -/
def simpleName (name : String) : String :=
  String.ofList ((splitAt (· == '/') name.toList).getLast?.getD [])

/-- The source text of a class. A blank line stands between methods. -/
def classText (name : String) (methods : List Method) : String :=
  s!"class {simpleName name} " ++ "\x7b\n" ++
    "\n".intercalate (methods.map fun m => m.memberText m.bodyOrComment) ++ "\x7d\n"

namespace Command

/-- What a command does with a class that has been read. -/
def runOn (d : ClassDescription) : Command → Outcome
  | .blocks _ =>
    let header := s!"# Class: {d.name}\n\n"
    match d.toMethods with
    | .error error => .fail header (.method error)
    | .ok methods => .print (header ++ String.join (methods.map Method.blockText))
  | .ast _ =>
    match d.toMethods with
    | .error error => .fail "" (.method error)
    | .ok methods => .print ((Record.list (methods.map Method.statementRecord)).indented ++ "\n")
  | .decompile _ output =>
    match d.toMethods with
    | .error error => .fail "" (.method error)
    | .ok methods =>
      let text := classText d.name methods
      match output with
      | none => .print text
      | some _ =>
        let path := OutputPath.components (OutputPath.ofClass d.name.toList)
        ⟨"", some ⟨path.map String.ofList, text⟩, none⟩

/-- What a command does with the text of its file, if there is such a file. -/
def run (command : Command) (text : Option String) : Outcome :=
  match text with
  | none => .fail "" (.missingFile command.input)
  | some text =>
    match ClassDescription.ofYaml? text with
    | none => .fail "" .malformed
    | some d => command.runOn d

end Command

end Unjump
