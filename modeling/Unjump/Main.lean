import Unjump.Command.Arguments
import Unjump.Command.Run

/-!
# The program

Reads the arguments and the file, and prints and writes what the command answers with.
-/

namespace Unjump

/-- What the program says about its arguments. -/
def usage : String :=
  "Usage: unjump blocks <INPUT>\n       unjump ast <INPUT>\n" ++
    "       unjump decompile [-o <OUTPUT>] <INPUT>"

/-- The text of a file, if there is such a file. -/
def readFile? (path : String) : IO (Option String) := do
  try
    return some (← IO.FS.readFile path)
  catch _ => return none

/-- Writes a file below a directory, and the directories on the way to it. -/
def writeFile (directory : String) (file : OutputFile) : IO Unit := do
  IO.FS.createDirAll ("/".intercalate (directory :: file.path.dropLast))
  IO.FS.writeFile ("/".intercalate (directory :: file.path)) file.text

/-- Carries out a command and answers with the program's exit code. -/
def perform (command : Command) : IO UInt32 := do
  let outcome := command.run (← readFile? command.input)
  IO.print outcome.printed
  match command, outcome.file with
  | .decompile _ (some directory), some file => writeFile directory file
  | _, _ => pure ()
  match outcome.error with
  | none => return 0
  | some error =>
    IO.eprintln s!"Error: {error.message}"
    return 1

end Unjump

open Unjump in
/-- Carries out the command that the arguments ask for. -/
def main (args : List String) : IO UInt32 := do
  match Arguments.read args with
  | .ok command => perform command
  | .error .helpAsked =>
    IO.println usage
    return 0
  | .error error =>
    IO.eprintln s!"error: {error.message}\n{usage}"
    return 2
