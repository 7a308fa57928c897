/-!
# Commands

What the command line can be asked to do with a class description.
-/

namespace Unjump

/-- A request on the command line. Every one names the file with the class description. -/
inductive Command where
  /-- Print the blocks of every method. -/
  | blocks (input : String)
  /-- Print the statements of every method as a record. -/
  | ast (input : String)
  /-- Print the class as Java source, or write it below a directory. -/
  | decompile (input : String) (output : Option String)
  deriving DecidableEq

/-- The file with the class description. -/
def Command.input : Command → String
  | .blocks input | .ast input | .decompile input _ => input

end Unjump
