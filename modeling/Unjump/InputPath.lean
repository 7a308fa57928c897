import Unjump.Text.Blank

/-!
# Input paths

A path that leads to no file can fail in three ways: the system has no such entry, it cannot have
one because the name is too long, or the path holds a zero character, which no system call can be
given. A path is followed entry by entry, so only its first entry can be too long: one that comes
later is never looked for.
-/

namespace Unjump

namespace InputPath

open Text

/-- Why a path leads to no file. -/
inductive Fault where
  | missing
  | tooLong
  | holdsZero
  deriving DecidableEq

/-- The wording of a fault. -/
def Fault.message : Fault → String
  | .missing => "No such file or directory (os error 2)"
  | .tooLong => "File name too long (os error 36)"
  | .holdsZero => "file name contained an unexpected NUL byte"

/-- How many bytes a text takes. -/
def byteCount (cs : List Char) : Nat :=
  (cs.map Char.utf8Size).foldl (· + ·) 0

/-- The entries of a path that have a name of their own: not those for a directory itself and for
the one around it. -/
def namedEntries (path : List Char) : List (List Char) :=
  (fields (· == '/') path).filter fun entry => !([['.'], ['.', '.']].contains entry)

/-- A path or its first entry is longer than any name of a file. -/
def isTooLong (path : List Char) : Bool :=
  4096 ≤ byteCount path || (namedEntries path).head?.any (255 < byteCount ·)

/-- Why a path leads to no file. -/
def fault (path : List Char) : Fault :=
  if path.contains '\x00' then .holdsZero
  else if isTooLong path then .tooLong
  else .missing

end InputPath

end Unjump
