import Unjump.Text.Blank

/-!
# Output paths

The source text of a class goes to a file below an output directory. The path follows the internal
name of the class: a directory for every package and a file that ends in `.java`. Every piece of
the name is `sanitized` first, so that it names one entry of the directory it stands in.

`components` reads a path back as the entries that it goes through.
-/

namespace Unjump.OutputPath

open Unjump.Text

/-- A character that no file name should hold. -/
def isForbidden (c : Char) : Bool :=
  ['\\', ':', '*', '?', '"', '<', '>', '|'].contains c

/-- The text with an underscore for every two dots, from the left on. -/
def breakDots : List Char → List Char
  | '.' :: '.' :: rest => '_' :: breakDots rest
  | c :: rest => c :: breakDots rest
  | [] => []

/-- The text without the underscores at its start and at its end. -/
def trimUnderscores (cs : List Char) : List Char :=
  ((cs.dropWhile (· == '_')).reverse.dropWhile (· == '_')).reverse

/-- A piece of a name as a file name. -/
def sanitized (piece : List Char) : List Char :=
  trimUnderscores (breakDots (piece.map fun c => if isForbidden c then '_' else c))

/-- A path that starts at the root. -/
def isAbsolute (path : List Char) : Bool :=
  path.head? == some '/'

/-- A path with a piece below it. A piece that starts at the root takes the place of the path. -/
def join (path piece : List Char) : List Char :=
  if isAbsolute piece then piece
  else if path.isEmpty || path.getLast? == some '/' then path ++ piece
  else path ++ '/' :: piece

/-- The path of the pieces of a class name below a path: the last piece names a file. -/
def below (path : List Char) : List (List Char) → List Char
  | [] => path
  | [name] => join path (sanitized name ++ ".java".toList)
  | package :: rest => below (join path (sanitized package)) rest

/-- Where the source text of a class goes, below the output directory. -/
def ofClass (name : List Char) : List Char :=
  below [] (splitAt (· == '/') name)

/-- The entries that a relative path goes through: empty pieces and single dots stay in place. -/
def components (path : List Char) : List (List Char) :=
  (fields (· == '/') path).filter (· ≠ ['.'])

end Unjump.OutputPath
