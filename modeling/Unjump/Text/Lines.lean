/-!
# Lines

A line ends with a line feed, or with a carriage return and a line feed. The end of the last line
may be missing, and no line follows the last line end. A carriage return that stands alone belongs
to its line.
-/

namespace Unjump.Text

/-- The lines of a text without their ends. -/
def lines : List Char → List (List Char)
  | [] => []
  | '\n' :: cs => [] :: lines cs
  | '\r' :: '\n' :: cs => [] :: lines cs
  | c :: cs =>
    match lines cs with
    | [] => [[c]]
    | line :: rest => (c :: line) :: rest

end Unjump.Text
