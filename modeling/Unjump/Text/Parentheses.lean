/-!
# Parentheses
-/

namespace Unjump.Text

/-- The text between parentheses, if they are needed. -/
def parenthesize (needed : Bool) (text : String) : String :=
  if needed then "(" ++ text ++ ")" else text

end Unjump.Text
