import Unjump.Text.Hex
import Unjump.Text.Visible.Extending
import Unjump.Text.Visible.Unprintable

/-!
# Visible quoting

`Visible.quote` writes a text between double quotes so that every character of it can be seen:
quotes, backslashes and the common controls after a backslash, and whatever takes no ink or joins
the character before it as its number in hexadecimal.
-/

namespace Unjump.Text.Visible

/-- A number lies in one of the ranges. -/
def inRanges (ranges : List (Nat × Nat)) (n : Nat) : Bool :=
  ranges.any fun (first, last) => first ≤ n && n ≤ last

/-- A character that a reader would not see on its own. -/
def isHidden (c : Char) : Bool :=
  inRanges unprintable c.toNat || inRanges extending c.toNat

/-- One character between the quotes. -/
def escape (c : Char) : String :=
  if c = '"' then "\\\""
  else if c = '\\' then "\\\\"
  else if c = '\n' then "\\n"
  else if c = '\r' then "\\r"
  else if c = '\t' then "\\t"
  else if c = '\x00' then "\\0"
  else if isHidden c then "\\u\x7b" ++ Hex.digits 1 c.toNat ++ "\x7d"
  else c.toString

/-- The text between double quotes with every character visible. -/
def quote (text : String) : String :=
  "\"" ++ String.join (text.toList.map escape) ++ "\""

end Unjump.Text.Visible
