import Unjump.Yaml.Place

/-!
# Blanks inside scalars

Between two words of a scalar stand blanks, or line ends with blanks around them. Blanks inside a
line are kept. A single line end becomes a blank; of several, all but the first are kept.
-/

namespace Unjump.Yaml

/-- What stands between two words of a scalar. -/
inductive Gap where
  /-- Blanks inside a line, maybe none. -/
  | blanks (cs : List Char)
  /-- Line ends: the first, which is missing if it is escaped, and all others. -/
  | breaks (first : Option Char) (others : List Char)

namespace Gap

/-- Nothing stands between two words. -/
def none : Gap := .blanks []

/-- A line end is part of the gap. -/
def isBroken : Gap → Bool
  | .blanks _ => false
  | .breaks .. => true

/-- The gap and one more blank or line end. Blanks at either end of a line are dropped. -/
def add (c : Char) : Gap → Gap
  | .blanks cs => if isBreak c then .breaks (some c) [] else .blanks (cs ++ [c])
  | .breaks first others => .breaks first (if isBreak c then others ++ [c] else others)

/-- What a gap contributes to the text. -/
def text : Gap → List Char
  | .blanks cs => cs
  | .breaks (some '\n') [] => [' ']
  | .breaks (some '\n') others => others
  | .breaks first others => first.toList ++ others

end Gap

end Unjump.Yaml
