/-!
# Scalars

A scalar is a text and the way in which it was written.
-/

namespace Unjump.Yaml

/-- How a scalar is written. -/
inductive Style where
  /-- Without any mark. -/
  | plain
  /-- Between quotes of either kind. -/
  | quoted
  /-- As indented lines whose breaks are kept. -/
  | literal
  /-- As indented lines whose single breaks become blanks. -/
  | folded
  deriving DecidableEq

/-- A text as it was written. -/
structure Scalar where
  style : Style
  text : String
  deriving DecidableEq

/-- The scalar that stands where nothing is written. -/
def Scalar.empty : Scalar := ⟨.plain, ""⟩

end Unjump.Yaml
