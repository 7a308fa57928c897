/-!
# Comparisons

The six comparisons that a conditional jump can make. `Comparison.inverse` is the comparison that
holds exactly when the given one does not.
-/

namespace Unjump

/-- A comparison of two values. -/
inductive Comparison where
  | eq
  | ne
  | lt
  | le
  | gt
  | ge
  deriving DecidableEq

namespace Comparison

/-- All comparisons. -/
def all : List Comparison :=
  [.eq, .ne, .lt, .le, .gt, .ge]

/-- The sign in Java. -/
def symbol : Comparison → String
  | .eq => "=="
  | .ne => "!="
  | .lt => "<"
  | .le => "<="
  | .gt => ">"
  | .ge => ">="

/-- The comparison that holds exactly when this one does not. -/
def inverse : Comparison → Comparison
  | .eq => .ne
  | .ne => .eq
  | .lt => .ge
  | .ge => .lt
  | .gt => .le
  | .le => .gt

@[simp] theorem inverse_inverse (op : Comparison) : op.inverse.inverse = op := by
  cases op <;> rfl

/-- How tightly Java binds the operands of the sign. -/
def precedence : Comparison → Nat
  | .eq | .ne => 8
  | .lt | .le | .gt | .ge => 9

/-- Whether the comparison holds between two numbers. -/
def holds : Comparison → Int → Int → Bool
  | .eq, a, b => a == b
  | .ne, a, b => a != b
  | .lt, a, b => a < b
  | .le, a, b => a ≤ b
  | .gt, a, b => b < a
  | .ge, a, b => b ≤ a

theorem holds_inverse (op : Comparison) (a b : Int) : op.inverse.holds a b = !op.holds a b := by
  rw [Bool.eq_iff_iff]
  cases op <;> simp [inverse, holds]

end Comparison

end Unjump
