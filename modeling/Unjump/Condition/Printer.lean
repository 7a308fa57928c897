import Unjump.Condition
import Unjump.Expr.Printer

/-!
# Conditions as source text

Operands stand in parentheses when they bind no tighter than the sign between them. A joined
condition without operands is written as the truth value that it has.
-/

namespace Unjump

open Text

/-- The test as Java source. -/
def Test.source : Test → String
  | .truth value false => value.source
  | .truth value true => "!" ++ parenthesize (value.precedence < 14) value.source
  | .compare op left right =>
    parenthesize (left.precedence ≤ op.precedence) left.source ++ " " ++ op.symbol ++ " " ++
      parenthesize (right.precedence ≤ op.precedence) right.source

/-- The sign in Java. -/
def Connective.symbol : Connective → String
  | .and => "&&"
  | .or => "||"

/-- How tightly Java binds the operands of the sign. -/
def Connective.precedence : Connective → Nat
  | .and => 4
  | .or => 3

/-- The truth value of a joined condition without operands, as Java source. -/
def Connective.neutral : Connective → String
  | .and => "true"
  | .or => "false"

namespace Condition

mutual

/-- The condition as Java source. -/
def source : Condition → String
  | .test t => t.source
  | .join k [] => k.neutral
  | .join k operands => (" " ++ k.symbol ++ " ").intercalate (operandSources k operands)
  | .not inner => "!(" ++ inner.source ++ ")"

/-- The operands of a joined condition as Java source. -/
def operandSources (k : Connective) : List Condition → List String
  | [] => []
  | c :: cs => parenthesize (c.precedence ≤ k.precedence) c.source :: operandSources k cs

end

end Condition

end Unjump
