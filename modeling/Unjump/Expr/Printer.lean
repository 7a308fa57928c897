import Unjump.Expr
import Unjump.Text.Parentheses

/-!
# Expressions as source text

Operands of an operator group from the left: the right operand stands in parentheses also when it
binds as tightly as the operator.
-/

namespace Unjump

/-- One character of a Java string literal. -/
def JavaString.escape (c : Char) : List Char :=
  if c = '"' then ['\\', '"']
  else if c = '\\' then ['\\', '\\']
  else if c = '\n' then ['\\', 'n']
  else if c = '\r' then ['\\', 'r']
  else if c = '\t' then ['\\', 't']
  else [c]

/-- A Java string literal. -/
def JavaString.literal (text : String) : String :=
  "\"" ++ String.ofList (text.toList.flatMap escape) ++ "\""

namespace Expr

open Text

/-- The expression as Java source. -/
def source : Expr → String
  | .int value => toString value.toInt
  | .null => "null"
  | .text value => JavaString.literal value
  | .var v => v.name
  | .element array index =>
    parenthesize (array.precedence < 16) array.source ++ "[" ++ index.source ++ "]"
  | .binary op left right =>
    parenthesize (left.precedence < op.precedence) left.source ++ " " ++ op.symbol ++ " " ++
      parenthesize (right.precedence ≤ op.precedence) right.source
  | .negate value => "-" ++ parenthesize (value.precedence < 13) value.source

end Expr

end Unjump
