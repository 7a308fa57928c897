import Unjump.Local

/-!
# Expressions

The expressions that stand for values on the operand stack. `Expr.text` writes an expression as
Java source, with parentheses where an operand binds less tightly than its place asks for.
-/

namespace Unjump

/-- An arithmetic operation on two numbers. -/
inductive Operator where
  | add
  | sub
  | mul
  | div
  | rem
  | shl
  | shr
  | and
  | or
  | xor
  deriving DecidableEq

namespace Operator

/-- All operators. -/
def all : List Operator :=
  [.add, .sub, .mul, .div, .rem, .shl, .shr, .and, .or, .xor]

/-- The sign in Java. -/
def symbol : Operator → String
  | .add => "+"
  | .sub => "-"
  | .mul => "*"
  | .div => "/"
  | .rem => "%"
  | .shl => "<<"
  | .shr => ">>"
  | .and => "&"
  | .or => "|"
  | .xor => "^"

/-- How tightly Java binds the operands of the sign. -/
def precedence : Operator → Nat
  | .mul | .div | .rem => 12
  | .add | .sub => 11
  | .shl | .shr => 10
  | .and => 7
  | .xor => 6
  | .or => 5

end Operator

/-- An expression for a value. -/
inductive Expr where
  | int (value : Int32)
  | null
  | text (value : String)
  /-- The value of a local variable. -/
  | var (v : Local)
  /-- The element of an array at an index. -/
  | element (array index : Expr)
  | binary (op : Operator) (left right : Expr)
  | negate (value : Expr)
  deriving DecidableEq

namespace Expr

/-- The type of the value. An element of something that is no array counts as an object. -/
def type : Expr → JavaType
  | .int _ => .int
  | .null => .javaObject
  | .text _ => .javaString
  | .var v => v.type
  | .element array _ => array.type.component?.getD .javaObject
  | .binary _ left _ => left.type
  | .negate value => value.type

/-- How tightly the parts of the written expression hold together. -/
def precedence : Expr → Nat
  | .binary op _ _ => op.precedence
  | .negate _ => 13
  | _ => 16

end Expr

end Unjump
