import Unjump.Condition.Printer
import Unjump.Statement
import Unjump.Text.Lines

/-!
# Statements as source text

Every statement starts on a line of its own, four blanks deeper for every body that it stands in.
-/

namespace Unjump

open Text

namespace Statement

/-- The blanks in front of a line. -/
def margin (depth : Nat) : String :=
  String.ofList (List.replicate (4 * depth) ' ')

/-- A line at a depth. -/
def line (depth : Nat) (text : String) : String :=
  margin depth ++ text ++ "\n"

/-- The addition of a number as Java source. -/
def incrementSource (target : String) (amount : Int) : String :=
  if amount = 1 then target ++ "++;"
  else if amount = -1 then target ++ "--;"
  else if amount < 0 then s!"{target} -= {amount.natAbs};"
  else s!"{target} += {amount};"

mutual

/-- The lines of a statement at a depth. -/
def sourceAt (depth : Nat) : Statement → String
  | .assign target value => line depth (target.name ++ " = " ++ value.source ++ ";")
  | .store array index value =>
    line depth
      ((Expr.element array index).source ++ " = " ++ value.source ++ ";")
  | .increment target amount => line depth (incrementSource target.name amount.toInt)
  | .leave none => line depth "return;"
  | .leave (some value) => line depth ("return " ++ value.source ++ ";")
  | .branch condition body alternative =>
    line depth ("if (" ++ condition.source ++ ") \x7b") ++ sourceAllAt (depth + 1) body ++
      (if alternative.isEmpty then ""
        else line depth "\x7d else \x7b" ++ sourceAllAt (depth + 1) alternative) ++
      line depth "\x7d"
  | .comment text =>
    String.join ((lines text.toList).map fun cs => line depth ("// " ++ String.ofList cs))

/-- The lines of statements at a depth. -/
def sourceAllAt (depth : Nat) : List Statement → String
  | [] => ""
  | s :: ss => sourceAt depth s ++ sourceAllAt depth ss

end

/-- The statements as Java source. -/
def sourceAll (statements : List Statement) : String :=
  sourceAllAt 0 statements

end Statement

end Unjump
