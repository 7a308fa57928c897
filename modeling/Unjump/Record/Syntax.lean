import Unjump.Record.Memo

/-!
# Syntax trees without memory as records

The record of a tree is the record of the tree that remembers nothing yet.
-/

namespace Unjump

/-- The record of an expression. -/
def Expr.record (e : Expr) : Record :=
  (MemoExpr.ofExpr e).record

/-- The record of a condition. -/
def Condition.record (c : Condition) : Record :=
  (MemoCondition.ofCondition c).record

/-- The record of a statement. -/
def Statement.record (s : Statement) : Record :=
  (MemoStatement.ofStatement s).record

/-- The records of the statements of a list. -/
def Statement.records (ss : List Statement) : List Record :=
  MemoStatement.records (MemoStatement.ofStatements ss)

/-- The record of a node. -/
def Node.record (n : Node) : Record :=
  (MemoNode.ofNode n).record

end Unjump
