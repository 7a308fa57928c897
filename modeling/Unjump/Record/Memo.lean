import Unjump.Node.Memo
import Unjump.Record

/-!
# Syntax trees as records

Every node is a record that starts with the number of its kind, followed by its parts in a fixed
order. Types are written as descriptors and signs as they stand in Java. What a tree remembers is
not written: the record of an element access holds its array and its index.
-/

namespace Unjump

/-- The record of a local variable. -/
def Local.record (v : Local) : Record :=
  .object [("index", .int v.slot.toNat), ("name", .text v.name), ("type", .text v.type.descriptor)]

/-- The record of an expression. -/
def MemoExpr.record (e : MemoExpr) : Record :=
  .tagged e.expr.tag
    (match e with
    | .int value => [("cst", .int value.toInt)]
    | .null => []
    | .text value => [("cst", .text value)]
    | .var v => [("local", v.record)]
    | .element array index _ => [("array", array.record), ("index", index.record)]
    | .binary op left right =>
      [("op", .text op.symbol), ("left", left.record), ("right", right.record)]
    | .negate value => [("val", value.record)])

/-- What the record of a test holds after the number of its kind. -/
def MemoTest.fields : MemoTest → List (String × Record)
  | .truth value negated => [("val", value.record), ("inverse", .bool negated)]
  | .compare op left right =>
    [("left", left.record), ("right", right.record), ("op", .text op.symbol)]

namespace MemoCondition

mutual

/-- The record of a condition. -/
def record (c : MemoCondition) : Record :=
  .tagged c.condition.tag
    (match c with
    | .test t => t.fields
    | .join _ operands => [("args", .list (records operands))]
    | .not inner => [("val", inner.record)])

/-- The records of the conditions of a list. -/
def records : List MemoCondition → List Record
  | [] => []
  | c :: cs => c.record :: records cs

end

end MemoCondition

namespace MemoStatement

mutual

/-- The record of a statement. -/
def record (s : MemoStatement) : Record :=
  .tagged s.statement.tag
    (match s with
    | .assign target value => [("local", target.record), ("val", value.record)]
    | .store array index value =>
      [("array", array.record), ("index", index.record), ("val", value.record)]
    | .increment target amount => [("local", target.record), ("val", .int amount.toInt)]
    | .leave none => [("val", .null)]
    | .leave (some value) => [("val", value.record)]
    | .branch condition body alternative =>
      [("condition", condition.record), ("body", .list (records body)),
        ("else", .list (records alternative))]
    | .comment text => [("text", .text text)])

/-- The records of the statements of a list. -/
def records : List MemoStatement → List Record
  | [] => []
  | s :: ss => s.record :: records ss

end

end MemoStatement

/-- The record of a node. -/
def MemoNode.record : MemoNode → Record
  | .expr e => e.record
  | .condition c => c.record
  | .statement s => s.record

end Unjump
