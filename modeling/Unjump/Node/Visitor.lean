import Unjump.Node

/-!
# Visitors

A visitor says for every kind of node what to do with a node of that kind, and keeps a state of its
own. It names only the kinds that it cares about. `accept` hands it the nodes of a tree, a node
before its parts and the parts from left to right, whatever the visitor cares about.
-/

namespace Unjump

/-- What to do with the nodes of each kind: how the state changes. -/
structure Visitor (σ : Type) where
  int (value : Int32) (state : σ) : σ := state
  null (state : σ) : σ := state
  text (value : String) (state : σ) : σ := state
  var (v : Local) (state : σ) : σ := state
  element (array index : Expr) (state : σ) : σ := state
  binary (op : Operator) (left right : Expr) (state : σ) : σ := state
  negate (value : Expr) (state : σ) : σ := state
  condition (c : Condition) (state : σ) : σ := state
  statement (s : Statement) (state : σ) : σ := state

variable {σ : Type}

/-- Hands the nodes of an expression to a visitor. -/
def Expr.accept (visitor : Visitor σ) (e : Expr) (state : σ) : σ :=
  match e with
  | .int value => visitor.int value state
  | .null => visitor.null state
  | .text value => visitor.text value state
  | .var v => visitor.var v state
  | .element array index =>
    index.accept visitor (array.accept visitor (visitor.element array index state))
  | .binary op left right =>
    right.accept visitor (left.accept visitor (visitor.binary op left right state))
  | .negate value => value.accept visitor (visitor.negate value state)

/-- Hands the nodes of the values that a test asks about to a visitor. -/
def Test.accept (visitor : Visitor σ) (t : Test) (state : σ) : σ :=
  match t with
  | .truth value _ => value.accept visitor state
  | .compare _ left right => right.accept visitor (left.accept visitor state)

namespace Condition

mutual

/-- Hands the nodes of a condition to a visitor. -/
def accept (visitor : Visitor σ) (c : Condition) (state : σ) : σ :=
  let state := visitor.condition c state
  match c with
  | .test t => t.accept visitor state
  | .join _ operands => acceptAll visitor operands state
  | .not inner => inner.accept visitor state

/-- Hands the nodes of the conditions of a list to a visitor. -/
def acceptAll (visitor : Visitor σ) (cs : List Condition) (state : σ) : σ :=
  match cs with
  | [] => state
  | c :: cs => acceptAll visitor cs (c.accept visitor state)

end

end Condition

namespace Statement

mutual

/-- Hands the nodes of a statement to a visitor. -/
def accept (visitor : Visitor σ) (s : Statement) (state : σ) : σ :=
  let state := visitor.statement s state
  match s with
  | .assign _ value => value.accept visitor state
  | .store array index value =>
    value.accept visitor (index.accept visitor (array.accept visitor state))
  | .increment _ _ | .comment _ | .leave none => state
  | .leave (some value) => value.accept visitor state
  | .branch condition body alternative =>
    acceptAll visitor alternative (acceptAll visitor body (condition.accept visitor state))

/-- Hands the nodes of the statements of a list to a visitor. -/
def acceptAll (visitor : Visitor σ) (ss : List Statement) (state : σ) : σ :=
  match ss with
  | [] => state
  | s :: ss => acceptAll visitor ss (s.accept visitor state)

end

end Statement

/-- Hands a node and the nodes below it to a visitor. -/
def Node.accept (visitor : Visitor σ) (n : Node) (state : σ) : σ :=
  match n with
  | .expr e => e.accept visitor state
  | .condition c => c.accept visitor state
  | .statement s => s.accept visitor state

end Unjump
