import Unjump.Statement

/-!
# The nodes of a syntax tree

`nodes` lists the nodes of a tree in the order of a walk that comes to a node before its parts and
to the parts from left to right. The variable that a statement assigns or adds to is part of the
statement and no node of its own.
-/

namespace Unjump

/-- A node of a syntax tree. -/
inductive Node where
  | expr (e : Expr)
  | condition (c : Condition)
  | statement (s : Statement)

/-- The number of an expression's kind. -/
def Expr.tag : Expr → Nat
  | .int _ => 16
  | .null => 17
  | .text _ => 18
  | .var _ => 19
  | .element _ _ => 20
  | .binary _ _ _ => 21
  | .negate _ => 22

/-- The number of a condition's kind. -/
def Condition.tag : Condition → Nat
  | .test (.truth _ _) => 32
  | .test (.compare _ _ _) => 33
  | .join .and _ => 34
  | .join .or _ => 35
  | .not _ => 36

/-- The number of a statement's kind. -/
def Statement.tag : Statement → Nat
  | .assign _ _ => 1
  | .store _ _ _ => 2
  | .increment _ _ => 3
  | .leave _ => 4
  | .branch _ _ _ => 5
  | .comment _ => 6

/-- The number of a node's kind. -/
def Node.tag : Node → Nat
  | .expr e => e.tag
  | .condition c => c.tag
  | .statement s => s.tag

/-- The nodes of an expression. -/
def Expr.nodes (e : Expr) : List Node :=
  .expr e ::
    match e with
    | .int _ | .null | .text _ | .var _ => []
    | .element array index => array.nodes ++ index.nodes
    | .binary _ left right => left.nodes ++ right.nodes
    | .negate value => value.nodes

/-- The nodes of the values that a test asks about. -/
def Test.nodes : Test → List Node
  | .truth value _ => value.nodes
  | .compare _ left right => left.nodes ++ right.nodes

namespace Condition

mutual

/-- The nodes of a condition. -/
def nodes (c : Condition) : List Node :=
  .condition c ::
    match c with
    | .test t => t.nodes
    | .join _ operands => nodesAll operands
    | .not inner => inner.nodes

/-- The nodes of the conditions of a list. -/
def nodesAll : List Condition → List Node
  | [] => []
  | c :: cs => c.nodes ++ nodesAll cs

end

end Condition

namespace Statement

mutual

/-- The nodes of a statement. -/
def nodes (s : Statement) : List Node :=
  .statement s ::
    match s with
    | .assign _ value => value.nodes
    | .store array index value => array.nodes ++ index.nodes ++ value.nodes
    | .increment _ _ | .comment _ | .leave none => []
    | .leave (some value) => value.nodes
    | .branch condition body alternative =>
      condition.nodes ++ nodesAll body ++ nodesAll alternative

/-- The nodes of the statements of a list. -/
def nodesAll : List Statement → List Node
  | [] => []
  | s :: ss => s.nodes ++ nodesAll ss

end

end Statement

/-- The variables whose values the nodes read. -/
def Node.reads (nodes : List Node) : List Local :=
  nodes.filterMap fun
    | .expr (.var v) => some v
    | _ => none

end Unjump
