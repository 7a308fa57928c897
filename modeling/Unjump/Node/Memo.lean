import Unjump.Expr.ElementAccess
import Unjump.Node

/-!
# Syntax trees that remember types

Wherever a syntax tree holds an expression, the element accesses in it may remember their types. A
`MemoNode` is such a tree, `MemoNode.node` is the tree without what it remembers, and
`MemoNode.ofNode` is a tree that remembers nothing yet. Two trees are the same if their parts are,
and what an access remembers is no part of it (`MemoNode.same`).
-/

namespace Unjump

/-- A question asked of expressions that may remember types. -/
inductive MemoTest where
  | truth (value : MemoExpr) (negated : Bool)
  | compare (op : Comparison) (left right : MemoExpr)

/-- A condition on expressions that may remember types. -/
inductive MemoCondition where
  | test (t : MemoTest)
  | join (connective : Connective) (operands : List MemoCondition)
  | not (inner : MemoCondition)

/-- A statement with expressions that may remember types. -/
inductive MemoStatement where
  | assign (target : Local) (value : MemoExpr)
  | store (array index value : MemoExpr)
  | increment (target : Local) (amount : Int32)
  | leave (value : Option MemoExpr)
  | branch (condition : MemoCondition) (body alternative : List MemoStatement)
  | comment (text : String)

/-- A node of a syntax tree that may remember types. -/
inductive MemoNode where
  | expr (e : MemoExpr)
  | condition (c : MemoCondition)
  | statement (s : MemoStatement)

/-! ## Trees without what they remember -/

/-- The test without what it remembers. -/
def MemoTest.test : MemoTest → Test
  | .truth value negated => .truth value.expr negated
  | .compare op left right => .compare op left.expr right.expr

namespace MemoCondition

mutual

/-- The condition without what it remembers. -/
def condition : MemoCondition → Condition
  | .test t => .test t.test
  | .join k operands => .join k (conditions operands)
  | .not inner => .not inner.condition

/-- The conditions of a list without what they remember. -/
def conditions : List MemoCondition → List Condition
  | [] => []
  | c :: cs => c.condition :: conditions cs

end

end MemoCondition

namespace MemoStatement

mutual

/-- The statement without what it remembers. -/
def statement : MemoStatement → Statement
  | .assign target value => .assign target value.expr
  | .store array index value => .store array.expr index.expr value.expr
  | .increment target amount => .increment target amount
  | .leave value => .leave (value.map MemoExpr.expr)
  | .branch condition body alternative =>
    .branch condition.condition (statements body) (statements alternative)
  | .comment text => .comment text

/-- The statements of a list without what they remember. -/
def statements : List MemoStatement → List Statement
  | [] => []
  | s :: ss => s.statement :: statements ss

end

end MemoStatement

/-- The node without what it remembers. -/
def MemoNode.node : MemoNode → Node
  | .expr e => .expr e.expr
  | .condition c => .condition c.condition
  | .statement s => .statement s.statement

/-! ## Trees that remember nothing -/

/-- A test that remembers nothing yet. -/
def MemoTest.ofTest : Test → MemoTest
  | .truth value negated => .truth (.ofExpr value) negated
  | .compare op left right => .compare op (.ofExpr left) (.ofExpr right)

@[simp] theorem MemoTest.test_ofTest (t : Test) : (ofTest t).test = t := by
  cases t <;> simp [ofTest, test]

namespace MemoCondition

mutual

/-- A condition that remembers nothing yet. -/
def ofCondition : Condition → MemoCondition
  | .test t => .test (.ofTest t)
  | .join k operands => .join k (ofConditions operands)
  | .not inner => .not (ofCondition inner)

/-- Conditions that remember nothing yet. -/
def ofConditions : List Condition → List MemoCondition
  | [] => []
  | c :: cs => ofCondition c :: ofConditions cs

end

mutual

@[simp] theorem condition_ofCondition (c : Condition) : (ofCondition c).condition = c := by
  match c with
  | .test t => simp [ofCondition, condition]
  | .join k operands => simp [ofCondition, condition, conditions_ofConditions operands]
  | .not inner => simp [ofCondition, condition, condition_ofCondition inner]

@[simp] theorem conditions_ofConditions (cs : List Condition) :
    conditions (ofConditions cs) = cs := by
  match cs with
  | [] => rfl
  | c :: cs =>
    simp [ofConditions, conditions, condition_ofCondition c, conditions_ofConditions cs]

end

end MemoCondition

namespace MemoStatement

mutual

/-- A statement that remembers nothing yet. -/
def ofStatement : Statement → MemoStatement
  | .assign target value => .assign target (.ofExpr value)
  | .store array index value => .store (.ofExpr array) (.ofExpr index) (.ofExpr value)
  | .increment target amount => .increment target amount
  | .leave value => .leave (value.map .ofExpr)
  | .branch condition body alternative =>
    .branch (.ofCondition condition) (ofStatements body) (ofStatements alternative)
  | .comment text => .comment text

/-- Statements that remember nothing yet. -/
def ofStatements : List Statement → List MemoStatement
  | [] => []
  | s :: ss => ofStatement s :: ofStatements ss

end

mutual

@[simp] theorem statement_ofStatement (s : Statement) : (ofStatement s).statement = s := by
  match s with
  | .assign _ _ | .store _ _ _ | .increment _ _ | .leave none | .leave (some _) | .comment _ =>
    simp [ofStatement, statement]
  | .branch condition body alternative =>
    simp [ofStatement, statement, statements_ofStatements body,
      statements_ofStatements alternative]

@[simp] theorem statements_ofStatements (ss : List Statement) :
    statements (ofStatements ss) = ss := by
  match ss with
  | [] => rfl
  | s :: ss =>
    simp [ofStatements, statements, statement_ofStatement s, statements_ofStatements ss]

end

end MemoStatement

/-- A node that remembers nothing yet. -/
def MemoNode.ofNode : Node → MemoNode
  | .expr e => .expr (.ofExpr e)
  | .condition c => .condition (.ofCondition c)
  | .statement s => .statement (.ofStatement s)

@[simp] theorem MemoNode.node_ofNode (n : Node) : (ofNode n).node = n := by
  cases n <;> simp [ofNode, node]

/-! ## Equality -/

/-- Whether two expressions are the same, whatever they remember. -/
def MemoExpr.same : MemoExpr → MemoExpr → Bool
  | .int m, .int n => m = n
  | .null, .null => true
  | .text t, .text u => t = u
  | .var v, .var w => v = w
  | .element a i _, .element b j _ => a.same b && i.same j
  | .binary op l r, .binary op' l' r' => op = op' && l.same l' && r.same r'
  | .negate e, .negate f => e.same f
  | _, _ => false

/-- Whether two tests are the same, whatever they remember. -/
def MemoTest.same : MemoTest → MemoTest → Bool
  | .truth e m, .truth f n => e.same f && m = n
  | .compare op l r, .compare op' l' r' => op = op' && l.same l' && r.same r'
  | _, _ => false

namespace MemoCondition

mutual

/-- Whether two conditions are the same, whatever they remember. -/
def same : MemoCondition → MemoCondition → Bool
  | .test t, .test u => t.same u
  | .join k cs, .join l ds => k = l && sameAll cs ds
  | .not c, .not d => c.same d
  | _, _ => false

/-- Whether two lists of conditions are the same, whatever they remember. -/
def sameAll : List MemoCondition → List MemoCondition → Bool
  | [], [] => true
  | c :: cs, d :: ds => c.same d && sameAll cs ds
  | _, _ => false

end

end MemoCondition

namespace MemoStatement

mutual

/-- Whether two statements are the same, whatever they remember. -/
def same : MemoStatement → MemoStatement → Bool
  | .assign v e, .assign w f => v = w && e.same f
  | .store a i e, .store b j f => a.same b && i.same j && e.same f
  | .increment v m, .increment w n => v = w && m = n
  | .leave none, .leave none => true
  | .leave (some e), .leave (some f) => e.same f
  | .branch c body alternative, .branch d body' alternative' =>
    c.same d && sameAll body body' && sameAll alternative alternative'
  | .comment t, .comment u => t = u
  | _, _ => false

/-- Whether two lists of statements are the same, whatever they remember. -/
def sameAll : List MemoStatement → List MemoStatement → Bool
  | [], [] => true
  | s :: ss, t :: ts => s.same t && sameAll ss ts
  | _, _ => false

end

end MemoStatement

/-- Whether two nodes are the same, whatever they remember. -/
def MemoNode.same : MemoNode → MemoNode → Bool
  | .expr e, .expr f => e.same f
  | .condition c, .condition d => c.same d
  | .statement s, .statement t => s.same t
  | _, _ => false

end Unjump
