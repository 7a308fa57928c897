import Unjump.Node.Visitor

/-!
# What a visitor is handed

A visitor is handed exactly the nodes of a tree, in their order: handing it the tree is handing it
one node after the other (`Node.accept_eq_foldl`). So a visitor that notes what it is handed notes
the nodes (`Node.accept_noting`), and one that counts the variables that are read counts them all,
although it says nothing about the nodes above them (`Node.accept_countingReads`).
-/

namespace Unjump

/-- The nodes of a node. -/
def Node.nodes : Node → List Node
  | .expr e => e.nodes
  | .condition c => c.nodes
  | .statement s => s.nodes

namespace Visitor

/-- Hands a single node to a visitor. -/
def visit {σ : Type} (visitor : Visitor σ) (state : σ) : Node → σ
  | .expr (.int value) => visitor.int value state
  | .expr .null => visitor.null state
  | .expr (.text value) => visitor.text value state
  | .expr (.var v) => visitor.var v state
  | .expr (.element array index) => visitor.element array index state
  | .expr (.binary op left right) => visitor.binary op left right state
  | .expr (.negate value) => visitor.negate value state
  | .condition c => visitor.condition c state
  | .statement s => visitor.statement s state

/-- The visitor that notes every node. -/
def noting : Visitor (List Node) where
  int value nodes := nodes ++ [.expr (.int value)]
  null nodes := nodes ++ [.expr .null]
  text value nodes := nodes ++ [.expr (.text value)]
  var v nodes := nodes ++ [.expr (.var v)]
  element array index nodes := nodes ++ [.expr (.element array index)]
  binary op left right nodes := nodes ++ [.expr (.binary op left right)]
  negate value nodes := nodes ++ [.expr (.negate value)]
  condition c nodes := nodes ++ [.condition c]
  statement s nodes := nodes ++ [.statement s]

/-- The visitor that counts the variables that are read and cares about nothing else. -/
def countingReads : Visitor Nat where
  var _ count := count + 1

theorem visit_noting (nodes : List Node) (n : Node) : noting.visit nodes n = nodes ++ [n] := by
  cases n with
  | expr e => cases e <;> rfl
  | condition _ | statement _ => rfl

theorem visit_countingReads (count : Nat) (n : Node) :
    countingReads.visit count n = count + (Node.reads [n]).length := by
  cases n with
  | expr e => cases e <;> rfl
  | condition _ | statement _ => rfl

end Visitor

/-! ## Handing over a tree -/

section Accept

variable {σ : Type} (visitor : Visitor σ)

theorem Expr.accept_eq_foldl (e : Expr) (state : σ) :
    e.accept visitor state = e.nodes.foldl visitor.visit state := by
  induction e generalizing state with
  | int _ | null | text _ | var _ => rfl
  | element array index iha ihi =>
    rw [accept, nodes, List.foldl_cons, List.foldl_append, iha, ihi]
    rfl
  | binary op left right ihl ihr =>
    rw [accept, nodes, List.foldl_cons, List.foldl_append, ihl, ihr]
    rfl
  | negate value ih =>
    rw [accept, nodes, List.foldl_cons, ih]
    rfl

theorem Test.accept_eq_foldl (t : Test) (state : σ) :
    t.accept visitor state = t.nodes.foldl visitor.visit state := by
  cases t with
  | truth value negated => exact value.accept_eq_foldl visitor state
  | compare op left right =>
    rw [accept, nodes, List.foldl_append, left.accept_eq_foldl, right.accept_eq_foldl]

namespace Condition

mutual

theorem accept_eq_foldl (c : Condition) (state : σ) :
    c.accept visitor state = c.nodes.foldl visitor.visit state := by
  match c with
  | .test t => simp only [accept, nodes, List.foldl_cons, Visitor.visit, t.accept_eq_foldl]
  | .join k cs => simp only [accept, nodes, List.foldl_cons, Visitor.visit, acceptAll_eq_foldl cs]
  | .not inner => simp only [accept, nodes, List.foldl_cons, Visitor.visit, accept_eq_foldl inner]

theorem acceptAll_eq_foldl (cs : List Condition) (state : σ) :
    acceptAll visitor cs state = (nodesAll cs).foldl visitor.visit state := by
  match cs with
  | [] => rfl
  | c :: cs =>
    rw [acceptAll, nodesAll, List.foldl_append, accept_eq_foldl c, acceptAll_eq_foldl cs]

end

end Condition

namespace Statement

mutual

theorem accept_eq_foldl (s : Statement) (state : σ) :
    s.accept visitor state = s.nodes.foldl visitor.visit state := by
  match s with
  | .assign _ value | .leave (some value) =>
    simp only [accept, nodes, List.foldl_cons, Visitor.visit, value.accept_eq_foldl]
  | .store array index value =>
    simp only [accept, nodes, List.foldl_cons, List.foldl_append, Visitor.visit,
      Expr.accept_eq_foldl]
  | .increment _ _ | .comment _ | .leave none => rfl
  | .branch condition body alternative =>
    simp only [accept, nodes, List.foldl_cons, List.foldl_append, Visitor.visit,
      condition.accept_eq_foldl, acceptAll_eq_foldl body, acceptAll_eq_foldl alternative]

theorem acceptAll_eq_foldl (ss : List Statement) (state : σ) :
    acceptAll visitor ss state = (nodesAll ss).foldl visitor.visit state := by
  match ss with
  | [] => rfl
  | s :: ss =>
    rw [acceptAll, nodesAll, List.foldl_append, accept_eq_foldl s, acceptAll_eq_foldl ss]

end

end Statement

/-- Handing a tree to a visitor is handing it the nodes one after the other. -/
theorem Node.accept_eq_foldl (n : Node) (state : σ) :
    n.accept visitor state = n.nodes.foldl visitor.visit state := by
  cases n with
  | expr e => exact e.accept_eq_foldl visitor state
  | condition c => exact c.accept_eq_foldl visitor state
  | statement s => exact s.accept_eq_foldl visitor state

end Accept

namespace Node

/-- The nodes that a visitor is handed are the nodes of the tree in their order. -/
theorem accept_noting (n : Node) (noted : List Node) :
    n.accept .noting noted = noted ++ n.nodes := by
  rw [accept_eq_foldl]
  induction n.nodes generalizing noted with
  | nil => simp
  | cons m rest ih => simp [Visitor.visit_noting, ih]

/-- A visitor that only counts the variables that are read counts all of them. -/
theorem accept_countingReads (n : Node) (count : Nat) :
    n.accept .countingReads count = count + (reads n.nodes).length := by
  rw [accept_eq_foldl]
  induction n.nodes generalizing count with
  | nil => rfl
  | cons m rest ih =>
    have hcons : reads (m :: rest) = reads [m] ++ reads rest := List.filterMap_append (l := [m])
    rw [List.foldl_cons, ih, Visitor.visit_countingReads, hcons, List.length_append, Nat.add_assoc]

end Node

end Unjump
