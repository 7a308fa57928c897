import Unjump.Proofs.Node.Visitor
import Unjump.Record.Syntax

/-!
# The kinds in a record

Read from left to right, the numbers under the name `id` in the record of a node are the numbers of
the kinds of its nodes, in the order in which a visitor is handed them
(`Node.tags_accept_noting`). No other part of a record is called `id`, and every field that is no
node adds nothing.
-/

namespace Unjump

namespace Record

@[simp] theorem ids_tagged (tag : Nat) (fields : List (String × Record)) :
    (tagged tag fields).ids = (tag : Int) :: idsOfFields fields := rfl

/-- A field with another name than `id` adds what its value holds. -/
theorem idsOfFields_cons {name : String} (h : name ≠ "id") (value : Record)
    (rest : List (String × Record)) :
    idsOfFields ((name, value) :: rest) = value.ids ++ idsOfFields rest := by
  cases value with
  | int n => simp [idsOfFields, ids, h]
  | null | bool _ | text _ | list _ | object _ => rfl

end Record

open Record

/-- The numbers of the kinds of nodes. -/
def Node.tags (nodes : List Node) : List Int :=
  nodes.map fun n => (n.tag : Int)

@[simp] theorem Node.tags_nil : Node.tags [] = [] := rfl

@[simp] theorem Node.tags_cons (n : Node) (rest : List Node) :
    Node.tags (n :: rest) = (n.tag : Int) :: Node.tags rest := rfl

@[simp] theorem Node.tags_append (nodes rest : List Node) :
    Node.tags (nodes ++ rest) = Node.tags nodes ++ Node.tags rest :=
  List.map_append

/-- The record of a variable is no node. -/
@[simp] theorem Local.ids_record (v : Local) : v.record.ids = [] := by
  simp [record, ids, idsOfFields]

theorem MemoExpr.ids_record (e : MemoExpr) : e.record.ids = Node.tags e.expr.nodes := by
  induction e with
  | int _ | null | text _ | var _ =>
    simp [record, expr, Expr.nodes, Node.tag, idsOfFields_cons, idsOfFields, ids]
  | element array index _ iha ihi =>
    simp [record, expr, Expr.nodes, Node.tag, idsOfFields_cons, idsOfFields, iha, ihi]
  | binary op left right ihl ihr =>
    simp [record, expr, Expr.nodes, Node.tag, idsOfFields_cons, idsOfFields, ids, ihl, ihr]
  | negate value ih =>
    simp [record, expr, Expr.nodes, Node.tag, idsOfFields_cons, idsOfFields, ih]

theorem MemoTest.ids_fields (t : MemoTest) : idsOfFields t.fields = Node.tags t.test.nodes := by
  cases t <;>
    simp [fields, test, Test.nodes, idsOfFields_cons, idsOfFields, ids, MemoExpr.ids_record]

namespace MemoCondition

mutual

theorem ids_record (c : MemoCondition) : c.record.ids = Node.tags c.condition.nodes := by
  match c with
  | .test t => simp [record, condition, Condition.nodes, Node.tag, t.ids_fields]
  | .join k cs =>
    simp [record, condition, Condition.nodes, Node.tag, idsOfFields, ids, ids_records cs]
  | .not inner =>
    simp [record, condition, Condition.nodes, Node.tag, idsOfFields_cons, idsOfFields,
      ids_record inner]

theorem ids_records (cs : List MemoCondition) :
    idsOfItems (records cs) = Node.tags (Condition.nodesAll (conditions cs)) := by
  match cs with
  | [] => rfl
  | c :: cs =>
    rw [records, idsOfItems, conditions, Condition.nodesAll, Node.tags_append, ids_record c,
      ids_records cs]

end

end MemoCondition

namespace MemoStatement

mutual

theorem ids_record (s : MemoStatement) : s.record.ids = Node.tags s.statement.nodes := by
  match s with
  | .assign _ _ | .store _ _ _ | .increment _ _ | .leave none | .leave (some _) | .comment _ =>
    simp [record, statement, Statement.nodes, Node.tag, idsOfFields_cons, idsOfFields, ids,
      MemoExpr.ids_record]
  | .branch condition body alternative =>
    simp [record, statement, Statement.nodes, Node.tag, idsOfFields_cons, idsOfFields, ids,
      condition.ids_record, ids_records body, ids_records alternative]

theorem ids_records (ss : List MemoStatement) :
    idsOfItems (records ss) = Node.tags (Statement.nodesAll (statements ss)) := by
  match ss with
  | [] => rfl
  | s :: ss =>
    rw [records, idsOfItems, statements, Statement.nodesAll, Node.tags_append, ids_record s,
      ids_records ss]

end

end MemoStatement

/-- The numbers in the record of a node are the kinds of its nodes, whatever it remembers. -/
theorem MemoNode.ids_record (m : MemoNode) : m.record.ids = Node.tags m.node.nodes := by
  cases m with
  | expr e => exact e.ids_record
  | condition c => exact c.ids_record
  | statement s => exact s.ids_record

namespace Node

theorem ids_record (n : Node) : n.record.ids = tags n.nodes := by
  rw [record, MemoNode.ids_record, MemoNode.node_ofNode]

/-- Exactly the variables that are read are nodes of the kind `0x13`. -/
theorem length_reads (nodes : List Node) : (reads nodes).length = (tags nodes).count 0x13 := by
  induction nodes with
  | nil => rfl
  | cons n rest ih =>
    have hcons : (reads (n :: rest)).length = (reads [n]).length + (reads rest).length := by
      rw [← List.length_append]
      exact congrArg _ (List.filterMap_append (l := [n]))
    have hkind : (reads [n]).length = (tags [n]).count 0x13 := by
      cases n with
      | expr e => cases e <;> rfl
      | condition c => rcases c with ⟨_ | _⟩ | ⟨_ | _, _⟩ | _ <;> rfl
      | statement s => cases s <;> rfl
    rw [hcons, ih, hkind, ← List.count_append]
    rfl

/-- The kinds of the nodes that a visitor is handed, in order, are the numbers under `id` in the
record, in the order in which they are written. So a visitor that says only what to do with a
variable that is read is called once for every record of the kind `0x13`. -/
theorem tags_accept_noting (n : Node) :
    tags (n.accept .noting []) = n.record.ids ∧
      n.accept .countingReads 0 = n.record.ids.count 0x13 := by
  constructor
  · rw [accept_noting, List.nil_append, ids_record]
  · rw [accept_countingReads, Nat.zero_add, ids_record, length_reads]

end Node

end Unjump
