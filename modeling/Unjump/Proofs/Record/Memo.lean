import Unjump.Proofs.Record.Syntax
import Unjump.Record.Syntax

/-!
# Records of syntax trees that remember types

What a tree remembers is neither written nor compared: its record is the record of the tree that
remembers nothing (`MemoNode.record_eq`), and two trees are the same exactly if they are without it
the same tree. So the records of two trees that remember types, of whatever kinds, are the same
value exactly if the trees are the same (`MemoNode.same_record_iff_same`).
-/

namespace Unjump

open Record

/-! ## What is remembered is not compared -/

theorem MemoExpr.same_iff {e f : MemoExpr} : e.same f = true ↔ e.expr = f.expr := by
  induction e generalizing f with
  | int _ | null | text _ | var _ => cases f <;> simp [same, expr]
  | element a i _ iha ihi => cases f <;> simp [same, expr, iha, ihi]
  | binary op l r ihl ihr => cases f <;> simp [same, expr, ihl, ihr, and_assoc]
  | negate e ih => cases f <;> simp [same, expr, ih]

/-- An access is compared as the expression it stands for. -/
theorem ElementAccess.same_eq (a b : ElementAccess) :
    a.same b = (a.array.same b.array && a.index.same b.index) := by
  rw [Bool.eq_iff_iff, Bool.and_eq_true, MemoExpr.same_iff, MemoExpr.same_iff]
  simp [same, expr]

theorem MemoTest.same_iff {t u : MemoTest} : t.same u = true ↔ t.test = u.test := by
  cases t <;> cases u <;> simp [same, test, MemoExpr.same_iff, and_assoc]

namespace MemoCondition

mutual

theorem same_iff (c d : MemoCondition) : c.same d = true ↔ c.condition = d.condition := by
  match c with
  | .test t => cases d <;> simp [same, condition, MemoTest.same_iff]
  | .join k cs => cases d <;> simp [same, condition, sameAll_iff cs]
  | .not c => cases d <;> simp [same, condition, same_iff c]

theorem sameAll_iff (cs ds : List MemoCondition) :
    sameAll cs ds = true ↔ conditions cs = conditions ds := by
  match cs, ds with
  | [], [] => simp [sameAll, conditions]
  | [], _ :: _ | _ :: _, [] => simp [sameAll, conditions]
  | c :: cs, d :: ds => simp [sameAll, conditions, same_iff c, sameAll_iff cs]

end

end MemoCondition

namespace MemoStatement

mutual

theorem same_iff (s t : MemoStatement) : s.same t = true ↔ s.statement = t.statement := by
  match s with
  | .assign v e => cases t <;> simp [same, statement, MemoExpr.same_iff]
  | .store a i e => cases t <;> simp [same, statement, MemoExpr.same_iff, and_assoc]
  | .increment v m => cases t <;> simp [same, statement]
  | .leave none | .leave (some e) =>
    rcases t with _ | _ | _ | ⟨_ | _⟩ | _ | _ <;> simp [same, statement, MemoExpr.same_iff]
  | .branch c body alternative =>
    cases t <;>
      simp [same, statement, MemoCondition.same_iff, sameAll_iff body, sameAll_iff alternative,
        and_assoc]
  | .comment u => cases t <;> simp [same, statement]

theorem sameAll_iff (ss ts : List MemoStatement) :
    sameAll ss ts = true ↔ statements ss = statements ts := by
  match ss, ts with
  | [], [] => simp [sameAll, statements]
  | [], _ :: _ | _ :: _, [] => simp [sameAll, statements]
  | s :: ss, t :: ts => simp [sameAll, statements, same_iff s, sameAll_iff ss]

end

end MemoStatement

/-- Two nodes are the same exactly if they are the same without what they remember. -/
theorem MemoNode.same_iff (m n : MemoNode) : m.same n = true ↔ m.node = n.node := by
  cases m <;> cases n <;>
    simp [same, node, MemoExpr.same_iff, MemoCondition.same_iff, MemoStatement.same_iff]

/-! ## What is remembered is not written -/

theorem MemoExpr.record_eq (e : MemoExpr) : e.record = e.expr.record := by
  induction e with
  | int _ | null | text _ | var _ => rfl
  | element a i _ iha ihi => rw [record, iha, ihi]; rfl
  | binary op l r ihl ihr => rw [record, ihl, ihr]; rfl
  | negate e ih => rw [record, ih]; rfl

/-- Asking an expression for its type leaves its record as it was. -/
theorem MemoExpr.record_askType (e : MemoExpr) : e.askType.2.record = e.record := by
  rw [record_eq, record_eq, expr_askType]

theorem MemoTest.fields_eq (t : MemoTest) : t.fields = (ofTest t.test).fields := by
  cases t with
  | truth e _ => rw [fields, e.record_eq]; rfl
  | compare _ l r => rw [fields, l.record_eq, r.record_eq]; rfl

namespace MemoCondition

mutual

theorem record_eq (c : MemoCondition) : c.record = c.condition.record := by
  match c with
  | .test t => simp [record, Condition.record, condition, ofCondition, t.fields_eq]
  | .join k cs => simp [record, Condition.record, condition, ofCondition, records_eq cs]
  | .not c => rw [record, record_eq c]; rfl

theorem records_eq (cs : List MemoCondition) :
    records cs = records (ofConditions (conditions cs)) := by
  match cs with
  | [] => rfl
  | c :: cs => rw [records, record_eq c, records_eq cs]; rfl

end

end MemoCondition

namespace MemoStatement

mutual

theorem record_eq (s : MemoStatement) : s.record = s.statement.record := by
  match s with
  | .assign v e | .leave (some e) => rw [record, e.record_eq]; rfl
  | .store a i e => rw [record, a.record_eq, i.record_eq, e.record_eq]; rfl
  | .increment v m | .leave none | .comment u => rfl
  | .branch c body alternative =>
    rw [record, c.record_eq, records_eq body, records_eq alternative]; rfl

theorem records_eq (ss : List MemoStatement) :
    records ss = Statement.records (statements ss) := by
  match ss with
  | [] => rfl
  | s :: ss => rw [records, record_eq s, records_eq ss]; rfl

end

end MemoStatement

/-- The record of a node is the record of the node that remembers nothing. -/
theorem MemoNode.record_eq (m : MemoNode) : m.record = m.node.record := by
  cases m with
  | expr e => exact e.record_eq
  | condition c => exact c.record_eq
  | statement s => exact s.record_eq

/-! ## Records tell trees apart -/

/-- Two nodes that may remember types have the same record exactly if they are the same node,
whatever they remember. Nodes of different families, expressions, conditions and statements, are
never the same, so their records differ. -/
theorem MemoNode.same_record_iff_same (m n : MemoNode) :
    m.record.same n.record = true ↔ m.same n = true := by
  rw [record_same_iff, same_iff]

end Unjump
