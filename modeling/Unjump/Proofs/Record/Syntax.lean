import Unjump.Proofs.Record.Same
import Unjump.Record.Memo

/-!
# Records of syntax trees

The record of a syntax tree tells which tree it is: two nodes have the same record exactly if they
are the same node without what they remember (`MemoNode.record_same_iff`). The number of a node's
kind tells its constructor, also across expressions, conditions and statements, and the fields tell
its parts, because types are told apart by their descriptors and operators by their signs.
-/

namespace Unjump

open Record

/-- Types are told apart by their descriptors. -/
theorem JavaType.descriptor_inj {t u : JavaType} : t.descriptor = u.descriptor ↔ t = u := by
  refine ⟨fun h => ?_, congrArg _⟩
  rw [← String.toList_inj] at h
  induction t generalizing u with
  | void | boolean | byte | char | short | int | long | float | double =>
    cases u <;> simp [descriptor] at h ⊢
  | object name =>
    cases u with
    | object other =>
      have hname : name.toList = other.toList := by simpa [descriptor] using h
      rw [String.toList_inj.1 hname]
    | _ => simp [descriptor] at h
  | array component ih =>
    cases u with
    | array other => rw [ih (by simpa [descriptor] using h)]
    | _ => simp [descriptor] at h

/-- Operators are told apart by their signs. -/
theorem Operator.symbol_inj {a b : Operator} : a.symbol = b.symbol ↔ a = b := by
  cases a <;> cases b <;> decide

/-- Comparisons are told apart by their signs. -/
theorem Comparison.symbol_inj {a b : Comparison} : a.symbol = b.symbol ↔ a = b := by
  cases a <;> cases b <;> decide

theorem Local.record_same_iff {v w : Local} : v.record.same w.record = true ↔ v = w := by
  obtain ⟨slot, name, type⟩ := v
  obtain ⟨slot', name', type'⟩ := w
  rw [Local.record, Local.record, same_object]
  simp only [List.length_cons, List.lookup_cons, BEq.rfl, String.reduceBEq, fieldsIn_cons,
    fieldsIn_nil, Option.some.injEq, exists_eq_left', same_int, same_text, Int.natCast_inj,
    UInt16.toNat_inj, JavaType.descriptor_inj, and_true, true_and, mk.injEq]

/-- Two expressions have the same record exactly if they are the same without what they remember. -/
theorem MemoExpr.record_same_iff {e f : MemoExpr} :
    e.record.same f.record = true ↔ e.expr = f.expr := by
  induction e generalizing f with
  | int m => cases f <;> simp [record, expr, Expr.tag, List.lookup_cons, Int32.toInt_inj]
  | null => cases f <;> simp [record, expr, Expr.tag]
  | text t => cases f <;> simp [record, expr, Expr.tag, List.lookup_cons]
  | var v => cases f <;> simp [record, expr, Expr.tag, List.lookup_cons, Local.record_same_iff]
  | element a i _ iha ihi =>
    cases f <;> simp [record, expr, Expr.tag, List.lookup_cons, iha, ihi]
  | binary op l r ihl ihr =>
    cases f <;> simp [record, expr, Expr.tag, List.lookup_cons, Operator.symbol_inj, ihl, ihr]
  | negate e ih => cases f <;> simp [record, expr, Expr.tag, List.lookup_cons, ih]

/-- An expression is not written as nothing. -/
theorem MemoExpr.null_same_record (e : MemoExpr) : Record.null.same e.record = false := by
  rw [record.eq_def, tagged, null_same_object]

theorem MemoExpr.record_same_null (e : MemoExpr) : e.record.same .null = false := by
  rw [record.eq_def, tagged, object_same_null]

namespace MemoCondition

mutual

theorem record_same_iff (c d : MemoCondition) :
    c.record.same d.record = true ↔ c.condition = d.condition := by
  match c with
  | .test (.truth e m) =>
    rcases d with ⟨_ | _⟩ | ⟨_ | _, _⟩ | _ <;>
      simp [record, condition, Condition.tag, MemoTest.fields, MemoTest.test, List.lookup_cons,
        MemoExpr.record_same_iff]
  | .test (.compare op l r) =>
    rcases d with ⟨_ | _⟩ | ⟨_ | _, _⟩ | _ <;>
      simp [record, condition, Condition.tag, MemoTest.fields, MemoTest.test, List.lookup_cons,
        MemoExpr.record_same_iff, Comparison.symbol_inj, and_comm, and_left_comm]
  | .join .and cs | .join .or cs =>
    rcases d with ⟨_ | _⟩ | ⟨_ | _, ds⟩ | _ <;>
      simp [record, condition, Condition.tag, MemoTest.fields, MemoTest.test, List.lookup_cons,
        records_same_iff cs]
  | .not c =>
    rcases d with ⟨_ | _⟩ | ⟨_ | _, _⟩ | d <;>
      simp [record, condition, Condition.tag, MemoTest.fields, MemoTest.test, List.lookup_cons,
        record_same_iff c]

theorem records_same_iff (cs ds : List MemoCondition) :
    sameItems (records cs) (records ds) = true ↔ conditions cs = conditions ds := by
  match cs, ds with
  | [], [] => simp [records, conditions]
  | [], _ :: _ | _ :: _, [] => simp [records, conditions]
  | c :: cs, d :: ds =>
    simp [records, conditions, record_same_iff c, records_same_iff cs]

end

end MemoCondition

namespace MemoStatement

mutual

theorem record_same_iff (s t : MemoStatement) :
    s.record.same t.record = true ↔ s.statement = t.statement := by
  match s with
  | .assign v e =>
    rcases t with _ | _ | _ | ⟨_ | _⟩ | _ | _ <;>
      simp [record, statement, Statement.tag, List.lookup_cons, Local.record_same_iff,
        MemoExpr.record_same_iff]
  | .store a i e =>
    rcases t with _ | _ | _ | ⟨_ | _⟩ | _ | _ <;>
      simp [record, statement, Statement.tag, List.lookup_cons, MemoExpr.record_same_iff]
  | .increment v m =>
    rcases t with _ | _ | _ | ⟨_ | _⟩ | _ | _ <;>
      simp [record, statement, Statement.tag, List.lookup_cons, Local.record_same_iff,
        Int32.toInt_inj]
  -- a returned value and the lack of one are records of the same kind
  | .leave none =>
    rcases t with _ | _ | _ | ⟨_ | _⟩ | _ | _ <;>
      simp [record, statement, Statement.tag, List.lookup_cons, MemoExpr.null_same_record]
  | .leave (some e) =>
    rcases t with _ | _ | _ | ⟨_ | _⟩ | _ | _ <;>
      simp [record, statement, Statement.tag, List.lookup_cons, MemoExpr.record_same_iff,
        MemoExpr.record_same_null]
  | .branch c body alternative =>
    rcases t with _ | _ | _ | ⟨_ | _⟩ | _ | _ <;>
      simp [record, statement, Statement.tag, List.lookup_cons, MemoCondition.record_same_iff,
        records_same_iff body, records_same_iff alternative]
  | .comment u =>
    rcases t with _ | _ | _ | ⟨_ | _⟩ | _ | _ <;>
      simp [record, statement, Statement.tag, List.lookup_cons]

theorem records_same_iff (ss ts : List MemoStatement) :
    sameItems (records ss) (records ts) = true ↔ statements ss = statements ts := by
  match ss, ts with
  | [], [] => simp [records, statements]
  | [], _ :: _ | _ :: _, [] => simp [records, statements]
  | s :: ss, t :: ts => simp [records, statements, record_same_iff s, records_same_iff ss]

end

end MemoStatement

/-! ## Nodes of all kinds

The numbers of the kinds are in groups of sixteen: statements, then expressions, then conditions. -/

@[simp] theorem Expr.tag_div (e : Expr) : e.tag / 16 = 1 := by
  cases e <;> simp [tag]

@[simp] theorem Condition.tag_div (c : Condition) : c.tag / 16 = 2 := by
  rcases c with ⟨_ | _⟩ | ⟨_ | _, _⟩ | _ <;> simp [tag]

@[simp] theorem Statement.tag_div (s : Statement) : s.tag / 16 = 0 := by
  cases s <;> simp [tag]

namespace MemoNode

/-- The record of a node holds the number of its kind. -/
theorem exists_record_eq (m : MemoNode) : ∃ fields, m.record = .tagged m.node.tag fields := by
  cases m with
  | expr e => exact ⟨_, MemoExpr.record.eq_def e⟩
  | condition c => exact ⟨_, MemoCondition.record.eq_def c⟩
  | statement s => exact ⟨_, MemoStatement.record.eq_def s⟩

/-- Nodes with the same record are of the same kind. -/
theorem tag_eq_of_record_same {m n : MemoNode} (h : m.record.same n.record = true) :
    m.node.tag = n.node.tag := by
  obtain ⟨fields, hm⟩ := m.exists_record_eq
  obtain ⟨fields', hn⟩ := n.exists_record_eq
  rw [hm, hn] at h
  exact (same_tagged.1 h).1

/-- Nodes from different groups of kinds have different records. -/
theorem record_not_same {m n : MemoNode} (h : m.node.tag / 16 ≠ n.node.tag / 16) :
    ¬ m.record.same n.record = true :=
  fun hsame => h (by rw [tag_eq_of_record_same hsame])

/-- Two nodes have the same record exactly if they are the same node without what they remember. -/
theorem record_same_iff (m n : MemoNode) :
    m.record.same n.record = true ↔ m.node = n.node := by
  cases m with
  | expr e =>
    cases n with
    | expr f => simpa [record, node] using MemoExpr.record_same_iff
    | condition _ | statement _ =>
      exact iff_of_false (record_not_same (by simp [node, Node.tag])) (by simp [node])
  | condition c =>
    cases n with
    | condition d => simpa [record, node] using MemoCondition.record_same_iff c d
    | expr _ | statement _ =>
      exact iff_of_false (record_not_same (by simp [node, Node.tag])) (by simp [node])
  | statement s =>
    cases n with
    | statement t => simpa [record, node] using MemoStatement.record_same_iff s t
    | expr _ | condition _ =>
      exact iff_of_false (record_not_same (by simp [node, Node.tag])) (by simp [node])

end MemoNode

end Unjump
