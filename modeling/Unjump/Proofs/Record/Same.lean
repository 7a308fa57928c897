import Unjump.Record

/-!
# Equal records

Two records are the same value if they differ in nothing but the order of fields (`Record.same`).
Nodes whose records are the same value are of the same kind (`Record.same_tagged`).
-/

namespace Unjump.Record

mutual

/-- Whether two records are the same value. The fields of an object are found by their names,
wherever they stand. -/
def same : Record → Record → Bool
  | .null, .null => true
  | .bool a, .bool b => a = b
  | .int a, .int b => a = b
  | .text a, .text b => a = b
  | .list items, .list others => sameItems items others
  | .object fields, .object others => fields.length = others.length && fieldsIn others fields
  | _, _ => false

/-- Whether two lists hold the same values. -/
def sameItems : List Record → List Record → Bool
  | [], [] => true
  | item :: items, other :: others => item.same other && sameItems items others
  | _, _ => false

/-- Whether every field of a list is among other fields, with the same value. -/
def fieldsIn (others : List (String × Record)) : List (String × Record) → Bool
  | [] => true
  | (name, value) :: rest =>
    (match others.lookup name with
      | some other => value.same other
      | none => false) && fieldsIn others rest

end

@[simp] theorem same_null : Record.null.same .null = true := rfl

@[simp] theorem same_bool {a b : Bool} : (bool a).same (bool b) = true ↔ a = b :=
  decide_eq_true_iff

@[simp] theorem same_int {m n : Int} : (int m).same (int n) = true ↔ m = n :=
  decide_eq_true_iff

@[simp] theorem same_text {t u : String} : (text t).same (text u) = true ↔ t = u :=
  decide_eq_true_iff

@[simp] theorem same_list {items others : List Record} :
    (list items).same (list others) = sameItems items others := rfl

@[simp] theorem same_object {fields others : List (String × Record)} :
    (object fields).same (object others) = true ↔
      fields.length = others.length ∧ fieldsIn others fields = true := by
  show (decide (fields.length = others.length) && fieldsIn others fields) = true ↔ _
  rw [Bool.and_eq_true, decide_eq_true_eq]

@[simp] theorem null_same_object {fields : List (String × Record)} :
    Record.null.same (object fields) = false := rfl

@[simp] theorem object_same_null {fields : List (String × Record)} :
    (object fields).same .null = false := rfl

@[simp] theorem sameItems_nil : sameItems [] [] = true := rfl

@[simp] theorem sameItems_nil_cons {other : Record} {others : List Record} :
    sameItems [] (other :: others) = false := rfl

@[simp] theorem sameItems_cons_nil {item : Record} {items : List Record} :
    sameItems (item :: items) [] = false := rfl

@[simp] theorem sameItems_cons {item other : Record} {items others : List Record} :
    sameItems (item :: items) (other :: others) = true ↔
      item.same other = true ∧ sameItems items others = true := by
  show (item.same other && sameItems items others) = true ↔ _
  rw [Bool.and_eq_true]

@[simp] theorem fieldsIn_nil {others : List (String × Record)} : fieldsIn others [] = true := rfl

@[simp] theorem fieldsIn_cons {others rest : List (String × Record)} {name : String}
    {value : Record} :
    fieldsIn others ((name, value) :: rest) = true ↔
      (∃ other, others.lookup name = some other ∧ value.same other = true) ∧
        fieldsIn others rest = true := by
  show ((match others.lookup name with
      | some other => value.same other
      | none => false) && fieldsIn others rest) = true ↔ _
  rw [Bool.and_eq_true]
  cases others.lookup name <;> simp

/-- Nodes have the same record if they are of the same kind and have the same fields. -/
@[simp] theorem same_tagged {tag tag' : Nat} {fields fields' : List (String × Record)} :
    (tagged tag fields).same (tagged tag' fields') = true ↔
      tag = tag' ∧ fields.length = fields'.length ∧
        fieldsIn (("id", .int tag') :: fields') fields = true := by
  simp only [tagged, same_object, fieldsIn_cons, List.lookup_cons_self, Option.some.injEq,
    exists_eq_left', same_int, List.length_cons, Nat.add_right_cancel_iff, Int.natCast_inj]
  exact and_left_comm

end Unjump.Record
