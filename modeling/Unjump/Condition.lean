import Unjump.Comparison
import Unjump.Expr

/-!
# Conditions

A condition is built from tests of values with `&&`, `||` and `!`. Conditions are values: negating
or simplifying one gives a new one.
-/

namespace Unjump

/-- A question that can be asked of values. -/
inductive Test where
  /-- Whether a value is true, or whether it is false. -/
  | truth (value : Expr) (negated : Bool)
  | compare (op : Comparison) (left right : Expr)
  deriving DecidableEq

/-- The test that holds exactly when the given one does not. -/
def Test.inverse : Test → Test
  | .truth value negated => .truth value (!negated)
  | .compare op left right => .compare op.inverse left right

@[simp] theorem Test.inverse_inverse (t : Test) : t.inverse.inverse = t := by
  cases t <;> simp [Test.inverse]

/-- A way to join conditions. -/
inductive Connective where
  | and
  | or
  deriving DecidableEq

/-- The other way to join conditions. -/
def Connective.dual : Connective → Connective
  | .and => .or
  | .or => .and

@[simp] theorem Connective.dual_dual (k : Connective) : k.dual.dual = k := by
  cases k <;> rfl

/-- A condition on values. -/
inductive Condition where
  | test (t : Test)
  /-- Operands in order. Without operands, `and` is true and `or` is false. -/
  | join (connective : Connective) (operands : List Condition)
  | not (inner : Condition)

namespace Condition

mutual

/-- Equality of conditions is decidable. -/
def decEq : (a b : Condition) → Decidable (a = b)
  | .test t, .test u => if h : t = u then .isTrue (h ▸ rfl) else .isFalse (by simp [h])
  | .join k cs, .join l ds =>
    if h : k = l then
      match decEqAll cs ds with
      | .isTrue h' => .isTrue (by rw [h, h'])
      | .isFalse h' => .isFalse (by simp [h'])
    else .isFalse (by simp [h])
  | .not c, .not d =>
    match decEq c d with
    | .isTrue h => .isTrue (h ▸ rfl)
    | .isFalse h => .isFalse (by simp [h])
  | .test _, .join _ _ | .test _, .not _ | .join _ _, .test _ | .join _ _, .not _
  | .not _, .test _ | .not _, .join _ _ => .isFalse (by simp)

/-- Equality of lists of conditions is decidable. -/
def decEqAll : (cs ds : List Condition) → Decidable (cs = ds)
  | [], [] => .isTrue rfl
  | c :: cs, d :: ds =>
    match decEq c d, decEqAll cs ds with
    | .isTrue h, .isTrue h' => .isTrue (by rw [h, h'])
    | .isFalse h, _ => .isFalse (by simp [h])
    | _, .isFalse h' => .isFalse (by simp [h'])
  | [], _ :: _ | _ :: _, [] => .isFalse (by simp)

end

instance : DecidableEq Condition := decEq

mutual

/-- The number of nodes. -/
def size : Condition → Nat
  | .test _ => 1
  | .join _ operands => 1 + sizeAll operands
  | .not inner => 1 + inner.size

/-- The number of nodes of all conditions of a list. -/
def sizeAll : List Condition → Nat
  | [] => 0
  | c :: cs => c.size + sizeAll cs

end

/-- How tightly the parts of the written condition hold together. -/
def precedence : Condition → Nat
  | .join .or _ => 3
  | .join .and _ => 4
  | .test (.compare op _ _) => op.precedence
  | .test (.truth _ _) | .not _ => 14

mutual

/-- The negated condition. Negation moves down to the tests, turning `and` into `or` and the
reverse, and takes off an outermost `not`. -/
def inverse : Condition → Condition
  | .test t => .test t.inverse
  | .join k operands => .join k.dual (inverseAll operands)
  | .not inner => inner

/-- The negated conditions of a list. -/
def inverseAll : List Condition → List Condition
  | [] => []
  | c :: cs => c.inverse :: inverseAll cs

end

theorem inverseAll_eq_map (cs : List Condition) : inverseAll cs = cs.map inverse := by
  induction cs with
  | nil => rfl
  | cons c cs ih => simp [inverseAll, ih]

/-- The operands of a condition that is joined in the given way. -/
def operands? (k : Connective) : Condition → Option (List Condition)
  | .join l operands => if l = k then some operands else none
  | _ => none

theorem eq_join_of_operands? {k : Connective} {c : Condition} {terms : List Condition}
    (h : c.operands? k = some terms) : c = .join k terms := by
  cases c with
  | test t => simp [operands?] at h
  | not inner => simp [operands?] at h
  | join l operands =>
    simp only [operands?, Option.ite_none_right_eq_some, Option.some.injEq] at h
    rw [h.1, h.2]

end Condition

end Unjump
