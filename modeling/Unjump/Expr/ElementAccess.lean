import Unjump.Expr

/-!
# Element accesses that remember their type

The type of an array's element takes a walk down the array's expression. An `ElementAccess`
remembers the answer until its array is replaced. What it remembers is no part of what it is:
`ElementAccess.same` compares the expressions alone.
-/

namespace Unjump

/-- An expression whose element accesses may remember their types. -/
inductive MemoExpr where
  | int (value : Int32)
  | null
  | text (value : String)
  | var (v : Local)
  | element (array index : MemoExpr) (known : Option JavaType)
  | binary (op : Operator) (left right : MemoExpr)
  | negate (value : MemoExpr)

namespace MemoExpr

/-- The expression without what it remembers. -/
def expr : MemoExpr → Expr
  | .int value => .int value
  | .null => .null
  | .text value => .text value
  | .var v => .var v
  | .element array index _ => .element array.expr index.expr
  | .binary op left right => .binary op left.expr right.expr
  | .negate value => .negate value.expr

/-- An expression that remembers nothing yet. -/
def ofExpr : Expr → MemoExpr
  | .int value => .int value
  | .null => .null
  | .text value => .text value
  | .var v => .var v
  | .element array index => .element (ofExpr array) (ofExpr index) none
  | .binary op left right => .binary op (ofExpr left) (ofExpr right)
  | .negate value => .negate (ofExpr value)

@[simp] theorem expr_ofExpr (e : Expr) : (ofExpr e).expr = e := by
  induction e <;> simp_all [ofExpr, expr]

/-- The type of the value, and the expression with what it remembers afterwards. -/
def askType : MemoExpr → JavaType × MemoExpr
  | .int value => (.int, .int value)
  | .null => (.javaObject, .null)
  | .text value => (.javaString, .text value)
  | .var v => (v.type, .var v)
  | .element array index (some type) => (type, .element array index (some type))
  | .element array index none =>
    let (arrayType, array) := array.askType
    let type := arrayType.component?.getD .javaObject
    (type, .element array index (some type))
  | .binary op left right =>
    let (type, left) := left.askType
    (type, .binary op left right)
  | .negate value =>
    let (type, value) := value.askType
    (type, .negate value)

@[simp] theorem expr_askType (m : MemoExpr) : m.askType.2.expr = m.expr := by
  fun_induction askType m <;> simp_all [expr]

/-- A copy of the expression. Its accesses remember what the copied ones do. -/
def copy : MemoExpr → MemoExpr
  | .int value => .int value
  | .null => .null
  | .text value => .text value
  | .var v => .var v
  | .element array index known => .element array.copy index.copy known
  | .binary op left right => .binary op left.copy right.copy
  | .negate value => .negate value.copy

@[simp] theorem copy_eq (m : MemoExpr) : m.copy = m := by
  induction m <;> simp_all [copy]

end MemoExpr

/-- An access to an element of an array. -/
structure ElementAccess where
  array : MemoExpr
  index : MemoExpr
  /-- The type of the element, if it has been asked for since the array was set. -/
  known : Option JavaType

namespace ElementAccess

/-- An access that remembers nothing yet. -/
def new (array index : MemoExpr) : ElementAccess :=
  ⟨array, index, none⟩

/-- Replaces the array, and forgets the type of its elements. -/
def setArray (access : ElementAccess) (array : MemoExpr) : ElementAccess :=
  { access with array, known := none }

/-- Replaces the index. -/
def setIndex (access : ElementAccess) (index : MemoExpr) : ElementAccess :=
  { access with index }

/-- The type of the element, and the access with what it remembers afterwards. -/
def askType (access : ElementAccess) : JavaType × ElementAccess :=
  match access.known with
  | some type => (type, access)
  | none =>
    let (arrayType, array) := access.array.askType
    let type := arrayType.component?.getD .javaObject
    (type, { access with array, known := some type })

/-- A copy of the access, which remembers what the access does. -/
def copy (access : ElementAccess) : ElementAccess :=
  ⟨access.array.copy, access.index.copy, access.known⟩

@[simp] theorem copy_eq (access : ElementAccess) : access.copy = access := by
  simp [copy]

/-- The access as an expression. -/
def expr (access : ElementAccess) : Expr :=
  .element access.array.expr access.index.expr

/-- Whether two accesses have the same array and the same index. -/
def same (a b : ElementAccess) : Bool :=
  a.expr = b.expr

end ElementAccess

end Unjump
