import Unjump.Proofs.Condition.Outcome
import Unjump.Statement

/-!
# Executing statements

The state of a running method is the values of its local variables and its arrays. An expression
has a value in a state (`Expr.value?`), unless evaluating it raises an exception, and executing
statements changes the state until one of them leaves the method (`Statement.executeAll`). Numbers
are 32 bits wide and wrap around.

Which class the object behind a reference belongs to is not part of the state, so every array of
references takes every reference.
-/

namespace Unjump

/-! ## States -/

/-- A value of a variable, an operand or an element of an array. -/
inductive Value where
  | int (value : Int32)
  | null
  | text (value : String)
  /-- A reference to an array or to another object. -/
  | object (id : Nat)
  deriving DecidableEq

namespace Value

/-- The value is a number. -/
def isInt : Value → Bool
  | .int _ => true
  | .null | .text _ | .object _ => false

/-- The value is a reference, and may be the one to nothing. -/
def isReference (v : Value) : Bool :=
  !v.isInt

end Value

/-- An array: the type of its elements, and the elements. -/
structure ArrayObject where
  component : JavaType
  elements : List Value

/-- The state of a running method. -/
structure State where
  /-- The value of the variable of each slot. -/
  locals : UInt16 → Value
  /-- The arrays among the objects. -/
  arrays : Nat → Option ArrayObject

namespace State

/-- The state in which all variables have one value and there are no arrays. -/
def filled (v : Value) : State where
  locals _ := v
  arrays _ := none

/-- The state after a variable is given a value. -/
def setLocal (s : State) (slot : UInt16) (v : Value) : State :=
  { s with locals := fun slot' => if slot' = slot then v else s.locals slot' }

/-- The array that a value refers to. -/
def array? (s : State) : Value → Option (Nat × ArrayObject)
  | .object id => (s.arrays id).map (id, ·)
  | .int _ | .null | .text _ => none

/-- The position in a list that a value names. -/
def index? (elements : List Value) : Value → Option Nat
  | .int n => if 0 ≤ n.toInt ∧ n.toInt < elements.length then some n.toInt.toNat else none
  | .null | .text _ | .object _ => none

/-- The element of an array; an exception if there is no array or no such element. -/
def element? (s : State) (array index : Value) : Option Value := do
  let (_, a) ← s.array? array
  let i ← index? a.elements index
  a.elements[i]?

/-- The state after an element of an array is given a value; an exception if there is no array or
no such element. -/
def setElement? (s : State) (array index v : Value) : Option State := do
  let (id, a) ← s.array? array
  let i ← index? a.elements index
  return { s with
    arrays := fun id' =>
      if id' = id then some { a with elements := a.elements.set i v } else s.arrays id' }

@[simp] theorem locals_setLocal (s : State) (slot slot' : UInt16) (v : Value) :
    (s.setLocal slot v).locals slot' = if slot' = slot then v else s.locals slot' := rfl

@[simp] theorem element?_setLocal (s : State) (slot : UInt16) (v array index : Value) :
    (s.setLocal slot v).element? array index = s.element? array index := by
  cases array <;> rfl

/-- Giving an element of an array a value leaves the variables alone. -/
theorem locals_of_setElement? {s s' : State} {array index v : Value}
    (h : s.setElement? array index v = some s') : s'.locals = s.locals := by
  obtain ⟨_, -, h⟩ := Option.bind_eq_some_iff.1 h
  obtain ⟨_, -, h⟩ := Option.bind_eq_some_iff.1 h
  cases h
  rfl

end State

/-! ## Expressions -/

/-- The number that an operation comes to; dividing by zero raises an exception. -/
def Operator.result? (op : Operator) (a b : Int32) : Option Int32 :=
  match op with
  | .add => some (a + b)
  | .sub => some (a - b)
  | .mul => some (a * b)
  | .div => if b = 0 then none else some (a / b)
  | .rem => if b = 0 then none else some (a % b)
  | .shl => some (a <<< b)
  | .shr => some (a >>> b)
  | .and => some (a &&& b)
  | .or => some (a ||| b)
  | .xor => some (a ^^^ b)

namespace Expr

/-- The value of an expression in a state, unless evaluating it raises an exception. -/
def value? (s : State) : Expr → Option Value
  | .int n => some (.int n)
  | .null => some .null
  | .text t => some (.text t)
  | .var v => some (s.locals v.slot)
  | .element array index => do s.element? (← array.value? s) (← index.value? s)
  | .binary op left right => do
    match ← left.value? s, ← right.value? s with
    | .int a, .int b => (op.result? a b).map .int
    | _, _ => none
  | .negate e => do
    match ← e.value? s with
    | .int n => some (.int (-n))
    | _ => none

/-- The expression reads the variable of a slot. -/
def readsLocal (slot : UInt16) : Expr → Bool
  | .int _ | .null | .text _ => false
  | .var v => v.slot = slot
  | .element array index => array.readsLocal slot || index.readsLocal slot
  | .binary _ left right => left.readsLocal slot || right.readsLocal slot
  | .negate e => e.readsLocal slot

/-- The expression reads an element of an array. -/
def readsElement : Expr → Bool
  | .int _ | .null | .text _ | .var _ => false
  | .element _ _ => true
  | .binary _ left right => left.readsElement || right.readsElement
  | .negate e => e.readsElement

/-- A variable that an expression does not read may be given any value. -/
theorem value?_setLocal {slot : UInt16} {e : Expr} (h : e.readsLocal slot = false) (s : State)
    (v : Value) : e.value? (s.setLocal slot v) = e.value? s := by
  induction e with
  | int n => rfl
  | null => rfl
  | text t => rfl
  | var w =>
    have hne : w.slot ≠ slot := by simpa [readsLocal] using h
    simp [value?, hne]
  | element array index ih ih' =>
    obtain ⟨harray, hindex⟩ := Bool.or_eq_false_iff.1 h
    simp only [value?, ih harray, ih' hindex, State.element?_setLocal]
  | binary op left right ih ih' =>
    obtain ⟨hleft, hright⟩ := Bool.or_eq_false_iff.1 h
    simp only [value?, ih hleft, ih' hright]
  | negate e ih => simp only [value?, ih h]

/-- An expression that reads no element of an array has a value that only the variables decide. -/
theorem value?_of_locals {e : Expr} (h : e.readsElement = false) {s s' : State}
    (hlocals : s'.locals = s.locals) : e.value? s' = e.value? s := by
  induction e with
  | int n => rfl
  | null => rfl
  | text t => rfl
  | var w => simp only [value?, hlocals]
  | element array index _ _ => cases h
  | binary op left right ih ih' =>
    obtain ⟨hleft, hright⟩ := Bool.or_eq_false_iff.1 h
    simp only [value?, ih hleft, ih' hright]
  | negate e ih => simp only [value?, ih h]

end Expr

/-! ## Tests -/

/-- Whether a comparison holds between two values: numbers are compared by size, references only by
what they refer to. -/
def Comparison.outcome : Comparison → Value → Value → Option Bool
  | op, .int a, .int b => some (op.holds a.toInt b.toInt)
  | .eq, a, b => if a.isReference ∧ b.isReference then some (decide (a = b)) else none
  | .ne, a, b => if a.isReference ∧ b.isReference then some (decide (a ≠ b)) else none
  | .lt, _, _ | .le, _, _ | .gt, _, _ | .ge, _, _ => none

theorem Comparison.outcome_inverse (op : Comparison) (a b : Value) :
    op.inverse.outcome a b = (op.outcome a b).map (!·) := by
  by_cases h : a.isInt ∧ b.isInt
  · cases a <;> cases b <;> simp_all [Value.isInt, outcome, Comparison.holds_inverse]
  · cases op <;> cases a <;> cases b <;> simp_all [Value.isInt, Value.isReference, outcome, inverse]

/-- What asking a test comes to in a state. -/
def Test.outcome (s : State) : Test → Option Bool
  | .truth e negated => do
    match ← e.value? s with
    | .int n => some ((n != 0) != negated)
    | _ => none
  | .compare op left right => do op.outcome (← left.value? s) (← right.value? s)

/-- What asking the tests comes to in a state. -/
def Outcomes.ofState (s : State) : Outcomes where
  ofTest := Test.outcome s
  ofTest_inverse t := by
    cases t with
    | truth e negated =>
      simp only [Test.inverse, Test.outcome]
      cases e.value? s with
      | none => rfl
      | some v => cases v <;> simp
    | compare op left right =>
      simp only [Test.inverse, Test.outcome]
      cases left.value? s with
      | none => rfl
      | some a =>
        cases right.value? s with
        | none => rfl
        | some b => exact op.outcome_inverse a b

/-! ## Statements -/

/-- How a run that raises no exception ends. -/
inductive Ending (α : Type) where
  /-- The run comes to its end, and others may go on from there. -/
  | goesOn (a : α)
  /-- The method is left, with or without a value. -/
  | leaves (value : Option Value) (s : State)

namespace Statement

mutual

/-- Executes a statement. There is no ending if that raises an exception. -/
def execute (s : State) : Statement → Option (Ending State)
  | .assign target e => (e.value? s).map fun v => .goesOn (s.setLocal target.slot v)
  | .store array index e => do
    let s' ← s.setElement? (← array.value? s) (← index.value? s) (← e.value? s)
    return .goesOn s'
  | .increment target amount =>
    match s.locals target.slot with
    | .int n => some (.goesOn (s.setLocal target.slot (.int (n + amount))))
    | _ => none
  | .leave none => some (.leaves none s)
  | .leave (some e) => (e.value? s).map fun v => .leaves (some v) s
  | .branch condition body alternative => do
    if ← condition.outcome (.ofState s) then executeAll s body else executeAll s alternative
  | .comment _ => some (.goesOn s)

/-- Executes statements one after the other, until one leaves the method. -/
def executeAll (s : State) : List Statement → Option (Ending State)
  | [] => some (.goesOn s)
  | statement :: rest => do
    match ← statement.execute s with
    | .goesOn s' => executeAll s' rest
    | .leaves v s' => some (.leaves v s')

end

theorem executeAll_cons (s : State) (statement : Statement) (rest : List Statement) :
    executeAll s (statement :: rest) = (statement.execute s).bind fun
      | .goesOn s' => executeAll s' rest
      | .leaves v s' => some (.leaves v s') := by
  rw [executeAll]
  rfl

@[simp] theorem executeAll_singleton (s : State) (statement : Statement) :
    executeAll s [statement] = statement.execute s := by
  rw [executeAll_cons]
  cases statement.execute s with
  | none => rfl
  | some ending => cases ending <;> rfl

/-- Executing more statements goes on from where the first ones end. -/
theorem executeAll_append (s : State) (first rest : List Statement) :
    executeAll s (first ++ rest) = (executeAll s first).bind fun
      | .goesOn s' => executeAll s' rest
      | .leaves v s' => some (.leaves v s') := by
  induction first generalizing s with
  | nil => rfl
  | cons statement first ih =>
    rw [List.cons_append, executeAll_cons, executeAll_cons, Option.bind_assoc]
    congr 1
    funext ending
    cases ending with
    | goesOn s' => exact ih s'
    | leaves v s' => rfl

/-- The statement writes nothing that an expression reads, whatever the state. -/
def spares (e : Expr) : Statement → Bool
  | .assign target _ | .increment target _ => !e.readsLocal target.slot
  | .store _ _ _ => !e.readsElement
  | .leave _ | .comment _ => true
  | .branch _ _ _ => false

/-- An expression has the same value after a statement that spares it. -/
theorem value?_of_spares {statement : Statement} {e : Expr} (h : statement.spares e = true)
    {s s' : State} (hexecute : statement.execute s = some (.goesOn s')) :
    e.value? s' = e.value? s := by
  cases statement with
  | assign target value =>
    obtain ⟨v, -, hgoes⟩ := Option.map_eq_some_iff.1 hexecute
    cases hgoes
    exact Expr.value?_setLocal (by simpa [spares] using h) s v
  | increment target amount =>
    rw [execute] at hexecute
    split at hexecute
    · cases hexecute
      exact Expr.value?_setLocal (by simpa [spares] using h) s _
    · cases hexecute
  | store array index value =>
    obtain ⟨a, -, hexecute⟩ := Option.bind_eq_some_iff.1 hexecute
    obtain ⟨i, -, hexecute⟩ := Option.bind_eq_some_iff.1 hexecute
    obtain ⟨v, -, hexecute⟩ := Option.bind_eq_some_iff.1 hexecute
    obtain ⟨t, hset, hgoes⟩ := Option.bind_eq_some_iff.1 hexecute
    cases hgoes
    exact Expr.value?_of_locals (by simpa [spares] using h) (State.locals_of_setElement? hset)
  | leave value =>
    cases value with
    | none => cases hexecute
    | some value =>
      obtain ⟨v, -, hgoes⟩ := Option.map_eq_some_iff.1 hexecute
      cases hgoes
  | branch condition body alternative => cases h
  | comment text => cases hexecute; rfl

/-- An expression has the same value after statements that spare it. -/
theorem value?_of_sparesAll {statements : List Statement} {e : Expr}
    (h : ∀ statement ∈ statements, statement.spares e = true) {s s' : State}
    (hexecute : executeAll s statements = some (.goesOn s')) :
    e.value? s' = e.value? s := by
  induction statements generalizing s with
  | nil => cases hexecute; rfl
  | cons statement rest ih =>
    obtain ⟨hspares, hrest⟩ := List.forall_mem_cons.1 h
    rw [executeAll_cons] at hexecute
    obtain ⟨ending, hfirst, hexecute⟩ := Option.bind_eq_some_iff.1 hexecute
    cases ending with
    | leaves v s'' => cases hexecute
    | goesOn s'' => rw [ih hrest hexecute, value?_of_spares hspares hfirst]

end Statement

end Unjump
