import Unjump.Proofs.Record.Memo

/-!
# What an access remembers

An access comes about by `new`, and then its array and its index are replaced, its type is asked for
and it is copied, in any order. Its operands are expressions whose own accesses have such a history
behind them, and parts of them may be asked for their types at any time (`Built`). Through all this
every access remembers a type exactly if it has been asked for since the array was set, and what it
remembers is the type of the elements of its array (`Upholds`). So the type that an access gives is
the one that a walk down its present array gives (`askType_eq_of_built`).
-/

namespace Unjump

/-- The type of the elements of an array. What is no array counts as an array of objects. -/
def Expr.elementType (array : Expr) : JavaType :=
  array.type.component?.getD .javaObject

namespace MemoExpr

/-! ## Right memories -/

/-- Whatever is remembered in the expression is right, at every depth. -/
def Faithful : MemoExpr → Prop
  | .int _ | .null | .text _ | .var _ => True
  | .element array index known =>
    array.Faithful ∧ index.Faithful ∧ ∀ type ∈ known, type = array.expr.elementType
  | .binary _ left right => left.Faithful ∧ right.Faithful
  | .negate value => value.Faithful

/-- If everything that is remembered is right, so is the type that an expression gives, and so is
what it remembers from then on. -/
theorem askType_of_faithful {m : MemoExpr} (h : m.Faithful) :
    m.askType.1 = m.expr.type ∧ m.askType.2.Faithful := by
  induction m with
  | int _ | null | text _ | var _ => exact ⟨rfl, trivial⟩
  | element array index known ih _ =>
    obtain ⟨harray, hindex, hknown⟩ := h
    cases known with
    | some type => exact ⟨hknown type rfl, harray, hindex, hknown⟩
    | none =>
      obtain ⟨htype, harray'⟩ := ih harray
      have helement : array.askType.1.component?.getD .javaObject = array.expr.elementType := by
        rw [htype, Expr.elementType]
      refine ⟨helement, harray', hindex, fun type hmem => ?_⟩
      rw [expr_askType, ← helement]
      exact (Option.some.inj hmem).symm
  | binary op left right ih _ =>
    obtain ⟨htype, hleft⟩ := ih h.1
    exact ⟨htype, hleft, h.2⟩
  | negate value ih => exact ih h

/-- The expression after one of its parts has been asked for its type. -/
inductive Asked : MemoExpr → MemoExpr → Prop
  | whole (m : MemoExpr) : Asked m m.askType.2
  | array {array array' : MemoExpr} (h : Asked array array') (index : MemoExpr)
    (known : Option JavaType) : Asked (.element array index known) (.element array' index known)
  | index (array : MemoExpr) {index index' : MemoExpr} (h : Asked index index')
    (known : Option JavaType) : Asked (.element array index known) (.element array index' known)
  | left (op : Operator) {left left' : MemoExpr} (h : Asked left left') (right : MemoExpr) :
    Asked (.binary op left right) (.binary op left' right)
  | right (op : Operator) (left : MemoExpr) {right right' : MemoExpr} (h : Asked right right') :
    Asked (.binary op left right) (.binary op left right')
  | value {value value' : MemoExpr} (h : Asked value value') :
    Asked (.negate value) (.negate value')

theorem Asked.expr_eq {m m' : MemoExpr} (h : Asked m m') : m'.expr = m.expr := by
  induction h with
  | whole m => exact m.expr_askType
  | array _ _ _ ih | index _ _ _ ih | left _ _ _ ih | right _ _ _ ih | value _ ih =>
    simp only [expr, ih]

/-- Asking parts of an expression for their types leaves what it remembers right. -/
theorem Asked.faithful {m m' : MemoExpr} (h : Asked m m') (hm : m.Faithful) : m'.Faithful := by
  induction h with
  | whole m => exact (askType_of_faithful hm).2
  | array h _ _ ih =>
    refine ⟨ih hm.1, hm.2.1, fun type hmem => ?_⟩
    rw [h.expr_eq]
    exact hm.2.2 type hmem
  | index _ _ _ ih => exact ⟨hm.1, ih hm.2.1, hm.2.2⟩
  | left _ _ _ ih => exact ⟨ih hm.1, hm.2⟩
  | right _ _ _ ih => exact ⟨hm.1, ih hm.2⟩
  | value _ ih => exact ih hm

end MemoExpr

/-! ## Histories -/

mutual

/-- The expressions that can come about: their accesses have a history. -/
inductive MemoExpr.Built : MemoExpr → Prop
  | int (value : Int32) : MemoExpr.Built (.int value)
  | null : MemoExpr.Built .null
  | text (value : String) : MemoExpr.Built (.text value)
  | var (v : Local) : MemoExpr.Built (.var v)
  | element {access : ElementAccess} {array index : Expr} {asked : Bool}
    (h : ElementAccess.Built access array index asked) :
    MemoExpr.Built (.element access.array access.index access.known)
  | binary (op : Operator) {left right : MemoExpr} (hleft : MemoExpr.Built left)
    (hright : MemoExpr.Built right) : MemoExpr.Built (.binary op left right)
  | negate {value : MemoExpr} (h : MemoExpr.Built value) : MemoExpr.Built (.negate value)

/-- The accesses that can come about, with the array and the index that were set last and whether
the type has been asked for since the array was set. -/
inductive ElementAccess.Built : ElementAccess → Expr → Expr → Bool → Prop
  | new {array index : MemoExpr} (harray : MemoExpr.Built array) (hindex : MemoExpr.Built index) :
    ElementAccess.Built (.new array index) array.expr index.expr false
  | setArray {access : ElementAccess} {a i : Expr} {asked : Bool}
    (h : ElementAccess.Built access a i asked) {array : MemoExpr}
    (harray : MemoExpr.Built array) :
    ElementAccess.Built (access.setArray array) array.expr i false
  | setIndex {access : ElementAccess} {a i : Expr} {asked : Bool}
    (h : ElementAccess.Built access a i asked) {index : MemoExpr}
    (hindex : MemoExpr.Built index) :
    ElementAccess.Built (access.setIndex index) a index.expr asked
  | askType {access : ElementAccess} {a i : Expr} {asked : Bool}
    (h : ElementAccess.Built access a i asked) : ElementAccess.Built access.askType.2 a i true
  | copy {access : ElementAccess} {a i : Expr} {asked : Bool}
    (h : ElementAccess.Built access a i asked) : ElementAccess.Built access.copy a i asked
  /-- A part of the array is asked for its type. -/
  | askArray {access : ElementAccess} {a i : Expr} {asked : Bool}
    (h : ElementAccess.Built access a i asked) {array : MemoExpr}
    (harray : access.array.Asked array) : ElementAccess.Built { access with array } a i asked
  /-- A part of the index is asked for its type. -/
  | askIndex {access : ElementAccess} {a i : Expr} {asked : Bool}
    (h : ElementAccess.Built access a i asked) {index : MemoExpr}
    (hindex : access.index.Asked index) : ElementAccess.Built { access with index } a i asked

end

namespace ElementAccess

/-- An access has the given operands, what its operands remember is right, and it remembers the type
of the elements of its array exactly if this has been asked for. -/
structure Upholds (access : ElementAccess) (array index : Expr) (asked : Bool) : Prop where
  array_eq : access.array.expr = array
  index_eq : access.index.expr = index
  array_faithful : access.array.Faithful
  index_faithful : access.index.Faithful
  known_eq : access.known = if asked then some array.elementType else none

namespace Upholds

variable {access : ElementAccess} {a i : Expr} {asked : Bool}

theorem new {array index : MemoExpr} (harray : array.Faithful) (hindex : index.Faithful) :
    (ElementAccess.new array index).Upholds array.expr index.expr false :=
  ⟨rfl, rfl, harray, hindex, rfl⟩

/-- A new array is not known yet. -/
theorem setArray (h : access.Upholds a i asked) {array : MemoExpr} (harray : array.Faithful) :
    (access.setArray array).Upholds array.expr i false :=
  ⟨rfl, h.index_eq, harray, h.index_faithful, rfl⟩

/-- A new index leaves the type of the elements as it was. -/
theorem setIndex (h : access.Upholds a i asked) {index : MemoExpr} (hindex : index.Faithful) :
    (access.setIndex index).Upholds a index.expr asked :=
  ⟨h.array_eq, rfl, h.array_faithful, hindex, h.known_eq⟩

/-- The type that an access gives is that of the elements of its array, and from then on it is
remembered. -/
theorem askType (h : access.Upholds a i asked) :
    access.askType.1 = a.elementType ∧ access.askType.2.Upholds a i true := by
  have hknown := h.known_eq
  unfold ElementAccess.askType
  cases asked with
  | true =>
    rw [if_pos rfl] at hknown
    rw [hknown]
    exact ⟨rfl, h.array_eq, h.index_eq, h.array_faithful, h.index_faithful, hknown⟩
  | false =>
    rw [if_neg Bool.false_ne_true] at hknown
    rw [hknown]
    obtain ⟨htype, hfaithful⟩ := MemoExpr.askType_of_faithful h.array_faithful
    have helement : access.array.askType.1.component?.getD .javaObject = a.elementType := by
      rw [htype, h.array_eq, Expr.elementType]
    exact ⟨helement, access.array.expr_askType.trans h.array_eq, h.index_eq, hfaithful,
      h.index_faithful, congrArg some helement⟩

theorem askArray (h : access.Upholds a i asked) {array : MemoExpr}
    (harray : access.array.Asked array) : Upholds { access with array } a i asked :=
  ⟨harray.expr_eq.trans h.array_eq, h.index_eq, harray.faithful h.array_faithful, h.index_faithful,
    h.known_eq⟩

theorem askIndex (h : access.Upholds a i asked) {index : MemoExpr}
    (hindex : access.index.Asked index) : Upholds { access with index } a i asked :=
  ⟨h.array_eq, hindex.expr_eq.trans h.index_eq, h.array_faithful, hindex.faithful h.index_faithful,
    h.known_eq⟩

end Upholds

end ElementAccess

-- by recursion on the histories: an access that stands in an operand has a history of its own
mutual

/-- In an expression that can come about, whatever is remembered is right. -/
theorem MemoExpr.Built.faithful {m : MemoExpr} : m.Built → m.Faithful
  | .int _ | .null | .text _ | .var _ => trivial
  | .element h => by
    have hupholds := h.upholds
    refine ⟨hupholds.array_faithful, hupholds.index_faithful, fun type hmem => ?_⟩
    rw [hupholds.known_eq] at hmem
    split at hmem
    · rw [hupholds.array_eq]
      exact (Option.some.inj hmem).symm
    · cases hmem
  | .binary _ hleft hright => ⟨hleft.faithful, hright.faithful⟩
  | .negate h => h.faithful

/-- An access that can come about remembers what it has been asked for. -/
theorem ElementAccess.Built.upholds {access : ElementAccess} {a i : Expr} {asked : Bool} :
    access.Built a i asked → access.Upholds a i asked
  | .new harray hindex => .new harray.faithful hindex.faithful
  | .setArray h harray => h.upholds.setArray harray.faithful
  | .setIndex h hindex => h.upholds.setIndex hindex.faithful
  | .askType h => h.upholds.askType.2
  | .copy h => by
    rw [ElementAccess.copy_eq]
    exact h.upholds
  | .askArray h harray => h.upholds.askArray harray
  | .askIndex h hindex => h.upholds.askIndex hindex

end

namespace ElementAccess

/-- Whatever has been done to an access, the type that it gives is that of the elements of the array
that was set last, found without what is remembered; it remembers a type exactly if it has been
asked for one since then; and it is the same as another access exactly if the operands are the same
expressions. -/
theorem askType_eq_of_built {access : ElementAccess} {array index : Expr} {asked : Bool}
    (h : access.Built array index asked) :
    access.askType.1 = array.type.component?.getD .javaObject ∧
      access.known.isSome = asked ∧
      ∀ other, (access.array.same other.array && access.index.same other.index) =
          access.same other ∧
        (access.same other = true ↔ array = other.array.expr ∧ index = other.index.expr) := by
  have hupholds := h.upholds
  refine ⟨hupholds.askType.1, ?_, fun other => ⟨(same_eq access other).symm, ?_⟩⟩
  · rw [hupholds.known_eq]
    cases asked <;> rfl
  · rw [same_eq, Bool.and_eq_true, MemoExpr.same_iff, MemoExpr.same_iff, hupholds.array_eq,
      hupholds.index_eq]

/-- A variable with rows of characters. -/
def grid : Local := ⟨0, "grid", .array (.array .char)⟩

/-- A row of the grid, which has been asked for its type. -/
def askedRow : ElementAccess :=
  (new (.var grid) (.int 1)).askType.2

/-- An element of the row that has been asked for its type, then copied and given another index. -/
def askedCell : ElementAccess :=
  (new (.element askedRow.array askedRow.index askedRow.known) (.int 2)).askType.2.copy.setIndex
    (.int 3)

theorem askType_eq_of_built_askedCell :
    askedCell.Built (.element (.var grid) (.int 1)) (.int 3) true ∧
      askedCell.askType.1 = .char ∧ askedCell.known.isSome = true ∧
      ∀ other, (askedCell.array.same other.array && askedCell.index.same other.index) =
          askedCell.same other ∧
        (askedCell.same other = true ↔
          .element (.var grid) (.int 1) = other.array.expr ∧ .int 3 = other.index.expr) := by
  have hrow : askedRow.Built (.var grid) (.int 1) true := .askType (.new (.var grid) (.int 1))
  have hcell : askedCell.Built (.element (.var grid) (.int 1)) (.int 3) true :=
    .setIndex (.copy (.askType (.new (.element hrow) (.int 2)))) (.int 3)
  exact ⟨hcell, askType_eq_of_built hcell⟩

end ElementAccess

end Unjump
