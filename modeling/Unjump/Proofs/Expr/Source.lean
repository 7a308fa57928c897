import Unjump.Expr.Printer
import Unjump.Proofs.Expr.TextLiteral
import Unjump.Proofs.Java.Writing

/-!
# Expressions as they are read

The text of an expression is read as the tree of that expression (`Expr.reads_source_iff`):
parentheses stand wherever Java would group the operands in another way. This holds for expressions
that put no minus sign where Java takes it for something else (`Expr.Clear`). Two minus signs in a
row are the sign that counts down, so that the negation of what is written with a minus sign is no
expression at all (`Expr.not_reads_negate_source`), and the index behind a negative constant belongs
to the number without the sign (`Expr.reads_element_source_iff`).
-/

namespace Unjump

open Java

/-- The sign between operands. -/
def Operator.sign : Operator → BinarySign
  | .add => .add
  | .sub => .sub
  | .mul => .mul
  | .div => .div
  | .rem => .rem
  | .shl => .shl
  | .shr => .shr
  | .and => .bitAnd
  | .or => .bitOr
  | .xor => .bitXor

theorem Operator.toList_symbol (op : Operator) : op.symbol.toList = op.sign.text := by
  cases op <;> decide

/-- The precedences are in the order of the levels of Java. -/
theorem Operator.precedence_le_iff (op op' : Operator) :
    op.precedence ≤ op'.precedence ↔ op.sign.level ≤ op'.sign.level := by
  cases op <;> cases op' <;> decide

theorem Operator.precedence_lt_thirteen (op : Operator) : op.precedence < 13 := by
  cases op <;> decide

theorem pieces_parenthesize {α : Type} (needed : Bool) (text : String) :
    (pieces (Text.parenthesize needed text).toList : List (Piece α)) =
      enclose needed (pieces text.toList) := by
  cases needed with
  | false => rfl
  | true => simp [Text.parenthesize, enclose]

namespace Expr

/-- The tree of an expression. A negative constant is the negation of a number. -/
def tree : Expr → ExprTree Empty
  | .int value =>
    if value.toInt < 0 then .unary .minus (.number value.toInt.natAbs)
    else .number value.toInt.natAbs
  | .null => .null
  | .text value => .text value.toList
  | .var v => .name v.name.toList
  | .element array index => .index array.tree index.tree
  | .binary op left right => .binary op.sign left.tree right.tree
  | .negate value => .unary .minus value.tree

/-- All variables have names. -/
def Named (letters : Letters) : Expr → Prop
  | .int _ | .null | .text _ => True
  | .var v => letters.IsName v.name.toList
  | .element array index => array.Named letters ∧ index.Named letters
  | .binary _ left right => left.Named letters ∧ right.Named letters
  | .negate value => value.Named letters

/-- Whether the expression is a negative constant. -/
def isNegative : Expr → Bool
  | .int value => value.toInt < 0
  | _ => false

/-- Whether the expression is a negation or a negative constant. -/
def isSigned : Expr → Bool
  | .negate _ => true
  | e => e.isNegative

/-- No negation stands in front of a negation or of a negative constant, and no index behind a
negative constant. -/
def Clear : Expr → Prop
  | .int _ | .null | .text _ | .var _ => True
  | .element array index => array.isNegative = false ∧ array.Clear ∧ index.Clear
  | .binary _ left right => left.Clear ∧ right.Clear
  | .negate value => value.isSigned = false ∧ value.Clear

instance decidableNamed (letters : Letters) : (e : Expr) → Decidable (e.Named letters)
  | .int _ | .null | .text _ => .isTrue trivial
  | .var v => inferInstanceAs (Decidable (letters.IsName v.name.toList))
  | .element array index =>
    @instDecidableAnd _ _ (decidableNamed letters array) (decidableNamed letters index)
  | .binary _ left right =>
    @instDecidableAnd _ _ (decidableNamed letters left) (decidableNamed letters right)
  | .negate value => decidableNamed letters value

instance decidableClear : (e : Expr) → Decidable e.Clear
  | .int _ | .null | .text _ | .var _ => .isTrue trivial
  | .element array index =>
    @instDecidableAnd _ _ inferInstance
      (@instDecidableAnd _ _ (decidableClear array) (decidableClear index))
  | .binary _ left right => @instDecidableAnd _ _ (decidableClear left) (decidableClear right)
  | .negate value => @instDecidableAnd _ _ inferInstance (decidableClear value)

/-- The level of the written expression. -/
def level : Expr → Nat
  | .int value => if value.toInt < 0 then unaryLevel else primaryLevel
  | .binary op _ _ => op.sign.level
  | .negate _ => unaryLevel
  | .null | .text _ | .var _ | .element _ _ => primaryLevel

/-! ## Levels -/

/-- Unary signs are put on whatever is no operation on two operands. -/
theorem unaryLevel_le_level {e : Expr} (h : 13 ≤ e.precedence) : unaryLevel ≤ e.level := by
  cases e with
  | int value =>
    rw [level]
    split_ifs
    · exact Nat.le_refl _
    · exact Nat.le_of_lt unaryLevel_lt_primaryLevel
  | binary op left right => exact absurd op.precedence_lt_thirteen (Nat.not_lt.2 h)
  | negate value => exact Nat.le_refl _
  | null | text _ | var _ | element _ _ => exact Nat.le_of_lt unaryLevel_lt_primaryLevel

/-- Without a minus sign, such an expression is a primary one. -/
theorem level_eq_primaryLevel {e : Expr} (h : 13 ≤ e.precedence) (hsigned : e.isSigned = false) :
    e.level = primaryLevel := by
  cases e with
  | int value => exact if_neg (of_decide_eq_false hsigned)
  | binary op left right => exact absurd op.precedence_lt_thirteen (Nat.not_lt.2 h)
  | negate value => cases hsigned
  | null | text _ | var _ | element _ _ => rfl

/-- What binds more tightly than a negation is none. -/
theorem isSigned_eq_isNegative {e : Expr} (h : 16 ≤ e.precedence) : e.isSigned = e.isNegative := by
  cases e with
  | negate value => exact absurd h (by simp [precedence])
  | int _ | null | text _ | var _ | element _ _ | binary _ _ _ => rfl

/-- The first operand of an operator may bind as tightly as the operator. -/
theorem sign_level_le_level {op : Operator} {e : Expr} (h : op.precedence ≤ e.precedence) :
    op.sign.level ≤ e.level := by
  by_cases hunary : 13 ≤ e.precedence
  · exact Nat.le_trans (Nat.le_of_lt op.sign.level_lt_unaryLevel) (unaryLevel_le_level hunary)
  · cases e with
    | binary op' left right => exact (op.precedence_le_iff op').1 h
    | int _ | null | text _ | var _ | element _ _ | negate _ => simp [precedence] at hunary

/-- The second operand of an operator binds more tightly. -/
theorem sign_level_lt_level {op : Operator} {e : Expr} (h : op.precedence < e.precedence) :
    op.sign.level < e.level := by
  by_cases hunary : 13 ≤ e.precedence
  · exact Nat.lt_of_lt_of_le op.sign.level_lt_unaryLevel (unaryLevel_le_level hunary)
  · cases e with
    | binary op' left right =>
      exact Nat.not_le.1 fun hle => Nat.not_le.2 h ((op'.precedence_le_iff op).2 hle)
    | int _ | null | text _ | var _ | element _ _ | negate _ => simp [precedence] at hunary

/-! ## Texts -/

variable {letters : Letters}

/-- Constants are written with digits, and with a minus sign if they are negative. -/
theorem toList_source_int (value : Int32) : (int value).source.toList =
    if value.toInt < 0 then '-' :: Nat.toDigits 10 value.toInt.natAbs
    else Nat.toDigits 10 value.toInt.natAbs := by
  rw [source, Int.toString_eq_repr, Int.repr_eq_if]
  split_ifs with hle hlt hlt
  · omega
  · rw [Nat.toList_repr, show value.toInt.toNat = value.toInt.natAbs by omega]
  · rw [String.toList_append, Nat.toList_repr,
      show (-value.toInt).toNat = value.toInt.natAbs by omega]
    rfl
  · omega

theorem pieces_source_element (array index : Expr) :
    (pieces (element array index).source.toList : List (Piece Empty)) =
      enclose (array.precedence < 16) (pieces array.source.toList) ++
        .char '[' :: pieces index.source.toList ++ [.char ']'] := by
  simp [source, pieces_parenthesize]

theorem pieces_source_binary (op : Operator) (left right : Expr) :
    (pieces (binary op left right).source.toList : List (Piece Empty)) =
      enclose (left.precedence < op.precedence) (pieces left.source.toList) ++
        .char ' ' :: (pieces op.sign.text ++ .char ' ' ::
          enclose (right.precedence ≤ op.precedence) (pieces right.source.toList)) := by
  simp [source, op.toList_symbol, pieces_parenthesize]

theorem pieces_source_negate (value : Expr) :
    (pieces (negate value).source.toList : List (Piece Empty)) =
      pieces UnarySign.minus.text ++
        enclose (value.precedence < 13) (pieces value.source.toList) := by
  simp [source, UnarySign.text, pieces_parenthesize]

/-- What is written without a minus sign in front can stand behind one. -/
theorem apart_source : (e : Expr) → e.Named letters → e.Clear → 13 ≤ e.precedence →
    e.isSigned = false → Apart .minus (pieces e.source.toList : List (Piece Empty))
  | .int value, _, _, _, hsigned => by
    rw [toList_source_int, if_neg (of_decide_eq_false hsigned)]
    exact .toDigits _
  | .null, _, _, _, _ => .minus (by decide) _
  | .text value, _, _, _, _ => by
    rw [toList_source_text]
    exact .minus (by decide) _
  | .var _, hnamed, _, _, _ => .isName hnamed
  | .element array index, hnamed, ⟨hnegative, hclear, _⟩, _, _ => by
    rw [pieces_source_element, List.append_assoc]
    refine Apart.append (.enclose _ fun hneeded => ?_) _
    have hle : 16 ≤ array.precedence := by simpa using hneeded
    exact apart_source array hnamed.1 hclear (Nat.le_trans (by decide) hle)
      (isSigned_eq_isNegative hle ▸ hnegative)
  | .binary op _ _, _, _, hle, _ => absurd op.precedence_lt_thirteen (Nat.not_lt.2 hle)

/-- An expression is written as one of its level. -/
theorem writes : (e : Expr) → e.Named letters → e.Clear →
    Writes letters (pieces e.source.toList) e.level e.tree
  | .int value, _, _ => by
    have hlower := value.le_toInt
    have hupper := value.toInt_lt
    rw [toList_source_int, tree, level]
    split_ifs with hlt
    · exact .minus_toDigits (by omega)
    · exact .number (by omega)
  | .null, _, _ => .null
  | .text value, _, _ => by
    rw [toList_source_text]
    exact .text (quoted_flatMap_escape _)
  | .var _, hnamed, _ => .name hnamed
  | .element array index, hnamed, ⟨hnegative, hclear, hclear'⟩ => by
    rw [pieces_source_element]
    -- only a negative constant has too low a level for its place, and the array is none
    refine .index ((writes array hnamed.1 hclear).enclose _ (Nat.le_refl _) fun hneeded => ?_)
      (writes index hnamed.2 hclear')
    have hle : 16 ≤ array.precedence := by simpa using hneeded
    exact Nat.le_of_eq (level_eq_primaryLevel (Nat.le_trans (by decide) hle)
      (isSigned_eq_isNegative hle ▸ hnegative)).symm
  | .binary op left right, hnamed, hclear => by
    have hlevel := op.sign.level_lt_unaryLevel
    have hprimary := unaryLevel_lt_primaryLevel
    rw [pieces_source_binary]
    refine .binary op.sign
      ((writes left hnamed.1 hclear.1).enclose _ (by omega) fun hneeded => ?_)
      ((writes right hnamed.2 hclear.2).enclose _ (by omega) fun hneeded => ?_)
    · exact sign_level_le_level (by simpa using hneeded)
    · exact sign_level_lt_level (by simpa using hneeded)
  | .negate value, hnamed, ⟨hsigned, hclear⟩ => by
    rw [pieces_source_negate]
    refine .unary .minus ((writes value hnamed hclear).enclose _
      (Nat.le_of_lt unaryLevel_lt_primaryLevel) fun hneeded => ?_) (.enclose _ fun hneeded => ?_)
    · exact unaryLevel_le_level (by simpa using hneeded)
    · exact apart_source value hnamed hclear (by simpa using hneeded) hsigned

/-- The text of an expression is read as its tree and as no other. -/
theorem reads_source_iff (letters : Letters) (e : Expr) (hnamed : e.Named letters)
    (hclear : e.Clear) (tree : ExprTree Empty) :
    Reads letters (pieces e.source.toList) tree ↔ tree = e.tree :=
  (e.writes hnamed hclear).reads_iff tree

/-- A difference whose right operand needs parentheses inside, with the least constant in it. -/
def nestedDifference : Expr :=
  .binary .sub (.var ⟨0, "x", .int⟩)
    (.binary .mul (.binary .sub (.var ⟨1, "y1", .int⟩) (.int (-2147483648)))
      (.negate (.var ⟨0, "x", .int⟩)))

theorem reads_source_nestedDifference : nestedDifference.source = "x - (y1 - -2147483648) * -x" ∧
    nestedDifference.Named .ascii ∧ nestedDifference.Clear ∧
    Reads .ascii (pieces nestedDifference.source.toList) nestedDifference.tree := by
  have hnamed : nestedDifference.Named .ascii := by decide
  have hclear : nestedDifference.Clear := by decide
  exact ⟨by decide, hnamed, hclear, (reads_source_iff .ascii _ hnamed hclear _).2 rfl⟩

/-! ## Minus signs that are taken for something else -/

theorem exists_toList_source_of_isSigned {e : Expr} (h : e.isSigned = true) :
    13 ≤ e.precedence ∧ ∃ rest, e.source.toList = '-' :: rest := by
  cases e with
  | int value =>
    refine ⟨by simp [precedence], ?_⟩
    rw [toList_source_int, if_pos (of_decide_eq_true h)]
    exact ⟨_, rfl⟩
  | negate value => exact ⟨Nat.le_refl _, by simp [source]⟩
  | null | text _ | var _ | element _ _ | binary _ _ _ => cases h

/-- The negation of a negation or of a negative constant is written as no expression. -/
theorem not_reads_negate_source {e : Expr} (h : e.isSigned = true) (tree : ExprTree Empty) :
    ¬ Reads letters (pieces (negate e).source.toList) tree := by
  obtain ⟨hle, rest, hrest⟩ := exists_toList_source_of_isSigned h
  rw [pieces_source_negate, decide_eq_false (Nat.not_lt.2 hle), hrest]
  exact not_reads_of_minus_minus _ _

/-- The negation of the negation of a variable. -/
def doubleNegation : Expr :=
  .negate (.negate (.var ⟨0, "local0", .int⟩))

theorem not_reads_source_doubleNegation : doubleNegation.source = "--local0" ∧
    doubleNegation.Named .ascii ∧
    ¬ Reads .ascii (pieces doubleNegation.source.toList) doubleNegation.tree :=
  ⟨by decide, by decide, not_reads_negate_source rfl _⟩

/-- An index behind a negative constant is one of the number without the sign. -/
theorem reads_element_source_iff {value : Int32} (hnegative : value.toInt < 0)
    (hleast : -2147483648 < value.toInt) (index : Expr) (hnamed : index.Named letters)
    (hclear : index.Clear) (tree : ExprTree Empty) :
    Reads letters (pieces (element (int value) index).source.toList) tree ↔
      tree = .unary .minus (.index (.number value.toInt.natAbs) index.tree) := by
  have hnumber : Writes letters (pieces (Nat.toDigits 10 value.toInt.natAbs)) primaryLevel
      (.number value.toInt.natAbs : ExprTree Empty) := .number (by omega)
  have hindexed := hnumber.index (index.writes hnamed hclear)
  have hsigned := (Writes.looser (Nat.le_of_lt unaryLevel_lt_primaryLevel) hindexed).unary .minus
    (((Apart.toDigits _).append _).append _)
  convert hsigned.reads_iff tree using 2
  rw [pieces_source_element, toList_source_int, if_pos hnegative]
  simp [precedence, enclose, UnarySign.text]

end Expr

end Unjump
