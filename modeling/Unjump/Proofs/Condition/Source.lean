import Unjump.Condition.Printer
import Unjump.Proofs.Condition.Leaves
import Unjump.Proofs.Java.Writing
import Unjump.Proofs.List

/-!
# Conditions as they are read

The text of a condition, with every test taken as one token, is an expression of Java that has the
truth value of the condition whatever truth values the tests have (`Condition.reads_pieces`). A test
that stands at several places may have another truth value at each of them: the tests of a condition
are told apart by their places. With the same truth value at all of them, the truth value of the
condition is the one under a valuation (`Condition.truthFrom_holds`).
-/

namespace Unjump

open Java

/-! ## Truth values of expressions -/

namespace Java

variable {α : Type}

/-- The truth value of an expression whose units have the given truth values. -/
def ExprTree.truth? (v : α → Bool) : ExprTree α → Option Bool
  | .truth b => some b
  | .unit a => some (v a)
  | .unary .bang operand => (operand.truth? v).map (!·)
  | .binary .and left right => do return (← left.truth? v) && (← right.truth? v)
  | .binary .or left right => do return (← left.truth? v) || (← right.truth? v)
  | _ => none

/-- The characters of a text whose units are written as given. -/
def spell (text : α → List Char) (ps : List (Piece α)) : List Char :=
  ps.flatMap fun
    | .char c => [c]
    | .unit a => text a

/-- The units of a text. -/
def units (ps : List (Piece α)) : List α :=
  ps.filterMap fun
    | .char _ => none
    | .unit a => some a

section

variable (text : α → List Char) (ps ps' : List (Piece α))

@[simp] theorem spell_pieces (cs : List Char) : spell text (pieces cs) = cs := by
  simp [spell, pieces, List.flatMap_map]

@[simp] theorem spell_nil : spell text [] = [] := rfl

@[simp] theorem spell_char_cons (c : Char) : spell text (.char c :: ps) = c :: spell text ps := rfl

@[simp] theorem spell_append : spell text (ps ++ ps') = spell text ps ++ spell text ps' :=
  List.flatMap_append

@[simp] theorem units_pieces (cs : List Char) : (units (pieces cs) : List α) = [] := by
  simp [units, pieces, List.filterMap_map]

@[simp] theorem units_nil : units ([] : List (Piece α)) = [] := rfl

@[simp] theorem units_char_cons (c : Char) : units (.char c :: ps) = units ps := rfl

@[simp] theorem units_append : units (ps ++ ps') = units ps ++ units ps' :=
  List.filterMap_append

theorem spell_intercalate (pss : List (List (Piece α))) :
    spell text (ps.intercalate pss) = (spell text ps).intercalate (pss.map (spell text)) := by
  induction pss with
  | nil => rfl
  | cons qs pss ih =>
    cases pss with
    | nil => simp
    | cons rs pss => simpa [List.intercalate_cons_cons] using ih

/-- A separator without units leaves the units as they are. -/
theorem units_intercalate (cs : List Char) (pss : List (List (Piece α))) :
    units ((pieces cs).intercalate pss) = pss.flatMap units := by
  induction pss with
  | nil => rfl
  | cons qs pss ih =>
    cases pss with
    | nil => simp
    | cons rs pss => simpa [List.intercalate_cons_cons] using ih

end

theorem spell_enclose (text : α → List Char) (needed : Bool) {ps : List (Piece α)} {source : String}
    (h : spell text ps = source.toList) :
    spell text (enclose needed ps) = (Text.parenthesize needed source).toList := by
  cases needed with
  | false => exact h
  | true => simp [enclose, Text.parenthesize, h]

@[simp] theorem units_enclose (needed : Bool) (ps : List (Piece α)) :
    units (enclose needed ps) = units ps := by
  cases needed with
  | false => rfl
  | true => simp [enclose]

end Java

/-! ## The text of a condition -/

/-- The sign between operands. -/
def Connective.sign : Connective → BinarySign
  | .and => .and
  | .or => .or

theorem Connective.toList_symbol (k : Connective) : k.symbol.toList = k.sign.text := by
  cases k <;> decide

/-- The precedences are in the order of the levels of Java. -/
theorem Connective.sign_level_lt (k : Connective) {l : Connective}
    (h : k.precedence < l.precedence) : k.sign.level < l.sign.level := by
  revert h
  cases k <;> cases l <;> decide

/-- Operands joined from the left. -/
def Connective.chain {α : Type} (k : Connective) : List (ExprTree α) → ExprTree α
  | [] => .truth k.dual.deciding
  | tree :: trees => trees.foldl (.binary k.sign) tree

section Chain

variable {α : Type} {letters : Letters} (k : Connective)

/-- What stands between the operands. -/
def Connective.separator : List Char :=
  ' ' :: k.sign.text ++ [' ']

/-- Signs of one level are read from the left. -/
theorem Java.Writes.chain {front : List (Piece α)} {tree : ExprTree α} {pss : List (List (Piece α))}
    {trees : List (ExprTree α)}
    (h : Writes letters front k.sign.level tree)
    (hrest : List.Forall₂ (Writes letters · (k.sign.level + 1) ·) pss trees) :
    Writes letters ((pieces k.separator).intercalate (front :: pss)) k.sign.level
      (trees.foldl (.binary k.sign) tree) := by
  induction hrest generalizing front tree with
  | nil => rwa [List.intercalate_singleton]
  | cons hhead _ ih =>
    rw [List.intercalate_append_cons]
    refine ih ?_
    simpa [Connective.separator] using h.binary k.sign hhead

theorem truth?_binary_sign (v : α → Bool) {left right : ExprTree α} {a b : Bool}
    (hleft : left.truth? v = some a) (hright : right.truth? v = some b) :
    (ExprTree.binary k.sign left right).truth? v = some (k.combine [a, b]) := by
  cases k <;> simp [Connective.sign, Connective.combine, ExprTree.truth?, hleft, hright]

theorem Connective.combine_combine_cons (a b : Bool) (values : List Bool) :
    k.combine (k.combine [a, b] :: values) = k.combine (a :: b :: values) := by
  cases k <;> simp [combine, Bool.and_assoc, Bool.or_assoc]

/-- Joined operands have the truth value that the connective gives to theirs. -/
theorem truth?_chain (v : α → Bool) {trees : List (ExprTree α)} {values : List Bool}
    (h : List.Forall₂ (fun tree value => tree.truth? v = some value) trees values) :
    (k.chain trees).truth? v = some (k.combine values) := by
  cases h with
  | nil => cases k <;> rfl
  | @cons tree value trees values hhead hrest =>
    rw [Connective.chain]
    -- the tree of the operands so far takes the place of the first one
    induction hrest generalizing tree value with
    | nil => cases k <;> simpa [Connective.combine] using hhead
    | cons hnext _ ih =>
      rw [List.foldl_cons, ih (truth?_binary_sign k v hhead hnext), k.combine_combine_cons]

end Chain

namespace Condition

mutual

/-- The text of a condition, with the tests as units that are counted from `n`. -/
def piecesFrom (n : Nat) : Condition → List (Piece (Test × Nat))
  | .test t => [.unit (t, n)]
  | .join k [] => pieces k.neutral.toList
  | .join k operands =>
    (pieces k.separator).intercalate (operandPiecesFrom k n operands)
  | .not inner => pieces ['!', '('] ++ inner.piecesFrom n ++ pieces [')']

/-- The texts of the operands of a joined condition, with their tests as units. -/
def operandPiecesFrom (k : Connective) (n : Nat) : List Condition → List (List (Piece (Test × Nat)))
  | [] => []
  | c :: cs =>
    enclose (c.precedence ≤ k.precedence) (c.piecesFrom n) ::
      operandPiecesFrom k (n + c.tests.length) cs

end

mutual

/-- The tree of a condition. -/
def treeFrom (n : Nat) : Condition → ExprTree (Test × Nat)
  | .test t => .unit (t, n)
  | .join k operands => k.chain (treesFrom n operands)
  | .not inner => .unary .bang (inner.treeFrom n)

/-- The trees of the conditions of a list. -/
def treesFrom (n : Nat) : List Condition → List (ExprTree (Test × Nat))
  | [] => []
  | c :: cs => c.treeFrom n :: treesFrom (n + c.tests.length) cs

end

mutual

/-- The truth value of a condition, when each test has one at each place. -/
def truthFrom (v : Test × Nat → Bool) (n : Nat) : Condition → Bool
  | .test t => v (t, n)
  | .join k operands => k.combine (truthsFrom v n operands)
  | .not inner => !inner.truthFrom v n

/-- The truth values of the conditions of a list. -/
def truthsFrom (v : Test × Nat → Bool) (n : Nat) : List Condition → List Bool
  | [] => []
  | c :: cs => c.truthFrom v n :: truthsFrom v (n + c.tests.length) cs

end

/-! ## Spelling -/

/-- The characters of the test of a unit. -/
def unitSource (leaf : Test × Nat) : List Char :=
  leaf.1.source.toList

mutual

/-- The pieces spell the text of the condition. -/
theorem spell_piecesFrom (n : Nat) : (c : Condition) →
    spell unitSource (c.piecesFrom n) = c.source.toList
  | .test t => List.append_nil _
  | .join k [] => by rw [piecesFrom, source, spell_pieces]
  | .join k (c :: cs) => by
    rw [piecesFrom, source, spell_intercalate, spell_pieces, spell_operandPiecesFrom k n (c :: cs),
      String.toList_intercalate]
    · simp [Connective.separator, k.toList_symbol]
    · exact nofun
    · exact nofun
  | .not inner => by simp [piecesFrom, source, spell_piecesFrom n inner]

theorem spell_operandPiecesFrom (k : Connective) (n : Nat) : (cs : List Condition) →
    (operandPiecesFrom k n cs).map (spell unitSource) = (operandSources k cs).map String.toList
  | [] => rfl
  | c :: cs => by
    rw [operandPiecesFrom, operandSources, List.map_cons, List.map_cons,
      spell_enclose unitSource _ (spell_piecesFrom n c), spell_operandPiecesFrom k _ cs]

end

mutual

/-- The units are the tests from left to right. -/
theorem units_piecesFrom (n : Nat) : (c : Condition) → units (c.piecesFrom n) = c.tests.zipIdx n
  | .test t => rfl
  | .join k [] => by rw [piecesFrom, units_pieces]; rfl
  | .join k (c :: cs) => by
    rw [piecesFrom, units_intercalate, units_operandPiecesFrom k n (c :: cs), tests]
    exact nofun
  | .not inner => by simp [piecesFrom, tests, units_piecesFrom n inner]

theorem units_operandPiecesFrom (k : Connective) (n : Nat) : (cs : List Condition) →
    (operandPiecesFrom k n cs).flatMap units = (testsAll cs).zipIdx n
  | [] => rfl
  | c :: cs => by
    rw [operandPiecesFrom, List.flatMap_cons, units_enclose, units_piecesFrom n c,
      units_operandPiecesFrom k _ cs, testsAll, List.zipIdx_append]

end

/-! ## Reading -/

/-- The level of the written condition. -/
def level : Condition → Nat
  | .test _ => primaryLevel
  | .join k _ => k.sign.level
  | .not _ => unaryLevel

theorem precedence_join (k : Connective) (cs : List Condition) :
    (join k cs).precedence = k.precedence := by
  cases k <;> rfl

/-- Operands without parentheses bind more tightly than the sign between them. -/
theorem sign_level_lt_level {k : Connective} {c : Condition} (h : k.precedence < c.precedence) :
    k.sign.level < c.level := by
  cases c with
  | test t => exact Nat.lt_trans k.sign.level_lt_unaryLevel unaryLevel_lt_primaryLevel
  | not inner => exact k.sign.level_lt_unaryLevel
  | join l cs => exact k.sign_level_lt (precedence_join l cs ▸ h)

section

variable {letters : Letters}

mutual

/-- A condition is written as an expression of its level. -/
theorem writes (n : Nat) : (c : Condition) → Writes letters (c.piecesFrom n) c.level (c.treeFrom n)
  | .test t => .unit (t, n)
  | .join .and [] => .looser (Nat.le_of_lt (by decide)) (.truth true)
  | .join .or [] => .looser (Nat.le_of_lt (by decide)) (.truth false)
  | .join k (c :: cs) => by
    have hoperands := writes_operands k n (c :: cs)
    rw [operandPiecesFrom, treesFrom, List.forall₂_cons] at hoperands
    rw [piecesFrom, operandPiecesFrom, treeFrom, treesFrom]
    · exact .chain k (.looser (Nat.le_succ _) hoperands.1) hoperands.2
    · exact nofun
  | .not inner => .unary .bang
      (.looser (Nat.le_of_lt unaryLevel_lt_primaryLevel) (writes n inner).paren) (.paren .bang _)

theorem writes_operands (k : Connective) (n : Nat) : (cs : List Condition) →
    List.Forall₂ (Writes letters · (k.sign.level + 1) ·) (operandPiecesFrom k n cs) (treesFrom n cs)
  | [] => .nil
  | c :: cs => by
    refine .cons ((writes n c).enclose _ ?_ fun hneeded => ?_) (writes_operands k _ cs)
    · exact Nat.le_trans k.sign.level_lt_unaryLevel (Nat.le_of_lt unaryLevel_lt_primaryLevel)
    · exact sign_level_lt_level (by simpa using hneeded)

end

end

mutual

/-- The tree of a condition has its truth value. -/
theorem truth?_treeFrom (v : Test × Nat → Bool) (n : Nat) : (c : Condition) →
    (c.treeFrom n).truth? v = some (c.truthFrom v n)
  | .test t => rfl
  | .join k cs => truth?_chain k v (truth?_treesFrom v n cs)
  | .not inner => by simp [treeFrom, ExprTree.truth?, truthFrom, truth?_treeFrom v n inner]

theorem truth?_treesFrom (v : Test × Nat → Bool) (n : Nat) : (cs : List Condition) →
    List.Forall₂ (fun tree value => tree.truth? v = some value) (treesFrom n cs) (truthsFrom v n cs)
  | [] => .nil
  | c :: cs => .cons (truth?_treeFrom v n c) (truth?_treesFrom v _ cs)

end

mutual

/-- If every test has one truth value at all places, the condition has the truth value that it has
under that valuation. -/
theorem truthFrom_holds (v : Valuation) (n : Nat) : (c : Condition) →
    c.truthFrom (fun leaf => v.holds leaf.1) n = c.eval v
  | .test t => rfl
  | .join k cs => by rw [truthFrom, eval, truthsFrom_holds v n cs]
  | .not inner => by rw [truthFrom, eval, truthFrom_holds v n inner]

theorem truthsFrom_holds (v : Valuation) (n : Nat) : (cs : List Condition) →
    truthsFrom (fun leaf => v.holds leaf.1) n cs = evalAll v cs
  | [] => rfl
  | c :: cs => by rw [truthsFrom, evalAll, truthFrom_holds v n c, truthsFrom_holds v _ cs]

end

/-- The text of a condition, made up of its tests and of other characters, is read as one expression
only, and that has the truth value of the condition. -/
theorem reads_pieces (letters : Letters) (c : Condition) :
    spell unitSource (c.piecesFrom 0) = c.source.toList ∧
    units (c.piecesFrom 0) = c.tests.zipIdx ∧
    ∃ tree, (∀ tree', Reads letters (c.piecesFrom 0) tree' ↔ tree' = tree) ∧
      ∀ v, tree.truth? v = some (c.truthFrom v 0) :=
  ⟨c.spell_piecesFrom 0, c.units_piecesFrom 0, c.treeFrom 0, (c.writes 0).reads_iff,
    fun v => c.truth?_treeFrom v 0⟩

end Condition

end Unjump
