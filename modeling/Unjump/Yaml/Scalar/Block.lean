import Unjump.Text.Decimal
import Unjump.Yaml.Place

/-!
# Block scalars

A block scalar is a header line and the lines after it that are indented deeper than the structure
around them. The header may fix the indentation and say what becomes of the line ends after the last
line. Of a `literal` scalar all other line ends are kept; of a folded one, a single line end between
two lines that start with no blank becomes a blank.
-/

namespace Unjump.Yaml.Block

open Unjump.Text

/-- What becomes of the line ends after the last line. -/
inductive Tail where
  | keepNone
  | keepOne
  | keepAll

/-- What a header line says. -/
structure Header where
  tail : Tail
  /-- How much deeper than the structure around it the scalar is indented, if that is said. -/
  indent : Option Nat

/-- Reads the sign that says what becomes of the last line ends. -/
def readTail : List Place → Option (Tail × List Place)
  | [] => none
  | p :: rest =>
    if p.char == '+' then some (.keepAll, rest)
    else if p.char == '-' then some (.keepNone, rest)
    else none

/-- Reads the digit that fixes the indentation, which is not zero. -/
def readIndent (ps : List Place) : Option (Option Nat × List Place) :=
  match ps with
  | [] => some (none, [])
  | p :: rest =>
    match Decimal.digit? p.char with
    | none => some (none, p :: rest)
    | some 0 => none
    | some n => some (some n, rest)

/-- Reads a header line: a sign and a digit in any order, each maybe missing. -/
def readHeader (ps : List Place) : Option (Header × List Place) :=
  match readTail ps with
  | some (tail, rest) => (readIndent rest).map fun (indent, rest) => (⟨tail, indent⟩, rest)
  | none =>
    match readIndent ps with
    | none => none
    | some (none, rest) => some (⟨.keepOne, none⟩, rest)
    | some (some n, rest) =>
      match readTail rest with
      | some (tail, rest) => some (⟨tail, some n⟩, rest)
      | none => some (⟨.keepOne, some n⟩, rest)

/-- Reads lines of blanks and the indentation of the line after them. The indentation is at most
`limit`, if there is a limit. The answer holds the line ends, the greatest column that was reached,
and what follows. No tab may stand in the indentation. -/
def readBreaks (limit : Option Nat) (deepest : Nat) : List Place →
    Option (List Char × Nat × List Place)
  | [] => some ([], deepest, [])
  | p :: rest =>
    let isInside := limit.all (p.column < ·)
    if isInside && p.char == ' ' then readBreaks limit deepest rest
    else if isInside && p.char == '\t' then none
    else if isBreak p.char then
      (readBreaks limit (max deepest p.column) rest).map fun (cs, more) => (p.char :: cs, more)
    else some ([], max deepest p.column, p :: rest)

theorem length_le_of_readBreaks {limit : Option Nat} {deepest : Nat} {ps rest : List Place}
    {cs : List Char} {column : Nat} (h : readBreaks limit deepest ps = some (cs, column, rest)) :
    rest.length ≤ ps.length := by
  fun_induction readBreaks limit deepest ps generalizing cs column rest with
  | case1 => cases h; exact Nat.le_refl _
  | case2 =>
    rename_i ih
    exact Nat.le_succ_of_le (ih h)
  | case3 => cases h
  | case4 =>
    rename_i ih
    obtain ⟨⟨cs', column', rest'⟩, hread, heq⟩ := Option.map_eq_some_iff.1 h
    cases heq
    exact Nat.le_succ_of_le (ih hread)
  | case5 => cases h; exact Nat.le_refl _

/-- The line ends that wait between two lines. -/
structure Seam where
  /-- The end of the line before, if it has one. -/
  first : Option Char
  others : List Char
  /-- The line before starts with a blank. -/
  afterBlank : Bool

/-- What a seam contributes to the text in front of a line. -/
def Seam.text (s : Seam) (isLiteral beforeBlank : Bool) : List Char :=
  let first :=
    if !isLiteral && s.first == some '\n' && !s.afterBlank && !beforeBlank then
      if s.others.isEmpty then [' '] else []
    else s.first.toList
  first ++ s.others

/-- What a seam contributes after the last line. -/
def Seam.tailText (s : Seam) : Tail → List Char
  | .keepNone => []
  | .keepOne => s.first.toList
  | .keepAll => s.first.toList ++ s.others

/-- Reads the lines that start at a column. -/
def readLines (isLiteral : Bool) (tail : Tail) (column : Nat) (seam : Seam) :
    List Place → Option (List Char × List Place)
  | [] => some (seam.tailText tail, [])
  | p :: rest =>
    if p.column = column then
      let startsBlank := isGap p.char
      let line := (p :: rest).takeWhile (!isBreak ·.char)
      let ending := (p :: rest).dropWhile (!isBreak ·.char)
      match _h : readBreaks (some column) 0 ending.tail with
      | none => none
      | some (breaks, _, more) =>
        let next : Seam := ⟨ending.head?.map (·.char), breaks, startsBlank⟩
        (readLines isLiteral tail column next more).map fun (cs, more) =>
          (seam.text isLiteral startsBlank ++ text line ++ cs, more)
    else some (seam.tailText tail, p :: rest)
  termination_by ps => ps.length
  decreasing_by
    have hread := length_le_of_readBreaks _h
    have hdrop : ending.length ≤ (p :: rest).length := (List.dropWhile_sublist _).length_le
    simp only [List.length_tail] at hread
    simp only [List.length_cons] at hdrop ⊢
    omega

/-- Reads a block scalar after the character that announces it. Its lines are indented by at least
`margin`, which is one more than the column of the structure around it. -/
def read (isLiteral : Bool) (margin : Nat) (ps : List Place) : Option (List Char × List Place) :=
  match readHeader ps with
  | none => none
  | some (header, rest) =>
    match skipRestOfLine? rest with
    | none => none
    | some body =>
      let column? := header.indent.map fun n => if margin = 0 then n else margin - 1 + n
      match readBreaks column? 0 body with
      | none => none
      | some (breaks, deepest, body) =>
        let column := column?.getD (max (max deepest margin) 1)
        readLines isLiteral header.tail column ⟨none, breaks, false⟩ body

end Unjump.Yaml.Block
