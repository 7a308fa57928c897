/-!
# Characters in their places

Layout carries meaning in YAML, so every character of a text is read together with the line and the
column that it stands in. A line may end in several ways; all of them but the two separators of
Unicode are read as a line feed.
-/

namespace Unjump.Yaml

/-- A character with its place. Everything is counted from zero. -/
structure Place where
  char : Char
  /-- How many bytes the text before it takes. -/
  index : Nat
  line : Nat
  column : Nat

/-- A character that a text may hold. -/
def isAllowed (c : Char) : Bool :=
  let n := c.toNat
  n == 0x9 || n == 0xa || n == 0xd || (0x20 ≤ n && n ≤ 0x7e) || n == 0x85 ||
    (0xa0 ≤ n && n ≤ 0xfffd) || 0x10000 ≤ n

/-- A character that says in which order the bytes of a text stand. -/
def isByteOrderMark (c : Char) : Bool :=
  c == '\ufeff'

/-- A character that ends a line. -/
def isBreak (c : Char) : Bool :=
  ['\n', '\r', '\u0085', '\u2028', '\u2029'].contains c

/-- A blank inside a line. -/
def isGap (c : Char) : Bool :=
  c == ' ' || c == '\t'

/-- A character of names. -/
def isNameChar (c : Char) : Bool :=
  c.isAlphanum || c == '-' || c == '_'

/-- What is kept of a character that ends a line. -/
def keptBreak (c : Char) : Char :=
  if c = '\u2028' ∨ c = '\u2029' then c else '\n'

/-- The places of a text whose first character has an index, a line and a column. There are none
if a character is not allowed. -/
def placesFrom (index line column : Nat) : List Char → Option (List Place)
  | [] => some []
  | '\r' :: '\n' :: rest =>
    (placesFrom (index + 2) (line + 1) 0 rest).map (⟨'\n', index, line, column⟩ :: ·)
  | c :: rest =>
    if !isAllowed c then none
    else if isBreak c then
      (placesFrom (index + c.utf8Size) (line + 1) 0 rest).map
        (⟨keptBreak c, index, line, column⟩ :: ·)
    else
      (placesFrom (index + c.utf8Size) line (column + 1) rest).map (⟨c, index, line, column⟩ :: ·)

/-- The places of a text. -/
def places? (cs : List Char) : Option (List Place) :=
  placesFrom 0 0 0 cs

/-- The characters of places. -/
def text (ps : List Place) : List Char :=
  ps.map (·.char)

/-- A blank, the end of a line or the end of the text is next. -/
def isAtEndOfWord : List Place → Bool
  | [] => true
  | p :: _ => isGap p.char || isBreak p.char

/-- The end of a line or of the text is next. -/
def isAtEndOfLine : List Place → Bool
  | [] => true
  | p :: _ => isBreak p.char

/-- A word of three equal characters is next, at the start of a line. -/
def isAtMarker (c : Char) (ps : List Place) : Bool :=
  (ps.head?.map (·.column)) == some 0 && text (ps.take 3) == [c, c, c] && isAtEndOfWord (ps.drop 3)

/-- A marker of the start or the end of a document is next. -/
def isAtDocumentMarker (ps : List Place) : Bool :=
  isAtMarker '-' ps || isAtMarker '.' ps

/-- The text without the blanks at its start. -/
def skipGap (ps : List Place) : List Place :=
  ps.dropWhile (isGap ·.char)

/-- What follows the rest of a line that holds nothing but blanks and a comment. -/
def skipRestOfLine? (ps : List Place) : Option (List Place) :=
  let ps := skipGap ps
  let ps := if (ps.head?.map (·.char)) = some '#' then ps.dropWhile (!isBreak ·.char) else ps
  if isAtEndOfLine ps then some (ps.drop 1) else none

end Unjump.Yaml
