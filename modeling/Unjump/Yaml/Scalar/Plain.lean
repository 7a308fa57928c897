import Unjump.Yaml.Scalar.Gap

/-!
# Plain scalars

A plain scalar goes on over blanks and line ends until something follows that belongs to the
structure: a comment after a blank, a colon in front of a blank, a marker of a document, a line that
is not indented deeper than the structure around it, or, between brackets, a bracket or a comma.
-/

namespace Unjump.Yaml.Plain

/-- Where a plain scalar stands. -/
structure Setting where
  /-- It stands between brackets. -/
  inFlow : Bool
  /-- The least column of its lines after the first. -/
  margin : Nat

/-- A colon that is next must not stand inside a plain scalar between brackets. -/
def isBadColon (ps : List Place) : Bool :=
  match ps with
  | p :: q :: _ => p.char == ':' && [',', '?', '[', ']', '{', '}'].contains q.char
  | _ => false

/-- A word of a plain scalar ends before its next character. -/
def endsWord (inFlow : Bool) : List Place → Bool
  | [] => true
  | p :: rest =>
    (p.char == ':' && isAtEndOfWord rest) || (inFlow && [',', '[', ']', '{', '}'].contains p.char)

/-- No word of a plain scalar may start here, after a gap. -/
def endsAfterGap (s : Setting) (gap : Gap) (p : Place) (rest : List Place) : Bool :=
  match gap with
  | .blanks [] => false
  | _ =>
    (gap.isBroken && !s.inFlow && p.column < s.margin) || isAtDocumentMarker (p :: rest) ||
      p.char == '#'

/-- Reads a plain scalar after a gap. The answer holds its text, whether a line ends after its last
word, and what follows. -/
def readAfter (s : Setting) (gap : Gap) : List Place → Option (List Char × Bool × List Place)
  | [] => some ([], gap.isBroken, [])
  | p :: rest =>
    if isBreak p.char then readAfter s (gap.add p.char) rest
    else if isGap p.char then
      if gap.isBroken && p.char == '\t' && p.column < s.margin then none
      else readAfter s (gap.add p.char) rest
    else if endsAfterGap s gap p rest then some ([], gap.isBroken, p :: rest)
    else if s.inFlow && isBadColon (p :: rest) then none
    else if endsWord s.inFlow (p :: rest) then some ([], gap.isBroken, p :: rest)
    else (readAfter s .none rest).map fun (cs, more) => (gap.text ++ p.char :: cs, more)

/-- Reads a plain scalar. -/
def read (s : Setting) (ps : List Place) : Option (List Char × Bool × List Place) :=
  readAfter s .none ps

/-- A character with a meaning of its own at the start of a token. -/
def isReserved (c : Char) : Bool :=
  [',', '[', ']', '{', '}', '#', '&', '*', '!', '|', '>', '\'', '"', '%', '@', '\x60'].contains c

/-- A plain scalar may start with the next character. -/
def isAtStart (inFlow : Bool) : List Place → Bool
  | [] => false
  | p :: rest =>
    let isBlankNext : Bool :=
      match rest with
      | [] => false
      | q :: _ => isGap q.char
    if p.char == '-' then !isBlankNext
    else if p.char == '?' || p.char == ':' then !inFlow && !isAtEndOfWord rest
    else
      !isAtEndOfWord (p :: rest) && !isReserved p.char

end Unjump.Yaml.Plain
