import Unjump.Text.Hex
import Unjump.Yaml.Scalar.Gap

/-!
# Quoted scalars

A scalar between quotes may go over several lines. Between single quotes a quote is written twice.
Between double quotes a backslash starts an escape: a letter for one character, or a letter and
digits for the number of one. A backslash at the end of a line joins the line with the next.

No line of a quoted scalar may start with a marker of a document.
-/

namespace Unjump.Yaml.Quoted

open Unjump.Text

/-- What a character after a backslash means. -/
inductive Escape where
  | char (c : Char)
  /-- The number of a character follows in so many digits. -/
  | code (digits : Nat)

/-- The escape of a character after a backslash. -/
def escape? : Char → Option Escape
  | '0' => some (.char '\x00')
  | 'a' => some (.char '\x07')
  | 'b' => some (.char '\x08')
  | 't' | '\t' => some (.char '\t')
  | 'n' => some (.char '\n')
  | 'v' => some (.char '\x0b')
  | 'f' => some (.char '\x0c')
  | 'r' => some (.char '\r')
  | 'e' => some (.char '\x1b')
  | ' ' => some (.char ' ')
  | '"' => some (.char '"')
  | '/' => some (.char '/')
  | '\\' => some (.char '\\')
  | 'N' => some (.char '\u0085')
  | '_' => some (.char '\u00a0')
  | 'L' => some (.char '\u2028')
  | 'P' => some (.char '\u2029')
  | 'x' => some (.code 2)
  | 'u' => some (.code 4)
  | 'U' => some (.code 8)
  | _ => none

/-- The number that hexadecimal digits stand for. -/
def number? (cs : List Char) : Option Nat :=
  cs.foldlM (fun n c => (Hex.digit? c).map (16 * n + ·)) 0

/-- The character whose number is written in so many digits at the start of a text. -/
def codeChar? (digits : Nat) (ps : List Place) : Option Char :=
  if ps.length < digits then none
  else
    match number? (text (ps.take digits)) with
    | none => none
    | some n => if n.isValidChar then some (Char.ofNat n) else none

/-- Puts characters in front of the text that has been read. -/
def prepend (cs : List Char) (result : Option (List Char × List Place)) :
    Option (List Char × List Place) :=
  result.map fun (more, rest) => (cs ++ more, rest)

/-- Reads the rest of a scalar between single quotes, after a gap. -/
def single (gap : Gap) : List Place → Option (List Char × List Place)
  | [] => none
  | p :: rest =>
    if isGap p.char || isBreak p.char then single (gap.add p.char) rest
    else if isAtDocumentMarker (p :: rest) then none
    else if p.char == '\'' then
      match rest with
      | [] => some (gap.text, [])
      | q :: rest =>
        if q.char == '\'' then prepend (gap.text ++ ['\'']) (single .none rest)
        else some (gap.text, q :: rest)
    else prepend (gap.text ++ [p.char]) (single .none rest)

/-- Reads the rest of a scalar between double quotes, after a gap. -/
def double (gap : Gap) : List Place → Option (List Char × List Place)
  | [] => none
  | p :: rest =>
    if isGap p.char || isBreak p.char then double (gap.add p.char) rest
    else if isAtDocumentMarker (p :: rest) then none
    else if p.char == '"' then some (gap.text, rest)
    else if p.char == '\\' then
      match rest with
      | [] => none
      | q :: rest =>
        if isBreak q.char then prepend gap.text (double (.breaks none []) rest)
        else
          match escape? q.char with
          | none => none
          | some (.char c) => prepend (gap.text ++ [c]) (double .none rest)
          | some (.code digits) =>
            match codeChar? digits rest with
            | none => none
            | some c => prepend (gap.text ++ [c]) (double .none (rest.drop digits))
    else prepend (gap.text ++ [p.char]) (double .none rest)
  termination_by ps => ps.length
  decreasing_by all_goals simp only [List.length_cons, List.length_drop]; omega

end Unjump.Yaml.Quoted
