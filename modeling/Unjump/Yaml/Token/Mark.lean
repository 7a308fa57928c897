import Unjump.Text.Decimal
import Unjump.Text.Hex
import Unjump.Yaml.Place
import Unjump.Yaml.Token

/-!
# Marks of nodes and of documents

Anchors, aliases and tags stand in front of a node, and directives in front of a document. A tag is
written in full between angle brackets, or with a handle that the document explains. An octet that
may not stand in a tag is written as a percent sign and two hexadecimal digits. What follows an
octet of zero does not count.
-/

namespace Unjump.Yaml

open Unjump.Text

/-- The name at the start of a text, and what follows it. -/
def cutName (ps : List Place) : List Char × List Place :=
  (text (ps.takeWhile (isNameChar ·.char)), ps.dropWhile (isNameChar ·.char))

/-- The name of an anchor or of an alias, after its mark. -/
def readAnchorName (ps : List Place) : Option (List Char × List Place) :=
  let (name, rest) := cutName ps
  let isEnd : Bool :=
    isAtEndOfWord rest ||
      match rest with
      | [] => true
      | p :: _ => ['?', ':', ',', ']', '}', '%', '@', '\x60'].contains p.char
  if name.isEmpty || !isEnd then none else some (name, rest)

/-- A character that a tag may hold as it is. -/
def isTagChar (isVerbatim : Bool) (c : Char) : Bool :=
  isNameChar c ||
    [';', '/', '?', ':', '@', '&', '=', '+', '$', '.', '!', '~', '*', '\'', '(', ')'].contains c ||
    (isVerbatim && [',', '[', ']'].contains c)

/-- How many octets follow the first octet of a character. -/
def followers? (first : UInt8) : Option Nat :=
  if first < 0x80 then some 0
  else if first < 0xc0 then none
  else if first < 0xe0 then some 1
  else if first < 0xf0 then some 2
  else if first < 0xf8 then some 3
  else none

/-- How many octets of a character are due after an octet, where so many were due before it. -/
def stillDue? (due : Nat) (octet : UInt8) : Option Nat :=
  match due with
  | 0 => followers? octet
  | due + 1 => if 0x80 ≤ octet ∧ octet < 0xc0 then some due else none

/-- Reads the octets of a tag, of which the first `due` ones continue a character. -/
def readOctets (isVerbatim : Bool) (due : Nat) : List Place → Option (List UInt8 × List Place)
  | [] => if due = 0 then some ([], []) else none
  | p :: rest =>
    if p.char = '%' then
      match rest with
      | h :: l :: rest =>
        match Hex.digit? h.char, Hex.digit? l.char with
        | some high, some low =>
          let octet := UInt8.ofNat (16 * high + low)
          match stillDue? due octet with
          | none => none
          | some due =>
            (readOctets isVerbatim due rest).map fun (octets, rest) => (octet :: octets, rest)
        | _, _ => none
      | _ => none
    else if due ≠ 0 then none
    else if isTagChar isVerbatim p.char then
      (readOctets isVerbatim 0 rest).map fun (octets, rest) =>
        ((String.singleton p.char).toUTF8.toList ++ octets, rest)
    else some ([], p :: rest)

/-- The octets that count: those in front of the first zero. -/
def counted (octets : List UInt8) : List UInt8 :=
  octets.takeWhile (· != 0)

/-- Reads the octets of a tag, of which at least one is written. -/
def readSomeOctets (isVerbatim : Bool) (ps : List Place) : Option (List UInt8 × List Place) :=
  match readOctets isVerbatim 0 ps with
  | some (octet :: octets, rest) => some (counted (octet :: octets), rest)
  | _ => none

/-- Reads a handle: an exclamation mark, or a name between two. A name after a mark that stands
alone is given back. -/
def readHandle (ps : List Place) : Option (List Char × List Place) :=
  match ps with
  | [] => none
  | p :: rest =>
    if p.char ≠ '!' then none
    else
      let (name, more) := cutName rest
      match more with
      | q :: more => if q.char = '!' then some ('!' :: name ++ ['!'], more) else some (['!'], rest)
      | [] => some (['!'], rest)

/-- Reads a tag without checking what follows it. -/
def readTagText (ps : List Place) : Option (Token × List Place) :=
  if text (ps.take 2) = ['!', '<'] then
    match readSomeOctets true (ps.drop 2) with
    | some (octets, p :: rest) => if p.char = '>' then some (.tag [] octets, rest) else none
    | _ => none
  else
    match readHandle ps with
    | none => none
    | some (['!'], rest) =>
      (readOctets false 0 rest).map fun (octets, rest) =>
        let octets := counted octets
        if octets.isEmpty then (.tag [] "!".toUTF8.toList, rest) else (.tag ['!'] octets, rest)
    | some (handle, rest) =>
      (readSomeOctets false rest).map fun (octets, rest) => (.tag handle octets, rest)

/-- Reads a tag. A blank or the end of the line follows it, or a comma between brackets. -/
def readTag (inFlow : Bool) (ps : List Place) : Option (Token × List Place) :=
  match readTagText ps with
  | none => none
  | some (token, rest) =>
    let isComma := inFlow && text (rest.take 1) == [',']
    if isComma || isAtEndOfWord rest then some (token, rest) else none

/-- Reads a number of a version: one to nine digits. -/
def readVersionPart (ps : List Place) : Option (Nat × List Place) :=
  let digits := text (ps.takeWhile (·.char.isDigit))
  if 9 < digits.length then none
  else (Decimal.digits? digits).map (·, ps.dropWhile (·.char.isDigit))

/-- Reads the value of a version directive: two numbers with a point between them. -/
def readVersion (ps : List Place) : Option (Token × List Place) :=
  match readVersionPart (skipGap ps) with
  | some (major, p :: rest) =>
    if p.char = '.' then
      (readVersionPart rest).map fun (minor, rest) => (.version major minor, rest)
    else none
  | _ => none

/-- Reads the value of a handle directive: the handle and what it stands for. -/
def readHandleMeaning (ps : List Place) : Option (Token × List Place) :=
  match readHandle (skipGap ps) with
  | some (handle, p :: rest) =>
    if isGap p.char then
      match readSomeOctets true (skipGap rest) with
      | some (octets, rest) =>
        if isAtEndOfWord rest then some (.handle handle octets, rest) else none
      | none => none
    else none
  | _ => none

/-- Reads a directive after its percent sign, up to the end of its line. -/
def readDirective (ps : List Place) : Option (Token × List Place) :=
  let (name, rest) := cutName ps
  if name.isEmpty || !isAtEndOfWord rest then none
  else
    let value :=
      match String.ofList name with
      | "YAML" => readVersion rest
      | "TAG" => readHandleMeaning rest
      | _ => none
    match value with
    | none => none
    | some (token, rest) => (skipRestOfLine? rest).map (token, ·)

end Unjump.Yaml
