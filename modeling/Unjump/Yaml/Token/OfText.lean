import Unjump.Yaml.Scalar.Block
import Unjump.Yaml.Scalar.Plain
import Unjump.Yaml.Scalar.Quoted
import Unjump.Yaml.Token.Mark

/-!
# Cutting a text into tokens

A token that may turn out to be a key is remembered until a colon follows it. Only then the token
that announces the key is put in front of it, and in front of that one the start of a map, if the
key stands deeper than the structure around it. A colon must follow on the same line and within
1024 bytes.

A key that starts a line of a map has no other reading, so it is `required`: the text is refused
if its colon is missing.
-/

namespace Unjump.Yaml

/-- A token that may be a key. -/
structure PossibleKey where
  place : Place
  /-- How many tokens stand before it. -/
  position : Nat
  /-- It can be nothing but a key. -/
  required : Bool

/-- A colon at a place comes too late for the key. -/
def PossibleKey.isStale (k : PossibleKey) (p : Place) : Bool :=
  k.place.line < p.line || k.place.index + 1024 < p.index

/-- What is known in front of the next token. -/
structure Lexing where
  /-- The tokens so far. -/
  tokens : Array Token
  /-- A key may start here. -/
  keyAllowed : Bool
  /-- The token that may be a key of the innermost structure. -/
  key : Option PossibleKey
  /-- The same of every structure around the brackets that are open, from the inside out. -/
  outerKeys : List (Option PossibleKey)
  /-- The columns of the structures that are laid out by lines, from the inside out. -/
  columns : List Nat

namespace Lexing

/-- The start of a text. -/
def start : Lexing := ⟨#[], true, none, [], []⟩

/-- Some bracket is open. -/
def inFlow (x : Lexing) : Bool :=
  !x.outerKeys.isEmpty

/-- The least column of the lines that belong to the structure. -/
def margin (x : Lexing) : Nat :=
  match x.columns with
  | [] => 0
  | column :: _ => column + 1

/-- Adds a token. -/
def push (x : Lexing) (t : Token) : Lexing :=
  { x with tokens := x.tokens.push t }

/-- Puts a token behind the first `position` tokens. -/
def insert (x : Lexing) (position : Nat) (t : Token) : Lexing :=
  { x with tokens := x.tokens.insertIdxIfInBounds position t }

/-- Forgets the token that may be a key. -/
def dropKey (x : Lexing) : Option Lexing :=
  if x.key.any (·.required) then none else some { x with key := none }

/-- Remembers that the next token may be a key. -/
def saveKey (x : Lexing) (p : Place) : Option Lexing :=
  if x.keyAllowed then
    x.dropKey.map fun x =>
      let required := !x.inFlow && x.columns.head? == some p.column
      { x with key := some ⟨p, x.tokens.size, required⟩ }
  else some x

/-- Forgets the possible keys for which a colon at a place comes too late. -/
def dropStale (x : Lexing) (p : Place) : Option Lexing :=
  if (x.key :: x.outerKeys).any fun k => k.any fun k => k.required && k.isStale p then none
  else
    let keep (k : Option PossibleKey) := k.filter (!·.isStale p)
    some { x with key := keep x.key, outerKeys := x.outerKeys.map keep }

/-- Ends the structures that stand deeper than a column. -/
def closeDeeper (x : Lexing) (column : Nat) : Lexing :=
  if x.inFlow then x
  else
    let closed := x.columns.takeWhile (column < ·)
    { x with
      tokens := x.tokens ++ Array.replicate closed.length .blockEnd
      columns := x.columns.dropWhile (column < ·) }

/-- Ends all structures that are laid out by lines. -/
def closeAll (x : Lexing) : Lexing :=
  if x.inFlow then x
  else
    { x with
      tokens := x.tokens ++ Array.replicate x.columns.length .blockEnd
      columns := [] }

/-- Starts a structure at a column, behind the first `position` tokens, if the column is deeper
than the structure around it. -/
def openAt (x : Lexing) (column position : Nat) (t : Token) : Lexing :=
  if !x.inFlow && x.columns.head?.all (· < column) then
    { x.insert position t with columns := column :: x.columns }
  else x

/-- Starts a structure with the next token. Without a bracket around it this needs a place where a
key may start. -/
def openHere (x : Lexing) (p : Place) (t : Token) : Option Lexing :=
  if x.inFlow then some x
  else if x.keyAllowed then some (x.openAt p.column x.tokens.size t)
  else none

/-- A token that may be a key and after which no key may start. -/
def readKeyLike (x : Lexing) (p : Place) (read : Option (Token × List Place)) :
    Option (Lexing × List Place) :=
  match x.saveKey p, read with
  | some x, some (t, rest) => some ({ x with keyAllowed := false }.push t, rest)
  | _, _ => none

/-- A marker of a document or a directive: every structure ends in front of it. -/
def readBetween (x : Lexing) (read : Option (Token × List Place)) :
    Option (Lexing × List Place) :=
  match x.closeAll.dropKey, read with
  | some x, some (t, rest) => some ({ x with keyAllowed := false }.push t, rest)
  | _, _ => none

/-- An opening bracket. -/
def readOpening (x : Lexing) (p : Place) (t : Token) (rest : List Place) :
    Option (Lexing × List Place) :=
  (x.saveKey p).map fun x =>
    ({ x with keyAllowed := true, key := none, outerKeys := x.key :: x.outerKeys }.push t, rest)

/-- A closing bracket. -/
def readClosing (x : Lexing) (t : Token) (rest : List Place) : Option (Lexing × List Place) :=
  x.dropKey.map fun x =>
    let x :=
      match x.outerKeys with
      | [] => x
      | key :: outerKeys => { x with key := key, outerKeys := outerKeys }
    ({ x with keyAllowed := false }.push t, rest)

/-- A comma. -/
def readComma (x : Lexing) (rest : List Place) : Option (Lexing × List Place) :=
  x.dropKey.map fun x => ({ x with keyAllowed := true }.push .comma, rest)

/-- A hyphen in front of an item. -/
def readItem (x : Lexing) (p : Place) (rest : List Place) : Option (Lexing × List Place) :=
  ((x.openHere p .blockList).bind dropKey).map fun x =>
    ({ x with keyAllowed := true }.push .item, rest)

/-- A question mark in front of a key. -/
def readKey (x : Lexing) (p : Place) (rest : List Place) : Option (Lexing × List Place) :=
  ((x.openHere p .blockMap).bind dropKey).map fun x =>
    ({ x with keyAllowed := !x.inFlow }.push .key, rest)

/-- A colon in front of a value. It makes a key of the token that may be one. -/
def readValue (x : Lexing) (p : Place) (rest : List Place) : Option (Lexing × List Place) :=
  match x.key with
  | some k =>
    let x := (x.insert k.position .key).openAt k.place.column k.position .blockMap
    some ({ x with key := none, keyAllowed := false }.push .value, rest)
  | none =>
    (x.openHere p .blockMap).map fun x =>
      ({ x with keyAllowed := !x.inFlow }.push .value, rest)

/-- A scalar of indented lines. -/
def readBlock (x : Lexing) (style : Style) (rest : List Place) : Option (Lexing × List Place) :=
  match x.dropKey, Block.read (style == .literal) x.margin rest with
  | some x, some (cs, rest) =>
    some ({ x with keyAllowed := true }.push (.scalar ⟨style, String.ofList cs⟩), rest)
  | _, _ => none

/-- A scalar without marks. A key may start after it if a line ends there. -/
def readPlain (x : Lexing) (p : Place) (ps : List Place) : Option (Lexing × List Place) :=
  match x.saveKey p, Plain.read ⟨x.inFlow, x.margin⟩ ps with
  | some x, some (cs, isBroken, rest) =>
    some ({ x with keyAllowed := isBroken }.push (.scalar ⟨.plain, String.ofList cs⟩), rest)
  | _, _ => none

/-- Reads a quoted scalar as a token. -/
def quotedToken (result : Option (List Char × List Place)) : Option (Token × List Place) :=
  result.map fun (cs, rest) => (.scalar ⟨.quoted, String.ofList cs⟩, rest)

/-- Reads the token that starts with a character, which is no blank. -/
def read (x : Lexing) (p : Place) (rest : List Place) : Option (Lexing × List Place) :=
  let ps := p :: rest
  let isIndicator := x.inFlow || isAtEndOfWord rest
  if p.column = 0 ∧ p.char = '%' then x.readBetween (readDirective rest)
  else if isAtMarker '-' ps then x.readBetween (some (.documentStart, ps.drop 3))
  else if isAtMarker '.' ps then x.readBetween (some (.documentEnd, ps.drop 3))
  else if p.char = '[' then x.readOpening p .openBracket rest
  else if p.char = '\x7b' then x.readOpening p .openBrace rest
  else if p.char = ']' then x.readClosing .closeBracket rest
  else if p.char = '\x7d' then x.readClosing .closeBrace rest
  else if p.char = ',' then x.readComma rest
  else if p.char = '-' ∧ isAtEndOfWord rest then x.readItem p rest
  else if p.char = '?' ∧ isIndicator then x.readKey p rest
  else if p.char = ':' ∧ isIndicator then x.readValue p rest
  else if p.char = '*' then
    x.readKeyLike p ((readAnchorName rest).map fun (name, rest) => (.alias name, rest))
  else if p.char = '&' then
    x.readKeyLike p ((readAnchorName rest).map fun (name, rest) => (.anchor name, rest))
  else if p.char = '!' then x.readKeyLike p (readTag x.inFlow ps)
  else if p.char = '|' ∧ !x.inFlow then x.readBlock .literal rest
  else if p.char = '>' ∧ !x.inFlow then x.readBlock .folded rest
  else if p.char = '\'' then x.readKeyLike p (quotedToken (Quoted.single .none rest))
  else if p.char = '"' then x.readKeyLike p (quotedToken (Quoted.double .none rest))
  else if Plain.isAtStart x.inFlow ps then x.readPlain p ps
  else none

/-- Skips blanks, comments and line ends. A tab is a blank only where no key may start, and a byte
order mark is one only at the start of a line, where it takes a column like any other. The answer
says whether a key may start after them. -/
def skip (inFlow keyAllowed inComment : Bool) : List Place → Bool × List Place
  | [] => (keyAllowed, [])
  | p :: rest =>
    if isBreak p.char then skip inFlow (keyAllowed || !inFlow) false rest
    else if inComment || p.char == ' ' || (p.char == '\t' && (inFlow || !keyAllowed)) ||
        (p.column == 0 && isByteOrderMark p.char) then
      skip inFlow keyAllowed inComment rest
    else if p.char == '#' then skip inFlow keyAllowed true rest
    else (keyAllowed, p :: rest)

/-- Reads the tokens that are left. At the end of the text every structure ends. Every token takes
a part of the text, so there are no more tokens than characters. -/
def readAll (x : Lexing) (ps : List Place) : Nat → Option Lexing
  | 0 => none
  | fuel + 1 =>
    match skip x.inFlow x.keyAllowed false ps with
    | (_, []) => x.closeAll.dropKey
    | (keyAllowed, p :: rest) =>
      match dropStale { x with keyAllowed := keyAllowed } p with
      | none => none
      | some x =>
        match (x.closeDeeper p.column).read p rest with
        | none => none
        | some (x, more) => x.readAll more fuel

end Lexing

/-- The tokens of a text. -/
def Token.ofText? (cs : List Char) : Option (List Token) :=
  (places? cs).bind fun ps => (Lexing.start.readAll ps (ps.length + 1)).map (·.tokens.toList)

end Unjump.Yaml
