import Unjump.Yaml.Node
import Unjump.Yaml.Token.OfText

/-!
# Documents from tokens

The grammar of documents. A node that is left out counts as an empty scalar. Everything is read
from left to right with one token of lookahead, and a text holds one document.
-/

namespace Unjump.Yaml

/-- What a document needs to know while it is read. -/
structure Reading where
  tokens : List Token
  /-- The handles of tags and what they stand for. -/
  handles : List (List Char × List UInt8)
  /-- The names of anchors and their numbers, the last one first. -/
  anchors : List (List Char × Nat)

/-- A part of the grammar. -/
abbrev Grammar := StateT Reading Option

namespace Grammar

/-- The next token. -/
def peek : Grammar (Option Token) :=
  return (← get).tokens.head?

/-- Takes the next token. -/
def skip : Grammar Unit :=
  modify fun r => { r with tokens := r.tokens.tail }

/-- Takes the next token if it is a given one. -/
def accept (t : Token) : Grammar Bool := do
  if (← peek) = some t then
    skip
    return true
  else return false

/-- Takes a given token, which must be next. -/
def expect (t : Token) : Grammar Unit := do
  if !(← accept t) then failure

/-- One of some tokens is next. -/
def isNext (ts : List Token) : Grammar Bool :=
  return (← peek).any ts.contains

/-- The node that stands where nothing is written. -/
def nothing : Node := .scalar none .empty

/-- How many different names anchors have. -/
def nameCount (anchors : List (List Char × Nat)) : Nat :=
  (anchors.map (·.1)).eraseDups.length

/-- Reads the anchor of a node, if it has one. -/
def anchor : Grammar (Option (List Char)) := do
  match ← peek with
  | some (.anchor name) => skip; return some name
  | _ => return none

/-- Reads the tag of a node, if it has one. -/
def tag : Grammar (Option (List UInt8)) := do
  match ← peek with
  | some (.tag [] octets) => skip; return some octets
  | some (.tag handle octets) =>
    skip
    match (← get).handles.lookup handle with
    | some start => return some (start ++ octets)
    | none => failure
  | _ => return none

/-- Reads the anchor and the tag of a node, in any order. -/
def properties : Grammar (Option (List Char) × Option (List UInt8)) := do
  match ← anchor with
  | some name => return (some name, ← tag)
  | none =>
    let octets ← tag
    return (← if octets.isSome then anchor else pure none, octets)

/-- Gives a name the next number. -/
def number (name : List Char) : Grammar Nat := do
  let r ← get
  let number := nameCount r.anchors
  set { r with anchors := (name, number) :: r.anchors }
  return number

/-- The alias of a name that an anchor has had before. -/
def aliasOf (name : List Char) : Grammar Node := do
  match (← get).anchors.lookup name with
  | some number => return .alias number
  | none => failure

mutual

/-- Reads a node. Lists and maps may be laid out by lines if `inLines` holds, and the items of a
list may stand no deeper than the list's key if `flush` holds. -/
def node (inLines flush : Bool) : Nat → Grammar Node
  | 0 => failure
  | fuel + 1 => do
    match ← peek with
    | some (.alias name) =>
      skip
      aliasOf name
    | _ =>
      let (name, octets) ← properties
      match name with
      | none => content inLines flush octets.isSome octets fuel
      | some name =>
        let n ← number name
        return .anchored n (← content inLines flush true octets fuel)

/-- Reads a node after its anchor and its tag. A node may be left out if it is marked with one. -/
def content (inLines flush isMarked : Bool) (octets : Option (List UInt8)) : Nat → Grammar Node
  | 0 => failure
  | fuel + 1 => do
    match ← peek with
    | some (.scalar value) =>
      skip
      return .scalar (octets.map Tag.ofOctets) value
    | some .openBracket =>
      skip
      return .list (← bracketItems true fuel)
    | some .openBrace =>
      skip
      return .map (← bracePairs true fuel)
    | t =>
      if flush ∧ t = some .item then return .list (← flushItems fuel)
      else if inLines ∧ t = some .blockList then
        skip
        return .list (← blockItems fuel)
      else if inLines ∧ t = some .blockMap then
        skip
        return .map (← blockPairs fuel)
      else if isMarked then return .scalar (octets.map Tag.ofOctets) .empty
      else failure

/-- Reads a node, unless one of some tokens is next. -/
def nodeUnless (stops : List Token) (inLines flush : Bool) : Nat → Grammar Node
  | 0 => failure
  | fuel + 1 => do
    if ← isNext stops then return nothing else node inLines flush fuel

/-- Reads a value after its colon, if there is one. -/
def valueUnless (stops : List Token) (inLines flush : Bool) : Nat → Grammar Node
  | 0 => failure
  | fuel + 1 => do
    if ← accept .value then nodeUnless stops inLines flush fuel else return nothing

/-- Reads the items of a list that is laid out by lines. -/
def blockItems : Nat → Grammar (List Node)
  | 0 => failure
  | fuel + 1 => do
    if ← accept .item then
      let first ← nodeUnless [.item, .blockEnd] true false fuel
      return first :: (← blockItems fuel)
    else
      expect .blockEnd
      return []

/-- Reads the items of a list that stand no deeper than the list's key. -/
def flushItems : Nat → Grammar (List Node)
  | 0 => failure
  | fuel + 1 => do
    if ← accept .item then
      let first ← nodeUnless [.item, .key, .value, .blockEnd] true false fuel
      return first :: (← flushItems fuel)
    else return []

/-- Reads the pairs of a map that is laid out by lines. -/
def blockPairs : Nat → Grammar (List (Node × Node))
  | 0 => failure
  | fuel + 1 => do
    if ← accept .key then
      let key ← nodeUnless [.key, .value, .blockEnd] true true fuel
      let value ← valueUnless [.key, .value, .blockEnd] true true fuel
      return (key, value) :: (← blockPairs fuel)
    else
      expect .blockEnd
      return []

/-- Reads the items of a list between brackets. A comma stands between items, and one may follow
the last. An item with a key of its own is a map of one pair. -/
def bracketItems (isFirst : Bool) : Nat → Grammar (List Node)
  | 0 => failure
  | fuel + 1 => do
    if ← accept .closeBracket then return []
    if !isFirst then expect .comma
    if ← accept .closeBracket then return []
    let first ←
      if ← accept .key then
        let key ←
          -- a key that is left out takes the token that follows it
          if ← isNext [.value, .comma, .closeBracket] then do
            skip
            pure nothing
          else node false false fuel
        let value ← valueUnless [.comma, .closeBracket] false false fuel
        pure (.map [(key, value)])
      else node false false fuel
    return first :: (← bracketItems false fuel)

/-- Reads the pairs of a map between braces. A comma stands between pairs, and one may follow the
last. A node without a colon is a key. -/
def bracePairs (isFirst : Bool) : Nat → Grammar (List (Node × Node))
  | 0 => failure
  | fuel + 1 => do
    if ← accept .closeBrace then return []
    if !isFirst then expect .comma
    if ← accept .closeBrace then return []
    let first ←
      if ← accept .key then
        let key ← nodeUnless [.value, .comma, .closeBrace] false false fuel
        let value ← valueUnless [.comma, .closeBrace] false false fuel
        pure (key, value)
      else
        let key ← node false false fuel
        pure (key, nothing)
    return first :: (← bracePairs false fuel)

end

/-- Reads the directives of a document. A version is given once, and a handle is explained once. -/
def directives (hasVersion : Bool) : List Token → Grammar (List Token)
  | .version major minor :: rest => do
    if hasVersion || major != 1 || !(minor == 1 || minor == 2) then failure
    directives true rest
  | .handle name octets :: rest => do
    let r ← get
    if (r.handles.lookup name).isSome then failure
    set { r with handles := (name, octets) :: r.handles }
    directives hasVersion rest
  | rest => return rest

/-- The handles that need no explanation, unless a document has one of its own. -/
def commonHandles : List (List Char × List UInt8) :=
  [(['!'], "!".toUTF8.toList), (['!', '!'], Tag.languageStart)]

/-- Reads a node that must be the whole of a document. -/
def document (ts : List Token) : Grammar Node := do
  let rest ← directives false ts
  modify fun r => { r with tokens := rest, handles := r.handles ++ commonHandles }
  let isExplicit ← accept .documentStart
  if !isExplicit && rest.length < ts.length then failure
  -- of four calls in a row, at least one takes a token
  let isEnd := (← peek).isNone || (← isNext [.documentStart, .documentEnd])
  let root ←
    if isExplicit && isEnd then pure nothing
    else node true false (4 * rest.length + 4)
  let left := (← get).tokens.dropWhile (· == .documentEnd)
  if left.isEmpty then return root else failure

end Grammar

/-- The document that tokens make up. -/
def Node.ofTokens? (ts : List Token) : Option Node :=
  if ts.isEmpty then none else (Grammar.document ts ⟨ts, [], []⟩).map (·.1)

/-- The document that a text holds. -/
def Node.ofText? (text : String) : Option Node :=
  (Token.ofText? text.toList).bind Node.ofTokens?

end Unjump.Yaml
