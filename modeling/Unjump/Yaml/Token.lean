import Unjump.Yaml.Scalar

/-!
# Tokens

A text is a sequence of tokens. What indentation says of lists and maps is made explicit: they start
and end with a token of their own, and every key has a token in front of it.
-/

namespace Unjump.Yaml

/-- A smallest part of a text with a meaning. -/
inductive Token where
  /-- The version of the language that a document is written in. -/
  | version (major minor : Nat)
  /-- A handle that tags may start with, and the octets that it stands for. -/
  | handle (name : List Char) (octets : List UInt8)
  | documentStart
  | documentEnd
  /-- The start of a list that is laid out by lines. -/
  | blockList
  /-- The start of a map that is laid out by lines. -/
  | blockMap
  /-- The end of a list or a map that is laid out by lines. -/
  | blockEnd
  | openBracket
  | closeBracket
  | openBrace
  | closeBrace
  /-- An item of a list that is laid out by lines follows. -/
  | item
  | comma
  | key
  | value
  | anchor (name : List Char)
  | alias (name : List Char)
  /-- A tag: a handle, maybe empty, and the octets after it. -/
  | tag (handle : List Char) (octets : List UInt8)
  | scalar (value : Scalar)
  deriving DecidableEq

end Unjump.Yaml
