import Unjump.Record
import Unjump.Text.Hex

/-!
# Printing records

Records are written as JSON, either without any blanks (`compact`) or with a line for every item
and field (`indented`). A text escapes quotes, backslashes and controls, and nothing else.
-/

namespace Unjump.Record

/-- One character of a JSON text. -/
def escape (c : Char) : String :=
  if c = '"' then "\\\""
  else if c = '\\' then "\\\\"
  else if c = '\x08' then "\\b"
  else if c = '\x0c' then "\\f"
  else if c = '\n' then "\\n"
  else if c = '\r' then "\\r"
  else if c = '\t' then "\\t"
  else if c.toNat < 0x20 then "\\u" ++ Text.Hex.digits 4 c.toNat
  else c.toString

/-- A JSON text with its quotes. -/
def quote (text : String) : String :=
  "\"" ++ String.join (text.toList.map escape) ++ "\""

mutual

/-- The record without blanks. -/
def compact : Record → String
  | .null => "null"
  | .bool value => if value then "true" else "false"
  | .int value => toString value
  | .text value => quote value
  | .list items => "[" ++ ",".intercalate (compactItems items) ++ "]"
  | .object fields => "\x7b" ++ ",".intercalate (compactFields fields) ++ "\x7d"

/-- The items of a list without blanks. -/
def compactItems : List Record → List String
  | [] => []
  | item :: rest => compact item :: compactItems rest

/-- The fields of an object without blanks. -/
def compactFields : List (String × Record) → List String
  | [] => []
  | (name, field) :: rest => (quote name ++ ":" ++ compact field) :: compactFields rest

end

/-- The blanks in front of a line at a depth: two for every level. -/
def margin (depth : Nat) : String :=
  String.ofList (List.replicate (2 * depth) ' ')

/-- Brackets around lines that stand one level deeper than the brackets. -/
def block (openBracket closeBracket : String) (depth : Nat) (parts : List String) : String :=
  if parts.isEmpty then openBracket ++ closeBracket
  else
    openBracket ++ "\n" ++ ",\n".intercalate (parts.map (margin (depth + 1) ++ ·)) ++ "\n" ++
      margin depth ++ closeBracket

mutual

/-- The record with a line for every item and field, its first line apart at a depth. -/
def indentedAt (depth : Nat) : Record → String
  | .list items => block "[" "]" depth (indentedItems (depth + 1) items)
  | .object fields => block "\x7b" "\x7d" depth (indentedFields (depth + 1) fields)
  | .null => "null"
  | .bool value => if value then "true" else "false"
  | .int value => toString value
  | .text value => quote value

/-- The items of a list, each from its first line on. -/
def indentedItems (depth : Nat) : List Record → List String
  | [] => []
  | item :: rest => indentedAt depth item :: indentedItems depth rest

/-- The fields of an object, each from its name on. -/
def indentedFields (depth : Nat) : List (String × Record) → List String
  | [] => []
  | (name, field) :: rest =>
    (quote name ++ ": " ++ indentedAt depth field) :: indentedFields depth rest

end

/-- The record with a line for every item and field. -/
def indented (record : Record) : String :=
  indentedAt 0 record

end Unjump.Record
