/-!
# Records

A `Record` is a tree of named fields, the form in which syntax trees are handed to other programs.
The order of the fields is part of the record.
-/

namespace Unjump

/-- A value made of fields, lists, texts, whole numbers and truth values. -/
inductive Record where
  | null
  | bool (value : Bool)
  | int (value : Int)
  | text (value : String)
  | list (items : List Record)
  | object (fields : List (String × Record))

namespace Record

/-- A node of a syntax tree: its kind as a number under the name `id`, then its own fields. -/
def tagged (tag : Nat) (fields : List (String × Record)) : Record :=
  .object (("id", .int tag) :: fields)

mutual

/-- The numbers under the name `id`, in the order in which they are written. -/
def ids : Record → List Int
  | .list items => idsOfItems items
  | .object fields => idsOfFields fields
  | .null | .bool _ | .int _ | .text _ => []

/-- The numbers under the name `id` in the items of a list. -/
def idsOfItems : List Record → List Int
  | [] => []
  | item :: rest => ids item ++ idsOfItems rest

/-- The numbers under the name `id` in the fields of an object. -/
def idsOfFields : List (String × Record) → List Int
  | [] => []
  | (name, .int value) :: rest =>
    if name = "id" then value :: idsOfFields rest else idsOfFields rest
  | (_, field) :: rest => ids field ++ idsOfFields rest

end

end Record

end Unjump
