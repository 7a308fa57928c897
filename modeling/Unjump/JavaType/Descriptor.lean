import Unjump.JavaType

/-!
# Reading descriptors

A field descriptor is the coded form of one type. A method descriptor holds the types of the
parameters between parentheses, then the type of the result. `void` is no type of a parameter or of
an array's elements.

Positions in errors count bytes from the start of the descriptor.
-/

namespace Unjump.Descriptor

/-- Why a descriptor is refused. -/
inductive Error where
  | empty
  | unexpected (found : Char) (position : Nat) (descriptor : String)
  | unterminatedClass (descriptor : String)
  /-- The descriptor goes on after its end, or stops before it. -/
  | trailing (descriptor : String)
  deriving DecidableEq

/-- The wording of an error. -/
def Error.message : Error → String
  | .empty => "empty type descriptor"
  | .unexpected found position descriptor =>
    s!"unexpected `{found}` at position {position} in descriptor `{descriptor}`"
  | .unterminatedClass descriptor => s!"unterminated class name in descriptor `{descriptor}`"
  | .trailing descriptor => s!"trailing characters in descriptor `{descriptor}`"

/-- Why the rest of a descriptor is refused. -/
inductive Fault where
  /-- A character that cannot stand at the head of what is left. -/
  | unexpected (rest : List Char)
  | unterminatedClass
  | trailing

/-- How many bytes characters take. -/
def byteSize : List Char → Nat
  | [] => 0
  | c :: cs => c.utf8Size + byteSize cs

/-- The error that a fault means for a whole descriptor. -/
def Fault.inDescriptor (descriptor : String) : Fault → Error
  | .unexpected rest =>
    .unexpected (rest.headD '\x00') (byteSize descriptor.toList - byteSize rest) descriptor
  | .unterminatedClass => .unterminatedClass descriptor
  | .trailing => .trailing descriptor

/-- The type that one letter stands for. -/
def primitive? : Char → Option JavaType
  | 'V' => some .void
  | 'Z' => some .boolean
  | 'B' => some .byte
  | 'C' => some .char
  | 'S' => some .short
  | 'I' => some .int
  | 'J' => some .long
  | 'F' => some .float
  | 'D' => some .double
  | _ => none

/-- Reads a class name up to its semicolon, after the letter in front of it. -/
def readClass (cs : List Char) : Except Fault (JavaType × List Char) :=
  match cs.dropWhile (· ≠ ';') with
  | [] => .error .unterminatedClass
  | _ :: rest =>
    match cs.takeWhile (· ≠ ';') with
    | [] => .error (.unexpected cs)
    | name => .ok (.object (String.ofList name), rest)

/-- Reads a type at the start of a text, and gives back what follows it. -/
def readType : List Char → Except Fault (JavaType × List Char)
  | [] => .error .trailing
  | c :: cs =>
    match primitive? c with
    | some type => .ok (type, cs)
    | none =>
      if c = 'L' then readClass cs
      else if c = '[' then
        match readType cs with
        | .error fault => .error fault
        | .ok (.void, _) => .error (.unexpected cs)
        | .ok (component, rest) => .ok (.array component, rest)
      else .error (.unexpected (c :: cs))

theorem length_lt_of_readClass {cs rest : List Char} {type : JavaType}
    (h : readClass cs = .ok (type, rest)) : rest.length < cs.length := by
  unfold readClass at h
  have hle := (List.dropWhile_sublist (l := cs) (· ≠ ';')).length_le
  split at h
  · cases h
  · rename_i heq
    rw [heq] at hle
    split at h
    · cases h
    · cases h
      exact hle

theorem length_lt_of_readType {cs rest : List Char} {type : JavaType}
    (h : readType cs = .ok (type, rest)) : rest.length < cs.length := by
  fun_induction readType cs generalizing type rest with
  | case1 => cases h
  | case2 c cs _ _ => cases h; exact Nat.lt_succ_self _
  | case3 cs => exact Nat.lt_succ_of_lt (length_lt_of_readClass h)
  | case4 => cases h
  | case5 => cases h
  | case6 _ _ _ _ hread _ _ ih => cases h; exact Nat.lt_succ_of_lt (ih hread)
  | case7 => cases h

/-- Reads the types of parameters up to the closing parenthesis, and gives back what follows it. -/
def readParameters : List Char → Except Fault (List JavaType × List Char)
  | [] => .error .trailing
  | ')' :: rest => .ok ([], rest)
  | cs =>
    match _h : readType cs with
    | .error fault => .error fault
    | .ok (.void, _) => .error (.unexpected cs)
    | .ok (type, rest) =>
      match readParameters rest with
      | .error fault => .error fault
      | .ok (types, rest) => .ok (type :: types, rest)
  termination_by cs => cs.length
  decreasing_by exact length_lt_of_readType _h

/-- Reads a type that nothing follows. -/
def readLast (cs : List Char) : Except Fault JavaType :=
  match readType cs with
  | .error fault => .error fault
  | .ok (type, []) => .ok type
  | .ok (_, _ :: _) => .error .trailing

/-- The type that a field descriptor stands for. -/
def parse (descriptor : String) : Except Error JavaType :=
  if descriptor.isEmpty then .error .empty
  else (readLast descriptor.toList).mapError (·.inDescriptor descriptor)

/-- Reads the parameters and the result of a method. -/
def readMethod : List Char → Except Fault (List JavaType × JavaType)
  | '(' :: rest =>
    match readParameters rest with
    | .error fault => .error fault
    | .ok (parameters, rest) => (readLast rest).map fun result => (parameters, result)
  | cs => .error (.unexpected cs)

/-- The types of the parameters and of the result that a method descriptor stands for. -/
def parseMethod (descriptor : String) : Except Error (List JavaType × JavaType) :=
  if descriptor.isEmpty then .error .empty
  else (readMethod descriptor.toList).mapError (·.inDescriptor descriptor)

end Unjump.Descriptor
