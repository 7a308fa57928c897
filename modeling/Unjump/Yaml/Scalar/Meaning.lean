import Unjump.Text.Hex
import Unjump.Text.Decimal

/-!
# What plain scalars mean

A scalar without quotes and tags is a null, a truth value, a number or a text. Whole numbers are
decimal, or have a mark of their base in front; a decimal number with a needless zero in front is a
text. A number with a fraction or an exponent is one of double precision if it is finite.
-/

namespace Unjump.Yaml

open Unjump.Text

/-- The meaning of a scalar. -/
inductive Meaning where
  | null
  | bool (value : Bool)
  | int (value : Int)
  | float
  | text
  deriving DecidableEq

namespace Meaning

/-- The words for null. -/
def isNull (cs : List Char) : Bool :=
  ["null", "Null", "NULL", "~"].contains (String.ofList cs)

/-- The words for truth values. -/
def bool? (cs : List Char) : Option Bool :=
  let word := String.ofList cs
  if ["true", "True", "TRUE"].contains word then some true
  else if ["false", "False", "FALSE"].contains word then some false
  else none

/-- Reads one or more digits of a base. -/
def digits? (base : Nat) (cs : List Char) : Option Nat :=
  if cs.isEmpty then none
  else
    cs.foldlM (fun n c => ((Hex.digit? c).filter (· < base)).map (base * n + ·)) 0

/-- Reads a number with the mark of its base in front. -/
def based? : List Char → Option Nat
  | '0' :: 'x' :: cs => digits? 16 cs
  | '0' :: 'o' :: cs => digits? 8 cs
  | '0' :: 'b' :: cs => digits? 2 cs
  | _ => none

/-- A decimal number without its sign has a needless zero in front. -/
def isPadded : List Char → Bool
  | '0' :: c :: cs => (c :: cs).all Char.isDigit
  | _ => false

/-- Reads a number without a sign. -/
def unsigned? (cs : List Char) : Option Nat :=
  match based? cs with
  | some n => some n
  | none => if isPadded cs then none else digits? 10 cs

/-- Reads a number that is no less than zero, maybe after a plus sign. -/
def natural? : List Char → Option Nat
  | '+' :: cs => unsigned? cs
  | cs => unsigned? cs

/-- Reads a whole number of at most 128 bits. -/
def integer? : List Char → Option Int
  | '-' :: cs => ((unsigned? cs).filter (· ≤ Nat.pow 2 127)).map fun n => -(n : Int)
  | cs => ((natural? cs).filter (· < Nat.pow 2 128)).map Int.ofNat

/-- Reads an exponent: nothing, or a letter, maybe a sign, and digits. -/
def exponent? : List Char → Option Int
  | [] => some 0
  | c :: cs =>
    if c = 'e' ∨ c = 'E' then
      match cs with
      | '-' :: cs => (digits? 10 cs).map fun n => -(n : Int)
      | '+' :: cs => (digits? 10 cs).map Int.ofNat
      | cs => (digits? 10 cs).map Int.ofNat
    else none

/-- Digits before a point, digits after it and an exponent, which a decimal number is made of. -/
def decimalParts? (cs : List Char) : Option (List Char × List Char × Int) :=
  let whole := cs.takeWhile Char.isDigit
  let (fraction, rest) :=
    match cs.dropWhile Char.isDigit with
    | '.' :: rest => (rest.takeWhile Char.isDigit, rest.dropWhile Char.isDigit)
    | rest => ([], rest)
  if whole.isEmpty && fraction.isEmpty then none
  else (exponent? rest).map fun e => (whole, fraction, e)

/-- The least number that is too great for a number of double precision. -/
def overflow : Nat :=
  Nat.pow 2 1024 - Nat.pow 2 970

/-- The number `n * 10 ^ e` is not too great, where `n` has so many digits. -/
def isFinite (n count : Nat) (e : Int) : Bool :=
  n == 0 || e + count ≤ 308 ||
    (e ≤ 308 &&
      if 0 ≤ e then n * Nat.pow 10 e.toNat < overflow else n < overflow * Nat.pow 10 (-e).toNat)

/-- The text is a finite decimal number after its sign. -/
def isDecimal (cs : List Char) : Bool :=
  match decimalParts? cs with
  | none => false
  | some (whole, fraction, e) =>
    let digits := whole ++ fraction
    isFinite ((digits? 10 digits).getD 0) digits.length (e - fraction.length)

/-- The words for numbers that are not finite. -/
def isSpecialFloat (cs : List Char) : Bool :=
  [".inf", ".Inf", ".INF", "+.inf", "+.Inf", "+.INF", "-.inf", "-.Inf", "-.INF",
    ".nan", ".NaN", ".NAN"].contains (String.ofList cs)

/-- The text is a number of double precision. -/
def isFloat (cs : List Char) : Bool :=
  isSpecialFloat cs ||
    match cs with
    | '+' :: rest | '-' :: rest => !isPadded rest && isDecimal rest
    | _ => !isPadded cs && isDecimal cs

/-- The meaning of a scalar without quotes and tags. -/
def ofPlain (text : String) : Meaning :=
  let cs := text.toList
  if cs.isEmpty || isNull cs then .null
  else
    match bool? cs, integer? cs with
    | some b, _ => .bool b
    | none, some n => .int n
    | none, none => if isFloat cs then .float else .text

end Meaning

end Unjump.Yaml
