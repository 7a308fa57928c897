/-!
# Decimal integers

A whole number is written with ASCII digits, leading zeros allowed, after at most one sign: a
plus for any number and a minus for a range that holds negative numbers. Reading fails when the
number leaves its range.
-/

namespace Unjump.Text.Decimal

/-- The value of an ASCII digit. -/
def digit? (c : Char) : Option Nat :=
  if '0' ≤ c ∧ c ≤ '9' then some (c.toNat - '0'.toNat) else none

/-- Reads digits after a number that ends with `value`. -/
def continue? (value : Nat) : List Char → Option Nat
  | [] => some value
  | c :: cs =>
    match digit? c with
    | some d => continue? (10 * value + d) cs
    | none => none

/-- Reads one or more digits. -/
def digits? : List Char → Option Nat
  | [] => none
  | c :: cs => continue? 0 (c :: cs)

/-- Reads a number from `0` to `high`. -/
def natural? (high : Nat) (cs : List Char) : Option Nat :=
  let value? :=
    match cs with
    | '+' :: rest => digits? rest
    | _ => digits? cs
  value?.filter (· ≤ high)

/-- Reads a number from `low`, which is negative, to `high`. -/
def integer? (low high : Int) (cs : List Char) : Option Int :=
  let value? : Option Int :=
    match cs with
    | '+' :: rest => (digits? rest).map Int.ofNat
    | '-' :: rest => (digits? rest).map fun n => -Int.ofNat n
    | _ => (digits? cs).map Int.ofNat
  value?.filter fun n => low ≤ n ∧ n ≤ high

end Unjump.Text.Decimal
