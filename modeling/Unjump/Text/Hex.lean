import Unjump.Text.Blank

/-!
# Hexadecimal text

Numbers are written in lower case after `0x`, with a least number of digits. Bytes are read from
pairs of digits, with or without blanks between the digits.
-/

namespace Unjump.Text.Hex

/-- The digits of a number in lower case, with zeros in front up to `width` digits. -/
def digits (width n : Nat) : String :=
  let shown := Nat.toDigits 16 n
  String.ofList (List.replicate (width - shown.length) '0' ++ shown)

/-- A number after `0x` with at least `width` digits. -/
def number (width n : Nat) : String :=
  "0x" ++ digits width n

/-- The value of a hexadecimal digit of either case. -/
def digit? (c : Char) : Option Nat :=
  if '0' ≤ c ∧ c ≤ '9' then some (c.toNat - '0'.toNat)
  else if 'a' ≤ c ∧ c ≤ 'f' then some (c.toNat - 'a'.toNat + 10)
  else if 'A' ≤ c ∧ c ≤ 'F' then some (c.toNat - 'A'.toNat + 10)
  else none

/-- Reads two characters as a byte: two digits, or a plus sign and one digit. -/
def pair? (high low : Char) : Option UInt8 :=
  match digit? high, digit? low with
  | some h, some l => some (UInt8.ofNat (16 * h + l))
  | none, some l => if high = '+' then some (UInt8.ofNat l) else none
  | _, none => none

/-- Reads pairs of characters as bytes. What is left in place of a pair is the error: two other
characters, or one at the end. -/
def bytes : List Char → Except (List Char) (List UInt8)
  | [] => .ok []
  | [c] => .error [c]
  | high :: low :: rest =>
    match pair? high low with
    | none => .error [high, low]
    | some b => (bytes rest).map (b :: ·)

/-- Reads the characters of a text that are no blanks as bytes. -/
def bytesOfText (cs : List Char) : Except (List Char) (List UInt8) :=
  bytes (cs.filter (!isBlank ·))

end Unjump.Text.Hex
