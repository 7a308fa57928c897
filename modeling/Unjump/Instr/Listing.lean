import Unjump.Instr
import Unjump.Text.Blank
import Unjump.Text.Decimal

/-!
# Assembly listings

A listing has one instruction or one label a line. Two slashes outside a quoted text start a
comment, a label ends with a colon, and an instruction is a mnemonic, blanks and an operand. The
operand of a jump is the name of a label, which may stand anywhere in the listing.

Offsets are those of the encoded code: every instruction starts where the one before it ends.
-/

namespace Unjump.Listing

open Unjump.Text

/-- Why a listing is refused. Lines are counted from one. -/
inductive Error where
  | unknownMnemonic (line : Nat) (mnemonic : String)
  | missingOperand (line : Nat) (mnemonic : String)
  | unexpectedOperand (line : Nat) (mnemonic : String)
  | badOperand (line : Nat) (operand : String)
  | undefinedLabel (line : Nat) (label : String)
  | duplicateLabel (line : Nat) (label : String)
  /-- A label that stands after the last instruction. -/
  | danglingLabel (label : String)
  deriving DecidableEq

/-- The wording of an error. -/
def Error.message : Error → String
  | .unknownMnemonic line mnemonic => s!"line {line}: unknown mnemonic `{mnemonic}`"
  | .missingOperand line mnemonic => s!"line {line}: `{mnemonic}` requires an operand"
  | .unexpectedOperand line mnemonic => s!"line {line}: `{mnemonic}` takes no operand"
  | .badOperand line operand => s!"line {line}: invalid operand `{operand}`"
  | .undefinedLabel line label => s!"line {line}: undefined label `{label}`"
  | .duplicateLabel line label => s!"line {line}: duplicate label `{label}`"
  | .danglingLabel label => s!"label `{label}` does not precede an instruction"

/-- The line without its comment; `quoted` says whether the line starts inside a quoted text. -/
def stripComment (quoted : Bool) : List Char → List Char
  | [] => []
  | c :: cs =>
    if c = '"' then c :: stripComment (!quoted) cs
    else if !quoted && c == '/' && cs.head? == some '/' then []
    else c :: stripComment quoted cs

/-- An operand as the listing gives it. -/
inductive Argument where
  /-- An operand that needs nothing else. -/
  | operand (value : Operand)
  /-- The name of a label. -/
  | label (name : List Char)

/-- Reads the operand of `ldc`: a quoted text, an index after a hash sign, or a number. -/
def readConstant? : List Char → Option Operand
  | '"' :: rest => (dropSuffix? '"' rest).map fun cs => .constant (.text (String.ofList cs))
  | '#' :: rest => (Decimal.natural? 255 rest).map fun n => .pool (UInt16.ofNat n)
  | cs =>
    (Decimal.integer? (-2147483648) 2147483647 cs).map fun n => .constant (.int (Int32.ofInt n))

/-- Reads a signed number of 8 bits. -/
def readSigned8? (cs : List Char) : Option Int32 :=
  (Decimal.integer? (-128) 127 cs).map Int32.ofInt

/-- Reads a slot of 8 bits. -/
def readSlot? (cs : List Char) : Option UInt16 :=
  (Decimal.natural? 255 cs).map UInt16.ofNat

/-- Reads a slot and a signed number with commas or blanks between them. -/
def readIncrement? (cs : List Char) : Option Operand :=
  match fields (fun c => c == ',' || isBlank c) cs with
  | [slot, amount] =>
    match readSlot? slot, readSigned8? amount with
    | some s, some a => some (.increment s a)
    | _, _ => none
  | _ => none

/-- Reads a text as an operand of a format. -/
def readArgument? (format : Format) (cs : List Char) : Option Argument :=
  match format with
  | .none => some (.operand .none)
  | .byte => (readSigned8? cs).map fun n => .operand (.immediate n)
  | .short =>
    (Decimal.integer? (-32768) 32767 cs).map fun n => .operand (.immediate (Int32.ofInt n))
  | .slot => (readSlot? cs).map fun s => .operand (.slot s)
  | .pool => (readConstant? cs).map .operand
  | .increment => (readIncrement? cs).map .operand
  | .jump => some (.label cs)

/-- What a line of a listing says. -/
inductive Line where
  | blank
  | label (name : List Char)
  | instr (opcode : Opcode) (argument : Argument)

/-- Reads the line with a number. -/
def readLine (number : Nat) (source : List Char) : Except Error Line :=
  let cs := trim (stripComment false source)
  if cs.isEmpty then .ok .blank
  else
    match dropSuffix? ':' cs with
    | some name => .ok (.label (trim name))
    | none =>
      let (word, rest) := cutAtBlank cs
      let rest := trim rest
      let mnemonic := String.ofList word
      match Opcode.ofMnemonic? mnemonic with
      | none => .error (.unknownMnemonic number mnemonic)
      | some opcode =>
        if opcode.format = .none ∧ rest ≠ [] then .error (.unexpectedOperand number mnemonic)
        else if opcode.format ≠ .none ∧ rest = [] then .error (.missingOperand number mnemonic)
        else
          match readArgument? opcode.format rest with
          | some argument => .ok (.instr opcode argument)
          | none => .error (.badOperand number (String.ofList rest))

/-- An instruction whose label has not been looked up. -/
structure Draft where
  /-- The number of its line. -/
  line : Nat
  offset : Nat
  opcode : Opcode
  argument : Argument

/-- The labels of a listing with the positions of the instructions that they precede. -/
abbrev Labels := List (List Char × Nat)

/-- Reads the lines from a number on, where the next instruction has a position and an offset.
The answer holds the labels, the ones from before included, and the instructions of the lines. -/
def readLines (number position offset : Nat) (labels : Labels) :
    List (List Char) → Except Error (Labels × List Draft)
  | [] => .ok (labels, [])
  | source :: rest =>
    match readLine number source with
    | .error e => .error e
    | .ok .blank => readLines (number + 1) position offset labels rest
    | .ok (.label name) =>
      if (labels.lookup name).isSome then .error (.duplicateLabel number (String.ofList name))
      else readLines (number + 1) position offset (labels ++ [(name, position)]) rest
    | .ok (.instr opcode argument) =>
      match readLines (number + 1) (position + 1) (offset + opcode.format.size) labels rest with
      | .error e => .error e
      | .ok (labels, drafts) => .ok (labels, ⟨number, offset, opcode, argument⟩ :: drafts)

/-- The instruction of a draft, with its label looked up. -/
def Draft.resolve (labels : Labels) (draft : Draft) : Except Error Instr :=
  match draft.argument with
  | .operand value => .ok ⟨draft.offset, draft.opcode, value⟩
  | .label name =>
    match labels.lookup name with
    | some target => .ok ⟨draft.offset, draft.opcode, .label target⟩
    | none => .error (.undefinedLabel draft.line (String.ofList name))

/-- The instructions of a listing. -/
def assemble (lines : List String) : Except Error (List Instr) :=
  match readLines 1 0 0 [] (lines.map String.toList) with
  | .error e => .error e
  | .ok (labels, drafts) =>
    match labels.find? fun (_, target) => drafts.length ≤ target with
    | some (name, _) => .error (.danglingLabel (String.ofList name))
    | none => drafts.mapM (Draft.resolve labels)

end Unjump.Listing
