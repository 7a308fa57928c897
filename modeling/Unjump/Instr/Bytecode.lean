import Unjump.Instr

/-!
# Bytecode

The encoded form of instructions: the byte of the opcode, then the operand by its format, numbers
of 16 bits with the high byte first. A jump is encoded as the distance from its own offset to the
offset of its target.

`decode` reads bytes and `encode?` writes them.
-/

namespace Unjump.Bytecode

/-- Why bytes are refused. -/
inductive Error where
  | invalidOpcode (offset : Nat) (byte : UInt8)
  /-- The code ends inside an instruction. -/
  | truncated (offset : Nat)
  /-- A jump leads to an offset where no instruction starts. -/
  | invalidTarget (offset : Nat) (target : Int)
  deriving DecidableEq

/-- The wording of an error. -/
def Error.message : Error → String
  | .invalidOpcode offset byte =>
    s!"invalid opcode {Text.Hex.number 2 byte.toNat} at offset {offset}"
  | .truncated offset => s!"truncated instruction at offset {offset}"
  | .invalidTarget offset target => s!"jump at offset {offset} targets invalid offset {target}"

/-- The number that a byte stands for in two's complement. -/
def signed8 (b : UInt8) : Int :=
  Int.bmod b.toNat 256

/-- The number that two bytes stand for in two's complement, the high byte first. -/
def signed16 (high low : UInt8) : Int :=
  Int.bmod (256 * high.toNat + low.toNat) 65536

/-- An operand as the bytes give it. -/
inductive Argument where
  /-- An operand that needs nothing else. -/
  | operand (value : Operand)
  /-- The distance to the target of a jump. -/
  | distance (bytes : Int)

/-- Reads an operand of a format from the bytes that follow the opcode. -/
def readArgument? : Format → List UInt8 → Option Argument
  | .none, _ => some (.operand .none)
  | .byte, b :: _ => some (.operand (.immediate (Int32.ofInt (signed8 b))))
  | .short, h :: l :: _ => some (.operand (.immediate (Int32.ofInt (signed16 h l))))
  | .slot, b :: _ => some (.operand (.slot b.toUInt16))
  | .pool, b :: _ => some (.operand (.pool b.toUInt16))
  | .increment, s :: a :: _ =>
    some (.operand (.increment s.toUInt16 (Int32.ofInt (signed8 a))))
  | .jump, h :: l :: _ => some (.distance (signed16 h l))
  | _, _ => none

/-- An instruction whose target has not been looked up. -/
structure Draft where
  offset : Nat
  opcode : Opcode
  argument : Argument

/-- Reads the instructions of code that starts at an offset. -/
def scan (offset : Nat) : List UInt8 → Except Error (List Draft)
  | [] => .ok []
  | b :: rest =>
    match Opcode.ofByte? b with
    | none => .error (.invalidOpcode offset b)
    | some opcode =>
      match readArgument? opcode.format rest with
      | none => .error (.truncated offset)
      | some argument =>
        match scan (offset + opcode.format.size) (rest.drop (opcode.format.size - 1)) with
        | .error e => .error e
        | .ok drafts => .ok (⟨offset, opcode, argument⟩ :: drafts)
  termination_by bytes => bytes.length
  decreasing_by simp only [List.length_drop, List.length_cons]; omega

/-- The instruction of a draft among all drafts, with its target looked up. -/
def Draft.resolve (all : List Draft) (draft : Draft) : Except Error Instr :=
  match draft.argument with
  | .operand value => .ok ⟨draft.offset, draft.opcode, value⟩
  | .distance bytes =>
    let target := draft.offset + bytes
    match all.findIdx? fun other => (other.offset : Int) = target with
    | some position => .ok ⟨draft.offset, draft.opcode, .label position⟩
    | none => .error (.invalidTarget draft.offset target)

/-- The instructions that bytes encode. -/
def decode (bytes : List UInt8) : Except Error (List Instr) :=
  match scan 0 bytes with
  | .error e => .error e
  | .ok drafts => drafts.mapM (Draft.resolve drafts)

/-- A number of 8 bits in two's complement. -/
def byte? (n : Int) : Option (List UInt8) :=
  if -128 ≤ n ∧ n ≤ 127 then some [UInt8.ofNat (n % 256).toNat] else none

/-- A number of 16 bits in two's complement, the high byte first. -/
def bytes? (n : Int) : Option (List UInt8) :=
  if -32768 ≤ n ∧ n ≤ 32767 then
    some [UInt8.ofNat ((n / 256) % 256).toNat, UInt8.ofNat (n % 256).toNat]
  else none

/-- An index or slot of 8 bits. -/
def index? (n : UInt16) : Option (List UInt8) :=
  if n.toNat ≤ 255 then some [n.toUInt8] else none

/-- The bytes of an operand, if it has the shape of its format and fits into it. -/
def encodeOperand? (code : List Instr) (i : Instr) : Option (List UInt8) :=
  match i.opcode.format, i.operand with
  | .none, .none => some []
  | .byte, .immediate value => byte? value.toInt
  | .short, .immediate value => bytes? value.toInt
  | .slot, .slot slot => index? slot
  | .pool, .pool index => index? index
  | .increment, .increment slot amount => do
    let first ← index? slot
    let second ← byte? amount.toInt
    return first ++ second
  | .jump, .label target => do
    let goal ← code[target]?
    bytes? ((goal.offset : Int) - i.offset)
  | _, _ => none

/-- The bytes of a list of instructions, if all of its operands can be encoded. -/
def encode? (code : List Instr) : Option (List UInt8) :=
  (code.mapM fun i => (encodeOperand? code i).map (i.opcode.byte :: ·)).map List.flatten

end Unjump.Bytecode
