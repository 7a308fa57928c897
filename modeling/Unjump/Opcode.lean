/-!
# Opcodes

The JVM opcodes that the library knows. Everything about an opcode stands in its `Row`: its byte,
its mnemonic, the layout of its operand, how many values it takes from the operand stack and puts
onto it, and how control goes on after it. `ofByte?` and `ofMnemonic?` find an opcode again by the
columns that name it (`ofByte?_byte`, `ofMnemonic?_mnemonic`).
-/

namespace Unjump

/-- A supported opcode. -/
inductive Opcode where
  | nop
  | aconstNull
  | iconstM1
  | iconst0
  | iconst1
  | iconst2
  | iconst3
  | iconst4
  | iconst5
  | bipush
  | sipush
  | ldc
  | iload
  | aload
  | iload0
  | iload1
  | iload2
  | iload3
  | aload0
  | aload1
  | aload2
  | aload3
  | iaload
  | aaload
  | baload
  | caload
  | istore
  | astore
  | istore0
  | istore1
  | istore2
  | istore3
  | astore0
  | astore1
  | astore2
  | astore3
  | iastore
  | aastore
  | pop
  | dup
  | iadd
  | isub
  | imul
  | idiv
  | irem
  | ineg
  | ishl
  | ishr
  | iand
  | ior
  | ixor
  | iinc
  | ifeq
  | ifne
  | iflt
  | ifge
  | ifgt
  | ifle
  | ifIcmpeq
  | ifIcmpne
  | ifIcmplt
  | ifIcmpge
  | ifIcmpgt
  | ifIcmple
  | ifAcmpeq
  | ifAcmpne
  | goto
  | ireturn
  | areturn
  | returnVoid
  | ifnull
  | ifnonnull
  deriving DecidableEq

/-- The layout of the operand that follows an opcode. -/
inductive Format where
  /-- No operand. -/
  | none
  /-- A signed number of 8 bits. -/
  | byte
  /-- A signed number of 16 bits. -/
  | short
  /-- The slot of a local variable in 8 bits. -/
  | slot
  /-- An index into the constant pool in 8 bits. -/
  | pool
  /-- A slot in 8 bits, then a signed number of 8 bits. -/
  | increment
  /-- A signed distance of 16 bits from the opcode to the target of a jump. -/
  | jump
  deriving DecidableEq

/-- The encoded size in bytes, the opcode included. -/
def Format.size : Format → Nat
  | .none => 1
  | .byte | .slot | .pool => 2
  | .short | .increment | .jump => 3

/-- How control goes on after an opcode. -/
inductive Flow where
  /-- On to the instruction that follows. -/
  | next
  /-- To the labelled instruction. -/
  | jump
  /-- To the labelled instruction if a test holds, otherwise to the one that follows. -/
  | branch
  /-- Out of the method. -/
  | exit
  deriving DecidableEq

namespace Opcode

/-- What is known about an opcode. -/
structure Row where
  /-- The encoded byte. -/
  byte : UInt8
  /-- The name in an assembly listing. -/
  mnemonic : String
  /-- The layout of the operand. -/
  format : Format
  /-- How many values are taken from the operand stack. -/
  pops : Nat
  /-- How many values are then put onto the operand stack. -/
  pushes : Nat
  /-- How control goes on. -/
  flow : Flow

/-- The table of opcodes. -/
def row : Opcode → Row
  | .nop => ⟨0x00, "nop", .none, 0, 0, .next⟩
  | .aconstNull => ⟨0x01, "aconst_null", .none, 0, 1, .next⟩
  | .iconstM1 => ⟨0x02, "iconst_m1", .none, 0, 1, .next⟩
  | .iconst0 => ⟨0x03, "iconst_0", .none, 0, 1, .next⟩
  | .iconst1 => ⟨0x04, "iconst_1", .none, 0, 1, .next⟩
  | .iconst2 => ⟨0x05, "iconst_2", .none, 0, 1, .next⟩
  | .iconst3 => ⟨0x06, "iconst_3", .none, 0, 1, .next⟩
  | .iconst4 => ⟨0x07, "iconst_4", .none, 0, 1, .next⟩
  | .iconst5 => ⟨0x08, "iconst_5", .none, 0, 1, .next⟩
  | .bipush => ⟨0x10, "bipush", .byte, 0, 1, .next⟩
  | .sipush => ⟨0x11, "sipush", .short, 0, 1, .next⟩
  | .ldc => ⟨0x12, "ldc", .pool, 0, 1, .next⟩
  | .iload => ⟨0x15, "iload", .slot, 0, 1, .next⟩
  | .aload => ⟨0x19, "aload", .slot, 0, 1, .next⟩
  | .iload0 => ⟨0x1a, "iload_0", .none, 0, 1, .next⟩
  | .iload1 => ⟨0x1b, "iload_1", .none, 0, 1, .next⟩
  | .iload2 => ⟨0x1c, "iload_2", .none, 0, 1, .next⟩
  | .iload3 => ⟨0x1d, "iload_3", .none, 0, 1, .next⟩
  | .aload0 => ⟨0x2a, "aload_0", .none, 0, 1, .next⟩
  | .aload1 => ⟨0x2b, "aload_1", .none, 0, 1, .next⟩
  | .aload2 => ⟨0x2c, "aload_2", .none, 0, 1, .next⟩
  | .aload3 => ⟨0x2d, "aload_3", .none, 0, 1, .next⟩
  | .iaload => ⟨0x2e, "iaload", .none, 2, 1, .next⟩
  | .aaload => ⟨0x32, "aaload", .none, 2, 1, .next⟩
  | .baload => ⟨0x33, "baload", .none, 2, 1, .next⟩
  | .caload => ⟨0x34, "caload", .none, 2, 1, .next⟩
  | .istore => ⟨0x36, "istore", .slot, 1, 0, .next⟩
  | .astore => ⟨0x3a, "astore", .slot, 1, 0, .next⟩
  | .istore0 => ⟨0x3b, "istore_0", .none, 1, 0, .next⟩
  | .istore1 => ⟨0x3c, "istore_1", .none, 1, 0, .next⟩
  | .istore2 => ⟨0x3d, "istore_2", .none, 1, 0, .next⟩
  | .istore3 => ⟨0x3e, "istore_3", .none, 1, 0, .next⟩
  | .astore0 => ⟨0x4b, "astore_0", .none, 1, 0, .next⟩
  | .astore1 => ⟨0x4c, "astore_1", .none, 1, 0, .next⟩
  | .astore2 => ⟨0x4d, "astore_2", .none, 1, 0, .next⟩
  | .astore3 => ⟨0x4e, "astore_3", .none, 1, 0, .next⟩
  | .iastore => ⟨0x4f, "iastore", .none, 3, 0, .next⟩
  | .aastore => ⟨0x53, "aastore", .none, 3, 0, .next⟩
  | .pop => ⟨0x57, "pop", .none, 1, 0, .next⟩
  | .dup => ⟨0x59, "dup", .none, 1, 2, .next⟩
  | .iadd => ⟨0x60, "iadd", .none, 2, 1, .next⟩
  | .isub => ⟨0x64, "isub", .none, 2, 1, .next⟩
  | .imul => ⟨0x68, "imul", .none, 2, 1, .next⟩
  | .idiv => ⟨0x6c, "idiv", .none, 2, 1, .next⟩
  | .irem => ⟨0x70, "irem", .none, 2, 1, .next⟩
  | .ineg => ⟨0x74, "ineg", .none, 1, 1, .next⟩
  | .ishl => ⟨0x78, "ishl", .none, 2, 1, .next⟩
  | .ishr => ⟨0x7a, "ishr", .none, 2, 1, .next⟩
  | .iand => ⟨0x7e, "iand", .none, 2, 1, .next⟩
  | .ior => ⟨0x80, "ior", .none, 2, 1, .next⟩
  | .ixor => ⟨0x82, "ixor", .none, 2, 1, .next⟩
  | .iinc => ⟨0x84, "iinc", .increment, 0, 0, .next⟩
  | .ifeq => ⟨0x99, "ifeq", .jump, 1, 0, .branch⟩
  | .ifne => ⟨0x9a, "ifne", .jump, 1, 0, .branch⟩
  | .iflt => ⟨0x9b, "iflt", .jump, 1, 0, .branch⟩
  | .ifge => ⟨0x9c, "ifge", .jump, 1, 0, .branch⟩
  | .ifgt => ⟨0x9d, "ifgt", .jump, 1, 0, .branch⟩
  | .ifle => ⟨0x9e, "ifle", .jump, 1, 0, .branch⟩
  | .ifIcmpeq => ⟨0x9f, "if_icmpeq", .jump, 2, 0, .branch⟩
  | .ifIcmpne => ⟨0xa0, "if_icmpne", .jump, 2, 0, .branch⟩
  | .ifIcmplt => ⟨0xa1, "if_icmplt", .jump, 2, 0, .branch⟩
  | .ifIcmpge => ⟨0xa2, "if_icmpge", .jump, 2, 0, .branch⟩
  | .ifIcmpgt => ⟨0xa3, "if_icmpgt", .jump, 2, 0, .branch⟩
  | .ifIcmple => ⟨0xa4, "if_icmple", .jump, 2, 0, .branch⟩
  | .ifAcmpeq => ⟨0xa5, "if_acmpeq", .jump, 2, 0, .branch⟩
  | .ifAcmpne => ⟨0xa6, "if_acmpne", .jump, 2, 0, .branch⟩
  | .goto => ⟨0xa7, "goto", .jump, 0, 0, .jump⟩
  | .ireturn => ⟨0xac, "ireturn", .none, 1, 0, .exit⟩
  | .areturn => ⟨0xb0, "areturn", .none, 1, 0, .exit⟩
  | .returnVoid => ⟨0xb1, "return", .none, 0, 0, .exit⟩
  | .ifnull => ⟨0xc6, "ifnull", .jump, 1, 0, .branch⟩
  | .ifnonnull => ⟨0xc7, "ifnonnull", .jump, 1, 0, .branch⟩

/-- All opcodes, by ascending byte. -/
def all : List Opcode :=
  [.nop, .aconstNull, .iconstM1, .iconst0, .iconst1, .iconst2, .iconst3, .iconst4, .iconst5,
   .bipush, .sipush, .ldc, .iload, .aload, .iload0, .iload1, .iload2, .iload3, .aload0, .aload1,
   .aload2, .aload3, .iaload, .aaload, .baload, .caload, .istore, .astore, .istore0, .istore1,
   .istore2, .istore3, .astore0, .astore1, .astore2, .astore3, .iastore, .aastore, .pop, .dup,
   .iadd, .isub, .imul, .idiv, .irem, .ineg, .ishl, .ishr, .iand, .ior, .ixor, .iinc, .ifeq,
   .ifne, .iflt, .ifge, .ifgt, .ifle, .ifIcmpeq, .ifIcmpne, .ifIcmplt, .ifIcmpge, .ifIcmpgt,
   .ifIcmple, .ifAcmpeq, .ifAcmpne, .goto, .ireturn, .areturn, .returnVoid, .ifnull, .ifnonnull]

/-- The encoded byte. -/
def byte (op : Opcode) : UInt8 := op.row.byte

/-- The name in an assembly listing. -/
def mnemonic (op : Opcode) : String := op.row.mnemonic

/-- The layout of the operand. -/
def format (op : Opcode) : Format := op.row.format

/-- How many values the opcode takes from the operand stack. -/
def pops (op : Opcode) : Nat := op.row.pops

/-- How many values the opcode puts onto the operand stack. -/
def pushes (op : Opcode) : Nat := op.row.pushes

/-- How control goes on after the opcode. -/
def flow (op : Opcode) : Flow := op.row.flow

/-- The opcode transfers control to a label, always or after a test. -/
def isJump (op : Opcode) : Bool := op.flow = .jump ∨ op.flow = .branch

/-- The opcode jumps only if its test holds. -/
def isConditional (op : Opcode) : Bool := op.flow = .branch

/-- The opcode leaves the method. -/
def isReturn (op : Opcode) : Bool := op.flow = .exit

/-- Control never simply goes on after the opcode: it ends a block. -/
def endsBlock (op : Opcode) : Bool := op.flow ≠ .next

/-- By how much the opcode makes the operand stack deeper. -/
def stackEffect (op : Opcode) : Int := (op.pushes : Int) - op.pops

/-- The opcode with an encoded byte. -/
def ofByte? (b : UInt8) : Option Opcode := all.find? (·.byte = b)

/-- The opcode with a mnemonic. -/
def ofMnemonic? (name : String) : Option Opcode := all.find? (·.mnemonic = name)

theorem ofByte?_byte (op : Opcode) : ofByte? op.byte = some op := by
  cases op <;> rfl

theorem ofMnemonic?_mnemonic (op : Opcode) : ofMnemonic? op.mnemonic = some op := by
  cases op <;> decide +kernel

end Opcode

end Unjump
