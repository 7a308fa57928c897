import Unjump.Opcode
import Unjump.Text.Visible

/-!
# Instructions

An instruction is an opcode with its operand, at an offset in bytes from the start of the method's
code. A jump names its target by position in the method's list of instructions.
-/

namespace Unjump

/-- A constant that an instruction loads. -/
inductive Constant where
  | int (value : Int32)
  | text (value : String)
  deriving DecidableEq

/-- The operand of an instruction. -/
inductive Operand where
  | none
  /-- A number that is written in the code. -/
  | immediate (value : Int32)
  /-- The slot of a local variable. -/
  | slot (slot : UInt16)
  /-- An index into the constant pool. -/
  | pool (index : UInt16)
  /-- A constant that stands in the listing itself. -/
  | constant (value : Constant)
  /-- A slot and the number to add to its variable. -/
  | increment (slot : UInt16) (amount : Int32)
  /-- The position of the instruction to jump to. -/
  | label (target : Nat)
  deriving DecidableEq

/-- An instruction of a method. -/
structure Instr where
  /-- The distance in bytes from the start of the code. -/
  offset : Nat
  opcode : Opcode
  operand : Operand
  deriving DecidableEq

/-- The slot that an opcode of the short forms `_0` to `_3` carries in its name. -/
def Opcode.shortSlot? : Opcode → Option UInt16
  | .iload0 | .aload0 | .istore0 | .astore0 => some 0
  | .iload1 | .aload1 | .istore1 | .astore1 => some 1
  | .iload2 | .aload2 | .istore2 | .astore2 => some 2
  | .iload3 | .aload3 | .istore3 | .astore3 => some 3
  | _ => none

namespace Instr

/-- The slot of the local variable that the instruction loads, stores or adds to. -/
def slot? (i : Instr) : Option UInt16 :=
  match i.opcode.shortSlot? with
  | some slot => some slot
  | none =>
    match i.operand with
    | .slot slot | .increment slot _ => some slot
    | _ => none

/-- The position that the instruction names as its target. -/
def label? (i : Instr) : Option Nat :=
  match i.operand with
  | .label target => some target
  | _ => none

/-- The instruction as a line of a listing; a target is shown by its position. -/
def text (i : Instr) : String :=
  i.opcode.mnemonic ++
    match i.operand with
    | .none => ""
    | .immediate value => s!" {value.toInt}"
    | .slot slot => s!" {slot.toNat}"
    | .pool index => s!" #{index.toNat}"
    | .constant (.int value) => s!" {value.toInt}"
    | .constant (.text value) => " " ++ Text.Visible.quote value
    | .increment slot amount => s!" {slot.toNat} {amount.toInt}"
    | .label target => s!" -> #{target}"

end Instr

/-- By how much a run of instructions makes the operand stack deeper. -/
def stackEffect : List Instr → Int
  | [] => 0
  | i :: rest => i.opcode.stackEffect + stackEffect rest

@[simp] theorem stackEffect_nil : stackEffect [] = 0 := rfl

@[simp] theorem stackEffect_cons (i : Instr) (rest : List Instr) :
    stackEffect (i :: rest) = i.opcode.stackEffect + stackEffect rest := rfl

@[simp] theorem stackEffect_append (code rest : List Instr) :
    stackEffect (code ++ rest) = stackEffect code + stackEffect rest := by
  induction code with
  | nil => simp
  | cons i code ih => rw [List.cons_append, stackEffect_cons, ih, stackEffect_cons, Int.add_assoc]

end Unjump
