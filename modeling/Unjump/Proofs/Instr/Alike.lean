import Unjump.Condition.OfBlock
import Unjump.Proofs.List

/-!
# Instructions that cannot be told apart

Decompilation looks at four things of an instruction: what it does to the operand stack and to the
variables, how much deeper it makes the stack, how control goes on after it, and the target that it
names. Of a conditional jump it looks at the opcode too, which says what the jump compares.
Instructions that agree in these are alike (`Instr.Alike`), whatever their offsets and the form in
which they are written.
-/

namespace Unjump

/-- Instructions that do the same, lead to the same places and ask for the same test. -/
structure Instr.Alike (i i' : Instr) : Prop where
  action : i'.action = i.action
  stackEffect : i'.opcode.stackEffect = i.opcode.stackEffect
  flow : i'.opcode.flow = i.opcode.flow
  label? : i'.label? = i.label?
  opcode : i.opcode.isConditional = true → i'.opcode = i.opcode

/-- Only a conditional jump makes a comparison. -/
theorem Opcode.comparison?_of_not_isConditional {opcode : Opcode}
    (h : opcode.isConditional = false) : opcode.comparison? = none := by
  cases opcode <;> first | rfl | cases h

namespace Instr.Alike

variable {i i' : Instr}

/-- Instructions of one opcode and operand are alike at any offsets. -/
theorem of_eq (hopcode : i'.opcode = i.opcode) (hoperand : i'.operand = i.operand) :
    i.Alike i' := by
  obtain ⟨offset, opcode, operand⟩ := i
  obtain ⟨offset', opcode', operand'⟩ := i'
  cases hopcode
  cases hoperand
  exact ⟨rfl, rfl, rfl, rfl, fun _ => rfl⟩

theorem isConditional (h : i.Alike i') : i'.opcode.isConditional = i.opcode.isConditional := by
  rw [Opcode.isConditional, Opcode.isConditional, h.flow]

theorem isJump (h : i.Alike i') : i'.opcode.isJump = i.opcode.isJump := by
  rw [Opcode.isJump, Opcode.isJump, h.flow]

theorem endsBlock (h : i.Alike i') : i'.opcode.endsBlock = i.opcode.endsBlock := by
  rw [Opcode.endsBlock, Opcode.endsBlock, h.flow]

/-- Instructions that are alike are conditional jumps of one opcode, or none of them compares. -/
theorem opcode_or_comparison? (h : i.Alike i') :
    i'.opcode = i.opcode ∨ i.opcode.comparison? = none ∧ i'.opcode.comparison? = none := by
  cases hconditional : i.opcode.isConditional with
  | true => exact .inl (h.opcode hconditional)
  | false =>
    exact .inr ⟨Opcode.comparison?_of_not_isConditional hconditional,
      Opcode.comparison?_of_not_isConditional (h.isConditional.trans hconditional)⟩

end Instr.Alike

/-! ## Runs of instructions -/

variable {code code' : List Instr}

/-- Code that is alike makes the stack deeper by as much. -/
theorem stackEffect_alike (h : List.Forall₂ Instr.Alike code code') :
    stackEffect code' = stackEffect code := by
  induction h with
  | nil => rfl
  | cons hi _ ih => rw [stackEffect_cons, stackEffect_cons, hi.stackEffect, ih]

/-- What is asked of the last instruction has one answer for codes that are alike. -/
theorem any_getLast?_alike (h : List.Forall₂ Instr.Alike code code') {p : Instr → Bool}
    (hp : ∀ i i', i.Alike i' → p i' = p i) : code'.getLast?.any p = code.getLast?.any p :=
  h.getLast?.congr rfl hp

end Unjump
