import Unjump.Opcode
import Unjump.Text.Hex

/-!
# Failures

Why a method cannot be decompiled. A failure names the block at which it came to light.
-/

namespace Unjump

/-- Why the blocks of a method have no place in nested bodies. -/
inductive Obstacle where
  | backwardEdge (target : Nat)
  /-- Operands are left on the stack for a block that several blocks lead to. -/
  | operandsIntoJoin (join : Nat)
  /-- No block of the group goes on to the block behind the group. -/
  | noBody (group : List Nat)
  | singleExit (group : List Nat)
  /-- The exit lies outside the blocks from `body` up to `stop`. -/
  | exitOutside (exit body stop : Nat)
  | emptyGroup

/-- The wording of an obstacle. -/
def Obstacle.message : Obstacle → String
  | .backwardEdge target => s!"backward edge to block {target}"
  | .operandsIntoJoin join => s!"operands flow into join block {join}"
  | .noBody group => s!"no fall-through body after {list group}"
  | .singleExit group => s!"group {list group} has a single exit"
  | .exitOutside exit body stop => s!"exit block {exit} outside region {body}..{stop}"
  | .emptyGroup => "empty condition group"
where
  /-- Numbers between brackets. -/
  list (ids : List Nat) : String :=
    "[" ++ ", ".intercalate (ids.map toString) ++ "]"

/-- Why a method cannot be decompiled. -/
inductive Failure where
  /-- A conditional jump finds more or fewer operands than it takes. -/
  | operandCount (block : Nat) (opcode : Opcode) (expected found : Nat)
  /-- An instruction takes an operand from an empty stack. -/
  | emptyStack (block : Nat) (opcode : Opcode) (offset : Nat)
  | malformedOperand (block : Nat) (opcode : Opcode) (offset : Nat)
  /-- The stack is deeper or less deep than it should be after a block. -/
  | unbalancedStack (block expected found : Nat)
  | emptyBlock (block : Nat)
  /-- The block does not end with a conditional jump. -/
  | noTest (block : Nat) (opcode : Opcode)
  | missingTarget (block : Nat)
  /-- The block leads to one that is neither in the group nor one of its exits. -/
  | unknownTarget (block target : Nat)
  | cyclicGroup (block : Nat)
  | unreachableBody (body : Nat)
  | unknownConstant (block : Nat) (index : UInt16)
  | unsupported (block : Nat) (obstacle : Obstacle)

/-- The wording of a failure. -/
def Failure.message : Failure → String
  | .operandCount block opcode expected found =>
    s!"block {block}: {opcode.mnemonic} expects {expected} stack operand(s), found {found}"
  | .emptyStack block opcode offset =>
    s!"block {block}: {opcode.mnemonic} at {Text.Hex.number 4 offset} pops an empty stack"
  | .malformedOperand block opcode offset =>
    s!"block {block}: {opcode.mnemonic} at {Text.Hex.number 4 offset} has a malformed operand"
  | .unbalancedStack block expected found =>
    s!"block {block}: stack depth {found} after the block, expected {expected}"
  | .emptyBlock block => s!"block {block}: block has no instructions"
  | .noTest block opcode => s!"block {block}: cannot derive a condition from {opcode.mnemonic}"
  | .missingTarget block => s!"block {block}: conditional block has no target"
  | .unknownTarget block target =>
    s!"block {block}: target {target} is neither in the group nor the body/return block"
  | .cyclicGroup block => s!"block {block}: group contains a cycle"
  | .unreachableBody body => s!"body block {body} is unreachable from the group entry"
  | .unknownConstant block index =>
    s!"block {block}: constant pool index {index.toNat} out of range"
  | .unsupported block obstacle =>
    s!"block {block}: unsupported control flow: {obstacle.message}"

end Unjump
