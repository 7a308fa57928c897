import Unjump.Condition
import Unjump.Replay

/-!
# The condition of a conditional jump

The condition under which the jump at the end of a block is taken, in terms of the operands that
the block leaves on an empty stack. A jump that compares with zero for equality asks whether its
operand is true; the other jumps with one operand compare it with zero or `null`.
-/

namespace Unjump

/-- The comparison that a conditional jump makes. -/
def Opcode.comparison? : Opcode → Option Comparison
  | .ifeq | .ifIcmpeq | .ifAcmpeq | .ifnull => some .eq
  | .ifne | .ifIcmpne | .ifAcmpne | .ifnonnull => some .ne
  | .iflt | .ifIcmplt => some .lt
  | .ifle | .ifIcmple => some .le
  | .ifgt | .ifIcmpgt => some .gt
  | .ifge | .ifIcmpge => some .ge
  | _ => none

/-- The test of a conditional jump with one operand. -/
def Opcode.testOf (opcode : Opcode) (op : Comparison) (value : Expr) : Test :=
  match opcode with
  | .ifeq => .truth value true
  | .ifne => .truth value false
  | .ifnull | .ifnonnull => .compare op value .null
  | _ => .compare op value (.int 0)

/-- The test of a conditional jump on a stack that holds its operands and nothing else. -/
def Opcode.testOn? (opcode : Opcode) (op : Comparison) (stack : List Expr) : Option Test :=
  match opcode.pops, stack with
  | 1, [value] => some (opcode.testOf op value)
  | 2, [right, left] => some (.compare op left right)
  | _, _ => none

namespace Context

/-- The stack on which the jump at the end of a block finds its operands. -/
def testStack (ctx : Context) (block : Nat) : Except Stuck Trail :=
  match (ctx.graph.block? block).bind (·.feeder) with
  | some feeder => (ctx.replayBlock feeder .empty).bind (ctx.replayBlock block)
  | none => ctx.replayBlock block .empty

/-- The test that decides the jump at the end of a block. -/
def jumpTest (ctx : Context) (block : Nat) : Except Failure Test :=
  match ctx.graph.last? block with
  | none => .error (.emptyBlock block)
  | some last =>
    match last.opcode.comparison? with
    | none => .error (.noTest block last.opcode)
    | some op =>
      match ctx.testStack block with
      | .error stuck => .error stuck.failure
      | .ok t =>
        match last.opcode.testOn? op t.stack with
        | some test => .ok test
        | none => .error (.operandCount block last.opcode last.opcode.pops t.stack.length)

end Context

end Unjump
