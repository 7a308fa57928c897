import Unjump.BlockGraph
import Unjump.Failure
import Unjump.Statement

/-!
# Replaying blocks

Replaying a block runs its instructions on expressions in place of values. Instructions that
compute put expressions onto the operand stack; instructions that store, count or leave the method
emit statements. A conditional jump does nothing here: its operands stay on the stack.

`Instr.action` says what an instruction does and `Action.perform` does it. When a replay cannot go
on, what it has done up to that point is kept.
-/

namespace Unjump

/-- What is known of a method while it is decompiled. -/
structure Context where
  graph : BlockGraph
  locals : LocalTable
  /-- The constant pool. -/
  constants : List Constant

/-- The expression of a constant. -/
def Constant.expr : Constant → Expr
  | .int value => .int value
  | .text value => .text value

/-- What an instruction does to the operand stack and to the variables. -/
inductive Action where
  | nothing
  | push (value : Expr)
  /-- Pushes an entry of the constant pool. -/
  | pushConstant (index : UInt16)
  /-- Pushes a variable; the type is that of a variable without a declaration. -/
  | load (slot : UInt16) (type : JavaType)
  /-- Assigns a number or an array element to a variable. -/
  | assign (slot : Option UInt16) (type : Option JavaType)
  | increment (slot : UInt16) (amount : Int32)
  | loadElement
  | storeElement
  | arithmetic (op : Operator)
  | negate
  | duplicate
  | discard
  | leaveWithValue
  | leave
  /-- The operand does not have the shape that the opcode asks for. -/
  | malformed

/-- What an instruction does. -/
def Instr.action (i : Instr) : Action :=
  match i.opcode with
  | .nop | .goto => .nothing
  | .ifeq | .ifne | .iflt | .ifge | .ifgt | .ifle | .ifIcmpeq | .ifIcmpne | .ifIcmplt | .ifIcmpge
  | .ifIcmpgt | .ifIcmple | .ifAcmpeq | .ifAcmpne | .ifnull | .ifnonnull => .nothing
  | .aconstNull => .push .null
  | .iconstM1 => .push (.int (-1))
  | .iconst0 => .push (.int 0)
  | .iconst1 => .push (.int 1)
  | .iconst2 => .push (.int 2)
  | .iconst3 => .push (.int 3)
  | .iconst4 => .push (.int 4)
  | .iconst5 => .push (.int 5)
  | .bipush | .sipush =>
    match i.operand with
    | .immediate value => .push (.int value)
    | _ => .malformed
  | .ldc =>
    match i.operand with
    | .constant value => .push value.expr
    | .pool index => .pushConstant index
    | _ => .malformed
  | .iload | .iload0 | .iload1 | .iload2 | .iload3 =>
    match i.slot? with
    | some slot => .load slot .int
    | none => .malformed
  | .aload | .aload0 | .aload1 | .aload2 | .aload3 =>
    match i.slot? with
    | some slot => .load slot .javaObject
    | none => .malformed
  | .istore | .istore0 | .istore1 | .istore2 | .istore3 => .assign i.slot? (some .int)
  | .astore | .astore0 | .astore1 | .astore2 | .astore3 => .assign i.slot? none
  | .iinc =>
    match i.operand with
    | .increment slot amount => .increment slot amount
    | _ => .malformed
  | .iaload | .aaload | .baload | .caload => .loadElement
  | .iastore | .aastore => .storeElement
  | .iadd => .arithmetic .add
  | .isub => .arithmetic .sub
  | .imul => .arithmetic .mul
  | .idiv => .arithmetic .div
  | .irem => .arithmetic .rem
  | .ishl => .arithmetic .shl
  | .ishr => .arithmetic .shr
  | .iand => .arithmetic .and
  | .ior => .arithmetic .or
  | .ixor => .arithmetic .xor
  | .ineg => .negate
  | .dup => .duplicate
  | .pop => .discard
  | .ireturn | .areturn => .leaveWithValue
  | .returnVoid => .leave

/-- What a replay has done so far. -/
structure Trail where
  /-- The statements in order. -/
  emitted : List Statement
  /-- The operands, the one on top first. -/
  stack : List Expr

/-- The end of a replay that cannot go on. -/
structure Stuck where
  failure : Failure
  /-- What had been done up to there. -/
  trail : Trail

namespace Trail

/-- The trail before anything is done. -/
def empty : Trail := ⟨[], []⟩

/-- Puts an operand on top of the stack. -/
def push (t : Trail) (value : Expr) : Trail :=
  { t with stack := value :: t.stack }

/-- Adds a statement and leaves operands on the stack. -/
def emit (t : Trail) (s : Statement) (stack : List Expr) : Trail :=
  ⟨t.emitted ++ [s], stack⟩

end Trail

/-- Does what an instruction of a block does. An instruction that needs more operands than there
are takes all of them and fails. -/
def Action.perform (ctx : Context) (block : Nat) (i : Instr) (t : Trail) :
    Action → Except Stuck Trail
  | .nothing => .ok t
  | .push value => .ok (t.push value)
  | .pushConstant index =>
    match ctx.constants[index.toNat]? with
    | some value => .ok (t.push value.expr)
    | none => .error ⟨.unknownConstant block index, t⟩
  | .load slot type => .ok (t.push (.var (ctx.locals.resolve slot type)))
  | .assign slot? type? =>
    match t.stack with
    | value :: stack =>
      match slot? with
      | some slot =>
        .ok (t.emit (.assign (ctx.locals.resolve slot (type?.getD value.type)) value) stack)
      | none => .error ⟨.malformedOperand block i.opcode i.offset, { t with stack }⟩
    | [] => underflow
  | .increment slot amount =>
    .ok (t.emit (.increment (ctx.locals.resolve slot .int) amount) t.stack)
  | .loadElement =>
    match t.stack with
    | index :: array :: stack => .ok { t with stack := .element array index :: stack }
    | _ => underflow
  | .storeElement =>
    match t.stack with
    | value :: index :: array :: stack => .ok (t.emit (.store array index value) stack)
    | _ => underflow
  | .arithmetic op =>
    match t.stack with
    | right :: left :: stack => .ok { t with stack := .binary op left right :: stack }
    | _ => underflow
  | .negate =>
    match t.stack with
    | value :: stack => .ok { t with stack := .negate value :: stack }
    | [] => underflow
  | .duplicate =>
    match t.stack with
    | value :: stack => .ok { t with stack := value :: value :: stack }
    | [] => underflow
  | .discard =>
    match t.stack with
    | _ :: stack => .ok { t with stack }
    | [] => underflow
  | .leaveWithValue =>
    match t.stack with
    | value :: stack => .ok (t.emit (.leave (some value)) stack)
    | [] => underflow
  | .leave => .ok (t.emit (.leave none) t.stack)
  | .malformed => .error ⟨.malformedOperand block i.opcode i.offset, t⟩
where
  /-- The stack is used up before the instruction has all of its operands. -/
  underflow : Except Stuck Trail :=
    .error ⟨.emptyStack block i.opcode i.offset, { t with stack := [] }⟩

namespace Context

/-- Replays one instruction of a block. -/
def replayInstr (ctx : Context) (block : Nat) (t : Trail) (i : Instr) : Except Stuck Trail :=
  i.action.perform ctx block i t

/-- Replays the instructions of a block. -/
def replayBlock (ctx : Context) (block : Nat) (t : Trail) : Except Stuck Trail :=
  (ctx.graph.code block).foldlM (ctx.replayInstr block) t

end Context

end Unjump
