import Unjump.Proofs.Except
import Unjump.Replay

/-!
# What replaying an instruction does

A replay takes operands from the top of the stack and puts others in their place, as many as the
table of opcodes says, and it emits the statement that the instruction stands for, if any
(`replayInstr_spec`). Conditional jumps are the exception: a replay leaves their operands alone.

So replaying code leaves the operands as they are that lie deeper than the code reaches
(`Moves.drop_reach_suffix`).
-/

namespace Unjump

/-! ## Effects -/

/-- What an instruction or a statement does apart from computing. -/
inductive Effect where
  /-- Gives a local variable a value. -/
  | assign (slot : Option UInt16)
  /-- Gives an element of an array a value. -/
  | store
  /-- Adds a number to a local variable. -/
  | increment (slot : Option UInt16) (amount : Option Int32)
  /-- Leaves the method, with or without a value. -/
  | leave (withValue : Bool)
  deriving DecidableEq

/-- The number that an instruction adds to a variable. -/
def Instr.amount? (i : Instr) : Option Int32 :=
  match i.operand with
  | .increment _ amount => some amount
  | _ => none

/-- What an instruction does apart from computing. -/
def Instr.effect? (i : Instr) : Option Effect :=
  match i.opcode with
  | .istore | .istore0 | .istore1 | .istore2 | .istore3
  | .astore | .astore0 | .astore1 | .astore2 | .astore3 => some (.assign i.slot?)
  | .iastore | .aastore => some .store
  | .iinc => some (.increment i.slot? i.amount?)
  | .ireturn | .areturn => some (.leave true)
  | .returnVoid => some (.leave false)
  | _ => none

namespace Statement

mutual

/-- What a statement does apart from computing, the body of a choice before its alternative. -/
def effects : Statement → List Effect
  | .assign target _ => [.assign (some target.slot)]
  | .store _ _ _ => [.store]
  | .increment target amount => [.increment (some target.slot) (some amount)]
  | .leave value => [.leave value.isSome]
  | .branch _ body alternative => effectsAll body ++ effectsAll alternative
  | .comment _ => []

/-- What statements do apart from computing, in order. -/
def effectsAll : List Statement → List Effect
  | [] => []
  | s :: ss => s.effects ++ effectsAll ss

end

@[simp] theorem effectsAll_append (ss ts : List Statement) :
    effectsAll (ss ++ ts) = effectsAll ss ++ effectsAll ts := by
  induction ss with
  | nil => rfl
  | cons s ss ih => rw [List.cons_append, effectsAll, effectsAll, ih, List.append_assoc]

@[simp] theorem effectsAll_singleton (s : Statement) : effectsAll [s] = s.effects := by
  simp [effectsAll]

end Statement

/-! ## Actions -/

namespace Action

/-- How many operands an action takes from the stack. -/
def takes : Action → Nat
  | .assign _ _ | .negate | .duplicate | .discard | .leaveWithValue => 1
  | .loadElement | .arithmetic _ => 2
  | .storeElement => 3
  | _ => 0

/-- How many operands an action then puts onto the stack. -/
def puts : Action → Nat
  | .push _ | .pushConstant _ | .load _ _ | .loadElement | .arithmetic _ | .negate => 1
  | .duplicate => 2
  | _ => 0

/-- What an action does apart from computing. -/
def effect? : Action → Option Effect
  | .assign slot _ => some (.assign slot)
  | .storeElement => some .store
  | .increment slot amount => some (.increment (some slot) (some amount))
  | .leaveWithValue => some (.leave true)
  | .leave => some (.leave false)
  | _ => none

end Action

/-- The variable of a slot has that slot. -/
@[simp] theorem LocalTable.slot_resolve (table : LocalTable) (slot : UInt16) (type : JavaType) :
    (table.resolve slot type).slot = slot := by
  unfold resolve
  cases hget : table.get? slot with
  | none => rfl
  | some v => simpa using List.find?_some hget

/-- A replay goes on with other operands in place of those on top, and with more statements. -/
structure Trail.Follows (t t' : Trail) (takes puts : Nat) (effects : List Effect) : Prop where
  takes_le : takes ≤ t.stack.length
  stack : ∃ top, top.length = puts ∧ t'.stack = top ++ t.stack.drop takes
  emitted : Statement.effectsAll t'.emitted = Statement.effectsAll t.emitted ++ effects

/-- An action that succeeds takes and puts as many operands as it should, and has its effect. -/
theorem Action.follows_of_perform {ctx : Context} {block : Nat} {i : Instr} {t t' : Trail}
    {action : Action} (h : action.perform ctx block i t = .ok t') :
    t.Follows t' action.takes action.puts action.effect?.toList := by
  obtain ⟨emitted, stack⟩ := t
  cases action with
  | nothing => cases h; exact ⟨Nat.zero_le _, ⟨[], rfl, rfl⟩, by simp [effect?]⟩
  | push value => cases h; exact ⟨Nat.zero_le _, ⟨[value], rfl, rfl⟩, by simp [effect?, Trail.push]⟩
  | pushConstant index =>
    simp only [perform] at h
    cases hget : ctx.constants[index.toNat]? with
    | none => rw [hget] at h; cases h
    | some value =>
      rw [hget] at h
      cases h
      exact ⟨Nat.zero_le _, ⟨[value.expr], rfl, rfl⟩, by simp [effect?, Trail.push]⟩
  | load slot type => cases h; exact ⟨Nat.zero_le _, ⟨[_], rfl, rfl⟩, by simp [effect?, Trail.push]⟩
  | assign slot type =>
    cases stack with
    | nil => cases h
    | cons value rest =>
      cases slot with
      | none => cases h
      | some slot =>
        cases h
        exact ⟨by simp [takes], ⟨[], rfl, rfl⟩, by simp [effect?, Trail.emit, Statement.effects]⟩
  | increment slot amount =>
    cases h
    exact ⟨Nat.zero_le _, ⟨[], rfl, rfl⟩, by simp [effect?, Trail.emit, Statement.effects]⟩
  -- an action fails on a stack that is not deep enough, so the operands that it takes are there
  | loadElement | arithmetic =>
    match stack, h with
    | first :: second :: rest, h =>
      cases h
      exact ⟨by simp [takes], ⟨[_], rfl, rfl⟩, by simp [effect?]⟩
  | storeElement =>
    match stack, h with
    | value :: index :: array :: rest, h =>
      cases h
      exact ⟨by simp [takes], ⟨[], rfl, rfl⟩, by simp [effect?, Trail.emit, Statement.effects]⟩
  | negate =>
    cases stack with
    | nil => cases h
    | cons value rest => cases h; exact ⟨by simp [takes], ⟨[_], rfl, rfl⟩, by simp [effect?]⟩
  | duplicate =>
    cases stack with
    | nil => cases h
    | cons value rest =>
      cases h
      exact ⟨by simp [takes], ⟨[value, value], rfl, rfl⟩, by simp [effect?]⟩
  | discard =>
    cases stack with
    | nil => cases h
    | cons value rest => cases h; exact ⟨by simp [takes], ⟨[], rfl, rfl⟩, by simp [effect?]⟩
  | leaveWithValue =>
    cases stack with
    | nil => cases h
    | cons value rest =>
      cases h
      exact ⟨by simp [takes], ⟨[], rfl, rfl⟩, by simp [effect?, Trail.emit, Statement.effects]⟩
  | leave =>
    cases h
    exact ⟨Nat.zero_le _, ⟨[], rfl, rfl⟩, by simp [effect?, Trail.emit, Statement.effects]⟩
  | malformed => cases h

/-! ## Instructions -/

/-- How many operands an instruction takes when it is replayed: a conditional jump takes none. -/
def Opcode.takes (opcode : Opcode) : Nat :=
  if opcode.isConditional then 0 else opcode.pops

/-- A conditional jump puts nothing onto the stack. -/
theorem Opcode.pushes_of_isConditional {opcode : Opcode} (h : opcode.isConditional = true) :
    opcode.pushes = 0 := by
  cases opcode <;> first | rfl | cases h

/-- A conditional jump takes at least one operand. -/
theorem Opcode.pops_pos_of_isConditional {opcode : Opcode} (h : opcode.isConditional = true) :
    0 < opcode.pops := by
  cases opcode <;> first | decide | cases h

/-- What an instruction does agrees with what the table of opcodes says. -/
theorem Instr.action_spec (i : Instr) (h : i.action ≠ .malformed) :
    i.action.takes = i.opcode.takes ∧ i.action.puts = i.opcode.pushes ∧
      i.action.effect? = i.effect? := by
  obtain ⟨offset, opcode, operand⟩ := i
  cases opcode
  -- these opcodes look at the shape of their operand
  case bipush | sipush | ldc | iinc =>
    cases operand <;> first | exact ⟨rfl, rfl, rfl⟩ | exact absurd rfl h
  case iload | aload =>
    cases operand <;> first | exact ⟨rfl, rfl, rfl⟩ | exact absurd rfl h
  all_goals exact ⟨rfl, rfl, rfl⟩

/-- Replaying an instruction takes and puts as many operands as the table of opcodes says, and has
the effect of the instruction. -/
theorem Context.follows_of_replayInstr {ctx : Context} {block : Nat} {t t' : Trail} {i : Instr}
    (h : ctx.replayInstr block t i = .ok t') :
    t.Follows t' i.opcode.takes i.opcode.pushes i.effect?.toList := by
  have hshape : i.action ≠ .malformed := by
    intro hmalformed
    rw [replayInstr, hmalformed] at h
    cases h
  obtain ⟨htakes, hputs, heffect⟩ := i.action_spec hshape
  rw [← htakes, ← hputs, ← heffect]
  exact Action.follows_of_perform h

/-! ## Code -/

/-- Instructions that take operands from the top of a stack, each in turn, and put others there. -/
inductive Moves : List Instr → List Expr → List Expr → Prop where
  | nil {stack : List Expr} : Moves [] stack stack
  | cons {i : Instr} {rest : List Instr} {top stack stack' : List Expr}
      (htakes : i.opcode.takes ≤ stack.length) (hputs : top.length = i.opcode.pushes)
      (hrest : Moves rest (top ++ stack.drop i.opcode.takes) stack') :
      Moves (i :: rest) stack stack'

theorem Moves.append {code rest : List Instr} {stack stack' stack'' : List Expr}
    (h : Moves code stack stack') (hrest : Moves rest stack' stack'') :
    Moves (code ++ rest) stack stack'' := by
  induction h with
  | nil => exact hrest
  | cons htakes hputs _ ih => exact .cons htakes hputs (ih hrest)

/-- How many of the operands that lie on the stack before it code takes. -/
def reach : List Instr → Nat
  | [] => 0
  | i :: rest => i.opcode.takes + (reach rest - i.opcode.pushes)

/-- The operands that lie deeper than code reaches stay where they are. -/
theorem Moves.drop_reach_suffix {code : List Instr} {stack stack' : List Expr}
    (h : Moves code stack stack') :
    reach code ≤ stack.length ∧ stack.drop (reach code) <:+ stack' := by
  induction h with
  | nil => exact ⟨Nat.zero_le _, List.suffix_rfl⟩
  | @cons i rest top stack stack' htakes hputs _ ih =>
    obtain ⟨hle, hsuffix⟩ := ih
    have hlen : (top ++ stack.drop i.opcode.takes).length =
        i.opcode.pushes + (stack.length - i.opcode.takes) := by simp [hputs]
    refine ⟨by rw [reach]; omega, ?_⟩
    -- what the rest leaves alone holds what lay below the operands of the instruction
    have hbelow : stack.drop (reach (i :: rest)) <:+
        (top ++ stack.drop i.opcode.takes).drop (reach rest) := by
      rw [List.drop_append, List.drop_drop, hputs, reach]
      exact List.suffix_append _ _
    exact hbelow.trans hsuffix

/-- Replaying a block moves operands as its instructions do, and has their effects. -/
theorem Context.moves_of_replayBlock {ctx : Context} {block : Nat} {t t' : Trail}
    (h : ctx.replayBlock block t = .ok t') :
    Moves (ctx.graph.code block) t.stack t'.stack ∧
      Statement.effectsAll t'.emitted =
        Statement.effectsAll t.emitted ++ (ctx.graph.code block).filterMap (·.effect?) := by
  unfold replayBlock at h
  generalize ctx.graph.code block = code at h ⊢
  induction code generalizing t with
  | nil => cases h; exact ⟨.nil, by simp⟩
  | cons i rest ih =>
    rw [List.foldlM_cons, bind_eq_ok] at h
    obtain ⟨next, hnext, hrest⟩ := h
    -- the first instruction makes one move, and the others go on from the stack that it leaves
    obtain ⟨htakes, ⟨top, hputs, hstack⟩, hemitted⟩ := follows_of_replayInstr hnext
    obtain ⟨hmoves, heffects⟩ := ih hrest
    refine ⟨.cons htakes hputs (hstack ▸ hmoves), ?_⟩
    rw [heffects, hemitted, List.append_assoc, List.filterMap_cons]
    cases i.effect? <;> rfl

end Unjump
