import Unjump.BlockGraph.Build
import Unjump.Proofs.Replay.Failure
import Unjump.Proofs.Replay.Instr

/-!
# How deep the stack is during a replay

The table of opcodes says how deep the stack is after each instruction, and so which instruction of
a block is the first one to take more operands than there are. If the operands of the instructions
have the right shape and the constants are there, this is what happens: the replay of a block fails
at that instruction with an empty stack, and without such an instruction it succeeds and leaves a
stack of the depth that the table says (`Context.replayBlock_depth`).
-/

namespace Unjump

/-! ## What the table of opcodes says -/

namespace Instr

/-- How deep the stack is after an instruction. A conditional jump leaves its operands there. -/
def depthAfter (depth : Int) (i : Instr) : Int :=
  if i.opcode.isConditional then depth else depth + i.opcode.stackEffect

/-- The instruction takes more operands than there are on a stack of a depth. -/
def Starves (depth : Int) (i : Instr) : Prop :=
  ¬ i.opcode.isConditional ∧ depth < i.opcode.pops

instance (depth : Int) (i : Instr) : Decidable (i.Starves depth) :=
  inferInstanceAs (Decidable (_ ∧ _))

end Instr

/-- How deep the stack is after instructions that find it at a depth. -/
def depthAfter (depth : Int) (code : List Instr) : Int :=
  code.foldl Instr.depthAfter depth

/-- Every instruction finds the operands that it takes on the stack that the ones before it leave. -/
def Fed (depth : Int) : List Instr → Prop
  | [] => True
  | i :: rest => ¬ i.Starves depth ∧ Fed (i.depthAfter depth) rest

/-- Whether code is fed is decidable. -/
def decideFed (depth : Int) : (code : List Instr) → Decidable (Fed depth code)
  | [] => .isTrue trivial
  | i :: rest =>
    have := decideFed (i.depthAfter depth) rest
    inferInstanceAs (Decidable (_ ∧ _))

instance (depth : Int) (code : List Instr) : Decidable (Fed depth code) := decideFed depth code

@[simp] theorem depthAfter_cons (depth : Int) (i : Instr) (rest : List Instr) :
    depthAfter depth (i :: rest) = depthAfter (i.depthAfter depth) rest := rfl

/-- An instruction starves where a replay of it takes more operands than there are. -/
theorem Instr.starves_iff (i : Instr) (depth : Nat) :
    i.Starves depth ↔ depth < i.opcode.takes := by
  unfold Starves Opcode.takes
  split <;> simp [*]

/-- The stack is as deep as a replay of an instruction leaves it. -/
theorem Instr.depthAfter_eq (i : Instr) (depth : Int) :
    i.depthAfter depth = depth - i.opcode.takes + i.opcode.pushes := by
  unfold depthAfter Opcode.takes
  split
  · rename_i hcond
    rw [Opcode.pushes_of_isConditional hcond]
    simp
  · rw [Opcode.stackEffect]
    omega

/-! ## What a replay does -/

variable {ctx : Context} {block : Nat}

/-- An action that takes more operands than there are fails with an empty stack. -/
theorem Action.perform_of_lt_takes {i : Instr} {t : Trail} {action : Action}
    (h : t.stack.length < action.takes) :
    action.perform ctx block i t =
      .error ⟨.emptyStack block i.opcode i.offset, { t with stack := [] }⟩ := by
  obtain ⟨emitted, stack⟩ := t
  cases action with
  | nothing | push | pushConstant | load | increment | leave | malformed => simp [takes] at h
  | assign | negate | duplicate | discard | leaveWithValue =>
    cases stack with
    | nil => rfl
    | cons value rest => simp [takes] at h
  | loadElement | arithmetic =>
    obtain _ | ⟨first, _ | ⟨second, rest⟩⟩ := stack
    · rfl
    · rfl
    · simp only [takes, List.length_cons] at h
      omega
  | storeElement =>
    obtain _ | ⟨value, _ | ⟨index, _ | ⟨array, rest⟩⟩⟩ := stack
    · rfl
    · rfl
    · rfl
    · simp only [takes, List.length_cons] at h
      omega

/-- An action that finds its operands succeeds, if it has the rest of what it needs. -/
theorem Action.exists_perform {i : Instr} {t : Trail} {action : Action}
    (hoperand : action ≠ .malformed)
    (hslot : ∀ slot? type?, action = .assign slot? type? → slot?.isSome = true)
    (hpool : ∀ index, action = .pushConstant index → index.toNat < ctx.constants.length)
    (h : action.takes ≤ t.stack.length) : ∃ t', action.perform ctx block i t = .ok t' := by
  obtain ⟨emitted, stack⟩ := t
  cases action with
  | nothing | push | load | increment | leave => exact ⟨_, rfl⟩
  | malformed => exact absurd rfl hoperand
  | pushConstant index =>
    have hget := List.getElem?_eq_getElem (hpool index rfl)
    simp only [perform, hget]
    exact ⟨_, rfl⟩
  | assign slot? type? =>
    obtain ⟨slot, rfl⟩ := Option.isSome_iff_exists.1 (hslot slot? type? rfl)
    obtain _ | ⟨value, rest⟩ := stack
    · simp [takes] at h
    · exact ⟨_, rfl⟩
  | negate | duplicate | discard | leaveWithValue =>
    obtain _ | ⟨value, rest⟩ := stack
    · simp [takes] at h
    · exact ⟨_, rfl⟩
  | loadElement | arithmetic =>
    obtain _ | ⟨first, _ | ⟨second, rest⟩⟩ := stack
    · simp [takes] at h
    · simp [takes] at h
    · exact ⟨_, rfl⟩
  | storeElement =>
    obtain _ | ⟨value, _ | ⟨index, _ | ⟨array, rest⟩⟩⟩ := stack
    · simp [takes] at h
    · simp [takes] at h
    · simp [takes] at h
    · exact ⟨_, rfl⟩

/-- Only an instruction with an index into the pool pushes a constant from there. -/
theorem Instr.operand_of_pushConstant {i : Instr} {index : UInt16}
    (h : i.action = .pushConstant index) : i.operand = .pool index := by
  obtain ⟨offset, opcode, operand⟩ := i
  cases opcode
  -- these opcodes look at the shape of their operand
  case ldc =>
    cases operand <;> cases h
    rfl
  case iload | aload | bipush | sipush | iinc => cases operand <;> cases h
  all_goals cases h

namespace Context

/-- The instruction has an operand of the shape that its opcode asks for, and if it names a constant
of the pool, the constant is there. -/
structure Serves (ctx : Context) (i : Instr) : Prop where
  fits : i.operand.fits i.opcode.format = true
  inPool : ∀ index, i.operand = .pool index → index.toNat < ctx.constants.length

/-- A replay of an instruction fails exactly if it starves, and leaves the depth of the table. -/
theorem replayInstr_depth {i : Instr} (hserves : ctx.Serves i) (t : Trail) :
    (i.Starves t.stack.length → ∃ stuck, ctx.replayInstr block t i = .error stuck ∧
      stuck.failure = .emptyStack block i.opcode i.offset) ∧
    (¬ i.Starves t.stack.length → ∃ t', ctx.replayInstr block t i = .ok t' ∧
      (t'.stack.length : Int) = i.depthAfter t.stack.length) := by
  obtain ⟨hoperand, hslot⟩ := Instr.action_of_fits hserves.fits
  obtain ⟨htakes, -, -⟩ := i.action_spec hoperand
  rw [i.starves_iff, ← htakes, Nat.not_lt]
  constructor
  · intro hlt
    exact ⟨_, Action.perform_of_lt_takes hlt, rfl⟩
  · intro hle
    have hpool : ∀ index, i.action = .pushConstant index → index.toNat < ctx.constants.length :=
      fun index h => hserves.inPool index (Instr.operand_of_pushConstant h)
    obtain ⟨t', ht'⟩ : ∃ t', ctx.replayInstr block t i = .ok t' :=
      Action.exists_perform hoperand hslot hpool hle
    obtain ⟨hle, ⟨top, htop, hstack⟩, -⟩ := follows_of_replayInstr ht'
    refine ⟨t', ht', ?_⟩
    rw [i.depthAfter_eq, hstack, List.length_append, htop, List.length_drop]
    omega

/-- A replay of instructions that are fed succeeds and leaves the depth of the table. -/
theorem foldlM_replayInstr_depth {code : List Instr} (hserves : ∀ i ∈ code, ctx.Serves i)
    {t : Trail} (hfed : Fed t.stack.length code) :
    ∃ t', code.foldlM (ctx.replayInstr block) t = .ok t' ∧
      (t'.stack.length : Int) = depthAfter t.stack.length code := by
  induction code generalizing t with
  | nil => exact ⟨t, rfl, rfl⟩
  | cons i rest ih =>
    obtain ⟨hi, hrest⟩ := List.forall_mem_cons.1 hserves
    obtain ⟨next, hnext, hdepth⟩ := (replayInstr_depth hi t).2 hfed.1
    obtain ⟨t', ht', hdepth'⟩ := ih hrest (t := next) (hdepth ▸ hfed.2)
    refine ⟨t', ?_, by rw [hdepth', hdepth, depthAfter_cons]⟩
    rw [List.foldlM_cons, hnext]
    exact ht'

/-- The replay of a block whose instructions have what they need beside operands fails at the first
instruction that takes more operands than the table of opcodes leaves there, after all the ones
before it. If there is no such instruction, it succeeds and leaves the depth of the table. -/
theorem replayBlock_depth (hserves : ∀ i ∈ ctx.graph.code block, ctx.Serves i) (t : Trail) :
    (∀ before i after, ctx.graph.code block = before ++ i :: after →
      Fed t.stack.length before → i.Starves (depthAfter t.stack.length before) →
      ∃ u stuck, before.foldlM (ctx.replayInstr block) t = .ok u ∧
        ctx.replayInstr block u i = .error stuck ∧ ctx.replayBlock block t = .error stuck ∧
        stuck.failure = .emptyStack block i.opcode i.offset) ∧
    (Fed t.stack.length (ctx.graph.code block) →
      ∃ t', ctx.replayBlock block t = .ok t' ∧
        (t'.stack.length : Int) = depthAfter t.stack.length (ctx.graph.code block)) := by
  refine ⟨fun before i after hcode hfed hstarves => ?_, foldlM_replayInstr_depth hserves⟩
  rw [hcode] at hserves
  have hbefore : ∀ j ∈ before, ctx.Serves j := fun j hj => hserves j (List.mem_append_left _ hj)
  obtain ⟨u, hu, hdepth⟩ := foldlM_replayInstr_depth hbefore hfed
  rw [← hdepth] at hstarves
  obtain ⟨stuck, hstuck, hfailure⟩ := (replayInstr_depth (hserves i (by simp)) u).1 hstarves
  refine ⟨u, stuck, hu, hstuck, ?_, hfailure⟩
  rw [replayBlock, hcode, List.foldlM_append, hu]
  show (i :: after).foldlM (ctx.replayInstr block) u = .error stuck
  rw [List.foldlM_cons, hstuck]
  rfl

/-- A block that adds a constant of the pool to an operand that it finds on the stack. -/
def sumFromPool : Context where
  graph := ⟨[⟨0, 0, 0, [⟨0, .ldc, .pool 0⟩, ⟨2, .iadd, .none⟩, ⟨3, .dup, .none⟩,
    ⟨4, .ifeq, .label 0⟩, ⟨7, .ireturn, .none⟩], none, none, none, []⟩]⟩
  locals := .empty
  constants := [.int 7]

theorem serves_sumFromPool : ∀ i ∈ sumFromPool.graph.code 0, sumFromPool.Serves i := by
  intro i hi
  refine ⟨?_, fun index hindex => ?_⟩
  · revert i
    decide
  · have hzero : ∀ i ∈ sumFromPool.graph.code 0, ∀ index,
        i.operand = .pool index → index = 0 := by
      simp [sumFromPool, BlockGraph.code, BlockGraph.block?]
    rw [hzero i hi index hindex]
    decide

/-- On an empty stack the sum is the first instruction that starves; on a stack with one operand
nothing does, and one operand is left. -/
theorem replayBlock_depth_sumFromPool :
    (∃ stuck, sumFromPool.replayBlock 0 .empty = .error stuck ∧
      stuck.failure = .emptyStack 0 .iadd 2) ∧
    ∃ t, sumFromPool.replayBlock 0 ⟨[], [.int 1]⟩ = .ok t ∧ (t.stack.length : Int) = 1 := by
  obtain ⟨hfails, -⟩ := replayBlock_depth serves_sumFromPool .empty
  obtain ⟨-, hsucceeds⟩ := replayBlock_depth serves_sumFromPool ⟨[], [.int 1]⟩
  obtain ⟨-, stuck, -, -, hreplay, hfailure⟩ :=
    hfails [⟨0, .ldc, .pool 0⟩] ⟨2, .iadd, .none⟩ _ rfl ⟨by decide, trivial⟩ (by decide)
  exact ⟨⟨stuck, hreplay, hfailure⟩, hsucceeds (by decide)⟩

end Context

end Unjump
