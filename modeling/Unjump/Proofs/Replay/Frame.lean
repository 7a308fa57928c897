import Unjump.Proofs.Except
import Unjump.Replay

/-!
# Operands below a replay

A replay that succeeds takes no operand from below those that it starts with. With more operands
underneath it does the same and leaves them where they are (`Context.replayBlock_above`).
-/

namespace Unjump

/-- The trail with more operands underneath its own. -/
def Trail.above (base : List Expr) (t : Trail) : Trail :=
  { t with stack := t.stack ++ base }

@[simp] theorem Trail.stack_above (base : List Expr) (t : Trail) :
    (t.above base).stack = t.stack ++ base := rfl

@[simp] theorem Trail.length_stack_above (base : List Expr) (t : Trail) :
    (t.above base).stack.length = t.stack.length + base.length := by
  rw [stack_above, List.length_append]

variable {ctx : Context} {base : List Expr} {block : Nat} {t t' : Trail}

/-- An action that finds its operands leaves alone what lies below them. -/
theorem Action.perform_above {i : Instr} {action : Action}
    (h : action.perform ctx block i t = .ok t') :
    action.perform ctx block i (t.above base) = .ok (t'.above base) := by
  obtain ⟨emitted, stack⟩ := t
  cases action with
  | nothing | push | load | increment | leave => cases h; rfl
  | malformed => cases h
  | pushConstant index =>
    simp only [perform] at h ⊢
    cases hget : ctx.constants[index.toNat]? with
    | none => rw [hget] at h; cases h
    | some value => rw [hget] at h; cases h; rfl
  | assign slot? =>
    -- the operands on top are matched first, and only then does the action look at its slot
    obtain _ | ⟨value, rest⟩ := stack
    · cases h
    · cases slot? <;> cases h
      rfl
  | negate | duplicate | discard | leaveWithValue =>
    obtain _ | ⟨value, rest⟩ := stack <;> cases h
    rfl
  | loadElement | arithmetic =>
    obtain _ | ⟨first, _ | ⟨second, rest⟩⟩ := stack <;> cases h
    rfl
  | storeElement =>
    obtain _ | ⟨value, _ | ⟨index, _ | ⟨array, rest⟩⟩⟩ := stack <;> cases h
    rfl

namespace Context

/-- An instruction that finds its operands leaves alone what lies below them. -/
theorem replayInstr_above {i : Instr} (h : ctx.replayInstr block t i = .ok t') :
    ctx.replayInstr block (t.above base) i = .ok (t'.above base) :=
  Action.perform_above h

/-- A block that finds its operands leaves alone what lies below them. -/
theorem replayBlock_above (h : ctx.replayBlock block t = .ok t') :
    ctx.replayBlock block (t.above base) = .ok (t'.above base) :=
  foldlM_eq_ok_of_step (fun _ _ _ => replayInstr_above) h

end Context

end Unjump
