import Unjump.Condition.OfBlock
import Unjump.Proofs.Except
import Unjump.Proofs.Instr.Shape
import Unjump.Section

/-!
# How a replay fails

A method that cannot be decompiled is reported with a failure that its code accounts for
(`Failure.IsReported`). Where the operands of all instructions have the shape that their opcodes ask
for, the replay of sections fails in no other way (`Section.isReported_of_replayAll`), and neither
does asking a block that ends with a conditional jump for its test
(`Context.isReported_of_jumpTest`).
-/

namespace Unjump

/-- The code of a method accounts for the failure. The other failures stand for states that no
method should lead to. -/
def Failure.IsReported : Failure → Prop
  | .operandCount .. | .emptyStack .. | .unbalancedStack .. | .unknownConstant ..
  | .unsupported .. => True
  | .malformedOperand .. | .emptyBlock .. | .noTest .. | .missingTarget .. | .unknownTarget ..
  | .cyclicGroup .. | .unreachableBody .. => False

/-- An action that has its operand fails only for want of operands on the stack, or of a constant
in the pool. -/
theorem Action.isReported_of_perform {ctx : Context} {block : Nat} {i : Instr} {t : Trail}
    {action : Action} {stuck : Stuck} (hoperand : action ≠ .malformed)
    (hslot : ∀ slot? type?, action = .assign slot? type? → slot?.isSome = true)
    (h : action.perform ctx block i t = .error stuck) : stuck.failure.IsReported := by
  cases action with
  | malformed => exact absurd rfl hoperand
  | nothing | push | load | increment | leave => cases h
  | assign slot? type? =>
    cases slot? with
    | none => simp at hslot
    | some slot =>
      rw [perform] at h
      split at h <;> cases h
      trivial
  | pushConstant | loadElement | storeElement | arithmetic | negate | duplicate | discard
  | leaveWithValue =>
    rw [perform] at h
    split at h <;> cases h
    trivial

/-- An instruction whose operand has the right shape has all that its action needs. -/
theorem Instr.action_of_fits {i : Instr} (hfits : i.operand.fits i.opcode.format = true) :
    i.action ≠ .malformed ∧
      ∀ slot? type?, i.action = .assign slot? type? → slot?.isSome = true := by
  obtain ⟨offset, opcode, operand⟩ := i
  -- the shape leaves no choice of the operand but between the two ways to name a constant
  cases opcode <;> cases operand <;> cases hfits <;>
    exact ⟨by rintro ⟨⟩, by rintro _ _ ⟨⟩ <;> rfl⟩

namespace Context

variable {ctx : Context}

/-- Every instruction of every block has an operand of the shape that its opcode asks for. -/
def Fits (ctx : Context) : Prop :=
  ∀ id, ∀ i ∈ ctx.graph.code id, i.operand.fits i.opcode.format = true

/-- The replay of a block fails with one of its instructions. -/
theorem isReported_of_replayBlock (hfits : ctx.Fits) {block : Nat} {t : Trail} {stuck : Stuck}
    (h : ctx.replayBlock block t = .error stuck) : stuck.failure.IsReported := by
  obtain ⟨i, hi, u, hinstr⟩ := exists_of_foldlM_eq_error h
  obtain ⟨hoperand, hslot⟩ := Instr.action_of_fits (hfits block i hi)
  exact Action.isReported_of_perform hoperand hslot hinstr

/-- A conditional jump makes a comparison. -/
theorem exists_comparison {opcode : Opcode} (h : opcode.isConditional = true) :
    ∃ op, opcode.comparison? = some op := by
  cases opcode <;> cases h <;> exact ⟨_, rfl⟩

/-- A block that ends with a conditional jump has a test, unless its replay fails or leaves the
wrong number of operands. -/
theorem isReported_of_jumpTest (hfits : ctx.Fits) {block : Nat}
    (hcond : ctx.graph.isConditional block = true) {failure : Failure}
    (h : ctx.jumpTest block = .error failure) : failure.IsReported := by
  obtain ⟨last, hlast, op, hop⟩ : ∃ last, ctx.graph.last? block = some last ∧
      ∃ op, last.opcode.comparison? = some op := by
    obtain ⟨b, hb, hcond⟩ := (Option.any_eq_true _ _).1 hcond
    obtain ⟨last, hlast, hcond⟩ := (Option.any_eq_true _ _).1 hcond
    refine ⟨last, ?_, exists_comparison hcond⟩
    simpa [BlockGraph.last?, BlockGraph.code, hb, Block.last?] using hlast
  simp only [jumpTest, hlast, hop] at h
  split at h
  · rename_i stuck hstuck
    cases h
    unfold testStack at hstuck
    split at hstuck
    · obtain hstuck | ⟨t, -, hstuck⟩ := bind_eq_error.1 hstuck
      · exact isReported_of_replayBlock hfits hstuck
      · exact isReported_of_replayBlock hfits hstuck
    · exact isReported_of_replayBlock hfits hstuck
  · split at h
    · cases h
    · cases h
      trivial

end Context

namespace Section

variable {ctx : Context}

mutual

theorem isReported_of_replay (hfits : ctx.Fits) {s : Section} {t : Trail} {stuck : Stuck}
    (h : replay ctx s t = .error stuck) : stuck.failure.IsReported := by
  match s with
  | .block id =>
    rw [replay] at h
    exact Context.isReported_of_replayBlock hfits h
  | .choice condition body alternative =>
    rw [replay] at h
    split at h
    · rename_i stuck hstuck
      cases h
      exact (isReported_of_branch hfits hstuck :)
    · split at h
      · rename_i stuck hstuck
        cases h
        exact (isReported_of_branch hfits hstuck :)
      · cases h

/-- A branch fails with one of its sections, or because it leaves the stack deeper or less deep than
it was. -/
theorem isReported_of_branch (hfits : ctx.Fits) {sections : List Section} {depth : Nat}
    {t : Trail} {stuck : Stuck}
    (h : (replayAll ctx sections t).bind (balanced sections depth) = .error stuck) :
    stuck.failure.IsReported := by
  obtain h | ⟨t', -, h⟩ := bind_eq_error.1 h
  · exact isReported_of_replayAll hfits h
  · unfold balanced at h
    split at h <;> cases h
    trivial

/-- The replay of sections fails with one of their blocks, or because a branch is not balanced. -/
theorem isReported_of_replayAll (hfits : ctx.Fits) {sections : List Section} {t : Trail}
    {stuck : Stuck} (h : replayAll ctx sections t = .error stuck) : stuck.failure.IsReported := by
  match sections with
  | [] => cases h
  | s :: ss =>
    rw [replayAll] at h
    obtain h | ⟨t', -, h⟩ := bind_eq_error.1 h
    · exact isReported_of_replay hfits h
    · exact isReported_of_replayAll hfits h

end

end Section

end Unjump
