import Unjump.Proofs.BlockGraph.Alike
import Unjump.Proofs.Except

/-!
# Replaying code that is alike

Blocks that are alike leave the same operands and emit the same statements, and their replays fail
alike: at the same point and for the same reason, though the failure may name an instruction in
another form or at another offset (`Failure.Alike`). So the jump at the end of a block has the same
test if the block and its feeder are alike (`Context.jumpTest_alike`), and sections are replayed in
the same way if their blocks are alike (`Section.replayAll_alike`).
-/

namespace Unjump

/-- Failures for the same reason at the same block that differ at most in the instruction that they
name. -/
inductive Failure.Alike : Failure → Failure → Prop where
  | same (failure : Failure) : Alike failure failure
  | emptyStack (block : Nat) (opcode opcode' : Opcode) (offset offset' : Nat) :
      Alike (.emptyStack block opcode offset) (.emptyStack block opcode' offset')
  | malformedOperand (block : Nat) (opcode opcode' : Opcode) (offset offset' : Nat) :
      Alike (.malformedOperand block opcode offset) (.malformedOperand block opcode' offset')
  | noTest (block : Nat) (opcode opcode' : Opcode) :
      Alike (.noTest block opcode) (.noTest block opcode')

/-- Replays that have come as far and fail alike. -/
structure Stuck.Alike (stuck stuck' : Stuck) : Prop where
  failure : stuck.failure.Alike stuck'.failure
  trail : stuck'.trail = stuck.trail

theorem Stuck.Alike.refl (stuck : Stuck) : stuck.Alike stuck :=
  ⟨.same _, rfl⟩

/-- Methods with the same variables and constants whose blocks are alike. -/
structure Context.Alike (ctx ctx' : Context) : Prop where
  graph : ctx.graph.Alike ctx'.graph
  locals : ctx'.locals = ctx.locals
  constants : ctx'.constants = ctx.constants

/-- Methods with the same variables and constants in which the blocks of some names are alike. -/
structure Context.AlikeAt (ctx ctx' : Context) (named : Nat → Prop) : Prop where
  graph : ctx.graph.AlikeAt ctx'.graph named
  locals : ctx'.locals = ctx.locals
  constants : ctx'.constants = ctx.constants

variable {ctx ctx' : Context} {named : Nat → Prop}

theorem Context.Alike.alikeAt (h : ctx.Alike ctx') (named : Nat → Prop) :
    ctx.AlikeAt ctx' named :=
  ⟨h.graph.alikeAt named, h.locals, h.constants⟩

theorem Context.AlikeAt.mono {named' : Nat → Prop} (h : ctx.AlikeAt ctx' named)
    (hnamed : ∀ id, named' id → named id) : ctx.AlikeAt ctx' named' :=
  ⟨h.graph.mono hnamed, h.locals, h.constants⟩

/-- With a block, the block that leaves operands for its test is named. -/
def Context.HoldsFeeders (ctx : Context) (named : Nat → Prop) : Prop :=
  ∀ id, named id → ∀ b, ctx.graph.block? id = some b → ∀ feeder, b.feeder = some feeder →
    named feeder

/-- An action does the same whichever instruction asks for it. -/
theorem Action.perform_alike (h : ctx.AlikeAt ctx' named) (block : Nat) (i i' : Instr) (t : Trail)
    (action : Action) :
    SameOutcome Stuck.Alike (action.perform ctx block i t) (action.perform ctx' block i' t) := by
  have hunderflow : SameOutcome Stuck.Alike (perform.underflow block i t)
      (perform.underflow block i' t) :=
    .error ⟨.emptyStack block i.opcode i'.opcode i.offset i'.offset, rfl⟩
  cases action with
  | nothing | push | leave => exact .ok _
  | load | increment =>
    simp only [perform, h.locals]
    exact .ok _
  | malformed => exact .error ⟨.malformedOperand block i.opcode i'.opcode i.offset i'.offset, rfl⟩
  | pushConstant index =>
    simp only [perform, h.constants]
    split
    · exact .ok _
    · exact .error ⟨.same _, rfl⟩
  | assign slot? type? =>
    simp only [perform, h.locals]
    split
    · split
      · exact .ok _
      · exact .error ⟨.malformedOperand block i.opcode i'.opcode i.offset i'.offset, rfl⟩
    · exact hunderflow
  | loadElement | storeElement | arithmetic | negate | duplicate | discard | leaveWithValue =>
    simp only [perform]
    split
    · exact .ok _
    · exact hunderflow

namespace Context

theorem replayInstr_alike (h : ctx.AlikeAt ctx' named) (block : Nat) (t : Trail) {i i' : Instr}
    (hi : i.Alike i') :
    SameOutcome Stuck.Alike (ctx.replayInstr block t i) (ctx'.replayInstr block t i') := by
  rw [replayInstr, replayInstr, hi.action]
  exact Action.perform_alike h block i i' t i.action

theorem replayBlock_alike (h : ctx.AlikeAt ctx' named) {block : Nat} (hblock : named block)
    (t : Trail) : SameOutcome Stuck.Alike (ctx.replayBlock block t) (ctx'.replayBlock block t) := by
  have hcode := h.graph.code hblock
  unfold replayBlock
  generalize ctx.graph.code block = code, ctx'.graph.code block = code' at hcode
  induction hcode generalizing t with
  | nil => exact .ok t
  | cons hi _ ih =>
    rw [List.foldlM_cons, List.foldlM_cons]
    exact (replayInstr_alike h block t hi).bind ih

theorem testStack_alike (h : ctx.AlikeAt ctx' named) (hfeeders : ctx.HoldsFeeders named)
    {block : Nat} (hblock : named block) :
    SameOutcome Stuck.Alike (ctx.testStack block) (ctx'.testStack block) := by
  unfold testStack
  rw [h.graph.feeder hblock]
  split
  · rename_i feeder hfeeder
    obtain ⟨b, hb, hfeeder⟩ := Option.bind_eq_some_iff.1 hfeeder
    have hnamed := hfeeders block hblock b hb feeder hfeeder
    exact (replayBlock_alike h hnamed .empty).bind (replayBlock_alike h hblock)
  · exact replayBlock_alike h hblock .empty

/-- The jump at the end of a block has the same test. -/
theorem jumpTest_alike (h : ctx.AlikeAt ctx' named) (hfeeders : ctx.HoldsFeeders named)
    {block : Nat} (hblock : named block) :
    SameOutcome Failure.Alike (ctx.jumpTest block) (ctx'.jumpTest block) := by
  unfold jumpTest BlockGraph.last?
  match (ctx.graph.code block).getLast?, (ctx'.graph.code block).getLast?,
    (h.graph.code hblock).getLast? with
  | _, _, .none => exact .error (.same _)
  | some last, some last', .some hlast =>
    obtain hopcode | ⟨hnone, hnone'⟩ := hlast.opcode_or_comparison?
    · dsimp only
      rw [hopcode]
      split
      · exact .error (.same _)
      · obtain ⟨t, hstack, hstack'⟩ | ⟨stuck, stuck', hstack, hstack', hstuck⟩ :=
          (testStack_alike h hfeeders hblock).cases
        · rw [hstack, hstack']
          exact .refl .same _
        · rw [hstack, hstack']
          exact .error hstuck.failure
    · simp only [hnone, hnone']
      exact .error (.noTest block last.opcode last'.opcode)

end Context

namespace Section

/-- A body that is replayed in the same way is as balanced. -/
theorem balanced_alike {outcome outcome' : Except Stuck Trail}
    (h : SameOutcome Stuck.Alike outcome outcome') (sections : List Section) (depth : Nat) :
    SameOutcome Stuck.Alike (outcome.bind (balanced sections depth))
      (outcome'.bind (balanced sections depth)) :=
  h.bind fun _ => .refl Stuck.Alike.refl _

mutual

theorem replay_alike (h : ctx.AlikeAt ctx' named) (s : Section) (hs : ∀ id ∈ s.blocks, named id)
    (t : Trail) : SameOutcome Stuck.Alike (replay ctx s t) (replay ctx' s t) := by
  match s with
  | .block id =>
    rw [replay, replay]
    exact Context.replayBlock_alike h (hs id (by simp [blocks])) t
  | .choice condition body alternative =>
    rw [blocks, List.forall_mem_append] at hs
    rw [replay, replay]
    obtain ⟨first, hfirst, hfirst'⟩ | ⟨stuck, stuck', hfirst, hfirst', hstuck⟩ :=
      (balanced_alike (replayAll_alike h body hs.1 ⟨[], t.stack⟩) body t.stack.length).cases
    · simp only [hfirst, hfirst']
      obtain ⟨second, hsecond, hsecond'⟩ | ⟨stuck, stuck', hsecond, hsecond', hstuck⟩ :=
        (balanced_alike (replayAll_alike h alternative hs.2 ⟨[], first.stack⟩) alternative
          t.stack.length).cases
      · rw [hsecond, hsecond']
        exact .ok _
      · rw [hsecond, hsecond']
        exact .error ⟨hstuck.failure, by rw [hstuck.trail]⟩
    · rw [hfirst, hfirst']
      exact .error ⟨hstuck.failure, by rw [hstuck.trail]⟩

/-- Sections are replayed in the same way. -/
theorem replayAll_alike (h : ctx.AlikeAt ctx' named) (sections : List Section)
    (hsections : ∀ id ∈ blocksAll sections, named id) (t : Trail) :
    SameOutcome Stuck.Alike (replayAll ctx sections t) (replayAll ctx' sections t) := by
  match sections with
  | [] =>
    rw [replayAll, replayAll]
    exact .ok t
  | s :: ss =>
    rw [blocksAll, List.forall_mem_append] at hsections
    rw [replayAll, replayAll]
    exact (replay_alike h s hsections.1 t).bind (replayAll_alike h ss hsections.2)

end

end Section

end Unjump
