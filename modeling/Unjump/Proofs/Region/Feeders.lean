import Unjump.Proofs.BlockGraph.Blocks
import Unjump.Proofs.Instr.Label
import Unjump.Proofs.Region.Arrangement

/-!
# Feeders

A block could leave operands for the test of the next one. It would then be replayed with the test
and passed over where sections are formed. In a graph that is built of code no block does so, as
long as only jumps name targets (`BlockGraph.feeder_build`): the test of a block takes the replay of
that block alone, and the sections hold every block without a test once.
-/

namespace Unjump

/-- No instruction but a jump names a target. -/
def OnlyJumpsName (code : List Instr) : Prop :=
  ∀ i ∈ code, i.label?.isSome = true → i.opcode.isJump = true

instance (code : List Instr) : Decidable (OnlyJumpsName code) :=
  inferInstanceAs (Decidable (∀ i ∈ code, _ → _))

/-- In code that a listing or bytes give, only jumps name targets. -/
theorem onlyJumpsName_of_produced {code : List Instr} (h : Produced code) : OnlyJumpsName code := by
  intro i hi hlabel
  rwa [← (labelled_of_produced h i hi).1]

namespace Context

variable {ctx : Context} (hfeeder : ∀ b ∈ ctx.graph.blocks, b.feeder = none)
include hfeeder

/-- Without feeders, the test of a block is asked on the operands that the block leaves itself. -/
theorem testStack_of_forall_feeder (id : Nat) : ctx.testStack id = ctx.replayBlock id .empty := by
  have hnone : (ctx.graph.block? id).bind (·.feeder) = none := by
    rw [Option.bind_eq_none_iff]
    intro b hb
    exact hfeeder b (List.mem_of_getElem? hb)
  rw [testStack, hnone]

/-- Without feeders, the sections of a method hold every block without a test once. -/
theorem blocksAll_of_forall_feeder {sections : List Section} (h : ctx.sections = .ok sections) :
    Section.blocksAll sections =
      (List.range ctx.graph.size).filter (!ctx.graph.isConditional ·) := by
  obtain ⟨-, -, harranges⟩ := arranges_of_sections h
  have hnone := BlockGraph.isFeeder_eq_false hfeeder
  rw [blocksAll_of_arranges hnone harranges (Nat.zero_le _), Nat.sub_zero, List.range_eq_range']

end Context

namespace BlockGraph

/-- In the graph that is built of code in which only jumps name targets, as in all code that a
listing or bytes give, no block has a feeder. So the test of a block takes the replay of that block
alone, and where sections are formed no block is passed over: they hold each block without a test
once. -/
theorem feeder_build (code : List Instr) :
    (Produced code → OnlyJumpsName code) ∧
    (OnlyJumpsName code → (∀ b ∈ (build code).blocks, b.feeder = none) ∧
      ∀ ctx : Context, ctx.graph = build code →
        (∀ id, ctx.testStack id = ctx.replayBlock id .empty) ∧
        (∀ id, ctx.graph.isFeeder id = false) ∧
        ∀ sections, ctx.sections = .ok sections → Section.blocksAll sections =
          (List.range ctx.graph.size).filter (!ctx.graph.isConditional ·)) := by
  refine ⟨onlyJumpsName_of_produced, fun hcode => ?_⟩
  have hnone : ∀ b ∈ (build code).blocks, b.feeder = none := by
    intro b hb
    refine feeder_of_mem_build (fun i hi target htarget => hcode i hi ?_) hb
    rw [htarget]
    rfl
  refine ⟨hnone, fun ctx hgraph => ?_⟩
  rw [← hgraph] at hnone
  exact ⟨Context.testStack_of_forall_feeder hnone, isFeeder_eq_false hnone,
    fun _ => Context.blocksAll_of_forall_feeder hnone⟩

/-- A variable is set in front of a test that compares it. The test has the only way to it from the
block in front, which leaves no operand. -/
def partedTest : List Instr :=
  [⟨0, .iconst5, .none⟩, ⟨1, .istore1, .none⟩, ⟨2, .iload0, .none⟩, ⟨3, .iload1, .none⟩,
    ⟨4, .ifIcmpge, .label 6⟩, ⟨7, .iinc, .increment 1 1⟩, ⟨10, .returnVoid, .none⟩]

/-- The sections of `partedTest`. -/
def partedSections : List Section :=
  [.block 0,
    .choice (.test (.compare .lt (.var ⟨0, "local0", .int⟩) (.var ⟨1, "local1", .int⟩))) [.block 2]
      [], .block 3]

theorem feeder_build_partedTest :
    Produced partedTest ∧ OnlyJumpsName partedTest ∧
      (build partedTest).predecessors 1 = [0] ∧ (build partedTest).effect 0 = 0 ∧
      (∀ b ∈ (build partedTest).blocks, b.feeder = none) ∧
      let ctx : Context := ⟨build partedTest, .empty, []⟩
      ctx.testStack 1 = ctx.replayBlock 1 .empty ∧ ctx.sections = .ok partedSections ∧
        Section.blocksAll partedSections = [0, 2, 3] := by
  have hproduced : Produced partedTest :=
    .inl ⟨["iconst_5", "istore_1", "iload_0", "iload_1", "if_icmpge end", "iinc 1 1", "end:",
      "return"], eq_ok_of_toOption_eq_some (by decide +kernel)⟩
  obtain ⟨honly, hfeeder⟩ := feeder_build partedTest
  have hcode := honly hproduced
  obtain ⟨hnone, hcontext⟩ := hfeeder hcode
  obtain ⟨htest, -, hblocks⟩ := hcontext ⟨build partedTest, .empty, []⟩ rfl
  have hsections : Context.sections ⟨build partedTest, .empty, []⟩ = .ok partedSections := by
    with_unfolding_all rfl
  exact ⟨hproduced, hcode, by decide, by decide, hnone, htest 1, hsections,
    (hblocks _ hsections).trans (by decide)⟩

end BlockGraph

end Unjump
