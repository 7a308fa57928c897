import Unjump.Method
import Unjump.Proofs.BlockGraph.Blocks
import Unjump.Proofs.Region.Arrangement

/-!
# The blocks of a method's sections

The search for the sections of a method ends. If it finds sections, these hold every block without
a test exactly once, in the order of the code (`blocksAll_of_sections`).
-/

namespace Unjump.Method

/-- The search for the sections of a method ends after at most as many passes as there are blocks.
The sections that it finds hold the blocks without tests, each once and in order. -/
theorem blocksAll_of_sections {m : Method} (hcode : Produced m.code) :
    let g := m.context.graph
    (∃ passes : List (Nat × Nat), passes.length ≤ g.size ∧
      m.context.Searches 0 g.size passes (m.context.sectionsBetween 0 g.size)) ∧
    ∀ sections, m.context.sections = .ok sections →
      (Section.blocksAll sections).Pairwise (· < ·) ∧
      ∀ id, id ∈ Section.blocksAll sections ↔ id < g.size ∧ g.isConditional id = false := by
  intro g
  refine ⟨m.context.searches_sectionsBetween 0 g.size, fun sections hsections => ?_⟩
  obtain ⟨-, -, harranges⟩ := Context.arranges_of_sections hsections
  rw [Context.blocksAll_of_arranges (BlockGraph.isFeeder_build (fits_of_produced hcode)) harranges
    (Nat.zero_le _)]
  refine ⟨List.Pairwise.filter _ (List.pairwise_lt_range' ..), fun id => ?_⟩
  rw [List.mem_filter, List.mem_range'_1]
  simp [g]

/-- A choice in the alternative of another. -/
def chained : Method where
  name := "chained"
  descriptor := none
  locals := .empty
  constants := []
  code :=
    [⟨0, .iload0, .none⟩, ⟨1, .ifeq, .label 4⟩, ⟨4, .iinc, .increment 2 1⟩, ⟨7, .goto, .label 7⟩,
      ⟨10, .iload1, .none⟩, ⟨11, .iflt, .label 7⟩, ⟨14, .iinc, .increment 2 (-1)⟩,
      ⟨17, .returnVoid, .none⟩]

/-- The sections of `chained`. -/
def chainedSections : List Section :=
  [.choice (.test (.truth (.var ⟨0, "local0", .int⟩) false)) [.block 1]
      [.choice (.test (.compare .ge (.var ⟨1, "local1", .int⟩) (.int 0))) [.block 3] []],
    .block 4]

theorem blocksAll_of_sections_chained :
    Produced chained.code ∧ chained.context.sections = .ok chainedSections ∧
      (Section.blocksAll chainedSections).Pairwise (· < ·) ∧
      ∀ id, id ∈ Section.blocksAll chainedSections ↔
        id < chained.context.graph.size ∧ chained.context.graph.isConditional id = false :=
  have hcode : Produced chained.code :=
    .inl ⟨["iload_0", "ifeq else", "iinc 2 1", "goto end", "else:", "iload_1", "iflt end",
      "iinc 2 -1", "end:", "return"], eq_ok_of_toOption_eq_some (by decide +kernel)⟩
  have hsections : chained.context.sections = .ok chainedSections := by with_unfolding_all rfl
  ⟨hcode, hsections, (blocksAll_of_sections hcode).2 chainedSections hsections⟩

end Unjump.Method
