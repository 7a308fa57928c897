import Unjump.Proofs.BlockGraph.Simulation
import Unjump.Proofs.Region.Alike
import Unjump.Proofs.Region.Failure

/-!
# How decompiling a method fails

A method whose code a listing or bytes give is decompiled, or it is reported with a failure that its
code accounts for. On the way, no block is looked up that the graph does not have, and no
instruction that the code does not have (`Method.isReported_of_decompile`). That no other block is
looked up than `Context.LooksUp` says shows in a graph that differs elsewhere: all that is asked on
the way has the same answer there.
-/

namespace Unjump

namespace Context

variable {ctx : Context}

/-- A pass looks no block up that lies beyond the blocks that are searched. -/
theorem PassLooksUp.lt (hfeeder : ∀ id, ctx.graph.isFeeder id = false) {start stop id : Nat}
    (h : ctx.PassLooksUp start stop id) : id < stop := by
  induction h with
  | candidate _ hlt => exact hlt
  | @feeder id feeder b _ hb hname _ =>
    -- a block that another names as its feeder is one
    have hfed : ctx.graph.isFeeder feeder = true :=
      List.any_eq_true.2 ⟨b, List.mem_of_getElem? hb, by simpa using hname⟩
    simp [hfeeder] at hfed
  | last hguards =>
    have := hguards.body_lt
    have := hguards.past_le
    omega

end Context

namespace Method

/-- Whatever is looked up while a method is decompiled is there. -/
structure InRange (m : Method) : Prop where
  /-- The code is first cut at its jumps, returns and targets. -/
  run : ∀ run ∈ Run.cut (BlockGraph.labelTargets m.code) 0 m.code,
    run.first < run.stop ∧ run.stop ≤ m.code.length
  /-- Then the tests are split off. -/
  block : ∀ b ∈ m.context.graph.blocks, b.first < b.stop ∧ b.stop ≤ m.code.length
  lookUp : ∀ id, m.context.LooksUp id → id < m.context.graph.size
  /-- Other blocks do not matter, neither in the place of blocks that are not looked up nor beyond
  those of the graph. -/
  nothingElse : ∀ ctx : Context, m.context.AlikeAt ctx m.context.LooksUp →
    m.context.AnswersAlike ctx

variable {m : Method}

theorem fits_context (hcode : Produced m.code) : m.context.Fits :=
  fun _ i hi => fits_of_produced hcode i (BlockGraph.mem_of_mem_code hi)

/-- No block is looked up that the graph does not have. -/
theorem lt_size_of_looksUp (hcode : Produced m.code) {id : Nat} (h : m.context.LooksUp id) :
    id < m.context.graph.size := by
  have hfeeder := BlockGraph.isFeeder_build (fits_of_produced hcode)
  cases h with
  | own hb =>
    obtain ⟨id, hid⟩ := List.getElem?_of_mem hb
    rw [BlockGraph.numbered_build m.code id _ hid]
    exact (List.getElem?_eq_some_iff.1 hid).1
  | @successor before _ hnext =>
    unfold BlockGraph.successors at hnext
    cases hb : m.context.graph.block? before with
    | none => simp [hb] at hnext
    | some b =>
      rw [hb] at hnext
      exact BlockGraph.lt_size_of_mem_successors (labelled_of_produced hcode) hb hnext
  | search hsearches hpass hid =>
    obtain ⟨-, hle⟩ := Context.endBy_of_searches hsearches _ hpass
    exact Nat.lt_of_lt_of_le (hid.lt hfeeder) hle
  | replay hsections hid =>
    obtain ⟨-, -, harranges⟩ := Context.arranges_of_sections hsections
    rw [Context.blocksAll_of_arranges hfeeder harranges (Nat.zero_le _), List.mem_filter,
      List.mem_range'_1] at hid
    omega

theorem inRange_of_produced (hcode : Produced m.code) : m.InRange where
  run run hrun := by
    simpa using (Run.tiles_cut (BlockGraph.labelTargets m.code) 0 m.code).stop_le hrun
  block b hmem := by
    obtain ⟨id, hb⟩ := List.getElem?_of_mem hmem
    exact ⟨(BlockGraph.getElem?_stop hb).1, BlockGraph.stop_le_length hb⟩
  lookUp _ := lt_size_of_looksUp hcode
  nothingElse _ := .of_looksUp

/-- A method whose code a listing or bytes give is decompiled, or the code accounts for the failure.
Whatever is looked up on the way is there. -/
theorem isReported_of_decompile (hcode : Produced m.code) :
    (∀ failure, m.decompile = .error failure → failure.IsReported) ∧ m.InRange := by
  refine ⟨fun failure h => ?_, inRange_of_produced hcode⟩
  have hfits := fits_context hcode
  unfold decompile Context.decompile at h
  split at h
  · rename_i failure' hsections
    cases h
    exact Context.isReported_of_sections rfl (labelled_of_produced hcode) hfits hsections
  · split at h
    · rename_i stuck hstuck
      cases h
      exact Section.isReported_of_replayAll hfits hstuck
    · split at h <;> cases h
      trivial

/-- A guarded block that takes an operand from an empty stack. -/
def starved : Method where
  name := "starved"
  descriptor := none
  locals := .empty
  constants := []
  code := [⟨0, .iload0, .none⟩, ⟨1, .ifeq, .label 3⟩, ⟨4, .pop, .none⟩, ⟨5, .returnVoid, .none⟩]

theorem isReported_of_decompile_starved :
    Produced starved.code ∧ starved.decompile = .error (.emptyStack 1 .pop 4) ∧
      (Failure.emptyStack 1 .pop 4).IsReported ∧ starved.InRange :=
  have hcode : Produced starved.code :=
    .inl ⟨["iload_0", "ifeq end", "pop", "end:", "return"],
      eq_ok_of_toOption_eq_some (by decide +kernel)⟩
  have hsections : starved.context.sections =
      .ok [.choice (.test (.truth (.var ⟨0, "local0", .int⟩) false)) [.block 1] [], .block 2] := by
    with_unfolding_all rfl
  have h : starved.decompile = .error (.emptyStack 1 .pop 4) := by
    rw [decompile, Context.decompile, hsections]
    rfl
  ⟨hcode, h, (isReported_of_decompile hcode).1 _ h, (isReported_of_decompile hcode).2⟩

end Method

end Unjump
