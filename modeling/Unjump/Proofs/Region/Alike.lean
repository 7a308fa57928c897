import Unjump.Method
import Unjump.Proofs.Region.LookUps

/-!
# Decompiling code that is alike

All that decompiling a method asks has the same answer in another method, if the blocks that are
looked up on the way are alike (`Context.AnswersAlike.of_looksUp`). So methods with code that is
alike have the same sections (`Context.sections_alike`), and they decompile to the same statements
or fail alike (`Context.decompile_alike`).
-/

namespace Unjump.Context

variable {ctx ctx' : Context}

/-- All that decompiling a method asks has the same answer in another method, which may have other
blocks besides: where its edges lead and what gets into a join, which sections are found, and what
they are replayed to. -/
structure AnswersAlike (ctx ctx' : Context) : Prop where
  backwardTarget? : ∀ b ∈ ctx.graph.blocks,
    ctx'.graph.backwardTarget? b.id = ctx.graph.backwardTarget? b.id
  joinFed? : ∀ b ∈ ctx.graph.blocks, ctx'.graph.joinFed? b.id = ctx.graph.joinFed? b.id
  search : SameOutcome Failure.Alike (ctx.sectionsBetween 0 ctx.graph.size)
    (ctx'.sectionsBetween 0 ctx.graph.size)
  replay : ∀ sections, ctx.sections = .ok sections → ∀ t,
    SameOutcome Stuck.Alike (Section.replayAll ctx sections t) (Section.replayAll ctx' sections t)

/-- Nothing is asked of blocks that are not looked up. -/
theorem AnswersAlike.of_looksUp (h : ctx.AlikeAt ctx' ctx.LooksUp) : ctx.AnswersAlike ctx' where
  backwardTarget? _ hb := h.graph.backwardTarget? (.own hb)
  joinFed? _ hb := h.graph.joinFed? (.own hb) fun _ hjoin => .successor hjoin
  search := by
    obtain ⟨passes, -, hsearches⟩ := ctx.searches_sectionsBetween 0 ctx.graph.size
    exact hsearches.alike fun pass hpass => h.mono fun _ hid => .search hsearches hpass hid
  replay sections hsections t :=
    Section.replayAll_alike h sections (fun _ hid => .replay hsections hid) t

/-- The same sections are found. -/
theorem sections_alike (h : ctx.Alike ctx') :
    SameOutcome Failure.Alike ctx.sections ctx'.sections := by
  unfold sections
  rw [h.graph.backwardEdge?, h.graph.operandsIntoJoin?, h.graph.size]
  split
  · exact .error (.same _)
  · split
    · exact .error (.same _)
    · exact (AnswersAlike.of_looksUp (h.alikeAt _)).search

/-- The same statements are found. -/
theorem decompile_alike (h : ctx.Alike ctx') :
    SameOutcome Failure.Alike ctx.decompile ctx'.decompile := by
  unfold decompile
  obtain ⟨sections, hsections, hsections'⟩ |
    ⟨failure, failure', hsections, hsections', hfailure⟩ := (sections_alike h).cases
  · obtain ⟨t, hreplay, hreplay'⟩ | ⟨stuck, stuck', hreplay, hreplay', hstuck⟩ :=
      ((AnswersAlike.of_looksUp (h.alikeAt _)).replay sections hsections .empty).cases
    · simp only [hsections, hsections', hreplay, hreplay', h.graph.size]
      exact .refl .same _
    · simp only [hsections, hsections', hreplay, hreplay']
      exact .error hstuck.failure
  · rw [hsections, hsections']
    exact .error hfailure

end Unjump.Context
