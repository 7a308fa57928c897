import Unjump.Proofs.BlockGraph.Blocks
import Unjump.Proofs.Region.Search

/-!
# Arrangements of blocks

`Context.Arranges` says what a search for sections does when it succeeds, one constructor for each
way to go on from a block (`Context.arranges_of_searches`). What is proved of sections by induction
is proved along it.
-/

namespace Unjump

/-- Sections arrange the blocks from `start` up to `stop`. -/
inductive Context.Arranges (ctx : Context) : Nat → Nat → List Section → Prop where
  /-- No block is left. -/
  | done {start stop : Nat} (hlt : ¬ start < stop) : Arranges ctx start stop []
  /-- A block that leaves operands for a test is part of the test. -/
  | feeder {start stop : Nat} {sections : List Section} (hlt : start < stop)
      (hfeeder : ctx.graph.isFeeder start = true) (hrest : Arranges ctx (start + 1) stop sections) :
      Arranges ctx start stop sections
  /-- A block without a test is a section of its own. -/
  | block {start stop : Nat} {rest : List Section} (hlt : start < stop)
      (hfeeder : ctx.graph.isFeeder start = false) (hcond : ctx.graph.isConditional start = false)
      (hrest : Arranges ctx (start + 1) stop rest) :
      Arranges ctx start stop (.block start :: rest)
  /-- A group of blocks with tests guards a body. -/
  | choice {start stop count past : Nat} {condition : Condition}
      {inside alternative rest : List Section} (hlt : start < stop)
      (hfeeder : ctx.graph.isFeeder start = false) (hcond : ctx.graph.isConditional start = true)
      (hcount : count = ctx.graph.grow start stop 1)
      (hbody : start + count + 1 ∈ ctx.graph.exits start (count + 1))
      (hexit : (ctx.graph.exits start (count + 1)).find? (· ≠ start + count + 1) = some past)
      (hpast : start + count + 1 < past) (hstop : past ≤ stop)
      (hcondition : ctx.groupCondition (List.range' start (count + 1)) (start + count + 1) past =
        .ok condition)
      (hinside : Arranges ctx (start + count + 1) past inside)
      (halternative : Arranges ctx past (ctx.graph.join past stop) alternative)
      (hrest : Arranges ctx (ctx.graph.join past stop) stop rest) :
      Arranges ctx start stop (.choice condition inside alternative :: rest)

namespace Context

variable {ctx : Context}

/-- A search that succeeds arranges the blocks that it takes up. -/
theorem arranges_of_searches {start stop : Nat} {passes : List (Nat × Nat)}
    {result : Except Failure (List Section)} (h : ctx.Searches start stop passes result)
    {sections : List Section} (hresult : result = .ok sections) :
    ctx.Arranges start stop sections := by
  induction h generalizing sections with
  | done hlt =>
    cases hresult
    exact .done hlt
  | feeder hlt hfeeder _ ih => exact .feeder hlt hfeeder (ih hresult)
  | @block start stop _ result hlt hfeeder hcond _ ih =>
    cases result with
    | error => cases hresult
    | ok rest =>
      cases hresult
      exact .block hlt hfeeder hcond (ih rfl)
  | noBody | singleExit | exitOutside | noCondition | noInside | noAlternative => cases hresult
  | @choice _ _ _ _ _ _ _ _ _ _ result hguards hcondition _ _ _ ihInside ihAlternative ihRest =>
    cases result with
    | error => cases hresult
    | ok rest =>
      cases hresult
      exact .choice hguards.lt hguards.isFeeder hguards.isConditional hguards.count_eq
        hguards.body_mem hguards.exit hguards.body_lt hguards.past_le hcondition (ihInside rfl)
        (ihAlternative rfl) (ihRest rfl)

theorem arranges_of_sectionsBetween {start stop : Nat} {sections : List Section}
    (h : ctx.sectionsBetween start stop = .ok sections) : ctx.Arranges start stop sections := by
  obtain ⟨passes, -, hsearches⟩ := ctx.searches_sectionsBetween start stop
  exact arranges_of_searches hsearches h

/-- Every block that joins a group has a test. -/
theorem isConditional_of_lt_grow (g : BlockGraph) (entry stop count k : Nat) (hle : count ≤ k)
    (hlt : k < count + g.grow entry stop count) : g.isConditional (entry + k) = true := by
  fun_induction g.grow entry stop count with
  | case1 count next h ih =>
    by_cases heq : k = count
    · rw [heq]
      exact h.2.1
    · exact ih (by omega) (by omega)
  | case2 => omega

/-- Every member of a group has a test. -/
theorem isConditional_of_mem_group {start stop id : Nat}
    (hcond : ctx.graph.isConditional start = true)
    (hid : id ∈ List.range' start (ctx.graph.grow start stop 1 + 1)) :
    ctx.graph.isConditional id = true := by
  obtain ⟨hle, hlt⟩ := List.mem_range'_1.1 hid
  by_cases heq : id = start
  · rwa [heq]
  · -- every member but the first has joined the group
    have hmember := isConditional_of_lt_grow ctx.graph start stop 1 (id - start) (by omega)
      (by omega)
    rwa [Nat.add_sub_cancel' hle] at hmember

/-- The numbers from one on up to another, cut at a number between them. -/
private theorem range'_cut (start mid stop : Nat) (hle : start ≤ mid) (hle' : mid ≤ stop) :
    List.range' start (stop - start) =
      List.range' start (mid - start) ++ List.range' mid (stop - mid) := by
  rw [show stop - start = (mid - start) + (stop - mid) by omega, ← List.range'_append_1,
    Nat.add_sub_cancel' hle]

/-- If no block is part of a test, the sections hold the blocks without tests in order. -/
theorem blocksAll_of_arranges (hfeeder : ∀ id, ctx.graph.isFeeder id = false) {start stop : Nat}
    {sections : List Section} (h : ctx.Arranges start stop sections) (hle : start ≤ stop) :
    Section.blocksAll sections =
      (List.range' start (stop - start)).filter (!ctx.graph.isConditional ·) := by
  induction h with
  | @done start stop hlt =>
    obtain rfl : start = stop := by omega
    simp [Section.blocksAll]
  | feeder _ hfed _ _ => simp [hfeeder] at hfed
  | @block start stop rest hlt _ hcond _ ih =>
    rw [Section.blocksAll, Section.blocks, ih hlt,
      range'_cut start (start + 1) stop (Nat.le_succ start) hlt,
      List.filter_append]
    simp [hcond]
  | @choice start stop count past condition inside alternative rest hlt _ hcond hcount _ _ hpast
      hstop _ _ _ _ ihInside ihAlternative ihRest =>
    have hjoin := ctx.graph.le_join past stop
    have hjoin' := ctx.graph.join_le hstop
    -- the group contributes no block, and the parts of the choice stand one after the other
    have hgroup : (List.range' start (start + count + 1 - start)).filter
        (!ctx.graph.isConditional ·) = [] := by
      rw [show start + count + 1 - start = count + 1 by omega, hcount]
      exact List.filter_eq_nil_iff.2 fun id hid => by
        simp [isConditional_of_mem_group hcond hid]
    rw [Section.blocksAll, Section.blocks, ihInside (by omega), ihAlternative hjoin, ihRest hjoin',
      range'_cut start (start + count + 1) stop (by omega) (by omega),
      range'_cut (start + count + 1) past stop (by omega) hstop,
      range'_cut past (ctx.graph.join past stop) stop hjoin hjoin']
    simp only [List.filter_append, hgroup, List.nil_append, List.append_assoc]

/-- The sections of a method arrange all of its blocks, and every edge leads forward. -/
theorem arranges_of_sections {sections : List Section} (h : ctx.sections = .ok sections) :
    ctx.graph.backwardEdge? = none ∧ ctx.graph.operandsIntoJoin? = none ∧
      ctx.Arranges 0 ctx.graph.size sections := by
  unfold Context.sections at h
  split at h
  · cases h
  · rename_i hforward
    split at h
    · cases h
    · rename_i hjoins
      exact ⟨hforward, hjoins, arranges_of_sectionsBetween h⟩

/-- If no edge leads backward, every edge leads forward. -/
theorem lt_of_mem_successors (hnumbered : ctx.graph.Numbered)
    (hforward : ctx.graph.backwardEdge? = none) {id goal : Nat} (hid : id < ctx.graph.size)
    (hgoal : goal ∈ ctx.graph.successors id) : id < goal := by
  have hb : ctx.graph.block? id = some ctx.graph.blocks[id] := List.getElem?_eq_getElem hid
  have hnone := List.findSome?_eq_none_iff.1 hforward _ (List.mem_of_getElem? hb)
  rw [Option.map_eq_none_iff, hnumbered id _ hb, BlockGraph.backwardTarget?,
    List.find?_eq_none] at hnone
  simpa using hnone goal hgoal

end Context

end Unjump
