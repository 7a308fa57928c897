import Unjump.Proofs.BlockGraph.Blocks
import Unjump.Proofs.DecisionGraph.Orderly
import Unjump.Proofs.Region.Arrangement

/-!
# The groups of structured methods

The groups that `Context.sectionsBetween` forms stand right in front of their bodies, and control
falls through them (`Context.fallsThrough_of_falls`). So such a group is orderly as soon as
its blocks ask different tests (`Context.orderly_of_groupCondition`).
-/

namespace Unjump.Context

variable {ctx : Context}

/-- An edge of a block leads to one of its successors. -/
theorem mem_successors_of_edge? {id next : Nat} {taken : Bool}
    (h : ctx.edge? id taken = some next) :
    id < ctx.graph.size ∧ next ∈ ctx.graph.successors id := by
  obtain ⟨b, hb, h⟩ := Option.bind_eq_some_iff.1 h
  refine ⟨(List.getElem?_eq_some_iff.1 hb).1, ?_⟩
  cases taken <;> simp_all [BlockGraph.successors, Block.successors]

/-- Where no edge leads backward, a run of blocks that each go on to the next one falls through to
the block behind it. -/
theorem fallsThrough_of_falls (hnumbered : ctx.graph.Numbered)
    (hforward : ctx.graph.backwardEdge? = none) {start count past : Nat}
    (hfalls : ∀ id ∈ List.range' start (count + 1), ctx.edge? id false = some (id + 1))
    (hpast : start + count + 1 < past) :
    ctx.FallsThrough (List.range' start (count + 1)) (start + count + 1) past where
  falls := hfalls
  next id hid := by
    have := List.mem_range'_1.1 hid
    by_cases hlast : id = start + count
    · exact .inr (by omega)
    · exact .inl (List.mem_range'_1.2 (by omega))
  forward id hid taken next hedge := by
    obtain ⟨hlt, hmem⟩ := mem_successors_of_edge? hedge
    exact lt_of_mem_successors hnumbered hforward hlt hmem
  lt_body id hid := by
    have := List.mem_range'_1.1 hid
    omega
  body_lt_past := hpast

/-- Where no edge leads backward, a run of blocks that have a condition falls through to the block
behind it. -/
theorem fallsThrough_of_groupCondition {code : List Instr} (hgraph : ctx.graph = .build code)
    (hforward : ctx.graph.backwardEdge? = none) {start count past : Nat} {c : Condition}
    (h : ctx.groupCondition (List.range' start (count + 1)) (start + count + 1) past = .ok c)
    (hpast : start + count + 1 < past) :
    ctx.FallsThrough (List.range' start (count + 1)) (start + count + 1) past := by
  refine fallsThrough_of_falls (hgraph ▸ BlockGraph.numbered_build code) hforward
    (fun id hid => ?_) hpast
  obtain ⟨decisions, -, hdecisions, -⟩ := exists_unfolds h
  obtain ⟨i, hi⟩ := List.getElem?_of_mem hid
  obtain ⟨d, -, hdecide⟩ := getElem?_of_mapM_eq_ok hdecisions hi
  obtain ⟨-, b, -, otherwise, -, -, hblock, -, -, hotherwise, -⟩ :=
    DecisionGraph.exists_edges_of_decide hdecide
  obtain rfl := BlockGraph.eq_succ_of_otherwise (hgraph ▸ hblock) hotherwise
  simp [edge?, hblock, hotherwise]

/-- The group of a choice is orderly if its blocks ask different tests. -/
theorem orderly_of_groupCondition {code : List Instr} (hgraph : ctx.graph = .build code)
    (hforward : ctx.graph.backwardEdge? = none) {start count past : Nat} {c : Condition}
    (h : ctx.groupCondition (List.range' start (count + 1)) (start + count + 1) past = .ok c)
    (hpast : start + count + 1 < past)
    (htests : ∀ id id', start ≤ id → id < id' → id' ≤ start + count → ∀ t t',
      ctx.jumpTest id = .ok t → ctx.jumpTest id' = .ok t' → t ≠ t' ∧ t ≠ t'.inverse) :
    ctx.Orderly (List.range' start (count + 1)) (start + count + 1) past start := by
  refine .of_fallsThrough (fallsThrough_of_groupCondition hgraph hforward h hpast) (by simp) ?_
  intro id hid id' hid' hlt
  have := List.mem_range'_1.1 hid
  have := List.mem_range'_1.1 hid'
  exact htests id id' (by omega) hlt (by omega)

end Unjump.Context
