import Mathlib.Data.List.Perm.Subperm
import Unjump.Proofs.BlockGraph.Simulation
import Unjump.Proofs.List
import Unjump.Proofs.Region.Group

/-!
# The exits of a group

The exits of a group stand in order, each of them once (`BlockGraph.pairwise_exits`). However far a
group grows, it has at most two exits (`BlockGraph.length_exits_grow`). So a group that guards
blocks has no other exits than these blocks and the one past them, and no edge of its members leads
anywhere else (`Context.Guards.exists_edges`). Where no edge leads backward, control falls through
the group to the guarded blocks (`Context.Guards.fallsThrough`).
-/

namespace Unjump

namespace BlockGraph

variable {g : BlockGraph}

theorem mem_insertExit {other id : Nat} {ids : List Nat} :
    other ∈ insertExit id ids ↔ other = id ∨ other ∈ ids := by
  fun_induction insertExit id ids with
  | case1 => simp
  | case2 => simp
  | case3 => simp
  | case4 head rest _ _ ih => simp [ih, or_left_comm]

theorem length_insertExit_le (id : Nat) (ids : List Nat) :
    (insertExit id ids).length ≤ ids.length + 1 := by
  fun_induction insertExit id ids <;> simp_all

theorem pairwise_insertExit (id : Nat) {ids : List Nat} (h : ids.Pairwise (· < ·)) :
    (insertExit id ids).Pairwise (· < ·) := by
  fun_induction insertExit id ids with
  | case1 => exact List.pairwise_singleton _ _
  | case2 other rest hlt =>
    refine List.pairwise_cons.2 ⟨fun next hnext => ?_, h⟩
    obtain rfl | hrest := List.mem_cons.1 hnext
    · exact hlt
    · exact Nat.lt_trans hlt (List.rel_of_pairwise_cons h hrest)
  | case3 => exact h
  | case4 other rest hlt hne ih =>
    refine List.pairwise_cons.2 ⟨fun next hnext => ?_, ih h.of_cons⟩
    obtain rfl | hrest := mem_insertExit.1 hnext
    · omega
    · exact List.rel_of_pairwise_cons h hrest

/-- The exits of a group stand in order, and none of them twice. -/
theorem pairwise_exits (g : BlockGraph) (entry count : Nat) :
    (g.exits entry count).Pairwise (· < ·) := by
  have hfold (ids : List Nat) : (ids.foldr insertExit []).Pairwise (· < ·) := by
    induction ids with
    | nil => exact .nil
    | cons id rest ih => exact pairwise_insertExit id ih
  exact hfold _

/-- The exits of a group are the blocks that follow a member and are no members. -/
theorem mem_exits {entry count id : Nat} :
    id ∈ g.exits entry count ↔
      (∃ member ∈ List.range' entry count, id ∈ g.successors member) ∧
        id ∉ List.range' entry count := by
  have hmem (ids : List Nat) : id ∈ ids.foldr insertExit [] ↔ id ∈ ids := by
    induction ids with
    | nil => rfl
    | cons other rest ih => rw [List.foldr_cons, mem_insertExit, ih, List.mem_cons]
  simp [exits, hmem, -List.mem_range'_1]

/-- At most two blocks can follow a block. -/
theorem length_successors_le (g : BlockGraph) (id : Nat) : (g.successors id).length ≤ 2 := by
  unfold successors
  cases g.block? id with
  | none => exact Nat.zero_le _
  | some b =>
    obtain ⟨_, _, _, _, target, otherwise, _, _⟩ := b
    cases target <;> cases otherwise <;> simp [Block.successors]

/-- A single block has at most two exits. -/
theorem length_exits_one (g : BlockGraph) (entry : Nat) : (g.exits entry 1).length ≤ 2 := by
  have hlength (ids : List Nat) : (ids.foldr insertExit []).length ≤ ids.length := by
    induction ids with
    | nil => exact Nat.zero_le _
    | cons id rest ih => exact (length_insertExit_le id _).trans (Nat.succ_le_succ ih)
  refine (hlength _).trans ((List.length_filter_le _ _).trans ?_)
  simpa using g.length_successors_le entry

/-- A group that has at most two exits keeps to them while it grows. -/
theorem length_exits_grow (g : BlockGraph) (entry stop count : Nat)
    (h : (g.exits entry count).length ≤ 2) :
    (g.exits entry (count + g.grow entry stop count)).length ≤ 2 := by
  fun_induction g.grow entry stop count with
  | case1 count next hjoins ih =>
    obtain ⟨-, -, -, htwo⟩ := hjoins
    rw [Nat.add_comm (g.grow entry stop (count + 1)) 1, ← Nat.add_assoc]
    exact ih (Nat.le_of_eq htwo)
  | case2 => exact h

end BlockGraph

namespace Context

variable {ctx : Context} {start stop count past : Nat}

/-- A group that guards blocks has no exit but these blocks and the one past them. -/
theorem Guards.eq_of_mem_exits (hguards : ctx.Guards start stop count past) {id : Nat}
    (hid : id ∈ ctx.graph.exits start (count + 1)) : id = start + count + 1 ∨ id = past := by
  have hlength := ctx.graph.length_exits_grow start stop 1 (ctx.graph.length_exits_one start)
  rw [← hguards.count_eq, Nat.add_comm] at hlength
  have hlt := hguards.body_lt
  by_contra hne
  obtain ⟨hbody, hpast⟩ := not_or.1 hne
  -- a third exit would be one too many
  have hnodup : [id, start + count + 1, past].Nodup := by simp [hbody, hpast, Nat.ne_of_lt hlt]
  have hsub : [id, start + count + 1, past] ⊆ ctx.graph.exits start (count + 1) := by
    simpa [hid] using ⟨hguards.body_mem, List.mem_of_find?_eq_some hguards.exit⟩
  exact absurd ((List.Nodup.subperm hnodup hsub).length_le.trans hlength) (by simp)

section Edges

variable {code : List Instr} (hgraph : ctx.graph = .build code) (hlabels : Labelled code)
  (hforward : ctx.graph.backwardEdge? = none) (hguards : ctx.Guards start stop count past)
  (hstop : stop ≤ ctx.graph.size)
include hgraph hlabels hforward hguards hstop

/-- A member of a group jumps forward to another member or to an exit, and goes on to the block
behind it if the jump is not taken. -/
theorem Guards.exists_edges {id : Nat} (hid : id ∈ List.range' start (count + 1)) :
    ∃ b target, ctx.graph.block? id = some b ∧ b.target = some target ∧
      b.otherwise = some (id + 1) ∧ id < target ∧
      (target = start + count + 1 ∨ target = past ∨ target ∈ List.range' start (count + 1)) := by
  have hcond : ctx.graph.isConditional id = true :=
    isConditional_of_mem_group hguards.isConditional (hguards.count_eq ▸ hid)
  obtain ⟨b, hb, hcond⟩ := (Option.any_eq_true _ _).1 hcond
  have hbuild : (BlockGraph.build code).block? id = some b := hgraph ▸ hb
  obtain ⟨i, hlast, hflow⟩ := BlockGraph.flow_of_isConditional hcond
  obtain ⟨-, target, c, -, htarget, -⟩ :=
    BlockGraph.exists_label_of_isJump hlabels hbuild hlast (by simp [Opcode.isJump, hflow])
  have hmem : target ∈ ctx.graph.successors id := by
    simp [BlockGraph.successors, hb, Block.successors, htarget]
  obtain ⟨hle, hlt⟩ := List.mem_range'_1.1 hid
  have hbody := hguards.body_lt
  have hpast := hguards.past_le
  refine ⟨b, target, hb, htarget, ?_, ?_, ?_⟩
  · rw [BlockGraph.otherwise_of_branch hbuild hlast hflow, ← hgraph, BlockGraph.after?,
      if_pos (by omega)]
  · exact lt_of_mem_successors (hgraph ▸ BlockGraph.numbered_build code) hforward (by omega) hmem
  · by_cases hmember : target ∈ List.range' start (count + 1)
    · exact .inr (.inr hmember)
    · have hexit := BlockGraph.mem_exits.2 ⟨⟨id, hid, hmem⟩, hmember⟩
      exact (hguards.eq_of_mem_exits hexit).imp_right .inl

/-- Control falls through a group to the blocks that it guards. -/
theorem Guards.fallsThrough :
    ctx.FallsThrough (List.range' start (count + 1)) (start + count + 1) past := by
  refine fallsThrough_of_falls (hgraph ▸ BlockGraph.numbered_build code) hforward
    (fun id hid => ?_) hguards.body_lt
  obtain ⟨b, target, hb, -, hotherwise, -⟩ :=
    hguards.exists_edges hgraph hlabels hforward hstop hid
  simp [edge?, hb, hotherwise]

end Edges

end Context

end Unjump
