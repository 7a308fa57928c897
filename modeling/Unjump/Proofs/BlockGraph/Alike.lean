import Mathlib.Data.List.Find
import Unjump.Proofs.BlockGraph.Predecessors
import Unjump.Proofs.Instr.Alike
import Unjump.Region

/-!
# The block graphs of code that is alike

What the search for choices asks of a graph is decided by few of its blocks. If these are alike in
two graphs, the answers are the same (`BlockGraph.AlikeAt.exits`, `BlockGraph.AlikeAt.grow`,
`BlockGraph.AlikeAt.join`), whatever the other blocks are and however many there are.

Code that is alike is cut at the same places and its blocks are connected in the same way, so all
blocks of the two graphs are alike (`BlockGraph.alike_build`).
-/

namespace Unjump

/-- Runs at the same place with instructions that are alike. -/
structure Run.Alike (run run' : Run) : Prop where
  first : run'.first = run.first
  code : List.Forall₂ Instr.Alike run.code run'.code

/-- Blocks at the same place with instructions that are alike and the same edges. -/
structure Block.Alike (b b' : Block) : Prop where
  id : b'.id = b.id
  first : b'.first = b.first
  code : List.Forall₂ Instr.Alike b.code b'.code
  target : b'.target = b.target
  otherwise : b'.otherwise = b.otherwise
  feeder : b'.feeder = b.feeder
  predecessors : b'.predecessors = b.predecessors

/-- Graphs of blocks that are alike one by one. -/
def BlockGraph.Alike (g g' : BlockGraph) : Prop :=
  List.Forall₂ Block.Alike g.blocks g'.blocks

/-- Graphs in which the blocks of some names are alike, and in which the same blocks are feeders. -/
structure BlockGraph.AlikeAt (g g' : BlockGraph) (named : Nat → Prop) : Prop where
  block? : ∀ id, named id → Option.Rel Block.Alike (g.block? id) (g'.block? id)
  isFeeder : ∀ id, g'.isFeeder id = g.isFeeder id

/-! ## Runs -/

namespace Run

variable {run run' : Run} {code code' : List Instr}

theorem Alike.stop (h : run.Alike run') : run'.stop = run.stop := by
  rw [Run.stop, Run.stop, h.first, h.code.length_eq]

/-- Code that is alike is cut at the same places. -/
theorem cut_alike (h : List.Forall₂ Instr.Alike code code') (targets : List Nat) (position : Nat) :
    List.Forall₂ Run.Alike (cut targets position code) (cut targets position code') := by
  induction h generalizing position with
  | nil => exact .nil
  | @cons i i' rest rest' hi hrest ih =>
    have hlater := ih (position + 1)
    simp only [cut, hi.endsBlock]
    generalize cut targets (position + 1) rest = runs at hlater
    generalize cut targets (position + 1) rest' = runs' at hlater
    cases hlater with
    | nil => exact .cons ⟨rfl, .cons hi .nil⟩ .nil
    | cons hrun hruns =>
      -- both codes are cut behind the instruction, or none of them is
      dsimp only
      split
      · exact .cons ⟨rfl, .cons hi .nil⟩ (.cons hrun hruns)
      · exact .cons ⟨rfl, .cons hi hrun.code⟩ hruns

theorem testStartFrom_alike (h : List.Forall₂ Instr.Alike code code') (depth : Int)
    (found position : Nat) :
    testStartFrom depth found position code' = testStartFrom depth found position code := by
  induction h generalizing depth found position with
  | nil => rfl
  | cons hi _ ih => rw [testStartFrom, testStartFrom, hi.stackEffect, ih]

/-- The test is parted from the same instructions. -/
theorem splitTest_alike (h : run.Alike run') :
    List.Forall₂ Run.Alike run.splitTest run'.splitTest := by
  have htest : testStart run'.code = testStart run.code := testStartFrom_alike h.code 0 0 0
  have hlast : run'.code.getLast?.any (·.opcode.isConditional) =
      run.code.getLast?.any (·.opcode.isConditional) :=
    any_getLast?_alike h.code fun _ _ hi => hi.isConditional
  simp only [splitTest, htest, hlast, h.first]
  split
  · exact .cons ⟨rfl, List.forall₂_take _ h.code⟩ (.cons ⟨rfl, List.forall₂_drop _ h.code⟩ .nil)
  · exact .cons h .nil

end Run

/-! ## What is asked of a graph -/

namespace Block.Alike

variable {b b' : Block}

theorem any_last? (h : b.Alike b') {p : Instr → Bool} (hp : ∀ i i', i.Alike i' → p i' = p i) :
    b'.last?.any p = b.last?.any p :=
  any_getLast?_alike h.code hp

theorem isConditional (h : b.Alike b') : b'.isConditional = b.isConditional :=
  h.any_last? fun _ _ hi => hi.isConditional

theorem isGoto (h : b.Alike b') : b'.isGoto = b.isGoto :=
  h.any_last? fun _ _ hi => by rw [hi.flow]

theorem successors (h : b.Alike b') : b'.successors = b.successors := by
  rw [Block.successors, Block.successors, h.target, h.otherwise]

end Block.Alike

namespace BlockGraph.AlikeAt

variable {g g' : BlockGraph} {named : Nat → Prop} (h : g.AlikeAt g' named) {id : Nat}

theorem mono {named' : Nat → Prop} (h : g.AlikeAt g' named) (hnamed : ∀ id, named' id → named id) :
    g.AlikeAt g' named' :=
  ⟨fun id hid => h.block? id (hnamed id hid), h.isFeeder⟩

include h

section Block

variable (hid : named id)
include hid

/-- What is asked of a block by its name has one answer if the blocks of that name are alike. -/
theorem ask {α : Type} (f : Option Block → α)
    (hf : ∀ b b', b.Alike b' → f (some b') = f (some b)) : f (g'.block? id) = f (g.block? id) :=
  (h.block? id hid).congr rfl hf

theorem isConditional : g'.isConditional id = g.isConditional id :=
  h.ask hid (·.any Block.isConditional) fun _ _ hb => hb.isConditional

theorem isGoto : g'.isGoto id = g.isGoto id :=
  h.ask hid (·.any Block.isGoto) fun _ _ hb => hb.isGoto

theorem target : (g'.block? id).bind (·.target) = (g.block? id).bind (·.target) :=
  h.ask hid (·.bind (·.target)) fun _ _ hb => hb.target

theorem otherwise : (g'.block? id).bind (·.otherwise) = (g.block? id).bind (·.otherwise) :=
  h.ask hid (·.bind (·.otherwise)) fun _ _ hb => hb.otherwise

theorem feeder : (g'.block? id).bind (·.feeder) = (g.block? id).bind (·.feeder) :=
  h.ask hid (·.bind (·.feeder)) fun _ _ hb => hb.feeder

theorem successors : g'.successors id = g.successors id :=
  h.ask hid (fun b => (b.map Block.successors).getD []) fun _ _ hb => hb.successors

theorem predecessors : g'.predecessors id = g.predecessors id :=
  h.ask hid (fun b => (b.map Block.predecessors).getD []) fun _ _ hb => hb.predecessors

theorem code : List.Forall₂ Instr.Alike (g.code id) (g'.code id) := by
  unfold BlockGraph.code
  match g.block? id, g'.block? id, h.block? id hid with
  | _, _, .none => exact .nil
  | _, _, .some hb => exact hb.code

theorem effect : g'.effect id = g.effect id :=
  stackEffect_alike (h.code hid)

theorem backwardTarget? : g'.backwardTarget? id = g.backwardTarget? id := by
  rw [BlockGraph.backwardTarget?, BlockGraph.backwardTarget?, h.successors hid]

/-- To see whether operands of a block get to a join, the blocks that follow it are looked up. -/
theorem joinFed? (hsuccessors : ∀ join ∈ g.successors id, named join) :
    g'.joinFed? id = g.joinFed? id := by
  have hjoins : (g.successors id).find? (fun join => 1 < (g'.predecessors join).length) =
      (g.successors id).find? (fun join => 1 < (g.predecessors join).length) := by
    refine List.find?_congr fun join hjoin => ?_
    rw [h.predecessors (hsuccessors join hjoin)]
  rw [BlockGraph.joinFed?, BlockGraph.joinFed?, h.effect hid, h.successors hid, hjoins]

end Block

/-- The exits of a group are decided by its members. -/
theorem exits {entry count : Nat} (hmembers : ∀ k < count, named (entry + k)) :
    g'.exits entry count = g.exits entry count := by
  have hsuccessors : (List.range' entry count).flatMap g'.successors =
      (List.range' entry count).flatMap g.successors := by
    refine List.flatMap_congr fun id hid => h.successors ?_
    obtain ⟨hle, hlt⟩ := List.mem_range'_1.1 hid
    have hmember := hmembers (id - entry) (by omega)
    rwa [Nat.add_sub_cancel' hle] at hmember
  simp only [BlockGraph.exits, hsuccessors]

/-- How far a group grows is decided by its members and the block behind the last of them, if that
is still one of the blocks in question. -/
theorem grow {entry stop count : Nat} (hmembers : ∀ k < count, named (entry + k))
    (hcandidates : ∀ k, count ≤ k → k ≤ count + g.grow entry stop count → entry + k < stop →
      named (entry + k)) :
    g'.grow entry stop count = g.grow entry stop count := by
  fun_induction BlockGraph.grow g entry stop count with
  | case1 count next hjoins ih =>
    have hnext : named next := hcandidates count (Nat.le_refl _) (Nat.le_add_right ..) hjoins.1
    have hmembers' : ∀ k < count + 1, named (entry + k) :=
      Nat.forall_lt_succ_right.2 ⟨hmembers, hnext⟩
    rw [BlockGraph.grow, h.isConditional hnext, h.exits hmembers, h.exits hmembers', if_pos hjoins,
      ih hmembers' fun k hle hk => hcandidates k (by omega) (by omega)]
  | case2 count next hjoins =>
    rw [BlockGraph.grow, if_neg]
    rintro ⟨hlt, hjoins'⟩
    have hnext : named next := hcandidates count (Nat.le_refl _) (Nat.le_add_right ..) hlt
    have hmembers' : ∀ k < count + 1, named (entry + k) :=
      Nat.forall_lt_succ_right.2 ⟨hmembers, hnext⟩
    rw [h.isConditional hnext, h.exits hmembers, h.exits hmembers'] at hjoins'
    exact hjoins ⟨hlt, hjoins'⟩

/-- Where control meets again behind a body is decided by the last block of the body. -/
theorem join {past : Nat} (hlast : named (past - 1)) (stop : Nat) :
    g'.join past stop = g.join past stop := by
  rw [BlockGraph.join, BlockGraph.join, h.isGoto hlast, h.target hlast]

end BlockGraph.AlikeAt

namespace BlockGraph.Alike

variable {g g' : BlockGraph}

theorem size (h : g.Alike g') : g'.size = g.size :=
  (List.Forall₂.length_eq h).symm

theorem isFeeder (h : g.Alike g') : g'.isFeeder = g.isFeeder := by
  funext id
  have hfeeders : g'.blocks.map (·.feeder) = g.blocks.map (·.feeder) :=
    List.map_eq_of_forall₂ (fun _ _ hb => hb.feeder) h
  have hany (g : BlockGraph) : g.isFeeder id = (g.blocks.map (·.feeder)).any (· = some id) := by
    rw [List.any_map]
    rfl
  rw [hany, hany, hfeeders]

/-- If all blocks are alike, those of any names are. -/
theorem alikeAt (h : g.Alike g') (named : Nat → Prop) : g.AlikeAt g' named :=
  ⟨fun id _ => List.Forall₂.getElem? h id, fun id => by rw [h.isFeeder]⟩

/-- The first answer to a question asked of the names of the blocks, one after the other. -/
theorem findSome? (h : g.Alike g') {α : Type} (f : Nat → Option α) :
    (g'.blocks.findSome? fun b => f b.id) = g.blocks.findSome? fun b => f b.id := by
  have hids : g'.blocks.map (·.id) = g.blocks.map (·.id) :=
    List.map_eq_of_forall₂ (fun _ _ hb => hb.id) h
  have hnamed (g : BlockGraph) :
      (g.blocks.findSome? fun b => f b.id) = (g.blocks.map (·.id)).findSome? f := by
    rw [List.findSome?_map]
    rfl
  rw [hnamed, hids, ← hnamed]

theorem backwardEdge? (h : g.Alike g') : g'.backwardEdge? = g.backwardEdge? := by
  have hat := h.alikeAt fun _ => True
  unfold BlockGraph.backwardEdge?
  simp only [hat.backwardTarget? trivial]
  exact h.findSome? fun id => (g.backwardTarget? id).map (id, ·)

theorem operandsIntoJoin? (h : g.Alike g') : g'.operandsIntoJoin? = g.operandsIntoJoin? := by
  have hat := h.alikeAt fun _ => True
  unfold BlockGraph.operandsIntoJoin?
  simp only [hat.joinFed? trivial fun _ _ => trivial]
  exact h.findSome? fun id => (g.joinFed? id).map (id, ·)

end BlockGraph.Alike

/-! ## The graph of a method -/

namespace BlockGraph

variable {code code' : List Instr} {rs rs' : List Run}

theorem labelTargets_alike (h : List.Forall₂ Instr.Alike code code') :
    labelTargets code' = labelTargets code := by
  induction h with
  | nil => rfl
  | cons hi _ ih =>
    simp only [labelTargets, List.filterMap_cons, hi.label?] at ih ⊢
    rw [ih]

theorem runs_alike (h : List.Forall₂ Instr.Alike code code') :
    List.Forall₂ Run.Alike (runs code) (runs code') := by
  rw [runs, runs, labelTargets_alike h]
  exact List.rel_flatMap (Run.cut_alike h _ 0) fun _ _ hrun => Run.splitTest_alike hrun

theorem runOf_alike (h : List.Forall₂ Run.Alike rs rs') : runOf rs' = runOf rs := by
  funext position
  induction h with
  | nil => rfl
  | @cons run run' _ _ hrun _ ih =>
    simp only [runOf, List.takeWhile_cons, hrun.stop] at ih ⊢
    split
    · rw [List.length_cons, List.length_cons, ih]
    · rfl

/-- Runs that are alike become blocks that are alike. -/
theorem connect_alike (h : List.Forall₂ Run.Alike rs rs') (id : Nat) {run run' : Run}
    (hrun : run.Alike run') : (connect rs id run).Alike (connect rs' id run') := by
  simp only [connect, runOf_alike h, ← h.length_eq]
  match run.code.getLast?, run'.code.getLast?, hrun.code.getLast? with
  | _, _, .none => exact ⟨rfl, hrun.first, hrun.code, rfl, rfl, rfl, rfl⟩
  | _, _, .some hlast =>
    simp only [hlast.flow, hlast.label?]
    split <;> exact ⟨rfl, hrun.first, hrun.code, rfl, rfl, rfl, rfl⟩

/-- Blocks that are alike are linked to the same ones. -/
theorem linkPredecessors_alike {blocks blocks' : List Block}
    (h : List.Forall₂ Block.Alike blocks blocks') :
    List.Forall₂ Block.Alike (linkPredecessors blocks) (linkPredecessors blocks') := by
  have hleads : leads blocks' = leads blocks :=
    leads_congr fun before => (List.Forall₂.getElem? h before).congr
      (f := (·.map (·.successors))) (g := (·.map (·.successors))) rfl fun _ _ hb => by
        rw [Option.map_some, Option.map_some, hb.successors]
  rw [linkPredecessors_eq_mapIdx, linkPredecessors_eq_mapIdx, hleads, ← h.length_eq]
  exact h.mapIdx fun _ _ _ hb =>
    ⟨hb.id, hb.first, hb.code, hb.target, hb.otherwise, hb.feeder, rfl⟩

/-- The same block leaves operands for the test of a block. -/
theorem feeder?_alike {g g' : BlockGraph} (h : g.Alike g') (id : Nat) :
    g'.feeder? id = g.feeder? id := by
  cases id with
  | zero => rfl
  | succ before =>
    have hat := h.alikeAt fun _ => True
    have hfalls : ((g'.block? before).any fun b =>
        b.target = some (before + 1) ∧ ¬ b.last?.any (·.opcode.isJump)) =
          (g.block? before).any fun b =>
            b.target = some (before + 1) ∧ ¬ b.last?.any (·.opcode.isJump) := by
      refine hat.ask trivial (·.any _) fun b b' hb => ?_
      rw [Option.any_some, Option.any_some, hb.target, hb.any_last? fun _ _ hi => hi.isJump]
    simp only [feeder?, hfalls, hat.predecessors trivial, hat.effect trivial,
      hat.isConditional trivial]

/-- The graphs of code that is alike are alike. -/
theorem alike_build (h : List.Forall₂ Instr.Alike code code') :
    (build code).Alike (build code') := by
  have hconnected : List.Forall₂ Block.Alike ((runs code).mapIdx (connect (runs code)))
      ((runs code').mapIdx (connect (runs code'))) :=
    (runs_alike h).mapIdx fun id _ _ hrun => connect_alike (runs_alike h) id hrun
  have hunfed : Alike ⟨linkPredecessors ((runs code).mapIdx (connect (runs code)))⟩
      ⟨linkPredecessors ((runs code').mapIdx (connect (runs code')))⟩ :=
    linkPredecessors_alike hconnected
  exact hunfed.mapIdx fun id _ _ hb =>
    ⟨hb.id, hb.first, hb.code, hb.target, hb.otherwise, feeder?_alike hunfed id, hb.predecessors⟩

end BlockGraph

end Unjump
