import Unjump.DecisionGraph
import Unjump.Section

/-!
# Finding choices

`Context.sections` arranges the blocks of a method in nested sections. Control may only go forward.
A group of conditional blocks, the body behind it and, if the body ends with a jump over the blocks
that follow, an alternative make a choice.
-/

namespace Unjump.BlockGraph

/-- Adds a block to blocks in ascending order, unless it is one of them. -/
def insertExit (id : Nat) : List Nat → List Nat
  | [] => [id]
  | other :: rest =>
    if id < other then id :: other :: rest
    else if id = other then other :: rest
    else other :: insertExit id rest

/-- The blocks that a group can leave to, each once and in order. The group is a run of blocks from
an entry on. -/
def exits (g : BlockGraph) (entry count : Nat) : List Nat :=
  let members := List.range' entry count
  ((members.flatMap g.successors).filter (!members.contains ·)).foldr insertExit []

/-- How many blocks behind a group join it: each must be conditional, one of the exits of the group
so far, and leave the group with exactly two exits. -/
def grow (g : BlockGraph) (entry stop count : Nat) : Nat :=
  let next := entry + count
  if next < stop ∧ g.isConditional next ∧ next ∈ g.exits entry count ∧
      (g.exits entry (count + 1)).length = 2 then
    grow g entry stop (count + 1) + 1
  else 0
  termination_by stop - (entry + count)
  decreasing_by omega

/-- The first edge of a block that does not lead forward. -/
def backwardTarget? (g : BlockGraph) (id : Nat) : Option Nat :=
  (g.successors id).find? (· ≤ id)

/-- The first edge that does not lead forward, with the block that it leaves. -/
def backwardEdge? (g : BlockGraph) : Option (Nat × Nat) :=
  g.blocks.findSome? fun b => (g.backwardTarget? b.id).map (b.id, ·)

/-- The first block with several predecessors for which a block leaves operands. -/
def joinFed? (g : BlockGraph) (id : Nat) : Option Nat :=
  if 0 < g.effect id then
    (g.successors id).find? fun join => 1 < (g.predecessors join).length
  else none

/-- The first block that leaves operands for a block with several predecessors, and that block. -/
def operandsIntoJoin? (g : BlockGraph) : Option (Nat × Nat) :=
  g.blocks.findSome? fun b => (g.joinFed? b.id).map (b.id, ·)

/-- Where control meets again behind a body that ends in front of `past`: the target of a jump at
the end of the body if it leads further on, but not beyond `stop`. -/
def join (g : BlockGraph) (past stop : Nat) : Nat :=
  let target :=
    if g.isGoto (past - 1) then ((g.block? (past - 1)).bind (·.target)).getD past else past
  max past (min target stop)

theorem le_join (g : BlockGraph) (past stop : Nat) : past ≤ g.join past stop :=
  Nat.le_max_left ..

theorem join_le (g : BlockGraph) {past stop : Nat} (h : past ≤ stop) :
    g.join past stop ≤ stop :=
  Nat.max_le.2 ⟨h, Nat.min_le_right ..⟩

end Unjump.BlockGraph

namespace Unjump.Context

/-- The sections of the blocks from `start` up to `stop`. -/
def sectionsBetween (ctx : Context) (start stop : Nat) : Except Failure (List Section) := do
  let g := ctx.graph
  if start < stop then
    if g.isFeeder start then ctx.sectionsBetween (start + 1) stop
    else if !g.isConditional start then
      let rest ← ctx.sectionsBetween (start + 1) stop
      return .block start :: rest
    else
      let count := g.grow start stop 1
      let group := List.range' start (count + 1)
      let exits := g.exits start (count + 1)
      let body := start + count + 1
      if body ∉ exits then throw (.unsupported start (.noBody group))
      match exits.find? (· ≠ body) with
      | none => throw (.unsupported start (.singleExit group))
      | some past =>
        if past ≤ body ∨ stop < past then
          throw (.unsupported start (.exitOutside past body stop))
        else
          let condition ← ctx.groupCondition group body past
          let inside ← ctx.sectionsBetween body past
          let alternative ← ctx.sectionsBetween past (g.join past stop)
          let rest ← ctx.sectionsBetween (g.join past stop) stop
          return .choice condition inside alternative :: rest
  else return []
  termination_by stop - start
  decreasing_by
    · omega
    · omega
    · omega
    · have := ctx.graph.join_le (show past ≤ stop by omega)
      omega
    · have := ctx.graph.le_join past stop
      omega

/-- The sections of a method. -/
def sections (ctx : Context) : Except Failure (List Section) :=
  match ctx.graph.backwardEdge? with
  | some (block, target) => .error (.unsupported block (.backwardEdge target))
  | none =>
    match ctx.graph.operandsIntoJoin? with
    | some (block, join) => .error (.unsupported block (.operandsIntoJoin join))
    | none => ctx.sectionsBetween 0 ctx.graph.size

end Unjump.Context
