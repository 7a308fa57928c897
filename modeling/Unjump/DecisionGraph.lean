import Unjump.Condition.OfBlock
import Unjump.Condition.Simplify

/-!
# Groups of conditional blocks

A group of conditional blocks decides between two exits: the body that it guards, and the block
behind the body. `DecisionGraph.build` follows every path from the first block of the group and
notes the condition of each path, the tests of the path in order. The group leads to its body
exactly when one of the paths to the body is taken (`Context.groupCondition`).
-/

namespace Unjump

/-- Where an edge of a group leads. -/
inductive Exit where
  /-- To the guarded body. -/
  | body
  /-- Past the body. -/
  | past
  /-- To a member of the group by its position. -/
  | member (position : Nat)
  deriving DecidableEq

/-- A member of a group. -/
structure Decision where
  block : Nat
  /-- The condition under which the jump is taken. -/
  condition : Condition
  target : Exit
  otherwise : Exit
  deriving DecidableEq

/-- A path from the first member of a group: the conditions on it, and where it leads. -/
structure Path where
  conditions : List Condition
  exit : Exit

namespace Path

/-- The condition under which a path is taken. -/
def condition (path : Path) : Condition :=
  match path.conditions with
  | [c] => c
  | cs => .join .and cs

end Path

namespace DecisionGraph

/-- A step of the walk through a group. -/
inductive Step where
  /-- Come to where an edge leads. -/
  | enter (exit : Exit)
  /-- Come back to the member at a position, and go the other way. -/
  | turn (position : Nat)
  /-- Come back from a member for good. -/
  | leave

/-- How many steps are still to come, when no path is longer than a group has members. -/
def work (members : Nat) : List Step → (depth : Nat) → Nat
  | [], _ => 0
  | .enter _ :: rest, depth => Nat.pow 5 (members - depth) + work members rest depth
  | .turn _ :: rest, depth =>
    Nat.pow 5 (members - (depth - 1 + 1)) + 2 + work members rest (depth - 1)
  | .leave :: rest, depth => 1 + work members rest (depth - 1)

/-- To go both ways from a member takes less than to come to it. -/
theorem work_member {members depth : Nat} (target : Exit) (position : Nat) (rest : List Step)
    (h : depth < members) :
    work members (.enter target :: .turn position :: rest) (depth + 1) <
      Nat.pow 5 (members - depth) + work members rest depth := by
  obtain ⟨left, hleft⟩ : ∃ left, members - depth = left + 1 := ⟨members - depth - 1, by omega⟩
  have hnext : members - (depth + 1) = left := by omega
  have hpos : 0 < Nat.pow 5 left := Nat.pow_pos (by decide)
  have hpow : Nat.pow 5 (left + 1) = Nat.pow 5 left * 5 := rfl
  simp only [work, Nat.add_sub_cancel, hleft, hnext, hpow]
  omega

/-- What coming to the end of a path adds to the paths that are found. -/
def noted (path : Path) : List Path :=
  if path.conditions.isEmpty then [] else [path]

/-- Takes the steps that are left, the next one first. All steps share one path: the conditions on
the way here. The answer holds every path of at least one test, in the order in which they are
found; there is none if some path comes back to a member. -/
def walk (decisions : List Decision) : List Step → List Condition → Option (List Path)
  | [], _ => some []
  | .enter exit :: rest, conditions =>
    match exit with
    | .body | .past => (walk decisions rest conditions).map (noted ⟨conditions, exit⟩ ++ ·)
    | .member position =>
      if conditions.length < decisions.length then
        match decisions[position]? with
        | some d =>
          (walk decisions (.enter d.target :: .turn position :: rest)
            (conditions ++ [d.condition])).map (noted ⟨conditions, exit⟩ ++ ·)
        | none => (walk decisions rest conditions).map (noted ⟨conditions, exit⟩ ++ ·)
      else none
  | .turn position :: rest, conditions =>
    match decisions[position]? with
    | some d =>
      walk decisions (.enter d.otherwise :: .leave :: rest)
        (conditions.dropLast ++ [d.condition.inverse])
    | none => walk decisions rest conditions.dropLast
  | .leave :: rest, conditions => walk decisions rest conditions.dropLast
  termination_by steps conditions => work decisions.length steps conditions.length
  decreasing_by
    · have : 0 < Nat.pow 5 (decisions.length - conditions.length) := Nat.pow_pos (by decide)
      rw [work]
      omega
    · rw [List.length_append, List.length_singleton]
      exact work_member d.target position rest (by assumption)
    · have : 0 < Nat.pow 5 (decisions.length - conditions.length) := Nat.pow_pos (by decide)
      rw [work]
      omega
    · simp only [List.length_append, List.length_dropLast, List.length_singleton, work,
        Nat.add_sub_cancel]
      omega
    · rw [List.length_dropLast, work]
      omega
    · rw [List.length_dropLast, work]
      omega

end DecisionGraph

/-- The decisions of a group and the paths through them. -/
structure DecisionGraph where
  decisions : List Decision
  /-- Every path of at least one test, in the order in which they are found. -/
  paths : List Path

namespace DecisionGraph

/-- The conditions of the paths to an exit. -/
def pathsTo (g : DecisionGraph) (exit : Exit) : List Condition :=
  (g.paths.filter (·.exit = exit)).map (·.condition)

/-- Where an edge from a member of a group to a block leads. -/
def resolve (group : List Nat) (body past block target : Nat) : Except Failure Exit :=
  if target = body then .ok .body
  else if target = past then .ok .past
  else
    match group.idxOf? target with
    | some position => .ok (.member position)
    | none => .error (.unknownTarget block target)

/-- The decision that a member of a group makes. -/
def decide (ctx : Context) (group : List Nat) (body past block : Nat) :
    Except Failure Decision := do
  let test ← ctx.jumpTest block
  match (ctx.graph.block? block).bind (·.target),
    (ctx.graph.block? block).bind (·.otherwise) with
  | some target, some otherwise =>
    let target ← resolve group body past block target
    let otherwise ← resolve group body past block otherwise
    return ⟨block, .test test, target, otherwise⟩
  | _, _ => throw (.missingTarget block)

/-- The decisions of a group between a body and the block past it, and the paths through them. -/
def build (ctx : Context) (group : List Nat) (body past : Nat) :
    Except Failure DecisionGraph := do
  match group with
  | [] => throw (.unsupported body .emptyGroup)
  | entry :: _ =>
    let decisions ← group.mapM (decide ctx group body past)
    match walk decisions [.enter (.member 0)] [] with
    | some paths => return ⟨decisions, paths⟩
    | none => throw (.cyclicGroup entry)

end DecisionGraph

/-- The condition under which a group leads to its body. -/
def Context.groupCondition (ctx : Context) (group : List Nat) (body past : Nat) :
    Except Failure Condition := do
  let g ← DecisionGraph.build ctx group body past
  match g.pathsTo .body with
  | [] => throw (.unreachableBody body)
  | paths => return (Condition.join .or paths).simplify

end Unjump
