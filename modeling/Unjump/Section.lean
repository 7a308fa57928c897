import Unjump.Replay

/-!
# Sections

A section is a block, or a choice between two runs of sections. Replaying a choice replays both of
its bodies, one after the other on the same stack; each of them has to leave the stack as deep as
it was.
-/

namespace Unjump

/-- A piece of a method's body. -/
inductive Section where
  | block (id : Nat)
  | choice (condition : Condition) (body alternative : List Section)

namespace Section

mutual

/-- The blocks of a section in order. -/
def blocks : Section → List Nat
  | .block id => [id]
  | .choice _ body alternative => blocksAll body ++ blocksAll alternative

/-- The blocks of a run of sections in order. -/
def blocksAll : List Section → List Nat
  | [] => []
  | s :: ss => s.blocks ++ blocksAll ss

end

/-- The block at which an unbalanced stack is reported: the last one of the last section. -/
def lastBlock (sections : List Section) : Nat :=
  (sections.getLast?.bind (·.blocks.getLast?)).getD 0

/-- Accepts the replay of a body only if the stack is as deep as it was. -/
def balanced (sections : List Section) (depth : Nat) (t : Trail) : Except Stuck Trail :=
  if t.stack.length = depth then .ok t
  else .error ⟨.unbalancedStack (lastBlock sections) depth t.stack.length, t⟩

mutual

/-- Replays a section. A choice that fails emits nothing. -/
def replay (ctx : Context) (s : Section) (t : Trail) : Except Stuck Trail :=
  match s with
  | .block id => ctx.replayBlock id t
  | .choice condition body alternative =>
    let depth := t.stack.length
    match (replayAll ctx body ⟨[], t.stack⟩).bind (balanced body depth) with
    | .error stuck => .error ⟨stuck.failure, { t with stack := stuck.trail.stack }⟩
    | .ok first =>
      match (replayAll ctx alternative ⟨[], first.stack⟩).bind (balanced alternative depth) with
      | .error stuck => .error ⟨stuck.failure, { t with stack := stuck.trail.stack }⟩
      | .ok second =>
        .ok (t.emit (.branch condition first.emitted second.emitted) second.stack)

/-- Replays a run of sections. -/
def replayAll (ctx : Context) (sections : List Section) (t : Trail) : Except Stuck Trail :=
  match sections with
  | [] => .ok t
  | s :: ss => (replay ctx s t).bind (replayAll ctx ss)

end

end Section

end Unjump
