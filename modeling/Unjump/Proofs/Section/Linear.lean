import Unjump.BlockGraph.Build
import Unjump.Proofs.Replay.Emitted
import Unjump.Proofs.Section.Replay

/-!
# Sections replayed in a line

Replaying sections is replaying their blocks one after the other: the blocks leave the same operands
and emit the same statements, once every choice among the statements gives way to its body and its
alternative (`Section.replayBlocks_of_replayAll`). The two branches of a choice share the stack with
each other and with what follows, and only the statements are kept apart.
-/

namespace Unjump

namespace Statement

mutual

/-- The statements of a statement without choices, the body of a choice before its alternative. -/
def flatten : Statement → List Statement
  | .branch _ body alternative => flattenAll body ++ flattenAll alternative
  | .assign target value => [.assign target value]
  | .store array index value => [.store array index value]
  | .increment target amount => [.increment target amount]
  | .leave value => [.leave value]
  | .comment text => [.comment text]

/-- The statements of a list without choices, in order. -/
def flattenAll : List Statement → List Statement
  | [] => []
  | s :: ss => s.flatten ++ flattenAll ss

end

@[simp] theorem flattenAll_append (ss ts : List Statement) :
    flattenAll (ss ++ ts) = flattenAll ss ++ flattenAll ts := by
  induction ss with
  | nil => rfl
  | cons s ss ih => rw [List.cons_append, flattenAll, flattenAll, ih, List.append_assoc]

@[simp] theorem flattenAll_singleton (s : Statement) : flattenAll [s] = s.flatten := by
  simp [flattenAll]

end Statement

/-- The trail with its statements in a line. -/
def Trail.flatten (t : Trail) : Trail :=
  { t with emitted := Statement.flattenAll t.emitted }

@[simp] theorem Trail.flatten_after (earlier : List Statement) (t : Trail) :
    (t.after earlier).flatten = t.flatten.after (Statement.flattenAll earlier) := by
  simp [flatten, after]

/-- What a single action emits is no choice. -/
theorem Action.flatten_of_perform {ctx : Context} {block : Nat} {i : Instr} {action : Action}
    {stack : List Expr} {t : Trail} (h : action.perform ctx block i ⟨[], stack⟩ = .ok t) :
    t.flatten = t := by
  cases action with
  | nothing | push | load | increment | leave => cases h; rfl
  | malformed => cases h
  | assign slot? =>
    rw [perform] at h
    split at h
    · cases slot? <;> cases h
      rfl
    · cases h
  | pushConstant | loadElement | storeElement | arithmetic | negate | duplicate | discard
  | leaveWithValue =>
    rw [perform] at h
    split at h <;> cases h
    rfl

namespace Context

variable {ctx : Context}

/-- Replays blocks one after the other. -/
def replayBlocks (ctx : Context) (ids : List Nat) (t : Trail) : Except Stuck Trail :=
  ids.foldlM (fun t id => ctx.replayBlock id t) t

/-- Blocks go on after earlier statements as they begin without them. -/
theorem replayBlocks_after {ids : List Nat} {t u : Trail}
    (h : ctx.replayBlocks ids ⟨[], t.stack⟩ = .ok u) :
    ctx.replayBlocks ids t = .ok (u.after t.emitted) :=
  (foldlM_eq_ok_after replayBlock_after).2 ⟨u, h, rfl⟩

theorem replayBlocks_append {first rest : List Nat} {t next t' : Trail}
    (hfirst : ctx.replayBlocks first t = .ok next)
    (hrest : ctx.replayBlocks rest next = .ok t') :
    ctx.replayBlocks (first ++ rest) t = .ok t' := by
  rw [replayBlocks, List.foldlM_append]
  exact bind_eq_ok.2 ⟨next, hfirst, hrest⟩

/-- What a block emits after nothing has no choice in it. -/
theorem flatten_of_foldlM {block : Nat} {code : List Instr} {stack : List Expr} {t : Trail}
    (h : code.foldlM (ctx.replayInstr block) ⟨[], stack⟩ = .ok t) : t.flatten = t := by
  induction code generalizing stack t with
  | nil => cases h; rfl
  | cons i rest ih =>
    obtain ⟨first, more, hfirst, hmore, rfl⟩ := foldlM_replayInstr_cons.1 h
    have hflat : Statement.flattenAll first.emitted = first.emitted :=
      congrArg Trail.emitted (Action.flatten_of_perform hfirst)
    show (more.after first.emitted).flatten = more.after first.emitted
    rw [Trail.flatten_after, hflat, ih hmore]

/-- A block does the same when what was emitted before it stands in a line. -/
theorem replayBlock_flatten {block : Nat} {t t' : Trail} (h : ctx.replayBlock block t = .ok t') :
    ctx.replayBlock block t.flatten = .ok t'.flatten := by
  obtain ⟨u, hu, rfl⟩ := (foldlM_eq_ok_after replayInstr_after).1 h
  rw [Trail.flatten_after, flatten_of_foldlM hu]
  exact (foldlM_eq_ok_after replayInstr_after).2 ⟨u, hu, rfl⟩

end Context

namespace Section

variable {ctx : Context}

mutual

theorem flatten_of_replay {s : Section} {t t' : Trail} (h : replay ctx s t = .ok t') :
    ctx.replayBlocks s.blocks t.flatten = .ok t'.flatten := by
  match s with
  | .block id =>
    rw [replay] at h
    exact bind_eq_ok.2 ⟨t'.flatten, Context.replayBlock_flatten h, rfl⟩
  | .choice condition body alternative =>
    obtain ⟨first, second, hfirst, -, hsecond, -, rfl⟩ := replay_choice_eq_ok h
    -- each branch begins without statements; in a line they come after those from before
    have hbody : ctx.replayBlocks (blocksAll body) t.flatten =
        .ok (first.flatten.after t.flatten.emitted) :=
      Context.replayBlocks_after (flatten_of_replayAll hfirst)
    have halternative : ctx.replayBlocks (blocksAll alternative)
        (first.flatten.after t.flatten.emitted) =
          .ok (second.flatten.after (first.flatten.after t.flatten.emitted).emitted) :=
      Context.replayBlocks_after (flatten_of_replayAll hsecond)
    rw [blocks, Context.replayBlocks_append hbody halternative]
    simp [Trail.flatten, Trail.after, Trail.emit, Statement.flatten]

theorem flatten_of_replayAll {sections : List Section} {t t' : Trail}
    (h : replayAll ctx sections t = .ok t') :
    ctx.replayBlocks (blocksAll sections) t.flatten = .ok t'.flatten := by
  match sections with
  | [] =>
    rw [replayAll] at h
    cases h
    rfl
  | s :: ss =>
    rw [replayAll] at h
    obtain ⟨next, hnext, hrest⟩ := bind_eq_ok.1 h
    exact Context.replayBlocks_append (flatten_of_replay hnext) (flatten_of_replayAll hrest)

end

/-- Where sections are replayed, their blocks can be replayed one after the other on the same stack.
They leave the same operands, and they emit the same statements in a line. -/
theorem replayBlocks_of_replayAll {sections : List Section} {stack : List Expr} {t : Trail}
    (h : replayAll ctx sections ⟨[], stack⟩ = .ok t) :
    ctx.replayBlocks (blocksAll sections) ⟨[], stack⟩ =
      .ok ⟨Statement.flattenAll t.emitted, t.stack⟩ :=
  flatten_of_replayAll h

/-- Three blocks that take an operand from below, and leave one for the next block. -/
def relay : Context where
  graph := .build
    [⟨0, .istore1, .none⟩, ⟨1, .iload1, .none⟩, ⟨2, .goto, .label 3⟩, ⟨5, .dup, .none⟩,
      ⟨6, .istore2, .none⟩, ⟨7, .goto, .label 6⟩, ⟨10, .istore3, .none⟩, ⟨11, .returnVoid, .none⟩]
  locals := .empty
  constants := []

/-- The condition that a variable without a declaration is true. -/
def localTrue (slot : UInt16) : Condition :=
  .test (.truth (.var ⟨slot, s!"local{slot.toNat}", .int⟩) false)

/-- A choice in the body of another. -/
def relaySections : List Section :=
  [.choice (localTrue 4) [.block 0, .choice (localTrue 5) [.block 1] []] [], .block 2]

/-- The statements of `relaySections` on a stack that holds a seven. -/
def relayStatements : List Statement :=
  [.branch (localTrue 4)
      [.assign ⟨1, "local1", .int⟩ (.int 7),
        .branch (localTrue 5) [.assign ⟨2, "local2", .int⟩ (.var ⟨1, "local1", .int⟩)] []] [],
    .assign ⟨3, "local3", .int⟩ (.var ⟨1, "local1", .int⟩), .leave none]

theorem replayBlocks_of_replayAll_relay :
    replayAll relay relaySections ⟨[], [.int 7]⟩ = .ok ⟨relayStatements, []⟩ ∧
      relay.replayBlocks [0, 1, 2] ⟨[], [.int 7]⟩ =
        .ok ⟨[.assign ⟨1, "local1", .int⟩ (.int 7),
          .assign ⟨2, "local2", .int⟩ (.var ⟨1, "local1", .int⟩),
          .assign ⟨3, "local3", .int⟩ (.var ⟨1, "local1", .int⟩), .leave none], []⟩ :=
  have h : replayAll relay relaySections ⟨[], [.int 7]⟩ = .ok ⟨relayStatements, []⟩ := rfl
  ⟨h, replayBlocks_of_replayAll h⟩

end Section

end Unjump
