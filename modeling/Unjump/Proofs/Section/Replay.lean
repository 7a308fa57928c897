import Unjump.Proofs.Replay.Instr
import Unjump.Section

/-!
# What replaying sections does

Replaying sections moves operands as the instructions of their blocks do, one after the other, and
has their effects (`moves_of_replayAll`). The two branches of a choice are replayed on one stack,
and each of them has to leave it as deep as it was; so the operands that lie deeper than a branch
reaches are the same after it (`drop_stack_of_balanced`). A branch that reaches below the operands
that it puts there itself may replace what it takes by other operands.
-/

namespace Unjump.Section

/-- The instructions of sections, in the order in which they are replayed. -/
def code (g : BlockGraph) (sections : List Section) : List Instr :=
  (blocksAll sections).flatMap g.code

variable {ctx : Context}

/-- A balanced body leaves the stack as deep as it was. -/
theorem balanced_eq_ok {sections : List Section} {depth : Nat} {t t' : Trail} :
    balanced sections depth t = .ok t' ↔ t' = t ∧ t.stack.length = depth := by
  unfold balanced
  split <;> simp_all [eq_comm]

/-- A choice is replayed if both of its branches are, the second one on the stack that the first one
leaves, and both leave the stack as deep as it was. -/
theorem replay_choice_eq_ok {condition : Condition} {body alternative : List Section}
    {t t' : Trail} (h : replay ctx (.choice condition body alternative) t = .ok t') :
    ∃ first second, replayAll ctx body ⟨[], t.stack⟩ = .ok first ∧
      first.stack.length = t.stack.length ∧
      replayAll ctx alternative ⟨[], first.stack⟩ = .ok second ∧
      second.stack.length = t.stack.length ∧
      t' = t.emit (.branch condition first.emitted second.emitted) second.stack := by
  rw [replay] at h
  split at h
  · cases h
  · rename_i first hfirst
    split at h
    · cases h
    · rename_i second hsecond
      cases h
      obtain ⟨first', hfirst, hdepth⟩ := bind_eq_ok.1 hfirst
      obtain ⟨rfl, hdepth⟩ := balanced_eq_ok.1 hdepth
      obtain ⟨second', hsecond, hdepth'⟩ := bind_eq_ok.1 hsecond
      obtain ⟨rfl, hdepth'⟩ := balanced_eq_ok.1 hdepth'
      exact ⟨first, second, hfirst, hdepth, hsecond, hdepth', rfl⟩

/-- A choice is replayed where each of its branches is replayed and leaves the stack as deep as it
was. -/
theorem replay_choice_of_branches {condition : Condition} {body alternative : List Section}
    {t first second : Trail} (hfirst : replayAll ctx body ⟨[], t.stack⟩ = .ok first)
    (hdepth : first.stack.length = t.stack.length)
    (hsecond : replayAll ctx alternative ⟨[], first.stack⟩ = .ok second)
    (hdepth' : second.stack.length = t.stack.length) :
    replay ctx (.choice condition body alternative) t =
      .ok (t.emit (.branch condition first.emitted second.emitted) second.stack) := by
  have hbody : (replayAll ctx body ⟨[], t.stack⟩).bind (balanced body t.stack.length) =
      .ok first :=
    bind_eq_ok.2 ⟨first, hfirst, balanced_eq_ok.2 ⟨rfl, hdepth⟩⟩
  have halternative : (replayAll ctx alternative ⟨[], first.stack⟩).bind
      (balanced alternative t.stack.length) = .ok second :=
    bind_eq_ok.2 ⟨second, hsecond, balanced_eq_ok.2 ⟨rfl, hdepth'⟩⟩
  rw [replay]
  simp only [hbody, halternative]

mutual

theorem moves_of_replay {s : Section} {t t' : Trail} (h : replay ctx s t = .ok t') :
    Moves (s.blocks.flatMap ctx.graph.code) t.stack t'.stack ∧
      Statement.effectsAll t'.emitted = Statement.effectsAll t.emitted ++
        (s.blocks.flatMap ctx.graph.code).filterMap (·.effect?) := by
  match s with
  | .block id =>
    rw [replay] at h
    simpa [blocks] using Context.moves_of_replayBlock h
  | .choice condition body alternative =>
    obtain ⟨first, second, hfirst, -, hsecond, -, rfl⟩ := replay_choice_eq_ok h
    obtain ⟨hmoves, heffects⟩ := moves_of_replayAll hfirst
    obtain ⟨hmoves', heffects'⟩ := moves_of_replayAll hsecond
    -- the second branch goes on from the stack that the first one leaves
    rw [blocks, List.flatMap_append]
    refine ⟨hmoves.append hmoves', ?_⟩
    rw [List.filterMap_append, Trail.emit, Statement.effectsAll_append,
      Statement.effectsAll_singleton, Statement.effects, heffects, heffects']
    rfl

/-- Replaying sections moves operands as the instructions of their blocks do, and has their
effects. -/
theorem moves_of_replayAll {sections : List Section} {t t' : Trail}
    (h : replayAll ctx sections t = .ok t') :
    Moves (code ctx.graph sections) t.stack t'.stack ∧
      Statement.effectsAll t'.emitted = Statement.effectsAll t.emitted ++
        (code ctx.graph sections).filterMap (·.effect?) := by
  match sections with
  | [] =>
    rw [replayAll] at h
    cases h
    exact ⟨.nil, by simp [code, blocksAll]⟩
  | s :: ss =>
    rw [replayAll] at h
    obtain ⟨next, hnext, hrest⟩ := bind_eq_ok.1 h
    obtain ⟨hmoves, heffects⟩ := moves_of_replay hnext
    obtain ⟨hmoves', heffects'⟩ := moves_of_replayAll hrest
    rw [code, blocksAll, List.flatMap_append]
    refine ⟨hmoves.append hmoves', ?_⟩
    rw [heffects', heffects, List.append_assoc, ← List.filterMap_append]
    rfl

end

/-! ## Balanced branches -/

section Balanced

variable {sections : List Section} {emitted : List Statement} {stack : List Expr} {t : Trail}
  (h : replayAll ctx sections ⟨emitted, stack⟩ = .ok t) (hdepth : t.stack.length = stack.length)
include h hdepth

/-- The operands that lie deeper than a balanced branch reaches are the same after it. -/
theorem drop_stack_of_balanced :
    t.stack.drop (reach (code ctx.graph sections)) =
      stack.drop (reach (code ctx.graph sections)) := by
  obtain ⟨hle, top, hsuffix⟩ := (moves_of_replayAll h).1.drop_reach_suffix
  -- the stack is as deep as before, so as many operands are put back as were taken
  have htop : top.length = reach (code ctx.graph sections) := by
    have hlen := congrArg List.length hsuffix
    simp only [List.length_append, List.length_drop] at hlen hle
    omega
  rw [← hsuffix, List.drop_left' htop]

/-- A balanced branch that takes nothing from below leaves the operands as they were. -/
theorem stack_eq_of_reach_eq_zero (hreach : reach (code ctx.graph sections) = 0) :
    t.stack = stack := by
  have hdrop := drop_stack_of_balanced h hdepth
  rwa [hreach, List.drop_zero, List.drop_zero] at hdrop

/-- A balanced branch leaves the operands as they were exactly if it puts back what it takes. -/
theorem stack_eq_iff_of_balanced :
    t.stack = stack ↔
      t.stack.take (reach (code ctx.graph sections)) =
        stack.take (reach (code ctx.graph sections)) := by
  constructor
  · intro heq
    rw [heq]
  · intro htake
    rw [← List.take_append_drop (reach (code ctx.graph sections)) t.stack, htake,
      drop_stack_of_balanced h hdepth, List.take_append_drop]

end Balanced

/-- Replaying sections from a trail comes to a section with another trail. -/
inductive Reached (ctx : Context) : List Section → Trail → Section → Trail → Prop where
  | here {s : Section} {ss : List Section} {t : Trail} : Reached ctx (s :: ss) t s t
  | later {s s' : Section} {ss : List Section} {t t' u : Trail}
      (hreplay : replay ctx s t = .ok t') (hrest : Reached ctx ss t' s' u) :
      Reached ctx (s :: ss) t s' u
  | body {condition : Condition} {body alternative ss : List Section} {s : Section}
      {t u : Trail} (hbody : Reached ctx body ⟨[], t.stack⟩ s u) :
      Reached ctx (.choice condition body alternative :: ss) t s u
  | alternative {condition : Condition} {body alternative ss : List Section} {s : Section}
      {t first u : Trail} (hfirst : replayAll ctx body ⟨[], t.stack⟩ = .ok first)
      (halternative : Reached ctx alternative ⟨[], first.stack⟩ s u) :
      Reached ctx (.choice condition body alternative :: ss) t s u

/-- Every section that is reached is replayed if the whole is. -/
theorem Reached.exists_replay {sections : List Section} {t t' u : Trail} {s : Section}
    (hreached : Reached ctx sections t s u) (h : replayAll ctx sections t = .ok t') :
    ∃ u', replay ctx s u = .ok u' := by
  induction hreached generalizing t' with
  | here =>
    rw [replayAll] at h
    obtain ⟨next, hnext, -⟩ := bind_eq_ok.1 h
    exact ⟨next, hnext⟩
  | later hreplay _ ih =>
    rw [replayAll] at h
    obtain ⟨next, hnext, hrest⟩ := bind_eq_ok.1 h
    obtain rfl := Except.ok.inj (hreplay.symm.trans hnext)
    exact ih hrest
  | body _ ih =>
    rw [replayAll] at h
    obtain ⟨next, hnext, -⟩ := bind_eq_ok.1 h
    obtain ⟨first, second, hfirst, -⟩ := replay_choice_eq_ok hnext
    exact ih hfirst
  | alternative hfirst _ ih =>
    rw [replayAll] at h
    obtain ⟨next, hnext, -⟩ := bind_eq_ok.1 h
    -- the body leaves one trail only, so the alternative is the one that was replayed
    obtain ⟨first', second, hfirst', -, hsecond, -⟩ := replay_choice_eq_ok hnext
    obtain rfl := Except.ok.inj (hfirst.symm.trans hfirst')
    exact ih hsecond

end Unjump.Section
