import Unjump.Proofs.Replay.Frame
import Unjump.Proofs.Section.Linear

/-!
# Operands below the replay of sections

Sections that can be replayed on a stack can be replayed with more operands underneath it. They emit
the same statements, and the operands underneath stay where they are (`Section.replayAll_on_base`).
A branch is compared with the depth at which it starts, so the depth itself does not matter.
-/

namespace Unjump.Section

variable {ctx : Context} {base : List Expr}

mutual

theorem replay_above {s : Section} {t t' : Trail} (h : replay ctx s t = .ok t') :
    replay ctx s (t.above base) = .ok (t'.above base) := by
  match s with
  | .block id =>
    rw [replay] at h ⊢
    exact Context.replayBlock_above h
  | .choice condition body alternative =>
    obtain ⟨first, second, hfirst, hdepth, hsecond, hdepth', rfl⟩ := replay_choice_eq_ok h
    -- each branch starts without statements, the second one on the stack that the first one leaves
    have hbody : replayAll ctx body ⟨[], t.stack ++ base⟩ = .ok (first.above base) :=
      replayAll_above hfirst
    have halternative : replayAll ctx alternative ⟨[], first.stack ++ base⟩ =
        .ok (second.above base) :=
      replayAll_above hsecond
    -- both depths grow by that of the base
    have hbalanced : (first.above base).stack.length = (t.above base).stack.length := by
      rw [Trail.length_stack_above, Trail.length_stack_above, hdepth]
    have hbalanced' : (second.above base).stack.length = (t.above base).stack.length := by
      rw [Trail.length_stack_above, Trail.length_stack_above, hdepth']
    exact replay_choice_of_branches hbody hbalanced halternative hbalanced'

theorem replayAll_above {sections : List Section} {t t' : Trail}
    (h : replayAll ctx sections t = .ok t') :
    replayAll ctx sections (t.above base) = .ok (t'.above base) := by
  match sections with
  | [] =>
    rw [replayAll] at h ⊢
    cases h
    rfl
  | s :: ss =>
    rw [replayAll] at h ⊢
    obtain ⟨next, hnext, hrest⟩ := bind_eq_ok.1 h
    exact bind_eq_ok.2 ⟨next.above base, replay_above hnext, replayAll_above hrest⟩

end

/-- Sections that are replayed on a stack are replayed on it with more operands underneath: they emit
the same statements, and the operands underneath stay as they are. -/
theorem replayAll_on_base {sections : List Section} {stack stack' : List Expr}
    {statements : List Statement} (base : List Expr)
    (h : replayAll ctx sections ⟨[], stack⟩ = .ok ⟨statements, stack'⟩) :
    replayAll ctx sections ⟨[], stack ++ base⟩ = .ok ⟨statements, stack' ++ base⟩ :=
  replayAll_above h

/-- The choice of `relaySections` takes the seven and leaves another operand in its place, whatever
lies below. -/
theorem replayAll_on_base_relay :
    ∃ statements, replayAll relay (relaySections.take 1) ⟨[], [.int 7]⟩ =
        .ok ⟨statements, [.var ⟨1, "local1", .int⟩]⟩ ∧
      replayAll relay (relaySections.take 1) ⟨[], [.int 7, .null, .int 9]⟩ =
        .ok ⟨statements, [.var ⟨1, "local1", .int⟩, .null, .int 9]⟩ := by
  have h : replayAll relay (relaySections.take 1) ⟨[], [.int 7]⟩ =
      .ok ⟨relayStatements.take 1, [.var ⟨1, "local1", .int⟩]⟩ := rfl
  exact ⟨_, h, replayAll_on_base [.null, .int 9] h⟩

end Unjump.Section
