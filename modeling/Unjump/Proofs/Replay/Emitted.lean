import Unjump.Proofs.Except
import Unjump.Replay

/-!
# What a replay has emitted before

A replay looks at the stack and never at the statements that it has emitted. After earlier
statements it does what it does without them, and it fails as it fails without them; either way the
earlier statements stay in front (`Context.replayBlock_after`).
-/

namespace Unjump

/-- The trail with earlier statements in front of its own. -/
def Trail.after (earlier : List Statement) (t : Trail) : Trail :=
  { t with emitted := earlier ++ t.emitted }

@[simp] theorem Trail.emitted_after (earlier : List Statement) (t : Trail) :
    (t.after earlier).emitted = earlier ++ t.emitted := rfl

@[simp] theorem Trail.stack_after (earlier : List Statement) (t : Trail) :
    (t.after earlier).stack = t.stack := rfl

/-- Every trail is one that has emitted nothing, after its statements. -/
theorem Trail.after_emitted (t : Trail) : (Trail.mk [] t.stack).after t.emitted = t := by
  simp [after]

/-- The outcome of a replay with earlier statements in front of those that it emits. -/
def Trail.outcomeAfter (earlier : List Statement) : Except Stuck Trail → Except Stuck Trail
  | .ok t => .ok (t.after earlier)
  | .error stuck => .error ⟨stuck.failure, stuck.trail.after earlier⟩

open Trail (outcomeAfter)

/-- Earlier statements do not matter to an action. -/
theorem Action.perform_after {ctx : Context} {block : Nat} {i : Instr} (action : Action)
    (earlier : List Statement) (t : Trail) :
    action.perform ctx block i (t.after earlier) =
      outcomeAfter earlier (action.perform ctx block i t) := by
  obtain ⟨emitted, stack⟩ := t
  cases action with
  | nothing | push | malformed | load => rfl
  | increment | leave => simp [perform, outcomeAfter, Trail.after, Trail.emit]
  | pushConstant index =>
    simp only [perform]
    cases ctx.constants[index.toNat]? <;> rfl
  | assign slot type =>
    cases stack with
    | nil => rfl
    | cons value rest => cases slot <;> simp [perform, outcomeAfter, Trail.after, Trail.emit]
  | leaveWithValue =>
    cases stack with
    | nil => rfl
    | cons value rest => simp [perform, outcomeAfter, Trail.after, Trail.emit]
  | negate | duplicate | discard => cases stack <;> rfl
  | loadElement | arithmetic => obtain _ | ⟨first, _ | ⟨second, rest⟩⟩ := stack <;> rfl
  | storeElement =>
    obtain _ | ⟨value, _ | ⟨index, _ | ⟨array, rest⟩⟩⟩ := stack
    · rfl
    · rfl
    · rfl
    · simp [perform, outcomeAfter, Trail.after, Trail.emit]

/-- What does not look at earlier statements does not look at them in a row either. -/
theorem foldlM_after {α : Type} {f : Trail → α → Except Stuck Trail} {earlier : List Statement}
    (hf : ∀ t x, f (t.after earlier) x = outcomeAfter earlier (f t x)) (xs : List α) (t : Trail) :
    xs.foldlM f (t.after earlier) = outcomeAfter earlier (xs.foldlM f t) := by
  induction xs generalizing t with
  | nil => rfl
  | cons x xs ih =>
    rw [List.foldlM_cons, List.foldlM_cons, hf]
    cases f t x with
    | error stuck => rfl
    | ok next => exact ih next

/-- What goes well without earlier statements goes well after them. -/
theorem foldlM_eq_ok_after {α : Type} {f : Trail → α → Except Stuck Trail}
    (hf : ∀ earlier t x, f (t.after earlier) x = outcomeAfter earlier (f t x)) {xs : List α}
    {t t' : Trail} :
    xs.foldlM f t = .ok t' ↔
      ∃ u, xs.foldlM f ⟨[], t.stack⟩ = .ok u ∧ t' = u.after t.emitted := by
  have hafter := foldlM_after (hf t.emitted) xs ⟨[], t.stack⟩
  rw [t.after_emitted] at hafter
  rw [hafter]
  cases xs.foldlM f ⟨[], t.stack⟩ with
  | error stuck => simp [outcomeAfter]
  | ok u => simp [outcomeAfter, eq_comm]

namespace Context

/-- Earlier statements do not matter to an instruction. -/
theorem replayInstr_after {ctx : Context} {block : Nat} (earlier : List Statement) (t : Trail)
    (i : Instr) :
    ctx.replayInstr block (t.after earlier) i = outcomeAfter earlier (ctx.replayInstr block t i) :=
  i.action.perform_after earlier t

/-- A replay of several instructions is one of the first and, on the stack that it leaves, one of
the others. -/
theorem foldlM_replayInstr_cons {ctx : Context} {block : Nat} {i : Instr} {rest : List Instr}
    {stack : List Expr} {t : Trail} :
    (i :: rest).foldlM (ctx.replayInstr block) ⟨[], stack⟩ = .ok t ↔
      ∃ first more, ctx.replayInstr block ⟨[], stack⟩ i = .ok first ∧
        rest.foldlM (ctx.replayInstr block) ⟨[], first.stack⟩ = .ok more ∧
        t = ⟨first.emitted ++ more.emitted, more.stack⟩ := by
  rw [List.foldlM_cons, bind_eq_ok]
  constructor
  · rintro ⟨first, hfirst, hrest⟩
    obtain ⟨more, hmore, rfl⟩ := (foldlM_eq_ok_after replayInstr_after).1 hrest
    exact ⟨first, more, hfirst, hmore, rfl⟩
  · rintro ⟨first, more, hfirst, hmore, rfl⟩
    exact ⟨first, hfirst, (foldlM_eq_ok_after replayInstr_after).2 ⟨more, hmore, rfl⟩⟩

/-- Earlier statements do not matter to a block. -/
theorem replayBlock_after {ctx : Context} (earlier : List Statement) (t : Trail) (block : Nat) :
    ctx.replayBlock block (t.after earlier) = outcomeAfter earlier (ctx.replayBlock block t) :=
  foldlM_after (replayInstr_after earlier) _ t

end Context

end Unjump
