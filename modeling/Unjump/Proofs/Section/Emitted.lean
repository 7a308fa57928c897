import Unjump.Proofs.Section.Linear

/-!
# What was emitted before a section

A section never takes back what was emitted before it, whether its replay succeeds or not
(`Section.emitted_of_replay`). A choice emits all or nothing: its branches are replayed on lists of
their own, so where anything in it fails, at whatever depth, it emits nothing, and where it succeeds
it emits a single statement.
-/

namespace Unjump

open Trail (outcomeAfter)

/-- The trail at which a replay ends, whether it has succeeded or is stuck. -/
def Trail.atEnd : Except Stuck Trail → Trail
  | .ok t => t
  | .error stuck => stuck.trail

@[simp] theorem Trail.emitted_atEnd_outcomeAfter (earlier : List Statement)
    (outcome : Except Stuck Trail) :
    (atEnd (outcomeAfter earlier outcome)).emitted = earlier ++ (atEnd outcome).emitted := by
  cases outcome <;> rfl

namespace Section

variable (ctx : Context)

/-- Earlier statements do not matter to a section. -/
theorem replay_after (earlier : List Statement) (t : Trail) (s : Section) :
    replay ctx s (t.after earlier) = outcomeAfter earlier (replay ctx s t) := by
  cases s with
  | block id =>
    rw [replay, replay]
    exact Context.replayBlock_after earlier t id
  | choice condition body alternative =>
    -- the branches see the stack alone, so both replays take the same way
    rw [replay, replay, Trail.stack_after]
    split
    · rfl
    · split
      · rfl
      · simp [outcomeAfter, Trail.emit, Trail.after]

/-- A section emits what it emits without earlier statements, after them. -/
theorem emitted_atEnd_replay (s : Section) (t : Trail) :
    (Trail.atEnd (replay ctx s t)).emitted =
      t.emitted ++ (Trail.atEnd (replay ctx s ⟨[], t.stack⟩)).emitted := by
  have hafter := replay_after ctx t.emitted ⟨[], t.stack⟩ s
  rw [t.after_emitted] at hafter
  rw [hafter, Trail.emitted_atEnd_outcomeAfter]

variable {ctx}

/-- A choice that fails leaves the statements as they were. -/
theorem emitted_of_choice_eq_error {condition : Condition} {body alternative : List Section}
    {t : Trail} {stuck : Stuck}
    (h : replay ctx (.choice condition body alternative) t = .error stuck) :
    stuck.trail.emitted = t.emitted := by
  -- either branch can fail, and what it has emitted by then is its own list
  rw [replay] at h
  split at h
  · cases h
    rfl
  · split at h
    · cases h
      rfl
    · cases h

/-- A section fails where one that is reached in it fails. -/
theorem Reached.exists_error {s inner : Section} {t u : Trail} {stuck : Stuck}
    (hreached : Reached ctx [s] t inner u) (h : replay ctx inner u = .error stuck) :
    ∃ stuck', replay ctx s t = .error stuck' := by
  cases hs : replay ctx s t with
  | error stuck' => exact ⟨stuck', rfl⟩
  | ok t' =>
    -- if the section succeeded, so would everything that is reached in it
    have hall : replayAll ctx [s] t = .ok t' := by
      rw [replayAll]
      exact bind_eq_ok.2 ⟨t', hs, rfl⟩
    obtain ⟨u', hinner⟩ := hreached.exists_replay hall
    rw [h] at hinner
    cases hinner

/-- The statements from before a section stay in front, whether it is replayed or fails. A choice
that fails, and one that holds a section that fails when it is reached, leaves the statements as
they were; a choice that is replayed adds one statement with its condition. -/
theorem emitted_of_replay (ctx : Context) (s : Section) (t : Trail) :
    t.emitted <+: (Trail.atEnd (replay ctx s t)).emitted ∧
    ∀ condition body alternative, s = .choice condition body alternative →
      (∀ stuck, replay ctx s t = .error stuck → stuck.trail.emitted = t.emitted) ∧
      (∀ inner u stuck, Reached ctx [s] t inner u → replay ctx inner u = .error stuck →
        ∃ stuck', replay ctx s t = .error stuck' ∧ stuck'.trail.emitted = t.emitted) ∧
      ∀ t', replay ctx s t = .ok t' →
        ∃ first second, t'.emitted = t.emitted ++ [.branch condition first second] := by
  constructor
  · rw [emitted_atEnd_replay]
    exact List.prefix_append _ _
  · rintro condition body alternative rfl
    refine ⟨fun stuck => emitted_of_choice_eq_error, ?_, ?_⟩
    · intro inner u stuck hreached hinner
      obtain ⟨stuck', hstuck'⟩ := hreached.exists_error hinner
      exact ⟨stuck', hstuck', emitted_of_choice_eq_error hstuck'⟩
    · intro t' ht'
      obtain ⟨first, second, -, -, -, -, rfl⟩ := replay_choice_eq_ok ht'
      exact ⟨first.emitted, second.emitted, rfl⟩

/-- A choice whose inner alternative takes one operand more than there is, after its body and the
first block of the alternative have emitted statements. -/
def starvedSection : Section :=
  .choice (localTrue 4) [.block 0, .choice (localTrue 5) [.block 1] [.block 2, .block 2]] []

/-- A remark that was emitted before, and an operand. -/
def remarked : Trail :=
  ⟨[.comment "before"], [.int 7]⟩

theorem emitted_of_replay_starvedSection :
    (∃ stuck, replay relay starvedSection remarked = .error stuck ∧
      stuck.trail.emitted = [.comment "before"]) ∧
    ∃ t first second, replay relay (.choice (localTrue 4) [.block 0] []) remarked = .ok t ∧
      t.emitted = [.comment "before", .branch (localTrue 4) first second] := by
  constructor
  · obtain ⟨-, hchoice⟩ := emitted_of_replay relay starvedSection remarked
    obtain ⟨-, hinside, -⟩ := hchoice _ _ _ rfl
    -- the second time the last block finds no operand for its first store
    have hreached : Reached relay [starvedSection] remarked (.block 2)
        ⟨[.assign ⟨3, "local3", .int⟩ (.var ⟨1, "local1", .int⟩), .leave none], []⟩ :=
      .body (.later rfl (.alternative rfl (.later rfl .here)))
    exact hinside _ _ _ hreached rfl
  · obtain ⟨-, hchoice⟩ :=
      emitted_of_replay relay (.choice (localTrue 4) [.block 0] []) remarked
    obtain ⟨-, -, hdone⟩ := hchoice _ _ _ rfl
    obtain ⟨first, second, hemitted⟩ := hdone _ rfl
    exact ⟨_, first, second, rfl, hemitted⟩

end Section

end Unjump
