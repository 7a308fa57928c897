import Unjump.Proofs.Except
import Unjump.Region

/-!
# The search for choices

`Context.Searches` follows `Context.sectionsBetween` pass by pass, whether it finds sections or
fails, one constructor for each way to go on from a block. Every pass takes up a block that no pass
has taken up before, so the search ends after at most as many passes as there are blocks
(`Context.searches_sectionsBetween`).
-/

namespace Unjump.Context

/-- A group of blocks with tests begins at `start`, and `count` more blocks join it. -/
structure Gathers (ctx : Context) (start stop count : Nat) : Prop where
  lt : start < stop
  isFeeder : ctx.graph.isFeeder start = false
  isConditional : ctx.graph.isConditional start = true
  count_eq : count = ctx.graph.grow start stop 1

/-- The group that begins at `start` guards the blocks behind it up to `past`. -/
structure Guards (ctx : Context) (start stop count past : Nat) : Prop
    extends ctx.Gathers start stop count where
  body_mem : start + count + 1 ∈ ctx.graph.exits start (count + 1)
  exit : (ctx.graph.exits start (count + 1)).find? (· ≠ start + count + 1) = some past
  body_lt : start + count + 1 < past
  past_le : past ≤ stop

/-- The search for sections of the blocks from `start` up to `stop` comes to a result. Of each pass
on the way, the list holds the first and the last bound of the blocks that are left to search. -/
inductive Searches (ctx : Context) :
    Nat → Nat → List (Nat × Nat) → Except Failure (List Section) → Prop where
  /-- No block is left. -/
  | done {start stop : Nat} (hlt : ¬ start < stop) : Searches ctx start stop [] (.ok [])
  /-- A block that leaves operands for a test is part of the test. -/
  | feeder {start stop : Nat} {passes : List (Nat × Nat)} {result : Except Failure (List Section)}
      (hlt : start < stop) (hfeeder : ctx.graph.isFeeder start = true)
      (hrest : Searches ctx (start + 1) stop passes result) :
      Searches ctx start stop ((start, stop) :: passes) result
  /-- A block without a test is a section of its own. -/
  | block {start stop : Nat} {passes : List (Nat × Nat)} {result : Except Failure (List Section)}
      (hlt : start < stop) (hfeeder : ctx.graph.isFeeder start = false)
      (hcond : ctx.graph.isConditional start = false)
      (hrest : Searches ctx (start + 1) stop passes result) :
      Searches ctx start stop ((start, stop) :: passes) (result.map (.block start :: ·))
  /-- The group does not lead to the block behind it. -/
  | noBody {start stop count : Nat} (hgroup : ctx.Gathers start stop count)
      (hbody : start + count + 1 ∉ ctx.graph.exits start (count + 1)) :
      Searches ctx start stop [(start, stop)]
        (.error (.unsupported start (.noBody (List.range' start (count + 1)))))
  /-- The group leads nowhere else. -/
  | singleExit {start stop count : Nat} (hgroup : ctx.Gathers start stop count)
      (hbody : start + count + 1 ∈ ctx.graph.exits start (count + 1))
      (hexit : (ctx.graph.exits start (count + 1)).find? (· ≠ start + count + 1) = none) :
      Searches ctx start stop [(start, stop)]
        (.error (.unsupported start (.singleExit (List.range' start (count + 1)))))
  /-- The other exit is not further on, or too far. -/
  | exitOutside {start stop count past : Nat} (hgroup : ctx.Gathers start stop count)
      (hbody : start + count + 1 ∈ ctx.graph.exits start (count + 1))
      (hexit : (ctx.graph.exits start (count + 1)).find? (· ≠ start + count + 1) = some past)
      (hpast : past ≤ start + count + 1 ∨ stop < past) :
      Searches ctx start stop [(start, stop)]
        (.error (.unsupported start (.exitOutside past (start + count + 1) stop)))
  /-- The group has no condition. -/
  | noCondition {start stop count past : Nat} {failure : Failure}
      (hguards : ctx.Guards start stop count past)
      (hcondition : ctx.groupCondition (List.range' start (count + 1)) (start + count + 1) past =
        .error failure) :
      Searches ctx start stop [(start, stop)] (.error failure)
  /-- The guarded blocks have no sections. -/
  | noInside {start stop count past : Nat} {condition : Condition} {passes : List (Nat × Nat)}
      {failure : Failure} (hguards : ctx.Guards start stop count past)
      (hcondition : ctx.groupCondition (List.range' start (count + 1)) (start + count + 1) past =
        .ok condition)
      (hinside : Searches ctx (start + count + 1) past passes (.error failure)) :
      Searches ctx start stop ((start, stop) :: passes) (.error failure)
  /-- The blocks of the alternative have no sections. -/
  | noAlternative {start stop count past : Nat} {condition : Condition} {inside : List Section}
      {passes passes' : List (Nat × Nat)} {failure : Failure}
      (hguards : ctx.Guards start stop count past)
      (hcondition : ctx.groupCondition (List.range' start (count + 1)) (start + count + 1) past =
        .ok condition)
      (hinside : Searches ctx (start + count + 1) past passes (.ok inside))
      (halternative : Searches ctx past (ctx.graph.join past stop) passes' (.error failure)) :
      Searches ctx start stop ((start, stop) :: (passes ++ passes')) (.error failure)
  /-- A group and the two branches behind it make a choice. -/
  | choice {start stop count past : Nat} {condition : Condition} {inside alternative : List Section}
      {passes passes' passes'' : List (Nat × Nat)} {result : Except Failure (List Section)}
      (hguards : ctx.Guards start stop count past)
      (hcondition : ctx.groupCondition (List.range' start (count + 1)) (start + count + 1) past =
        .ok condition)
      (hinside : Searches ctx (start + count + 1) past passes (.ok inside))
      (halternative : Searches ctx past (ctx.graph.join past stop) passes' (.ok alternative))
      (hrest : Searches ctx (ctx.graph.join past stop) stop passes'' result) :
      Searches ctx start stop ((start, stop) :: (passes ++ passes' ++ passes''))
        (result.map (.choice condition inside alternative :: ·))

variable {ctx : Context} {start stop count past : Nat}

/-! ## One pass -/

theorem sectionsBetween_of_not_lt (hlt : ¬ start < stop) :
    ctx.sectionsBetween start stop = .ok [] := by
  rw [sectionsBetween, if_neg hlt]
  rfl

theorem sectionsBetween_of_feeder (hlt : start < stop) (hfeeder : ctx.graph.isFeeder start = true) :
    ctx.sectionsBetween start stop = ctx.sectionsBetween (start + 1) stop := by
  rw [sectionsBetween, if_pos hlt, if_pos hfeeder]

theorem sectionsBetween_of_block (hlt : start < stop)
    (hfeeder : ctx.graph.isFeeder start = false)
    (hcond : ctx.graph.isConditional start = false) :
    ctx.sectionsBetween start stop =
      (ctx.sectionsBetween (start + 1) stop).map (.block start :: ·) := by
  rw [sectionsBetween, if_pos hlt, if_neg (by simp [hfeeder]), if_pos (by simp [hcond])]
  cases ctx.sectionsBetween (start + 1) stop <;> rfl

theorem Gathers.sectionsBetween_noBody (hgroup : ctx.Gathers start stop count)
    (hbody : start + count + 1 ∉ ctx.graph.exits start (count + 1)) :
    ctx.sectionsBetween start stop =
      .error (.unsupported start (.noBody (List.range' start (count + 1)))) := by
  obtain ⟨hlt, hfeeder, hcond, rfl⟩ := hgroup
  rw [sectionsBetween, if_pos hlt, if_neg (by simp [hfeeder]), if_neg (by simp [hcond]),
    if_pos hbody]
  rfl

theorem Gathers.sectionsBetween_singleExit (hgroup : ctx.Gathers start stop count)
    (hbody : start + count + 1 ∈ ctx.graph.exits start (count + 1))
    (hexit : (ctx.graph.exits start (count + 1)).find? (· ≠ start + count + 1) = none) :
    ctx.sectionsBetween start stop =
      .error (.unsupported start (.singleExit (List.range' start (count + 1)))) := by
  obtain ⟨hlt, hfeeder, hcond, rfl⟩ := hgroup
  rw [sectionsBetween, if_pos hlt, if_neg (by simp [hfeeder]), if_neg (by simp [hcond]),
    if_neg (not_not_intro hbody), hexit]
  rfl

theorem Gathers.sectionsBetween_exitOutside (hgroup : ctx.Gathers start stop count)
    (hbody : start + count + 1 ∈ ctx.graph.exits start (count + 1))
    (hexit : (ctx.graph.exits start (count + 1)).find? (· ≠ start + count + 1) = some past)
    (hpast : past ≤ start + count + 1 ∨ stop < past) :
    ctx.sectionsBetween start stop =
      .error (.unsupported start (.exitOutside past (start + count + 1) stop)) := by
  obtain ⟨hlt, hfeeder, hcond, rfl⟩ := hgroup
  rw [sectionsBetween, if_pos hlt, if_neg (by simp [hfeeder]), if_neg (by simp [hcond]),
    if_neg (not_not_intro hbody), hexit]
  exact if_pos hpast

theorem Guards.sectionsBetween_eq (hguards : ctx.Guards start stop count past) :
    ctx.sectionsBetween start stop = (do
      let condition ←
        ctx.groupCondition (List.range' start (count + 1)) (start + count + 1) past
      let inside ← ctx.sectionsBetween (start + count + 1) past
      let alternative ← ctx.sectionsBetween past (ctx.graph.join past stop)
      let rest ← ctx.sectionsBetween (ctx.graph.join past stop) stop
      return .choice condition inside alternative :: rest) := by
  obtain ⟨⟨hlt, hfeeder, hcond, rfl⟩, hbody, hexit, hbodyLt, hpast⟩ := hguards
  rw [sectionsBetween, if_pos hlt, if_neg (by simp [hfeeder]), if_neg (by simp [hcond]),
    if_neg (not_not_intro hbody), hexit]
  exact if_neg (by omega)

/-! ## The passes of a search -/

/-- Every pass takes up a block, and none looks beyond `stop`. -/
def EndBy (passes : List (Nat × Nat)) (stop : Nat) : Prop :=
  ∀ pass ∈ passes, pass.1 < pass.2 ∧ pass.2 ≤ stop

theorem EndBy.mono {passes : List (Nat × Nat)} {stop stop' : Nat} (h : EndBy passes stop)
    (hle : stop ≤ stop') : EndBy passes stop' :=
  fun pass hpass => ⟨(h pass hpass).1, Nat.le_trans (h pass hpass).2 hle⟩

theorem EndBy.cons {passes : List (Nat × Nat)} {start stop : Nat} (hlt : start < stop)
    (h : EndBy passes stop) : EndBy ((start, stop) :: passes) stop :=
  List.forall_mem_cons.2 ⟨⟨hlt, Nat.le_refl stop⟩, h⟩

theorem EndBy.append {passes passes' : List (Nat × Nat)} {stop : Nat} (h : EndBy passes stop)
    (h' : EndBy passes' stop) : EndBy (passes ++ passes') stop :=
  List.forall_mem_append.2 ⟨h, h'⟩

/-- No pass looks beyond the blocks that are searched. -/
theorem endBy_of_searches {passes : List (Nat × Nat)} {result : Except Failure (List Section)}
    (h : ctx.Searches start stop passes result) : EndBy passes stop := by
  have hnil (stop : Nat) : EndBy [] stop := fun _ hpass => nomatch hpass
  induction h with
  | done => exact hnil _
  | feeder hlt _ _ ih | block hlt _ _ _ ih => exact ih.cons hlt
  | noBody hgroup | singleExit hgroup | exitOutside hgroup => exact (hnil _).cons hgroup.lt
  | noCondition hguards => exact (hnil _).cons hguards.lt
  | noInside hguards _ _ ih => exact (ih.mono hguards.past_le).cons hguards.lt
  | noAlternative hguards _ _ _ ihInside ihAlternative =>
    have hjoin := ctx.graph.join_le hguards.past_le
    exact ((ihInside.mono hguards.past_le).append (ihAlternative.mono hjoin)).cons hguards.lt
  | choice hguards _ _ _ _ ihInside ihAlternative ihRest =>
    have hjoin := ctx.graph.join_le hguards.past_le
    exact (((ihInside.mono hguards.past_le).append (ihAlternative.mono hjoin)).append ihRest).cons
      hguards.lt

/-! ## The end of a search -/

/-- A group that guards blocks makes a choice, unless its condition or one of the searches that it
begins fails. -/
theorem Guards.exists_searches (hguards : ctx.Guards start stop count past)
    {passes passes' passes'' : List (Nat × Nat)}
    {inside alternative rest : Except Failure (List Section)}
    (hinside : ctx.Searches (start + count + 1) past passes inside)
    (halternative : ctx.Searches past (ctx.graph.join past stop) passes' alternative)
    (hrest : ctx.Searches (ctx.graph.join past stop) stop passes'' rest) :
    ∃ all : List (Nat × Nat), all.length ≤ 1 + passes.length + passes'.length + passes''.length ∧
      ctx.Searches start stop all (do
        let condition ←
          ctx.groupCondition (List.range' start (count + 1)) (start + count + 1) past
        let inside ← inside
        let alternative ← alternative
        let rest ← rest
        return .choice condition inside alternative :: rest) := by
  cases hcondition :
      ctx.groupCondition (List.range' start (count + 1)) (start + count + 1) past with
  | error failure =>
    exact ⟨[(start, stop)], by rw [List.length_singleton]; omega, .noCondition hguards hcondition⟩
  | ok condition =>
    cases inside with
    | error failure =>
      exact ⟨_, by rw [List.length_cons]; omega, .noInside hguards hcondition hinside⟩
    | ok inside =>
      cases alternative with
      | error failure =>
        exact ⟨_, by rw [List.length_cons, List.length_append]; omega,
          .noAlternative hguards hcondition hinside halternative⟩
      | ok alternative =>
        have hchoice := Searches.choice hguards hcondition hinside halternative hrest
        refine ⟨(start, stop) :: (passes ++ passes' ++ passes''), ?_, ?_⟩
        · simp only [List.length_cons, List.length_append]
          omega
        · cases rest <;> exact hchoice

/-- The search ends, after at most as many passes as there are blocks. -/
theorem searches_sectionsBetween (ctx : Context) (start stop : Nat) :
    ∃ passes : List (Nat × Nat), passes.length ≤ stop - start ∧
      ctx.Searches start stop passes (ctx.sectionsBetween start stop) := by
  by_cases hlt : start < stop
  · have hone : [(start, stop)].length ≤ stop - start := by rw [List.length_singleton]; omega
    cases hfeeder : ctx.graph.isFeeder start with
    | true =>
      obtain ⟨passes, hlength, hrest⟩ := ctx.searches_sectionsBetween (start + 1) stop
      rw [sectionsBetween_of_feeder hlt hfeeder]
      exact ⟨_, by rw [List.length_cons]; omega, .feeder hlt hfeeder hrest⟩
    | false =>
      cases hcond : ctx.graph.isConditional start with
      | false =>
        obtain ⟨passes, hlength, hrest⟩ := ctx.searches_sectionsBetween (start + 1) stop
        rw [sectionsBetween_of_block hlt hfeeder hcond]
        exact ⟨_, by rw [List.length_cons]; omega, .block hlt hfeeder hcond hrest⟩
      | true =>
        obtain ⟨count, hcount⟩ : ∃ count, count = ctx.graph.grow start stop 1 := ⟨_, rfl⟩
        have hgroup : ctx.Gathers start stop count := ⟨hlt, hfeeder, hcond, hcount⟩
        by_cases hbody : start + count + 1 ∈ ctx.graph.exits start (count + 1)
        · cases hexit :
            (ctx.graph.exits start (count + 1)).find? (· ≠ start + count + 1) with
          | none =>
            rw [hgroup.sectionsBetween_singleExit hbody hexit]
            exact ⟨_, hone, .singleExit hgroup hbody hexit⟩
          | some past =>
            by_cases hpast : past ≤ start + count + 1 ∨ stop < past
            · rw [hgroup.sectionsBetween_exitOutside hbody hexit hpast]
              exact ⟨_, hone, .exitOutside hgroup hbody hexit hpast⟩
            · have hguards : ctx.Guards start stop count past :=
                ⟨hgroup, hbody, hexit, by omega, by omega⟩
              have hjoin := ctx.graph.le_join past stop
              have hjoin' := ctx.graph.join_le hguards.past_le
              -- the three searches that the group begins share no block
              obtain ⟨_, hlength, hinside⟩ :=
                ctx.searches_sectionsBetween (start + count + 1) past
              obtain ⟨_, hlength', halternative⟩ :=
                ctx.searches_sectionsBetween past (ctx.graph.join past stop)
              obtain ⟨_, hlength'', hrest⟩ :=
                ctx.searches_sectionsBetween (ctx.graph.join past stop) stop
              obtain ⟨passes, hle, h⟩ := hguards.exists_searches hinside halternative hrest
              rw [hguards.sectionsBetween_eq]
              exact ⟨passes, by omega, h⟩
        · rw [hgroup.sectionsBetween_noBody hbody]
          exact ⟨_, hone, .noBody hgroup hbody⟩
  · rw [sectionsBetween_of_not_lt hlt]
    exact ⟨[], Nat.zero_le _, .done hlt⟩
  termination_by stop - start
  decreasing_by all_goals omega

end Unjump.Context
