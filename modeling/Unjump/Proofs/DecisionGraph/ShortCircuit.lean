import Unjump.Proofs.DecisionGraph.Orderly
import Unjump.Proofs.Execution.State

/-!
# Asking the condition of a group

A test of a group may raise an exception instead of sending control one way or the other. Then the
course of control through the group ends at an exit or with an exception (`Context.RunsTo`).
Asking the condition of the group from left to right never tells another exit than the one at which
control leaves. But it may raise an exception where control leaves the group, or the reverse:
simplifying takes tests away, and so moves the others to the front.

Where the group is orderly, this does not happen, and asking the condition comes to the same as
running the group (`Context.groupCondition_outcome`).
-/

namespace Unjump

namespace Context

variable {ctx : Context} {group : List Nat} {body past : Nat}

/-- Where control goes from a conditional block: to another block, or nowhere if asking its test
raises an exception. -/
def turn? (ctx : Context) (o : Outcomes) (id : Nat) : Option (Option Nat) :=
  match ctx.jumpTest id with
  | .ok t =>
    match o.ofTest t with
    | some taken => (ctx.edge? id taken).map some
    | none => some none
  | .error _ => none

/-- Control that comes to a member of a group leaves the group at an exit, or ends with an
exception. -/
inductive RunsTo (ctx : Context) (o : Outcomes) (group : List Nat) (body past : Nat) :
    Nat → Option Nat → Prop where
  | raise {id : Nat} (hturn : ctx.turn? o id = some none) : RunsTo ctx o group body past id none
  | leave {id exit : Nat} (hturn : ctx.turn? o id = some (some exit))
      (hexit : exit = body ∨ exit = past) : RunsTo ctx o group body past id (some exit)
  | step {id next : Nat} {result : Option Nat} (hturn : ctx.turn? o id = some (some next))
      (hmem : next ∈ group) (hbody : next ≠ body) (hpast : next ≠ past)
      (hnext : RunsTo ctx o group body past next result) : RunsTo ctx o group body past id result

/-- Control takes one course only. -/
theorem RunsTo.unique {o : Outcomes} {id : Nat} {result other : Option Nat}
    (h : ctx.RunsTo o group body past id result) (h' : ctx.RunsTo o group body past id other) :
    other = result := by
  induction h generalizing other with
  | raise hturn =>
    cases h' with
    | raise => rfl
    | leave hturn' _ => cases hturn.symm.trans hturn'
    | step hturn' _ _ _ _ => cases hturn.symm.trans hturn'
  | leave hturn hexit =>
    cases h' with
    | raise hturn' => cases hturn.symm.trans hturn'
    | leave hturn' _ => cases hturn.symm.trans hturn'; rfl
    | step hturn' _ hbody hpast _ =>
      -- a block that is an exit of the group is never gone through
      cases hturn.symm.trans hturn'
      exact absurd hexit (not_or.2 ⟨hbody, hpast⟩)
  | step hturn _ hbody hpast _ ih =>
    cases h' with
    | raise hturn' => cases hturn.symm.trans hturn'
    | leave hturn' hexit =>
      cases hturn.symm.trans hturn'
      exact absurd hexit (not_or.2 ⟨hbody, hpast⟩)
    | step hturn' _ _ _ hnext => cases hturn.symm.trans hturn'; exact ih hnext

/-- Where a test raises no exception, control goes where its truth value sends it. -/
theorem branch?_of_turn? {o : Outcomes} {v : Valuation} (hv : o.AgreesWith v) {id next : Nat}
    (h : ctx.turn? o id = some (some next)) : ctx.branch? v id = some next := by
  unfold turn? at h
  split at h
  · rename_i t htest
    split at h
    · rename_i taken hasked
      obtain ⟨next', hedge, heq⟩ := Option.map_eq_some_iff.1 h
      cases heq
      rw [edge?] at hedge
      simpa [branch?, htest, hv t taken hasked] using hedge
    · cases h
  · cases h

/-- Where no test raises an exception, control takes the course that the truth values settle. -/
theorem RunsTo.leadsTo {o : Outcomes} {v : Valuation} (hv : o.AgreesWith v) {id : Nat}
    {result : Option Nat} (h : ctx.RunsTo o group body past id result) {exit : Nat}
    (hresult : result = some exit) : ctx.LeadsTo v group body past id exit := by
  induction h with
  | raise => cases hresult
  | leave hturn hexit =>
    cases hresult
    exact .leave (branch?_of_turn? hv hturn) hexit
  | step hturn hmem hbody hpast _ ih =>
    exact .step (branch?_of_turn? hv hturn) hmem hbody hpast (ih hresult)

end Context

/-! ## The tree behind a member -/

namespace DecisionGraph

variable {ctx : Context} {group : List Nat} {body past : Nat} {decisions : List Decision}

/-- Control that comes to a member of a group takes the way through the tree of the member. -/
theorem exists_runsTo_of_unfolds
    (hdecisions : group.mapM (decide ctx group body past) = .ok decisions) (o : Outcomes)
    {tree : DecisionTree} {position id : Nat} (h : Unfolds decisions (.member position) tree)
    (hid : group[position]? = some id) :
    ∃ result, ctx.RunsTo o group body past id result ∧
      (result = none ∨ result = some body ∨ result = some past) ∧
      tree.outcome o = result.map fun exit => Decidable.decide (exit = body) := by
  induction tree generalizing position id with
  | body => cases h
  | past => cases h
  | ask t yes no ihyes ihno =>
    obtain ⟨t, yes, no, heq, htest, hedges⟩ := h.exists_ask hdecisions hid
    cases heq
    cases hasked : o.ofTest t with
    | none =>
      have hturn : ctx.turn? o id = some none := by simp [Context.turn?, htest, hasked]
      exact ⟨none, .raise hturn, .inl rfl, by simp [DecisionTree.outcome, hasked]⟩
    | some taken =>
      obtain ⟨next, hedge, htree⟩ := hedges taken
      have hturn : ctx.turn? o id = some (some next) := by
        simp [Context.turn?, htest, hasked, hedge]
      have houtcome : (DecisionTree.ask t yes no).outcome o =
          (if taken then yes else no).outcome o := by
        rw [DecisionTree.outcome, hasked, Option.bind_some]
        cases taken <;> rfl
      rw [houtcome]
      -- the tree of the next block is one of the two subtrees
      have ih : ∀ {position' : Nat}, Unfolds decisions (.member position')
          (if taken then yes else no) → group[position']? = some next →
          ∃ result, ctx.RunsTo o group body past next result ∧
            (result = none ∨ result = some body ∨ result = some past) ∧
            (if taken then yes else no).outcome o =
              result.map fun exit => Decidable.decide (exit = body) := by
        cases taken with
        | true => exact ihyes
        | false => exact ihno
      generalize (if taken then yes else no) = rest at htree ih ⊢
      cases htree with
      | body => exact ⟨_, .leave hturn (.inl rfl), .inr (.inl rfl), by simp [DecisionTree.outcome]⟩
      | past hne =>
        exact ⟨_, .leave hturn (.inr rfl), .inr (.inr rfl), by simp [DecisionTree.outcome, hne]⟩
      | member hget hbody hpast htree =>
        obtain ⟨result, hruns, hresult, hout⟩ := ih htree hget
        exact ⟨result, .step hturn (List.mem_of_getElem? hget) hbody hpast hruns, hresult, hout⟩

end DecisionGraph

/-! ## Conditions of groups -/

namespace Context

/-- Control takes one course through a group and leaves it at the body or past it, or ends with an
exception. If neither the course nor asking the condition of the group raises one, the condition
tells where control leaves. If the group is orderly, asking the condition raises an exception exactly
if the course does. -/
theorem groupCondition_outcome {ctx : Context} {group : List Nat} {body past : Nat}
    {c : Condition} (h : ctx.groupCondition group body past = .ok c) (o : Outcomes) :
    ∃ entry result, group.head? = some entry ∧ ctx.RunsTo o group body past entry result ∧
      (∀ other, ctx.RunsTo o group body past entry other → other = result) ∧
      (result = none ∨ result = some body ∨ result = some past) ∧
      (∀ b exit, c.outcome o = some b → result = some exit → b = decide (exit = body)) ∧
      (ctx.Orderly group body past entry →
        c.outcome o = result.map fun exit => decide (exit = body)) := by
  obtain ⟨entry, exit, hentry, hleads, -, heval⟩ := exists_leadsTo h o.valuation
  obtain ⟨decisions, tree, hdecisions, htree, rfl⟩ := exists_unfolds h
  have hget : group[0]? = some entry := by rwa [← List.head?_eq_getElem?]
  obtain ⟨result, hruns, hresult, houtcome⟩ :=
    DecisionGraph.exists_runsTo_of_unfolds hdecisions o htree hget
  refine ⟨entry, result, hentry, hruns, fun other hother => hruns.unique hother, hresult, ?_, ?_⟩
  · -- the truth values that the tests have settle both
    intro b exit' hb hexit'
    obtain rfl := (hruns.leadsTo o.agreesWith_valuation hexit').unique hleads
    rw [Condition.eval_of_outcome o.agreesWith_valuation _ hb] at heval
    rw [Bool.eq_iff_iff, heval, decide_eq_true_iff]
  · intro horderly
    have hne : tree ≠ .body := by
      rintro rfl
      cases htree
    rw [← houtcome]
    have hsimplify := DecisionTree.outcome_simplify_behind o (List.nodup_nil : ([] : List Test).Nodup)
      (htree.fresh hdecisions horderly hget .refl (by simp))
      (htree.live hdecisions horderly hget .refl)
      (htree.inOrder hdecisions horderly hget .entry) hne
    exact hsimplify

/-- The test `a != 0 && b / a != 0`: the first block keeps the second one from dividing by zero. -/
def guardedDivision : Context where
  graph := .build
    [⟨0, .iload0, .none⟩, ⟨1, .ifeq, .label 7⟩, ⟨4, .iload1, .none⟩, ⟨5, .iload0, .none⟩,
      ⟨6, .idiv, .none⟩, ⟨7, .ifeq, .label 7⟩, ⟨10, .iinc, .increment 2 1⟩,
      ⟨13, .returnVoid, .none⟩]
  locals := .empty
  constants := []

/-- The condition that a variable without a declaration is true, or that it is false. -/
def localTruth (slot : UInt16) (negated : Bool) : Condition :=
  .test (.truth (.var (LocalTable.empty.resolve slot .int)) negated)

/-- The condition that the quotient of two variables without a declaration is not zero. -/
def quotientTruth (left right : UInt16) : Condition :=
  .test (.truth (.binary .div (.var (LocalTable.empty.resolve left .int))
    (.var (LocalTable.empty.resolve right .int))) false)

theorem orderly_guardedDivision : guardedDivision.Orderly [0, 1] 2 3 0 := by
  have hfalls : guardedDivision.FallsThrough [0, 1] 2 3 :=
    ⟨by decide +kernel, by decide, by decide +kernel, by decide, by decide⟩
  have htests : ∀ id ∈ [0, 1], ∀ id' ∈ [0, 1], id < id' →
      ∀ t ∈ (guardedDivision.jumpTest id).toOption,
        ∀ t' ∈ (guardedDivision.jumpTest id').toOption, t ≠ t' ∧ t ≠ t'.inverse := by
    decide +kernel
  refine .of_fallsThrough hfalls (by decide) fun id hid id' hid' hlt t t' ht ht' => ?_
  exact htests id hid id' hid' hlt t (by rw [ht]; rfl) t' (by rw [ht']; rfl)

theorem groupCondition_outcome_guardedDivision :
    ∃ c result, guardedDivision.groupCondition [0, 1] 2 3 = .ok c ∧
      guardedDivision.RunsTo (.ofState (.filled (.int 0))) [0, 1] 2 3 0 result ∧
      guardedDivision.Orderly [0, 1] 2 3 0 ∧
      c.outcome (.ofState (.filled (.int 0))) = result.map fun exit => decide (exit = 2) := by
  have h : guardedDivision.groupCondition [0, 1] 2 3 =
      .ok (.join .and [localTruth 0 false, quotientTruth 1 0]) :=
    eq_ok_of_toOption_eq_some (by decide +kernel)
  obtain ⟨entry, result, hentry, hruns, -, -, -, houtcome⟩ :=
    groupCondition_outcome h (.ofState (.filled (.int 0)))
  obtain rfl : 0 = entry := Option.some.inj hentry
  exact ⟨_, result, h, hruns, orderly_guardedDivision, houtcome orderly_guardedDivision⟩

/-- A test that is asked twice, once each way round; a third block that divides is gone to only if
the divisor is not zero. -/
def repeatedGuard : Context where
  graph := .build
    [⟨0, .iload0, .none⟩, ⟨1, .ifne, .label 4⟩, ⟨4, .iload0, .none⟩, ⟨5, .ifeq, .label 8⟩,
      ⟨8, .iload1, .none⟩, ⟨9, .iload0, .none⟩, ⟨10, .idiv, .none⟩, ⟨11, .ifeq, .label 9⟩,
      ⟨14, .iinc, .increment 2 1⟩, ⟨17, .returnVoid, .none⟩]
  locals := .empty
  constants := []

/-- Control comes to the body without dividing, but the condition divides by zero first. -/
theorem groupCondition_outcome_repeatedGuard :
    ∃ c, repeatedGuard.groupCondition [0, 1, 2] 3 4 = .ok c ∧
      repeatedGuard.RunsTo (.ofState (.filled (.int 0))) [0, 1, 2] 3 4 0 (some 3) ∧
      c.outcome (.ofState (.filled (.int 0))) = none := by
  have h : repeatedGuard.groupCondition [0, 1, 2] 3 4 =
      .ok (.join .or [quotientTruth 1 0, localTruth 0 true]) :=
    eq_ok_of_toOption_eq_some (by decide +kernel)
  have hfirst : repeatedGuard.turn? (.ofState (.filled (.int 0))) 0 = some (some 1) := rfl
  have hsecond : repeatedGuard.turn? (.ofState (.filled (.int 0))) 1 = some (some 3) := rfl
  refine ⟨_, h, .step hfirst ?_ ?_ ?_ (.leave hsecond (.inl rfl)), rfl⟩
  · simp
  · simp
  · simp

end Context

end Unjump
