import Unjump.Proofs.DecisionGraph.Course

/-!
# Exchanging the exits of a group

A group between a body and the block past it makes the same decisions as the group whose exits
stand the other way round; only the two exits have changed places. So every path stays the same
path, with the exits exchanged (`DecisionGraph.build_swap`), and the condition that leads to the
one exit is false exactly when the condition that leads to the other is true
(`Context.groupCondition_eval_not`).
-/

namespace Unjump

/-- The exit with the body and the block past it exchanged. -/
def Exit.swap : Exit → Exit
  | .body => .past
  | .past => .body
  | .member position => .member position

@[simp] theorem Exit.swap_body : Exit.body.swap = .past := rfl

@[simp] theorem Exit.swap_past : Exit.past.swap = .body := rfl

@[simp] theorem Exit.swap_member (position : Nat) :
    (Exit.member position).swap = .member position := rfl

@[simp] theorem Exit.swap_swap (exit : Exit) : exit.swap.swap = exit := by
  cases exit <;> rfl

/-- One exit is another exchanged exactly if it is the other when exchanged itself. -/
theorem Exit.swap_eq_iff {exit other : Exit} : exit.swap = other ↔ exit = other.swap := by
  constructor
  · rintro rfl
    rw [swap_swap]
  · rintro rfl
    rw [swap_swap]

/-- The decision with the exits exchanged. -/
def Decision.swap (d : Decision) : Decision :=
  { d with target := d.target.swap, otherwise := d.otherwise.swap }

/-- The path with the exits exchanged. -/
def Path.swap (path : Path) : Path :=
  { path with exit := path.exit.swap }

@[simp] theorem Path.conditions_swap (path : Path) : path.swap.conditions = path.conditions := rfl

@[simp] theorem Path.exit_swap (path : Path) : path.swap.exit = path.exit.swap := rfl

@[simp] theorem Path.condition_swap (path : Path) : path.swap.condition = path.condition := rfl

namespace DecisionGraph

/-- The graph with the exits exchanged. -/
def swap (g : DecisionGraph) : DecisionGraph :=
  ⟨g.decisions.map Decision.swap, g.paths.map Path.swap⟩

/-- The blocks of a group with the conditions under which they jump. -/
def members (g : DecisionGraph) : List (Nat × Condition) :=
  g.decisions.map fun d => (d.block, d.condition)

/-- The members are the same when the exits are exchanged. -/
theorem members_swap (g : DecisionGraph) : g.swap.members = g.members := by
  simp [members, swap, Decision.swap]

/-- The paths to an exit are the paths to the other when the exits are exchanged. -/
theorem pathsTo_swap (g : DecisionGraph) (exit : Exit) :
    g.swap.pathsTo exit = g.pathsTo exit.swap := by
  simp [pathsTo, swap, List.filter_map, Function.comp_def, Exit.swap_eq_iff]

/-- What a walk notes of a path and of the work that is left, with the exits exchanged. -/
theorem map_noted_append_swap (path : Path) (later : Option (List Path)) :
    (later.map (noted path ++ ·)).map (List.map Path.swap) =
      (later.map (List.map Path.swap)).map (noted path.swap ++ ·) := by
  have hnoted : (noted path).map Path.swap = noted path.swap := by
    unfold noted
    split <;> simp_all
  cases later with
  | none => rfl
  | some later => simp [hnoted]

/-- The step that comes to where an edge leads when the exits are exchanged. -/
def Step.swap : Step → Step
  | .enter exit => .enter exit.swap
  | .turn position => .turn position
  | .leave => .leave

/-- The walk finds the same paths when the exits are exchanged. -/
theorem walk_swap (decisions : List Decision) (steps : List Step) (conditions : List Condition) :
    walk (decisions.map Decision.swap) (steps.map Step.swap) conditions =
      (walk decisions steps conditions).map (List.map Path.swap) := by
  fun_induction walk decisions steps conditions with
  | case1 => simp [walk]
  | case2 rest conditions ih | case3 rest conditions ih =>
    rw [map_noted_append_swap, ← ih, List.map_cons, Step.swap, Exit.swap, walk]
    rfl
  | case4 rest conditions position hlt d hd ih =>
    rw [map_noted_append_swap, ← ih, List.map_cons, Step.swap, Exit.swap, walk]
    simp [hlt, hd, Step.swap, Decision.swap, Path.swap, Exit.swap]
  | case5 rest conditions position hlt hd ih =>
    rw [map_noted_append_swap, ← ih, List.map_cons, Step.swap, Exit.swap, walk]
    simp [hlt, hd, Path.swap, Exit.swap]
  | case6 rest conditions position hlong =>
    rw [List.map_cons, Step.swap, Exit.swap, walk]
    simp [hlong]
  | case7 position rest conditions d hd ih =>
    rw [← ih, List.map_cons, Step.swap, walk]
    simp [hd, Step.swap, Decision.swap]
  | case8 position rest conditions hd ih =>
    rw [← ih, List.map_cons, Step.swap, walk]
    simp [hd]
  | case9 rest conditions ih => rw [← ih, List.map_cons, Step.swap, walk]

variable {ctx : Context} {group : List Nat} {body past : Nat}

/-- An edge leads to the same place when the exits are exchanged. -/
theorem resolve_swap (hne : body ≠ past) (block target : Nat) :
    resolve group past body block target =
      (resolve group body past block target).map Exit.swap := by
  unfold resolve
  by_cases hbody : target = body
  · rw [if_neg (hbody ▸ hne), if_pos hbody, if_pos hbody]
    rfl
  by_cases hpast : target = past
  · rw [if_pos hpast, if_neg hbody, if_pos hpast]
    rfl
  rw [if_neg hpast, if_neg hbody, if_neg hbody, if_neg hpast]
  cases group.idxOf? target with
  | none => rfl
  | some position => rfl

/-- A member makes the same decision when the exits are exchanged. -/
theorem decide_swap (hne : body ≠ past) (block : Nat) :
    decide ctx group past body block = (decide ctx group body past block).map Decision.swap := by
  unfold decide
  cases ctx.jumpTest block with
  | error failure => rfl
  | ok test =>
    cases (ctx.graph.block? block).bind (·.target) with
    | none => rfl
    | some target =>
      cases (ctx.graph.block? block).bind (·.otherwise) with
      | none => rfl
      | some otherwise =>
        simp only [resolve_swap hne]
        cases resolve group body past block target with
        | error failure => rfl
        | ok exit => cases resolve group body past block otherwise <;> rfl

/-- A group with the exits exchanged has the same decisions and paths, with the exits exchanged. -/
theorem build_swap (hgroup : group ≠ []) (hne : body ≠ past) :
    build ctx group past body = (build ctx group body past).map swap := by
  obtain ⟨entry, rest, rfl⟩ := List.exists_cons_of_ne_nil hgroup
  have hdecide : decide ctx (entry :: rest) past body =
      fun block => (decide ctx (entry :: rest) body past block).map Decision.swap :=
    funext (decide_swap hne)
  simp only [build, hdecide, mapM_map]
  cases (entry :: rest).mapM (decide ctx (entry :: rest) body past) with
  | error failure => rfl
  | ok decisions =>
    have hwalk : walk (decisions.map Decision.swap) [.enter (.member 0)] [] =
        (walk decisions [.enter (.member 0)] []).map (List.map Path.swap) :=
      walk_swap decisions [.enter (.member 0)] []
    simp only [Except.map, bind, Except.bind, hwalk]
    cases walk decisions [.enter (.member 0)] [] <;> rfl

end DecisionGraph

/-- Control leaves a group in the same way when the exits are exchanged. -/
theorem Context.LeadsTo.swap {ctx : Context} {v : Valuation} {group : List Nat}
    {body past id exit : Nat} (h : ctx.LeadsTo v group body past id exit) :
    ctx.LeadsTo v group past body id exit := by
  induction h with
  | leave hbranch hexit => exact .leave hbranch hexit.symm
  | step hbranch hmem hbody hpast _ ih => exact .step hbranch hmem hpast hbody ih

/-- Of the conditions of a group and of the group with the exits exchanged, exactly one is true. -/
theorem Context.groupCondition_eval_not {ctx : Context} {group : List Nat} {body past : Nat}
    (hne : body ≠ past) {c c' : Condition} (h : ctx.groupCondition group body past = .ok c)
    (h' : ctx.groupCondition group past body = .ok c') (v : Valuation) :
    c'.eval v = !c.eval v := by
  obtain ⟨entry, exit, hentry, hleads, -, heval⟩ := exists_leadsTo h v
  obtain ⟨entry', exit', hentry', hleads', hexit', heval'⟩ := exists_leadsTo h' v
  -- both conditions tell where the one course of control from the first block ends
  obtain rfl := Option.some.inj (hentry.symm.trans hentry')
  obtain rfl := hleads.unique hleads'.swap
  rw [Bool.eq_not, Ne, Bool.eq_iff_iff, heval, heval']
  obtain rfl | rfl := hexit'
  · exact fun hiff => hne (hiff.1 rfl).symm
  · exact fun hiff => hne (hiff.2 rfl)

namespace DecisionGraph

variable {ctx : Context} {group : List Nat} {body past : Nat}

/-- A group and the group with the exits exchanged are both built or fail alike. They have the same
members and the same paths to every member; the paths to the body of one are the paths past the
body of the other; and of their conditions exactly one is true. -/
theorem build_exchange (hgroup : group ≠ []) (hne : body ≠ past) :
    (∀ failure, build ctx group past body = .error failure ↔
      build ctx group body past = .error failure) ∧
    (∀ g, build ctx group body past = .ok g → ∃ g', build ctx group past body = .ok g' ∧
      g'.members = g.members ∧
      (∀ position, g'.pathsTo (.member position) = g.pathsTo (.member position)) ∧
      g'.pathsTo .body = g.pathsTo .past ∧ g'.pathsTo .past = g.pathsTo .body) ∧
    (∀ c c', ctx.groupCondition group body past = .ok c →
      ctx.groupCondition group past body = .ok c' → ∀ v, c'.eval v = !c.eval v) := by
  refine ⟨fun failure => ?_, fun g hg => ⟨g.swap, ?_, ?_⟩, fun c c' h h' v => ?_⟩
  · rw [build_swap hgroup hne]
    cases build ctx group body past <;> simp [Except.map]
  · rw [build_swap hgroup hne, hg]
    rfl
  · simp [members_swap, pathsTo_swap]
  · exact Context.groupCondition_eval_not hne h h' v

/-- The condition under which control passes the body of `sharedTest`. -/
def sharedComplement : Condition :=
  .join .or [.join .and [localTest .le 0, localTest .le 2],
    .join .and [localTest .gt 0, localTest .le 1, localTest .le 2]]

theorem build_exchange_sharedTest :
    sharedTest.groupCondition [0, 1, 2] 3 4 = .ok sharedCondition ∧
      sharedTest.groupCondition [0, 1, 2] 4 3 = .ok sharedComplement ∧
      (∃ g g', build sharedTest [0, 1, 2] 3 4 = .ok g ∧
        build sharedTest [0, 1, 2] 4 3 = .ok g' ∧
        g'.members = g.members ∧
        (∀ position, g'.pathsTo (.member position) = g.pathsTo (.member position)) ∧
        g'.pathsTo .body = g.pathsTo .past ∧ g'.pathsTo .past = g.pathsTo .body) ∧
      ∀ v, sharedComplement.eval v = !sharedCondition.eval v := by
  have hbody : sharedTest.groupCondition [0, 1, 2] 3 4 = .ok sharedCondition :=
    eq_ok_of_toOption_eq_some (by decide +kernel)
  have hpast : sharedTest.groupCondition [0, 1, 2] 4 3 = .ok sharedComplement :=
    eq_ok_of_toOption_eq_some (by decide +kernel)
  obtain ⟨-, hpaths, hconditions⟩ :=
    @build_exchange sharedTest [0, 1, 2] 3 4 (List.cons_ne_nil 0 [1, 2]) (by decide)
  obtain ⟨g, hg, -⟩ := bind_eq_ok.1 hbody
  obtain ⟨g', hg', h⟩ := hpaths g hg
  exact ⟨hbody, hpast, ⟨g, g', hg, hg', h⟩, hconditions _ _ hbody hpast⟩

end DecisionGraph

end Unjump
