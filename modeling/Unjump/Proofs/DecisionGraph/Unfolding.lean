import Unjump.Proofs.DecisionGraph.Course
import Unjump.Proofs.DecisionGraph.Tree

/-!
# Unfolding the decisions of a group

Following the edges of a group from a member on gives a tree of tests. Where edges meet, the part
behind them stands in the tree once for each of them. The work list follows the ways through this
tree: what it finds beyond a path that is left to follow are the clauses of the tree behind the
path (`expands_of_explored`). So the paths to the body of a group are the clauses of the tree that
its first member begins (`exists_unfolds_of_walk`).
-/

namespace Unjump

/-- The block that control goes to from a conditional block whose jump is taken, or is not. -/
def Context.edge? (ctx : Context) (id : Nat) (taken : Bool) : Option Nat :=
  (ctx.graph.block? id).bind fun b => if taken then b.target else b.otherwise

namespace DecisionGraph

open Condition

/-- The tree of tests behind an edge of a group. -/
inductive Unfolds (decisions : List Decision) : Exit → DecisionTree → Prop where
  | body : Unfolds decisions .body .body
  | past : Unfolds decisions .past .past
  | member {position : Nat} {d : Decision} {t : Test} {yes no : DecisionTree}
      (hd : decisions[position]? = some d) (htest : d.condition = .test t)
      (hyes : Unfolds decisions d.target yes) (hno : Unfolds decisions d.otherwise no) :
      Unfolds decisions (.member position) (.ask t yes no)

/-- The conditions on the ways to the body that go on from the paths of a list. -/
inductive Expands (decisions : List Decision) : List Path → List (List Condition) → Prop where
  | nil : Expands decisions [] []
  | cons {path : Path} {rest : List Path} {tree : DecisionTree} {later : List (List Condition)}
      (htree : Unfolds decisions path.exit tree) (hlater : Expands decisions rest later) :
      Expands decisions (path :: rest)
        (tree.clauses.map (fun ts => path.conditions ++ ts.map test) ++ later)

/-- The conditions on the paths to the body. -/
def toBody (paths : List Path) : List (List Condition) :=
  (paths.filter (·.exit = .body)).map (·.conditions)

@[simp] theorem toBody_append (paths rest : List Path) :
    toBody (paths ++ rest) = toBody paths ++ toBody rest := by
  simp [toBody]

/-- A path that does not lead to the body adds nothing to the paths that do. -/
theorem toBody_noted_of_ne {path : Path} (h : path.exit ≠ .body) : toBody (noted path) = [] := by
  unfold noted
  split <;> simp [toBody, h]

/-- A path of at least one test that leads to the body is one of those that do. -/
theorem toBody_noted_of_body {path : Path} (h : path.exit = .body) (hne : path.conditions ≠ []) :
    toBody (noted path) = [path.conditions] := by
  simp [noted, toBody, h, hne]

variable {decisions : List Decision}

/-- An edge that leads to a member leads to one that there is, and the members ask tests. -/
structure Sound (decisions : List Decision) : Prop where
  asks : ∀ d ∈ decisions, ∃ t, d.condition = .test t
  target : ∀ d ∈ decisions, Wired decisions d.target
  otherwise : ∀ d ∈ decisions, Wired decisions d.otherwise

/-- A path that is left to follow leads somewhere, and to a member if it has no tests. -/
def Open (decisions : List Decision) (path : Path) : Prop :=
  Wired decisions path.exit ∧ (path.conditions = [] → path.exit ≠ .body)

theorem open_of_extend (hsound : Sound decisions) {path p : Path} {d : Decision}
    (hd : d ∈ decisions) (hp : p ∈ path.extend d) : Open decisions p := by
  obtain rfl | rfl : p = _ ∨ p = _ := by simpa [Path.extend] using hp
  · exact ⟨hsound.target d hd, by simp⟩
  · exact ⟨hsound.otherwise d hd, by simp⟩

/-- The paths to the body that are found go on from the paths that are left to follow, each along
the tree behind it. -/
theorem expands_of_explored (hsound : Sound decisions) {work found : List Path}
    (h : Explored decisions work found) (hopen : ∀ p ∈ work, Open decisions p) :
    Expands decisions work (toBody found) := by
  induction h with
  | nil => exact .nil
  | @exit path rest later hexit _ ih =>
    obtain ⟨hpath, hrest⟩ := List.forall_mem_cons.1 hopen
    rw [toBody_append]
    obtain hbody | hpast := hexit
    · have hne : path.conditions ≠ [] := fun hnil => hpath.2 hnil hbody
      have htree : Unfolds decisions path.exit .body := hbody ▸ .body
      simpa [toBody_noted_of_body hbody hne, DecisionTree.clauses] using
        Expands.cons htree (ih hrest)
    · have hne : path.exit ≠ .body := by simp [hpast]
      have htree : Unfolds decisions path.exit .past := hpast ▸ .past
      simpa [toBody_noted_of_ne hne, DecisionTree.clauses] using
        Expands.cons htree (ih hrest)
  | @member path rest later position d hexit hd _ ih =>
    obtain ⟨-, hrest⟩ := List.forall_mem_cons.1 hopen
    have hmem := List.mem_of_getElem? hd
    obtain ⟨t, ht⟩ := hsound.asks d hmem
    have hopen' : ∀ p ∈ path.extend d ++ rest, Open decisions p := fun p hp =>
      (List.mem_append.1 hp).elim (open_of_extend hsound hmem) (hrest p)
    rw [toBody_append, toBody_noted_of_ne (by simp [hexit]), List.nil_append]
    -- the two extensions of the path are followed first, one along each side of its tree
    generalize hall : toBody later = all at ih
    obtain _ | @⟨_, _, yes, _, hyes, _ | @⟨_, _, no, later', hno, hlater⟩⟩ := ih hopen'
    have htree : Unfolds decisions path.exit (.ask t yes no) := hexit ▸ .member hd ht hyes hno
    simpa [DecisionTree.clauses, ht, Condition.inverse, Function.comp_def] using
      Expands.cons htree hlater
  | @lost path rest later position hexit hd _ ih =>
    obtain ⟨hpath, -⟩ := List.forall_mem_cons.1 hopen
    -- a path leads to a member that there is
    have hlt := hpath.1
    rw [hexit] at hlt
    exact absurd (List.getElem?_eq_none_iff.1 hd) (Nat.not_le.2 hlt)

/-- The paths to the body that are found from the first member on are the clauses of its tree. -/
theorem exists_unfolds_of_walk (hsound : Sound decisions) (hne : decisions ≠ [])
    {paths : List Path} (h : walk decisions [.enter (.member 0)] [] = some paths) :
    ∃ tree, Unfolds decisions (.member 0) tree ∧
      Condition.join .or (pathsTo ⟨decisions, paths⟩ .body) = anyOf tree.clauses := by
  have hopen : ∀ p ∈ [Path.start], Open decisions p := by
    intro p hp
    obtain rfl := List.mem_singleton.1 hp
    exact ⟨List.length_pos_iff.2 hne, fun _ => by simp [Path.start]⟩
  have hexpands := expands_of_explored hsound (explored_of_walk h) hopen
  generalize hall : toBody paths = all at hexpands
  obtain _ | @⟨_, _, tree, _, htree, _ | _⟩ := hexpands
  refine ⟨tree, htree, ?_⟩
  have hconditions : pathsTo ⟨decisions, paths⟩ .body = (toBody paths).map (collapse .and) := by
    rw [pathsTo, toBody, List.map_map]
    rfl
  rw [hconditions, hall, anyOf]
  simp [clause, Function.comp_def]

variable {ctx : Context} {group : List Nat} {body past : Nat}

/-- A decision of a group asks the test of its block, and leads where the edges of the block do. -/
theorem exists_edges_of_decisions
    (hdecisions : group.mapM (decide ctx group body past) = .ok decisions) {position id : Nat}
    {d : Decision} (hd : decisions[position]? = some d) (hid : group[position]? = some id) :
    ∃ t, d.condition = .test t ∧ ctx.jumpTest id = .ok t ∧
      ∀ taken, ∃ next, ctx.edge? id taken = some next ∧
        Stands group body past (if taken then d.target else d.otherwise) next := by
  obtain ⟨d', hd', hdecide⟩ := getElem?_of_mapM_eq_ok hdecisions hid
  obtain rfl := Option.some.inj (hd'.symm.trans hd)
  obtain ⟨t, b, target, otherwise, htest, hcondition, hblock, htarget, hstands, hotherwise,
    hstands'⟩ := exists_edges_of_decide hdecide
  refine ⟨t, hcondition, htest, fun taken => ?_⟩
  cases taken with
  | true => exact ⟨target, by simp [Context.edge?, hblock, htarget], hstands⟩
  | false => exact ⟨otherwise, by simp [Context.edge?, hblock, hotherwise], hstands'⟩

theorem sound_of_decisions (hdecisions : group.mapM (decide ctx group body past) = .ok decisions) :
    Sound decisions := by
  have hlen := length_of_mapM_eq_ok hdecisions
  have hedges {d : Decision} (hd : d ∈ decisions) : (∃ t, d.condition = .test t) ∧
      Wired decisions d.target ∧ Wired decisions d.otherwise := by
    obtain ⟨block, -, hdecide⟩ := exists_of_mem_mapM_eq_ok hdecisions hd
    obtain ⟨test, _, _, _, -, htest, -, -, hstands, -, hstands'⟩ := exists_edges_of_decide hdecide
    exact ⟨⟨test, htest⟩, wired_of_stands hlen hstands, wired_of_stands hlen hstands'⟩
  exact ⟨fun d hd => (hedges hd).1, fun d hd => (hedges hd).2.1, fun d hd => (hedges hd).2.2⟩

/-! ## The trees of blocks -/

/-- The tree of the block that an edge of a group leads to. -/
inductive TreeAt (decisions : List Decision) (group : List Nat) (body past : Nat) :
    Nat → DecisionTree → Prop where
  | body : TreeAt decisions group body past body .body
  | past (hne : past ≠ body) : TreeAt decisions group body past past .past
  | member {id position : Nat} {tree : DecisionTree} (hget : group[position]? = some id)
      (hbody : id ≠ body) (hpast : id ≠ past) (htree : Unfolds decisions (.member position) tree) :
      TreeAt decisions group body past id tree

theorem treeAt_of_unfolds {exit : Exit} {id : Nat} {tree : DecisionTree}
    (h : Unfolds decisions exit tree) (hstands : Stands group body past exit id) :
    TreeAt decisions group body past id tree := by
  cases exit with
  | body =>
    obtain rfl := hstands
    cases h
    exact .body
  | past =>
    obtain ⟨rfl, hne⟩ := hstands
    cases h
    exact .past hne
  | member position => exact .member hstands.1 hstands.2.1 hstands.2.2 h

/-- The tree of a block that is not an exit is that of a member. -/
theorem TreeAt.exists_member {id : Nat} {tree : DecisionTree}
    (h : TreeAt decisions group body past id tree) (hbody : id ≠ body) (hpast : id ≠ past) :
    ∃ position, group[position]? = some id ∧ Unfolds decisions (.member position) tree := by
  cases h with
  | body => exact absurd rfl hbody
  | past _ => exact absurd rfl hpast
  | member hget _ _ htree => exact ⟨_, hget, htree⟩

/-- The tree of a member asks the test of the member, and goes on with the trees of the blocks that
its edges lead to. -/
theorem Unfolds.exists_ask {position id : Nat} {tree : DecisionTree}
    (hdecisions : group.mapM (decide ctx group body past) = .ok decisions)
    (h : Unfolds decisions (.member position) tree) (hid : group[position]? = some id) :
    ∃ t yes no, tree = .ask t yes no ∧ ctx.jumpTest id = .ok t ∧
      ∀ taken, ∃ next, ctx.edge? id taken = some next ∧
        TreeAt decisions group body past next (if taken then yes else no) := by
  cases h with
  | @member _ d t yes no hd htest hyes hno =>
    obtain ⟨t', hcondition, htest', hedges⟩ := exists_edges_of_decisions hdecisions hd hid
    obtain rfl := Condition.test.inj (htest.symm.trans hcondition)
    refine ⟨t, yes, no, rfl, htest', fun taken => ?_⟩
    obtain ⟨next, hedge, hstands⟩ := hedges taken
    cases taken with
    | true => exact ⟨next, hedge, treeAt_of_unfolds hyes hstands⟩
    | false => exact ⟨next, hedge, treeAt_of_unfolds hno hstands⟩

end DecisionGraph

/-- The condition of a group is the simplified disjunction of the clauses of a tree of tests, the
one that its first block begins. -/
theorem Context.exists_unfolds {ctx : Context} {group : List Nat} {body past : Nat}
    {c : Condition} (h : ctx.groupCondition group body past = .ok c) :
    ∃ decisions tree, group.mapM (DecisionGraph.decide ctx group body past) = .ok decisions ∧
      DecisionGraph.Unfolds decisions (.member 0) tree ∧
      c = (Condition.anyOf tree.clauses).simplify := by
  unfold groupCondition at h
  obtain ⟨g, hbuild, hpaths⟩ := bind_eq_ok.1 h
  unfold DecisionGraph.build at hbuild
  split at hbuild
  · cases hbuild
  rename_i entry rest
  obtain ⟨decisions, hdecisions, hbuild⟩ := bind_eq_ok.1 hbuild
  have hne : decisions ≠ [] := by
    rintro rfl
    simpa using length_of_mapM_eq_ok hdecisions
  split at hbuild
  · rename_i paths hwalk
    cases hbuild
    obtain ⟨tree, htree, hjoin⟩ := DecisionGraph.exists_unfolds_of_walk
      (DecisionGraph.sound_of_decisions hdecisions) hne hwalk
    refine ⟨decisions, tree, hdecisions, htree, ?_⟩
    rw [← hjoin]
    split at hpaths
    · cases hpaths
    · cases hpaths
      rfl
  · cases hbuild

end Unjump
