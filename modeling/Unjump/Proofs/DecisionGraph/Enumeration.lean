import Mathlib.Data.List.Perm.Subperm
import Unjump.Proofs.DecisionGraph.Orderly

/-!
# The paths of a group by recursion

A recursive walk through a group comes to a block on a path, notes the condition of the path if
there is one, and goes on from a member: first where the jump leads, with the condition of the
member behind the path, then where control falls through to, with its inverse (`Enumerates`). The
walk by steps finds what the recursive walk notes, in the same order (`enumeratesAll_of_explored`).
When it ends, the group unfolds to a finite tree and has no cycle (`Unfolds.not_cyclic`). If the
group has no cycle, every path goes through different members, so none is too long
(`Approach.length_lt`). Hence the paths of a group are those of the recursive walk, unless control
can come back to a member (`build_enumerates`).
-/

namespace Unjump

open Relation

/-- Control can go from the entry of a group to a member that it can come back to. -/
def Context.Cyclic (ctx : Context) (group : List Nat) (body past entry : Nat) : Prop :=
  ∃ id, ReflTransGen (ctx.GoesOn group body past) entry id ∧
    TransGen (ctx.GoesOn group body past) id id

namespace DecisionGraph

/-- What a recursive walk notes when it comes somewhere: the one condition on the way there, or the
conjunction of several. At the start there is none. -/
def note (exit : Exit) : List Condition → List (Exit × Condition)
  | [] => []
  | [c] => [(exit, c)]
  | cs => [(exit, .join .and cs)]

/-- What a recursive walk notes from where an edge leads, in order. -/
inductive Enumerates (decisions : List Decision) :
    List Condition → Exit → List (Exit × Condition) → Prop where
  | body {conditions : List Condition} :
      Enumerates decisions conditions .body (note .body conditions)
  | past {conditions : List Condition} :
      Enumerates decisions conditions .past (note .past conditions)
  | member {conditions : List Condition} {position : Nat} {d : Decision}
      {yes no : List (Exit × Condition)} (hd : decisions[position]? = some d)
      (hyes : Enumerates decisions (conditions ++ [d.condition]) d.target yes)
      (hno : Enumerates decisions (conditions ++ [d.condition.inverse]) d.otherwise no) :
      Enumerates decisions conditions (.member position)
        (note (.member position) conditions ++ (yes ++ no))

/-- What recursive walks note one after the other, each from the end of a path. -/
inductive EnumeratesAll (decisions : List Decision) :
    List Path → List (Exit × Condition) → Prop where
  | nil : EnumeratesAll decisions [] []
  | cons {path : Path} {rest : List Path} {found later : List (Exit × Condition)}
      (hpath : Enumerates decisions path.conditions path.exit found)
      (hlater : EnumeratesAll decisions rest later) :
      EnumeratesAll decisions (path :: rest) (found ++ later)

/-- Where paths lead, with their conditions. -/
def notes (paths : List Path) : List (Exit × Condition) :=
  paths.map fun path => (path.exit, path.condition)

@[simp] theorem notes_append (paths rest : List Path) :
    notes (paths ++ rest) = notes paths ++ notes rest := by
  simp [notes]

/-- The walk by steps adds what the recursive walk notes. -/
@[simp] theorem notes_noted (conditions : List Condition) (exit : Exit) :
    notes (noted ⟨conditions, exit⟩) = note exit conditions := by
  match conditions with
  | [] | [_] | _ :: _ :: _ => rfl

/-- The conditions of the paths to an exit, from among all. -/
theorem pathsTo_eq_notes (g : DecisionGraph) (exit : Exit) :
    g.pathsTo exit = ((notes g.paths).filter (·.1 = exit)).map (·.2) := by
  simp [pathsTo, notes, List.filter_map, Function.comp_def]

variable {decisions : List Decision}

/-- A recursive walk notes the same each time. -/
theorem Enumerates.unique {conditions : List Condition} {exit : Exit}
    {found other : List (Exit × Condition)} (h : Enumerates decisions conditions exit found)
    (h' : Enumerates decisions conditions exit other) : other = found := by
  induction h generalizing other with
  | body => cases h'; rfl
  | past => cases h'; rfl
  | member hd _ _ ihyes ihno =>
    cases h' with
    | member hd' hyes' hno' =>
      obtain rfl := Option.some.inj (hd'.symm.trans hd)
      rw [ihyes hyes', ihno hno']

/-- What is found from paths that are left to follow is what recursive walks note, one from the end
of each of them. -/
theorem enumeratesAll_of_explored (hsound : Sound decisions) {work found : List Path}
    (h : Explored decisions work found) (hwork : ∀ p ∈ work, Wired decisions p.exit) :
    EnumeratesAll decisions work (notes found) := by
  induction h with
  | nil => exact .nil
  | @exit path rest later hexit _ ih =>
    obtain ⟨conditions, exit⟩ := path
    have hlater := ih (List.forall_mem_cons.1 hwork).2
    rw [notes_append, notes_noted]
    obtain rfl | rfl : exit = .body ∨ exit = .past := hexit
    · exact .cons .body hlater
    · exact .cons .past hlater
  | @member path rest later position d hexit hd _ ih =>
    obtain ⟨conditions, exit⟩ := path
    obtain rfl : exit = .member position := hexit
    have hmem := List.mem_of_getElem? hd
    have hwork' : ∀ p ∈ Path.extend ⟨conditions, .member position⟩ d ++ rest,
        Wired decisions p.exit := fun p hp => (List.mem_append.1 hp).elim
      (fun hp => (open_of_extend hsound hmem hp).1) ((List.forall_mem_cons.1 hwork).2 p)
    rw [notes_append, notes_noted]
    -- the first two recursive walks are the ones that the walk from the member goes on with
    generalize notes later = all at ih ⊢
    obtain _ | @⟨_, _, yes, _, hyes, _ | @⟨_, _, no, later', hno, hlater⟩⟩ := ih hwork'
    rw [← List.append_assoc yes no later', ← List.append_assoc]
    exact .cons (.member hd hyes hno) hlater
  | @lost path rest later position hexit hd _ ih =>
    -- a path leads to a member that there is
    have hlt := (List.forall_mem_cons.1 hwork).1
    rw [hexit] at hlt
    exact absurd (List.getElem?_eq_none_iff.1 hd) (Nat.not_le.2 hlt)

/-- The walk from the first member finds what the recursive walk notes. -/
theorem enumerates_of_walk (hsound : Sound decisions) (hne : decisions ≠ []) {paths : List Path}
    (h : walk decisions [.enter (.member 0)] [] = some paths) :
    Enumerates decisions [] (.member 0) (notes paths) := by
  have hwork : ∀ p ∈ [Path.start], Wired decisions p.exit := by
    intro p hp
    obtain rfl := List.mem_singleton.1 hp
    exact List.length_pos_iff.2 hne
  have hall := enumeratesAll_of_explored hsound (explored_of_walk h) hwork
  generalize notes paths = all at hall ⊢
  obtain _ | @⟨_, _, found, _, hstart, _ | _⟩ := hall
  rw [List.append_nil]
  exact hstart

/-! ## Cycles -/

section Cycles

variable {ctx : Context} {group : List Nat} {body past entry : Nat}

/-- A cycle that control can come to from a block can be come to from a block that follows. -/
theorem exists_goesOn_of_cyclic {id : Nat} (h : ctx.Cyclic group body past id) :
    ∃ next, ctx.GoesOn group body past id next ∧ ctx.Cyclic group body past next := by
  obtain ⟨id', hreach, hcycle⟩ := h
  obtain rfl | ⟨next, hgoes, hrest⟩ := hreach.cases_head
  · obtain ⟨next, hgoes, hback⟩ := TransGen.head'_iff.1 hcycle
    exact ⟨next, hgoes, next, .refl, .tail' hback hgoes⟩
  · exact ⟨next, hgoes, id', hrest, hcycle⟩

/-- The trees of tests are finite, so no cycle can be reached from a member that begins one. -/
theorem Unfolds.not_cyclic
    (hdecisions : group.mapM (decide ctx group body past) = .ok decisions)
    {tree : DecisionTree} {position id : Nat} (h : Unfolds decisions (.member position) tree)
    (hid : group[position]? = some id) : ¬ ctx.Cyclic group body past id := by
  induction tree generalizing position id with
  | body => cases h
  | past => cases h
  | ask t yes no ihyes ihno =>
    intro hcyclic
    obtain ⟨next, ⟨⟨taken, hedge⟩, -, hbody, hpast⟩, hnext⟩ := exists_goesOn_of_cyclic hcyclic
    obtain ⟨t, yes, no, heq, -, hedges⟩ := h.exists_ask hdecisions hid
    cases heq
    obtain ⟨next', hedge', htree⟩ := hedges taken
    cases hedge'.symm.trans hedge
    obtain ⟨position', hget, htree⟩ := htree.exists_member hbody hpast
    cases taken with
    | true => exact ihyes htree hget hnext
    | false => exact ihno htree hget hnext

/-- Control can go from the entry of a group through different members, one after the other, to a
block. -/
structure Approach (ctx : Context) (group : List Nat) (body past entry id : Nat)
    (behind : List Nat) : Prop where
  reach : ReflTransGen (ctx.GoesOn group body past) entry id
  nodup : behind.Nodup
  mem : ∀ earlier ∈ behind, earlier ∈ group
  goes : ∀ earlier ∈ behind, TransGen (ctx.GoesOn group body past) earlier id

/-- A path that leads to a member comes along an approach, with one test for each member on it. -/
def Approached (ctx : Context) (group : List Nat) (body past entry : Nat) (path : Path) : Prop :=
  ∀ position, path.exit = .member position → ∃ id behind, group[position]? = some id ∧
    behind.length = path.conditions.length ∧ Approach ctx group body past entry id behind

variable {id : Nat} {behind : List Nat} (hacyclic : ¬ ctx.Cyclic group body past entry)
include hacyclic

/-- An approach does not come back to a member. -/
theorem Approach.not_mem (h : Approach ctx group body past entry id behind) : id ∉ behind :=
  fun hmem => hacyclic ⟨id, h.reach, h.goes id hmem⟩

/-- An approach to a member comes through fewer members than there are. -/
theorem Approach.length_lt (h : Approach ctx group body past entry id behind) (hid : id ∈ group) :
    behind.length < group.length := by
  have hnodup : (id :: behind).Nodup := List.nodup_cons.2 ⟨h.not_mem hacyclic, h.nodup⟩
  exact (List.subperm_of_subset hnodup (List.cons_subset.2 ⟨hid, h.mem⟩)).length_le

/-- An approach goes on to the members that follow. -/
theorem Approach.next (h : Approach ctx group body past entry id behind) (hid : id ∈ group)
    {next : Nat} (hgoes : ctx.GoesOn group body past id next) :
    Approach ctx group body past entry next (id :: behind) where
  reach := h.reach.tail hgoes
  nodup := List.nodup_cons.2 ⟨h.not_mem hacyclic, h.nodup⟩
  mem := List.forall_mem_cons.2 ⟨hid, h.mem⟩
  goes := List.forall_mem_cons.2
    ⟨.single hgoes, fun earlier hmem => (h.goes earlier hmem).tail hgoes⟩

/-- A decision brings a path to the next member along its approach. -/
theorem approached_of_extend (hdecisions : group.mapM (decide ctx group body past) = .ok decisions)
    {path p : Path} {position : Nat} {d : Decision} (hexit : path.exit = .member position)
    (hd : decisions[position]? = some d) (hpath : Approached ctx group body past entry path)
    (hp : p ∈ path.extend d) : Approached ctx group body past entry p := by
  obtain ⟨id, behind, hid, hlength, happroach⟩ := hpath position hexit
  obtain ⟨-, -, -, hedges⟩ := exists_edges_of_decisions hdecisions hd hid
  obtain ⟨c, taken, rfl⟩ : ∃ (c : Condition) (taken : Bool),
      p = ⟨path.conditions ++ [c], if taken then d.target else d.otherwise⟩ := by
    obtain rfl | rfl : p = _ ∨ p = _ := by simpa [Path.extend] using hp
    · exact ⟨d.condition, true, rfl⟩
    · exact ⟨d.condition.inverse, false, rfl⟩
  intro position' hexit'
  obtain ⟨next, hedge, hstands⟩ := hedges taken
  rw [show (if taken then d.target else d.otherwise) = .member position' from hexit'] at hstands
  obtain ⟨hget, hbody, hpast⟩ := hstands
  have hgoes : ctx.GoesOn group body past id next :=
    ⟨⟨taken, hedge⟩, List.mem_of_getElem? hget, hbody, hpast⟩
  refine ⟨next, id :: behind, hget, ?_, happroach.next hacyclic (List.mem_of_getElem? hid) hgoes⟩
  rw [List.length_cons, hlength, List.length_append, List.length_singleton]

/-- Without a cycle all paths are found. -/
theorem exists_walk_of_not_cyclic
    (hdecisions : group.mapM (decide ctx group body past) = .ok decisions)
    (hentry : group[0]? = some entry) :
    ∃ found, walk decisions [.enter (.member 0)] [] = some found := by
  refine exists_walk_of_forall (P := Approached ctx group body past entry) ?_ ?_ _ _ ?_
  · -- the members on the approach of a path are different ones, and the next one is new
    intro path position hpath hexit
    obtain ⟨id, behind, hid, hlength, happroach⟩ := hpath position hexit
    rw [length_of_mapM_eq_ok hdecisions, ← hlength]
    exact happroach.length_lt hacyclic (List.mem_of_getElem? hid)
  · intro path position d hpath hexit hd p hp
    exact approached_of_extend hacyclic hdecisions hexit hd hpath hp
  · intro p hp
    rw [pending_start, List.mem_singleton] at hp
    subst hp
    rintro position ⟨⟩
    exact ⟨entry, [], hentry, rfl, .refl, List.nodup_nil, by simp, by simp⟩

end Cycles

/-- The walk through a group by steps is the recursive walk. It fails exactly if control can go from
the first member to one that it can come back to. Otherwise the conditions of the paths to each
exit and to each member are those that the recursive walk notes there, in order. -/
theorem build_enumerates {ctx : Context} {entry body past : Nat} {rest : List Nat}
    (hdecisions : (entry :: rest).mapM (decide ctx (entry :: rest) body past) = .ok decisions) :
    (build ctx (entry :: rest) body past = .error (.cyclicGroup entry) ↔
      ctx.Cyclic (entry :: rest) body past entry) ∧
    (¬ ctx.Cyclic (entry :: rest) body past entry →
      ∃ g found, build ctx (entry :: rest) body past = .ok g ∧ g.decisions = decisions ∧
        Enumerates decisions [] (.member 0) found ∧
        (∀ other, Enumerates decisions [] (.member 0) other → other = found) ∧
        ∀ exit, g.pathsTo exit = (found.filter (·.1 = exit)).map (·.2)) := by
  have hsound := sound_of_decisions hdecisions
  have hne : decisions ≠ [] := by
    rintro rfl
    simpa using length_of_mapM_eq_ok hdecisions
  rw [build_of_decisions rfl hdecisions]
  by_cases hcyclic : ctx.Cyclic (entry :: rest) body past entry
  · refine ⟨⟨fun _ => hcyclic, fun _ => ?_⟩, fun h => absurd hcyclic h⟩
    -- if all paths were found, they would be those of a finite tree
    cases hwalk : walk decisions [.enter (.member 0)] [] with
    | none => rfl
    | some paths =>
      obtain ⟨tree, htree, -⟩ := exists_unfolds_of_walk hsound hne hwalk
      exact absurd hcyclic (htree.not_cyclic hdecisions rfl)
  · obtain ⟨paths, hwalk⟩ := exists_walk_of_not_cyclic hcyclic hdecisions rfl
    have hpaths := enumerates_of_walk hsound hne hwalk
    rw [hwalk]
    exact ⟨iff_of_false nofun hcyclic, fun _ =>
      ⟨⟨decisions, paths⟩, notes paths, rfl, rfl, hpaths, fun _ => hpaths.unique,
        pathsTo_eq_notes _⟩⟩

/-- The decisions of `sharedTest`. -/
def sharedDecisions : List Decision :=
  [⟨0, localTest .le 0, .member 2, .member 1⟩, ⟨1, localTest .gt 1, .body, .member 2⟩,
    ⟨2, localTest .le 2, .past, .body⟩]

/-- The tests `a > 0 && b > 0`, where the second one goes back to the first if it holds. -/
def loopingTest : Context where
  graph := .build
    [⟨0, .iload0, .none⟩, ⟨1, .ifle, .label 4⟩, ⟨4, .iload1, .none⟩, ⟨5, .ifgt, .label 0⟩,
      ⟨8, .iinc, .increment 3 1⟩, ⟨11, .returnVoid, .none⟩]
  locals := .empty
  constants := []

/-- The decisions of `loopingTest`. -/
def loopingDecisions : List Decision :=
  [⟨0, localTest .le 0, .body, .member 1⟩, ⟨1, localTest .gt 1, .member 0, .body⟩]

/-- Control can come back to both members of `loopingTest`. -/
theorem cyclic_loopingTest : loopingTest.Cyclic [0, 1] 2 3 0 := by
  have hfalls : loopingTest.GoesOn [0, 1] 2 3 0 1 := ⟨⟨false, rfl⟩, by decide⟩
  have hjumps : loopingTest.GoesOn [0, 1] 2 3 1 0 := ⟨⟨true, rfl⟩, by decide⟩
  exact ⟨0, .refl, .tail (.single hfalls) hjumps⟩

theorem build_enumerates_sharedTest :
    [0, 1, 2].mapM (decide sharedTest [0, 1, 2] 3 4) = .ok sharedDecisions ∧
      (∃ g found, build sharedTest [0, 1, 2] 3 4 = .ok g ∧ g.decisions = sharedDecisions ∧
        Enumerates sharedDecisions [] (.member 0) found ∧
        (∀ other, Enumerates sharedDecisions [] (.member 0) other → other = found) ∧
        ∀ exit, g.pathsTo exit = (found.filter (·.1 = exit)).map (·.2)) ∧
      [0, 1].mapM (decide loopingTest [0, 1] 2 3) = .ok loopingDecisions ∧
      build loopingTest [0, 1] 2 3 = .error (.cyclicGroup 0) := by
  have hshared : [0, 1, 2].mapM (decide sharedTest [0, 1, 2] 3 4) = .ok sharedDecisions :=
    eq_ok_of_toOption_eq_some (by decide +kernel)
  have hlooping : [0, 1].mapM (decide loopingTest [0, 1] 2 3) = .ok loopingDecisions :=
    eq_ok_of_toOption_eq_some (by decide +kernel)
  obtain ⟨hfails, hfinds⟩ := build_enumerates hshared
  obtain ⟨g, hg⟩ : ∃ g, build sharedTest [0, 1, 2] 3 4 = .ok g := by
    have h : sharedTest.groupCondition [0, 1, 2] 3 4 = .ok sharedCondition :=
      eq_ok_of_toOption_eq_some (by decide +kernel)
    obtain ⟨g, hg, -⟩ := bind_eq_ok.1 h
    exact ⟨g, hg⟩
  have hacyclic : ¬ sharedTest.Cyclic [0, 1, 2] 3 4 0 := by
    rw [← hfails, hg]
    exact nofun
  exact ⟨hshared, hfinds hacyclic, hlooping, (build_enumerates hlooping).1.2 cyclic_loopingTest⟩

end DecisionGraph

end Unjump
