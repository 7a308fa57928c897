import Unjump.BlockGraph.Build
import Unjump.Proofs.Condition.Truth
import Unjump.Proofs.DecisionGraph.Paths
import Unjump.Proofs.Except

/-!
# The course of control through a group

A valuation settles every jump of a group of conditional blocks, so control takes one course from
the first block of the group to one of the two exits (`Context.LeadsTo`). The condition of the
group holds exactly when this course ends at the body.

The work list finds, among the paths that it follows, the one that is taken: every path that is
taken and left to follow goes on as a path that is found (`exists_found_of_taken`), and a path that
is found and taken goes on from one that was left to follow (`exists_open_of_found`).
-/

namespace Unjump

/-- The block that control goes to from a conditional block. -/
def Context.branch? (ctx : Context) (v : Valuation) (id : Nat) : Option Nat :=
  match ctx.jumpTest id with
  | .ok test =>
    (ctx.graph.block? id).bind fun b => if v.holds test then b.target else b.otherwise
  | .error _ => none

/-- Control that comes to a member of a group leaves the group at an exit. -/
inductive Context.LeadsTo (ctx : Context) (v : Valuation) (group : List Nat) (body past : Nat) :
    Nat → Nat → Prop where
  | leave {id exit : Nat} (hbranch : ctx.branch? v id = some exit)
      (hexit : exit = body ∨ exit = past) : LeadsTo ctx v group body past id exit
  | step {id next exit : Nat} (hbranch : ctx.branch? v id = some next) (hmem : next ∈ group)
      (hbody : next ≠ body) (hpast : next ≠ past)
      (hnext : LeadsTo ctx v group body past next exit) : LeadsTo ctx v group body past id exit

/-- Control leaves a group at one exit only. -/
theorem Context.LeadsTo.unique {ctx : Context} {v : Valuation} {group : List Nat}
    {body past id exit other : Nat} (h : ctx.LeadsTo v group body past id exit)
    (h' : ctx.LeadsTo v group body past id other) : other = exit := by
  induction h generalizing other with
  | leave hbranch hexit =>
    cases h' with
    | leave hbranch' _ => exact Option.some.inj (hbranch'.symm.trans hbranch)
    | step hbranch' _ hbody hpast _ =>
      -- a block that is an exit of the group is never gone through
      obtain rfl := Option.some.inj (hbranch'.symm.trans hbranch)
      exact absurd hexit (not_or.2 ⟨hbody, hpast⟩)
  | step hbranch _ hbody hpast _ ih =>
    cases h' with
    | leave hbranch' hexit =>
      obtain rfl := Option.some.inj (hbranch'.symm.trans hbranch)
      exact absurd hexit (not_or.2 ⟨hbody, hpast⟩)
    | step hbranch' _ _ _ hnext =>
      obtain rfl := Option.some.inj (hbranch'.symm.trans hbranch)
      exact ih hnext

/-! ## Paths that are taken -/

/-- Where control goes from a member of a group. -/
def Decision.next (d : Decision) (v : Valuation) : Exit :=
  if d.condition.eval v then d.target else d.otherwise

/-- Every test on the path turns out the way that the path takes. -/
def Path.Taken (path : Path) (v : Valuation) : Prop :=
  ∀ c ∈ path.conditions, c.eval v = true

/-- The condition of a path holds exactly if the path is taken. -/
theorem Path.eval_condition (path : Path) (v : Valuation) :
    path.condition.eval v = true ↔ path.Taken v := by
  unfold Path.condition Path.Taken
  split
  · simp [*]
  · simp [Condition.eval, Condition.evalAll_eq_map, Connective.combine]

/-- Of the two ways to extend a path that is taken, one is taken. -/
theorem Path.exists_extend_taken {path : Path} {v : Valuation} (h : path.Taken v) (d : Decision) :
    ∃ p ∈ path.extend d, p.Taken v ∧ p.exit = d.next v := by
  unfold Decision.next
  split
  · rename_i hc
    refine ⟨⟨path.conditions ++ [d.condition], d.target⟩, by simp [extend], ?_, rfl⟩
    simpa [Path.Taken, or_imp, forall_and, hc] using h
  · rename_i hc
    refine ⟨⟨path.conditions ++ [d.condition.inverse], d.otherwise⟩, by simp [extend], ?_, rfl⟩
    simpa [Path.Taken, or_imp, forall_and, hc, Condition.eval_inverse] using h

/-- An extension that is taken extends a path that is taken, in the way that the decision goes. -/
theorem Path.taken_of_extend {path p : Path} {v : Valuation} {d : Decision}
    (hp : p ∈ path.extend d) (h : p.Taken v) : path.Taken v ∧ p.exit = d.next v := by
  simp only [extend, List.mem_cons, List.not_mem_nil, or_false] at hp
  obtain rfl | rfl := hp
  · have hc : d.condition.eval v = true := h _ (by simp)
    exact ⟨fun c hmem => h c (by simp [hmem]), by simp [Decision.next, hc]⟩
  · have hc : d.condition.inverse.eval v = true := h _ (by simp)
    rw [Condition.eval_inverse, Bool.not_eq_true'] at hc
    exact ⟨fun c hmem => h c (by simp [hmem]), by simp [Decision.next, hc]⟩

namespace DecisionGraph

/-- Control that goes where an edge leads leaves the group at an exit. -/
inductive Leads (decisions : List Decision) (v : Valuation) : Exit → Exit → Prop where
  | body : Leads decisions v .body .body
  | past : Leads decisions v .past .past
  | member {position : Nat} {d : Decision} {exit : Exit} (hd : decisions[position]? = some d)
      (hnext : Leads decisions v (d.next v) exit) : Leads decisions v (.member position) exit

variable {decisions : List Decision} {v : Valuation}

theorem Leads.unique {start exit other : Exit} (h : Leads decisions v start exit)
    (h' : Leads decisions v start other) : other = exit := by
  induction h with
  | body => cases h'; rfl
  | past => cases h'; rfl
  | member hd _ ih =>
    cases h' with
    | member hd' hnext' =>
      obtain rfl := Option.some.inj (hd'.symm.trans hd)
      exact ih hnext'

theorem Leads.final {start exit : Exit} (h : Leads decisions v start exit) :
    exit = .body ∨ exit = .past := by
  induction h with
  | body => exact .inl rfl
  | past => exact .inr rfl
  | member _ _ ih => exact ih

/-! ## The work list -/

theorem mem_noted {q path : Path} : q ∈ noted path ↔ q = path ∧ path.conditions ≠ [] := by
  unfold noted
  split <;> simp_all

/-- A path that is found and taken goes on from a path that was left to follow. -/
theorem exists_open_of_found {work found : List Path} (h : Explored decisions work found)
    {q : Path} (hq : q ∈ found) (htaken : q.Taken v) (hfinal : q.exit = .body ∨ q.exit = .past) :
    ∃ p ∈ work, p.Taken v ∧ Leads decisions v p.exit q.exit := by
  induction h with
  | nil => simp at hq
  | @exit path rest later _ _ ih =>
    obtain hq | hq := List.mem_append.1 hq
    · obtain ⟨rfl, -⟩ := mem_noted.1 hq
      refine ⟨q, List.mem_cons_self, htaken, ?_⟩
      obtain h | h := hfinal <;> rw [h]
      · exact .body
      · exact .past
    · obtain ⟨p, hp, h⟩ := ih hq
      exact ⟨p, List.mem_cons_of_mem _ hp, h⟩
  | @member path rest later position d hexit hd _ ih =>
    obtain hq | hq := List.mem_append.1 hq
    · obtain ⟨rfl, -⟩ := mem_noted.1 hq
      simp [hexit] at hfinal
    · obtain ⟨p, hp, hpt, hleads⟩ := ih hq
      -- the path comes from one of the two extensions or from another path
      obtain hp | hp := List.mem_append.1 hp
      · obtain ⟨hpath, hnext⟩ := Path.taken_of_extend hp hpt
        exact ⟨path, List.mem_cons_self, hpath, hexit ▸ .member hd (hnext ▸ hleads)⟩
      · exact ⟨p, List.mem_cons_of_mem _ hp, hpt, hleads⟩
  | @lost path rest later position hexit _ _ ih =>
    obtain hq | hq := List.mem_append.1 hq
    · obtain ⟨rfl, -⟩ := mem_noted.1 hq
      simp [hexit] at hfinal
    · obtain ⟨p, hp, h⟩ := ih hq
      exact ⟨p, List.mem_cons_of_mem _ hp, h⟩

/-- An edge leads to an exit of the group or to a member that there is. -/
def Wired (decisions : List Decision) : Exit → Prop
  | .member position => position < decisions.length
  | .body | .past => True

/-- A path that is left to follow leads somewhere if it is taken, and to a member if it has no
tests. -/
def Ready (decisions : List Decision) (v : Valuation) (p : Path) : Prop :=
  (p.Taken v → Wired decisions p.exit) ∧
    (p.conditions = [] → ∃ position, p.exit = .member position)

theorem ready_of_extend {path p : Path} {d : Decision} (hd : Wired decisions (d.next v))
    (hp : p ∈ path.extend d) : Ready decisions v p := by
  refine ⟨fun htaken => ?_, fun hnil => ?_⟩
  · rw [(Path.taken_of_extend hp htaken).2]
    exact hd
  · obtain rfl | rfl : p = _ ∨ p = _ := by simpa [Path.extend] using hp
    all_goals simp at hnil

/-- A path that is taken and left to follow goes on as a path that is found. -/
theorem exists_found_of_taken (hwired : ∀ d ∈ decisions, Wired decisions (d.next v))
    {work found : List Path} (h : Explored decisions work found)
    (hready : ∀ p ∈ work, Ready decisions v p) {p : Path} (hp : p ∈ work) (htaken : p.Taken v) :
    ∃ q ∈ found, q.Taken v ∧ Leads decisions v p.exit q.exit := by
  induction h generalizing p with
  | nil => simp at hp
  | @exit path rest later hexit _ ih =>
    obtain ⟨hpath, hrest⟩ := List.forall_mem_cons.1 hready
    obtain rfl | hp := List.mem_cons.1 hp
    · refine ⟨p, List.mem_append_left _ (mem_noted.2 ⟨rfl, fun hnil => ?_⟩), htaken, ?_⟩
      · obtain ⟨position, hmember⟩ := hpath.2 hnil
        simp [hmember] at hexit
      · obtain h | h := hexit <;> rw [h]
        · exact .body
        · exact .past
    · obtain ⟨q, hq, h⟩ := ih hrest hp htaken
      exact ⟨q, List.mem_append_right _ hq, h⟩
  | @member path rest later position d hexit hd _ ih =>
    obtain ⟨-, hrest⟩ := List.forall_mem_cons.1 hready
    -- the extensions of the path take its place in the work list
    have hready' : ∀ p ∈ path.extend d ++ rest, Ready decisions v p := by
      intro p hp
      obtain hp | hp := List.mem_append.1 hp
      · exact ready_of_extend (hwired d (List.mem_of_getElem? hd)) hp
      · exact hrest p hp
    obtain rfl | hp := List.mem_cons.1 hp
    · obtain ⟨r, hr, hrt, hnext⟩ := Path.exists_extend_taken htaken d
      obtain ⟨q, hq, hqt, hleads⟩ := ih hready' (List.mem_append_left _ hr) hrt
      exact ⟨q, List.mem_append_right _ hq, hqt, hexit ▸ .member hd (hnext ▸ hleads)⟩
    · obtain ⟨q, hq, h⟩ := ih hready' (List.mem_append_right _ hp) htaken
      exact ⟨q, List.mem_append_right _ hq, h⟩
  | @lost path rest later position hexit hd _ ih =>
    obtain ⟨hpath, hrest⟩ := List.forall_mem_cons.1 hready
    obtain rfl | hp := List.mem_cons.1 hp
    · -- a path that is taken leads to a member that there is
      have hlt := hpath.1 htaken
      rw [hexit] at hlt
      exact absurd (List.getElem?_eq_none_iff.1 hd) (Nat.not_le.2 hlt)
    · obtain ⟨q, hq, h⟩ := ih hrest hp htaken
      exact ⟨q, List.mem_append_right _ hq, h⟩

/-- The disjunction of the paths to the body holds exactly if the course from the first member ends
at the body, and the course ends. -/
theorem exists_leads_of_walk (hwired : ∀ d ∈ decisions, Wired decisions (d.next v))
    (hne : decisions ≠ []) {paths : List Path}
    (h : walk decisions [.enter (.member 0)] [] = some paths) :
    ∃ exit, Leads decisions v (.member 0) exit ∧
      ((Condition.join .or (pathsTo ⟨decisions, paths⟩ .body)).eval v = true ↔ exit = .body) := by
  have hexplored : Explored decisions [.start] paths := explored_of_walk h
  have hready : ∀ p ∈ [Path.start], Ready decisions v p := by
    intro p hp
    obtain rfl := List.mem_singleton.1 hp
    exact ⟨fun _ => List.length_pos_iff.2 hne, fun _ => ⟨0, rfl⟩⟩
  have htaken : Path.start.Taken v := by simp [Path.Taken, Path.start]
  -- the empty path is taken, so some path that is found is the course
  obtain ⟨q, hq, hqt, hleads⟩ :=
    exists_found_of_taken hwired hexplored hready List.mem_cons_self htaken
  refine ⟨q.exit, hleads, (Condition.eval_join_eq_deciding v .or _).trans ?_⟩
  simp only [pathsTo, List.mem_map, List.mem_filter, decide_eq_true_eq, Connective.deciding]
  constructor
  -- any path to the body that is taken starts where the course does, so it ends where that ends
  · rintro ⟨c, ⟨r, ⟨hr, hbody⟩, rfl⟩, hc⟩
    obtain ⟨p, hp, -, hp'⟩ := exists_open_of_found hexplored hr
      ((Path.eval_condition r v).1 hc) (.inl hbody)
    obtain rfl := List.mem_singleton.1 hp
    rw [← hbody]
    exact hp'.unique hleads
  · intro hbody
    exact ⟨q.condition, ⟨q, ⟨hq, hbody⟩, rfl⟩, (Path.eval_condition q v).2 hqt⟩

/-! ## From decisions to blocks -/

variable {ctx : Context} {group : List Nat} {body past : Nat}

/-- The block that an edge of a group leads to. -/
def Stands (group : List Nat) (body past : Nat) : Exit → Nat → Prop
  | .body, id => id = body
  | .past, id => id = past ∧ id ≠ body
  | .member position, id => group[position]? = some id ∧ id ≠ body ∧ id ≠ past

theorem stands_of_resolve {block target : Nat} {exit : Exit}
    (h : resolve group body past block target = .ok exit) : Stands group body past exit target := by
  unfold resolve at h
  split at h
  · rename_i hbody
    cases h
    exact hbody
  · rename_i hbody
    split at h
    · rename_i hpast
      cases h
      exact ⟨hpast, hbody⟩
    · rename_i hpast
      cases hposition : group.idxOf? target with
      | none => simp [hposition] at h
      | some position =>
        simp only [hposition, Except.ok.injEq] at h
        subst h
        obtain ⟨hlt, heq, -⟩ := List.idxOf?_eq_some_iff.1 hposition
        exact ⟨List.getElem?_eq_some_iff.2 ⟨hlt, heq⟩, hbody, hpast⟩

/-- An edge to a member of the group or to one of its exits leads somewhere. -/
theorem exists_resolve (block : Nat) {target : Nat}
    (h : target = body ∨ target = past ∨ target ∈ group) :
    ∃ exit, resolve group body past block target = .ok exit := by
  unfold resolve
  split
  · exact ⟨_, rfl⟩
  · rename_i hbody
    split
    · exact ⟨_, rfl⟩
    · rename_i hpast
      have hmem : target ∈ group := (h.resolve_left hbody).resolve_left hpast
      cases hposition : group.idxOf? target with
      | some position => exact ⟨_, rfl⟩
      | none => exact absurd hmem (List.idxOf?_eq_none_iff.1 hposition)

/-- A decision asks the test of its block, and its edges lead to the two blocks that can follow. -/
theorem exists_edges_of_decide {block : Nat} {d : Decision}
    (h : decide ctx group body past block = .ok d) :
    ∃ test b target otherwise, ctx.jumpTest block = .ok test ∧ d.condition = .test test ∧
      ctx.graph.block? block = some b ∧
      b.target = some target ∧ Stands group body past d.target target ∧
      b.otherwise = some otherwise ∧ Stands group body past d.otherwise otherwise := by
  unfold decide at h
  obtain ⟨test, htest, h⟩ := bind_eq_ok.1 h
  cases hblock : ctx.graph.block? block with
  | none => simp [hblock, throw, throwThe, MonadExceptOf.throw] at h
  | some b =>
    cases htarget : b.target with
    | none => simp [hblock, htarget, throw, throwThe, MonadExceptOf.throw] at h
    | some target =>
      cases hotherwise : b.otherwise with
      | none => simp [hblock, htarget, hotherwise, throw, throwThe, MonadExceptOf.throw] at h
      | some otherwise =>
        simp only [hblock, Option.bind_some, htarget, hotherwise] at h
        obtain ⟨exit, hexit, h⟩ := bind_eq_ok.1 h
        obtain ⟨exit', hexit', h⟩ := bind_eq_ok.1 h
        cases h
        exact ⟨test, b, target, otherwise, htest, rfl, rfl, htarget, stands_of_resolve hexit,
          hotherwise, stands_of_resolve hexit'⟩

/-- A group whose members make decisions has the paths that the walk finds. -/
theorem build_of_decisions {entry : Nat} (hentry : group.head? = some entry)
    (hdecisions : group.mapM (decide ctx group body past) = .ok decisions) :
    build ctx group body past =
      match walk decisions [.enter (.member 0)] [] with
      | some paths => .ok ⟨decisions, paths⟩
      | none => .error (.cyclicGroup entry) := by
  obtain ⟨rest, rfl⟩ := List.head?_eq_some_iff.1 hentry
  rw [build, hdecisions]
  rfl

/-- A decision goes the way that control goes from its block. -/
theorem branch?_of_decide {block : Nat} {d : Decision}
    (h : decide ctx group body past block = .ok d) (v : Valuation) :
    ∃ next, ctx.branch? v block = some next ∧ Stands group body past (d.next v) next := by
  obtain ⟨test, b, target, otherwise, htest, hcondition, hblock, htarget, hstands, hotherwise,
    hstands'⟩ := exists_edges_of_decide h
  simp only [Context.branch?, htest, hblock, Option.bind_some, Decision.next, hcondition,
    Condition.eval]
  -- the test picks the same one of the two edges for the decision and for control
  by_cases htrue : v.holds test = true
  · simp only [htrue, ↓reduceIte]
    exact ⟨target, htarget, hstands⟩
  · simp only [htrue]
    exact ⟨otherwise, hotherwise, hstands'⟩

/-- The decisions of a group lead where control goes from its blocks. -/
theorem leadsTo_of_leads (hdecisions : group.mapM (decide ctx group body past) = .ok decisions)
    {start exit : Exit} (h : Leads decisions v start exit) {position id : Nat}
    (hstart : start = .member position) (hid : group[position]? = some id) :
    ∃ last, ctx.LeadsTo v group body past id last ∧ Stands group body past exit last := by
  induction h generalizing position id with
  | body => simp at hstart
  | past => simp at hstart
  | @member position d exit hd hnext ih =>
    cases hstart
    obtain ⟨d', hd', hdecide⟩ := getElem?_of_mapM_eq_ok hdecisions hid
    obtain rfl := Option.some.inj (hd'.symm.trans hd)
    obtain ⟨next, hbranch, hstands⟩ := branch?_of_decide hdecide v
    cases hexit : d'.next v with
    | body =>
      rw [hexit] at hstands hnext
      cases hnext
      exact ⟨next, .leave hbranch (.inl hstands), hstands⟩
    | past =>
      rw [hexit] at hstands hnext
      cases hnext
      exact ⟨next, .leave hbranch (.inr hstands.1), hstands⟩
    | member position' =>
      rw [hexit] at hstands
      -- control comes to another member, and the rest of the course starts there
      obtain ⟨hget, hbody, hpast⟩ := hstands
      obtain ⟨last, hleads, hlast⟩ := ih hexit hget
      exact ⟨last, .step hbranch (List.mem_of_getElem? hget) hbody hpast hleads, hlast⟩

/-- An edge that leads to a block of the group leads to its decision. -/
theorem wired_of_stands (hlen : decisions.length = group.length) {exit : Exit} {id : Nat}
    (h : Stands group body past exit id) : Wired decisions exit := by
  cases exit with
  | body => trivial
  | past => trivial
  | member position =>
    obtain ⟨hlt, -⟩ := List.getElem?_eq_some_iff.1 h.1
    rwa [← hlen] at hlt

/-- Every decision of a group leads to an exit or to another decision. -/
theorem wired_of_decisions (hdecisions : group.mapM (decide ctx group body past) = .ok decisions)
    (v : Valuation) : ∀ d ∈ decisions, Wired decisions (d.next v) := by
  intro d hd
  obtain ⟨block, -, hdecide⟩ := exists_of_mem_mapM_eq_ok hdecisions hd
  obtain ⟨next, -, hstands⟩ := branch?_of_decide hdecide v
  exact wired_of_stands (length_of_mapM_eq_ok hdecisions) hstands

/-- The paths to the body of a group hold exactly if control leaves the group at the body. -/
theorem exists_leadsTo_of_build {entry : Nat} {rest : List Nat} {g : DecisionGraph}
    (h : build ctx (entry :: rest) body past = .ok g) (v : Valuation) :
    ∃ exit, ctx.LeadsTo v (entry :: rest) body past entry exit ∧ (exit = body ∨ exit = past) ∧
      ((Condition.join .or (g.pathsTo .body)).eval v = true ↔ exit = body) := by
  unfold build at h
  obtain ⟨decisions, hdecisions, h⟩ := bind_eq_ok.1 h
  cases hwalk : walk decisions [.enter (.member 0)] [] with
  | none => simp [hwalk, throw, throwThe, MonadExceptOf.throw] at h
  | some paths =>
    simp only [hwalk] at h
    cases h
    have hne : decisions ≠ [] := by
      have hlen := length_of_mapM_eq_ok hdecisions
      rintro rfl
      simp at hlen
    obtain ⟨exit, hleads, heval⟩ := exists_leads_of_walk (wired_of_decisions hdecisions v) hne hwalk
    obtain ⟨last, hlast, hstands⟩ := leadsTo_of_leads hdecisions hleads rfl rfl
    refine ⟨last, hlast, ?_⟩
    obtain rfl | rfl := hleads.final
    · exact ⟨.inl hstands, heval.trans (iff_of_true rfl hstands)⟩
    · exact ⟨.inr hstands.1, heval.trans (iff_of_false (by simp) hstands.2)⟩

end DecisionGraph

/-- The condition of a group holds exactly if control leaves the group at the body. -/
theorem Context.exists_leadsTo {ctx : Context} {group : List Nat} {body past : Nat}
    {c : Condition} (h : ctx.groupCondition group body past = .ok c) (v : Valuation) :
    ∃ entry exit, group.head? = some entry ∧ ctx.LeadsTo v group body past entry exit ∧
      (exit = body ∨ exit = past) ∧ (c.eval v = true ↔ exit = body) := by
  unfold groupCondition at h
  obtain ⟨g, hbuild, hpaths⟩ := bind_eq_ok.1 h
  cases group with
  | nil => cases hbuild
  | cons entry rest =>
    obtain ⟨exit, hleads, hexit, heval⟩ := DecisionGraph.exists_leadsTo_of_build hbuild v
    refine ⟨entry, exit, rfl, hleads, hexit, ?_⟩
    split at hpaths
    · cases hpaths
    · cases hpaths
      rw [Condition.eval_simplify, heval]

/-- Control goes on from every member of a group that has a condition. -/
theorem Context.exists_branch? {ctx : Context} {group : List Nat} {body past : Nat}
    {c : Condition} (h : ctx.groupCondition group body past = .ok c) (v : Valuation) {id : Nat}
    (hid : id ∈ group) : ∃ next, ctx.branch? v id = some next := by
  unfold groupCondition at h
  obtain ⟨g, hbuild, -⟩ := bind_eq_ok.1 h
  unfold DecisionGraph.build at hbuild
  cases group with
  | nil => simp at hid
  | cons entry rest =>
    obtain ⟨decisions, hdecisions, -⟩ := bind_eq_ok.1 hbuild
    obtain ⟨i, hi⟩ := List.getElem?_of_mem hid
    obtain ⟨d, -, hdecide⟩ := getElem?_of_mapM_eq_ok hdecisions hi
    obtain ⟨next, hnext, -⟩ := DecisionGraph.branch?_of_decide hdecide v
    exact ⟨next, hnext⟩

/-- Control takes one course from the first block of a group and leaves the group at the body or
past it; it leaves at the body exactly if the condition of the group holds. -/
theorem Context.groupCondition_eval_iff {ctx : Context} {group : List Nat} {body past : Nat}
    {c : Condition} (h : ctx.groupCondition group body past = .ok c) (v : Valuation) :
    ∃ entry exit, group.head? = some entry ∧ ctx.LeadsTo v group body past entry exit ∧
      (∀ other, ctx.LeadsTo v group body past entry other → other = exit) ∧
      (exit = body ∨ exit = past) ∧ (c.eval v = true ↔ exit = body) := by
  obtain ⟨entry, exit, hentry, hleads, hexit, heval⟩ := exists_leadsTo h v
  exact ⟨entry, exit, hentry, hleads, fun other hother => hleads.unique hother, hexit, heval⟩

/-- The tests `a > 0 && b > 0 || c > 0`, where two edges lead to the third block. -/
def sharedTest : Context where
  graph := .build
    [⟨0, .iload0, .none⟩, ⟨1, .ifle, .label 4⟩, ⟨4, .iload1, .none⟩, ⟨5, .ifgt, .label 6⟩,
      ⟨8, .iload2, .none⟩, ⟨9, .ifle, .label 7⟩, ⟨12, .iinc, .increment 3 1⟩,
      ⟨15, .returnVoid, .none⟩]
  locals := .empty
  constants := []

/-- The test of a variable without a declaration against zero. -/
def localTest (op : Comparison) (slot : UInt16) : Condition :=
  .test (.compare op (.var ⟨slot, s!"local{slot.toNat}", .int⟩) (.int 0))

/-- The condition of `sharedTest`, with one conjunction for each path to the body. -/
def sharedCondition : Condition :=
  .join .or [.join .and [localTest .le 0, localTest .gt 2],
    .join .and [localTest .gt 0, localTest .gt 1],
    .join .and [localTest .gt 0, localTest .le 1, localTest .gt 2]]

theorem Context.groupCondition_eval_iff_sharedTest :
    sharedTest.groupCondition [0, 1, 2] 3 4 = .ok sharedCondition ∧
      ∃ entry exit, [0, 1, 2].head? = some entry ∧
        sharedTest.LeadsTo (.ofValues fun _ => 1) [0, 1, 2] 3 4 entry exit ∧
        (∀ other, sharedTest.LeadsTo (.ofValues fun _ => 1) [0, 1, 2] 3 4 entry other →
          other = exit) ∧
        (exit = 3 ∨ exit = 4) ∧
        (sharedCondition.eval (.ofValues fun _ => 1) = true ↔ exit = 3) :=
  have h : sharedTest.groupCondition [0, 1, 2] 3 4 = .ok sharedCondition :=
    eq_ok_of_toOption_eq_some (by decide +kernel)
  ⟨h, groupCondition_eval_iff h _⟩

end Unjump
