import Unjump.Proofs.DecisionGraph.Forward
import Unjump.Proofs.Region.Exits
import Unjump.Proofs.Replay.Failure

/-!
# How a search fails

The blocks of a group that guards others have decisions unless a test cannot be replayed, the paths
through the decisions are found, and one of them leads to the body. So a group has a condition
unless a test cannot be replayed (`Context.Guards.isReported_of_groupCondition`), and a search fails
for this reason or with the refusal of a group (`Context.isReported_of_searches`).
-/

namespace Unjump

namespace DecisionGraph

variable {group : List Nat} {body past : Nat}

/-- An edge that leads forward leads to an exit or to a member further on. -/
theorem leadsOn_of_stands {decisions : List Decision} {start count position target : Nat}
    {exit : Exit} (hlength : decisions.length = count)
    (h : Stands (List.range' start count) body past exit target) (hlt : start + position < target) :
    LeadsOn decisions position exit := by
  cases exit with
  | body | past => trivial
  | member next =>
    obtain ⟨hinside, hget⟩ := List.getElem?_eq_some_iff.1 h.1
    rw [List.length_range'] at hinside
    rw [List.getElem_range'] at hget
    exact ⟨by omega, by omega⟩

end DecisionGraph

namespace Context

open DecisionGraph

variable {ctx : Context} {code : List Instr} (hgraph : ctx.graph = .build code)
  (hlabels : Labelled code) (hfits : ctx.Fits) (hforward : ctx.graph.backwardEdge? = none)

section Groups

variable {start stop count past : Nat} (hguards : ctx.Guards start stop count past)
  (hstop : stop ≤ ctx.graph.size)
include hgraph hlabels hforward hguards hstop

include hfits in
/-- A member of a group makes a decision unless its test cannot be replayed. -/
theorem Guards.isReported_of_decide {id : Nat} (hid : id ∈ List.range' start (count + 1))
    {failure : Failure}
    (h : DecisionGraph.decide ctx (List.range' start (count + 1)) (start + count + 1) past id =
      .error failure) : failure.IsReported := by
  obtain ⟨b, target, hb, htarget, hotherwise, -, hplace⟩ :=
    hguards.exists_edges hgraph hlabels hforward hstop hid
  have hcond : ctx.graph.isConditional id = true :=
    isConditional_of_mem_group hguards.isConditional (hguards.count_eq ▸ hid)
  have hplace' : id + 1 = start + count + 1 ∨ id + 1 = past ∨
      id + 1 ∈ List.range' start (count + 1) := by
    have := List.mem_range'_1.1 hid
    rw [List.mem_range'_1]
    omega
  unfold DecisionGraph.decide at h
  obtain h | ⟨test, -, h⟩ := bind_eq_error.1 h
  · exact isReported_of_jumpTest hfits hcond h
  · -- both edges lead to members or exits
    obtain ⟨exit, hexit⟩ := exists_resolve id hplace
    obtain ⟨exit', hexit'⟩ := exists_resolve id hplace'
    simp only [hb, htarget, hotherwise, Option.bind_some, hexit, hexit'] at h
    cases h

/-- The edges between the decisions of a group lead forward. -/
theorem Guards.leadsOn {decisions : List Decision}
    (hdecisions : (List.range' start (count + 1)).mapM
      (DecisionGraph.decide ctx (List.range' start (count + 1)) (start + count + 1) past) =
        .ok decisions)
    {position : Nat} {d : Decision} (hd : decisions[position]? = some d) :
    LeadsOn decisions position d.target ∧ LeadsOn decisions position d.otherwise := by
  have hlength := length_of_mapM_eq_ok hdecisions
  rw [List.length_range'] at hlength
  obtain ⟨hlt, -⟩ := List.getElem?_eq_some_iff.1 hd
  have hget : (List.range' start (count + 1))[position]? = some (start + position) := by
    rw [List.getElem?_eq_getElem (by rw [List.length_range']; omega), List.getElem_range',
      Nat.one_mul]
  obtain ⟨d', hd', hdecide⟩ := getElem?_of_mapM_eq_ok hdecisions hget
  cases hd.symm.trans hd'
  obtain ⟨-, b, target, otherwise, -, -, hb, htarget, hstands, hotherwise, hstands'⟩ :=
    exists_edges_of_decide hdecide
  obtain ⟨b', target', hb', htarget', hotherwise', hnext, -⟩ :=
    hguards.exists_edges hgraph hlabels hforward hstop (List.mem_of_getElem? hget)
  cases hb.symm.trans hb'
  cases htarget.symm.trans htarget'
  cases hotherwise.symm.trans hotherwise'
  exact ⟨leadsOn_of_stands hlength hstands hnext, leadsOn_of_stands hlength hstands' (by omega)⟩

/-- The paths through the decisions of a group are found, and one of them leads to the body. -/
theorem Guards.exists_walk {decisions : List Decision}
    (hdecisions : (List.range' start (count + 1)).mapM
      (DecisionGraph.decide ctx (List.range' start (count + 1)) (start + count + 1) past) =
        .ok decisions) :
    ∃ paths, walk decisions [.enter (.member 0)] [] = some paths ∧
      pathsTo ⟨decisions, paths⟩ .body ≠ [] := by
  have hlength := length_of_mapM_eq_ok hdecisions
  rw [List.length_range'] at hlength
  have hne : decisions ≠ [] := List.ne_nil_of_length_pos (by omega)
  obtain ⟨paths, hwalk⟩ := DecisionGraph.exists_walk
    (fun _ _ => hguards.leadsOn hgraph hlabels hforward hstop hdecisions) hne
  refine ⟨paths, hwalk, fun hnone => ?_⟩
  -- control falls through to the body, so the tree of the first member has a way there
  have hentry : (List.range' start (count + 1))[0]? = some start := by simp
  obtain ⟨id, taken, hreach, hbody⟩ :=
    (hguards.fallsThrough hgraph hlabels hforward hstop).exists_edge_body
      (List.mem_of_getElem? hentry)
  obtain ⟨tree, htree, hjoin⟩ := exists_unfolds_of_walk (sound_of_decisions hdecisions)
    hne hwalk
  rw [hnone, Condition.anyOf] at hjoin
  have hclauses := (Condition.join.inj hjoin).2
  exact htree.clauses_ne_nil hdecisions hreach hbody hentry (List.map_eq_nil_iff.1 hclauses.symm)

include hfits in
/-- The decisions of a group have paths to the body, unless one of the tests cannot be replayed. -/
theorem Guards.build_cases :
    (∃ failure, build ctx (List.range' start (count + 1)) (start + count + 1) past =
      .error failure ∧ failure.IsReported) ∨
    ∃ g, build ctx (List.range' start (count + 1)) (start + count + 1) past = .ok g ∧
      g.pathsTo .body ≠ [] := by
  unfold build
  split
  · exact .inl ⟨_, rfl, trivial⟩
  · cases hdecisions : (List.range' start (count + 1)).mapM
        (DecisionGraph.decide ctx (List.range' start (count + 1)) (start + count + 1) past) with
    | error failure =>
      obtain ⟨id, hid, hdecide⟩ := exists_of_mapM_eq_error hdecisions
      exact .inl ⟨failure, rfl,
        hguards.isReported_of_decide hgraph hlabels hfits hforward hstop hid hdecide⟩
    | ok decisions =>
      obtain ⟨paths, hwalk, hpaths⟩ :=
        hguards.exists_walk hgraph hlabels hforward hstop hdecisions
      exact .inr ⟨⟨decisions, paths⟩, bind_eq_ok.2 ⟨decisions, rfl, by rw [hwalk]; rfl⟩, hpaths⟩

include hfits in
/-- A group that guards blocks has a condition unless one of its tests cannot be replayed. -/
theorem Guards.isReported_of_groupCondition {failure : Failure}
    (h : ctx.groupCondition (List.range' start (count + 1)) (start + count + 1) past =
      .error failure) : failure.IsReported := by
  unfold groupCondition at h
  obtain ⟨failure', hbuild, hreported⟩ | ⟨g, hbuild, hpaths⟩ :=
    hguards.build_cases hgraph hlabels hfits hforward hstop
  · rw [hbuild] at h
    cases h
    exact hreported
  · obtain h | ⟨g', hbuild', h⟩ := bind_eq_error.1 h
    · cases hbuild.symm.trans h
    · cases hbuild.symm.trans hbuild'
      split at h
      · rename_i hnone
        exact absurd hnone hpaths
      · cases h

end Groups

include hgraph hlabels hfits hforward

/-- A search fails because it refuses a group, or because a test cannot be replayed. -/
theorem isReported_of_searches {start stop : Nat} {passes : List (Nat × Nat)}
    {result : Except Failure (List Section)} (h : ctx.Searches start stop passes result)
    (hstop : stop ≤ ctx.graph.size) {failure : Failure} (hfailure : result = .error failure) :
    failure.IsReported := by
  induction h generalizing failure with
  | done => cases hfailure
  | feeder _ _ _ ih => exact ih hstop hfailure
  | @block _ _ _ result _ _ _ _ ih =>
    cases result with
    | error => cases hfailure; exact ih hstop rfl
    | ok => cases hfailure
  | noBody | singleExit | exitOutside =>
    cases hfailure
    trivial
  | noCondition hguards hcondition =>
    cases hfailure
    exact hguards.isReported_of_groupCondition hgraph hlabels hfits hforward hstop hcondition
  | noInside hguards _ _ ih =>
    cases hfailure
    exact ih (hguards.past_le.trans hstop) rfl
  | noAlternative hguards _ _ _ _ ih =>
    cases hfailure
    exact ih ((ctx.graph.join_le hguards.past_le).trans hstop) rfl
  | @choice _ _ _ _ _ _ _ _ _ _ result _ _ _ _ _ _ _ ih =>
    cases result with
    | error => cases hfailure; exact ih hstop rfl
    | ok => cases hfailure

omit hforward in
/-- A method has sections, unless an edge leads backward, operands are left for a join, or the
search fails. -/
theorem isReported_of_sections {failure : Failure} (h : ctx.sections = .error failure) :
    failure.IsReported := by
  unfold Context.sections at h
  split at h
  · cases h
    trivial
  · rename_i hforward
    split at h
    · cases h
      trivial
    · obtain ⟨passes, -, hsearches⟩ := ctx.searches_sectionsBetween 0 ctx.graph.size
      exact isReported_of_searches hgraph hlabels hfits hforward hsearches (Nat.le_refl _) h

end Context

end Unjump
