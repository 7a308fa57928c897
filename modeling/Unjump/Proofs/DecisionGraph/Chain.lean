import Mathlib.Data.List.Chain
import Unjump.Proofs.DecisionGraph.Forward
import Unjump.Proofs.DecisionGraph.Unfolding

/-!
# Chains of tests

In a chain every test but the last leads right to one exit if it holds, and is followed by the next
test if it fails. A chain whose tests lead to the body has one clause for each test: the test
itself behind the inverses of the ones before it (`getElem?_clauses_chain`). Each pass of
simplifying brings one more test to the front, without the inverses, and the disjunction of the
tests is left (`simplify_behind_chain`). A chain whose tests lead past the body has a single
clause, with the inverses of all tests.

A group whose blocks follow each other in this way (`Context.Chained`) unfolds to such a chain, so
its condition is the disjunction of its tests or the conjunction of their inverses
(`Context.groupCondition_chained`).
-/

namespace Unjump

open Condition

/-- Tests are apart if none of them is another one, either way round. -/
def Test.Apart (tests : List Test) : Prop :=
  tests.Pairwise fun t u => t ≠ u ∧ t ≠ u.inverse

instance (tests : List Test) : Decidable (Test.Apart tests) :=
  inferInstanceAs (Decidable (tests.Pairwise _))

/-- A test that is apart from the ones before it is not among them, either way round. -/
theorem Test.Apart.notMem {known : List Test} {t : Test} {rest : List Test}
    (h : Apart (known ++ t :: rest)) : t ∉ known ∧ t.inverse ∉ known := by
  have happart : ∀ u ∈ known, u ≠ t ∧ u ≠ t.inverse := fun u hu =>
    (List.pairwise_append.1 h).2.2 u hu t List.mem_cons_self
  exact ⟨fun hmem => (happart t hmem).1 rfl, fun hmem => (happart _ hmem).2 rfl⟩

namespace DecisionTree

/-- The body, or the place past it. -/
def leaf (toBody : Bool) : DecisionTree :=
  if toBody then .body else .past

/-- Tests one after the other, each of which leads to one side if it holds, and a tree behind
them. -/
def chain (side : DecisionTree) (tests : List Test) (last : DecisionTree) : DecisionTree :=
  tests.foldr (fun t rest => .ask t side rest) last

variable {side last : DecisionTree} {tests : List Test}

@[simp] theorem chain_nil : chain side [] last = last := rfl

@[simp] theorem chain_cons (t : Test) :
    chain side (t :: tests) last = .ask t side (chain side tests last) := rfl

theorem fresh_leaf (known : List Test) (toBody : Bool) : (leaf toBody).Fresh known := by
  cases toBody <;> trivial

/-- A test that decides between the exits has one way to the body. -/
theorem clauses_ask_leaf (t : Test) (way : Bool) :
    (ask t (leaf way) (leaf !way)).clauses = [[if way then t else t.inverse]] := by
  cases way <;> rfl

/-- A chain of tests that are apart asks none of them twice. -/
theorem fresh_chain (hside : ∀ known, side.Fresh known) {known : List Test}
    (h : Test.Apart (known ++ tests)) (hlast : last.Fresh (known ++ tests)) :
    (chain side tests last).Fresh known := by
  induction tests generalizing known with
  | nil => simpa using hlast
  | cons t tests ih =>
    obtain ⟨ht, ht'⟩ := h.notMem
    rw [List.append_cons] at h hlast
    exact ⟨ht, ht', hside _, ih h hlast⟩

/-! ## Tests that lead to the body -/

section Body

variable {u : Test} (hlast : last.clauses = [[u]])
include hlast

/-- The clauses of a chain hold a test each, behind the inverses of the tests before it. -/
theorem getElem?_clauses_chain {k : Nat} {t : Test} (hk : (tests ++ [u])[k]? = some t) :
    (chain .body tests last).clauses[k]? = some ((tests.take k).map Test.inverse ++ [t]) := by
  induction tests generalizing k with
  | nil =>
    obtain ⟨hlt, rfl⟩ := List.getElem?_eq_some_iff.1 hk
    obtain rfl : k = 0 := by simpa using hlt
    simp [hlast]
  | cons v tests ih =>
    cases k with
    | zero => simpa [clauses] using hk
    | succ k =>
      have hrest := ih (k := k) (by simpa using hk)
      simp [clauses, hrest]

theorem length_clauses_chain : (chain .body tests last).clauses.length = tests.length + 1 := by
  induction tests with
  | nil => simp [hlast]
  | cons t tests ih =>
    simp only [chain_cons, clauses, List.map_cons, List.map_nil, List.length_append,
      List.length_map, List.length_cons, List.length_nil, ih]
    omega

theorem clauses_chain_ne_nil : (chain .body tests last).clauses ≠ [] := by
  rw [← List.length_pos_iff, length_clauses_chain hlast]
  exact Nat.succ_pos _

theorem nil_notMem_clauses_chain : [] ∉ (chain .body tests last).clauses := by
  cases tests with
  | nil => simp [hlast]
  | cons t tests => exact nil_notMem_clauses (by simp)

/-- Simplifying brings the tests of a chain to the front one by one, and the disjunction of all the
tests is left. -/
theorem simplify_behind_chain {front : List Test} (hfront : front.Nodup)
    (hfresh : (chain .body tests last).Fresh front) :
    (anyOf (behind front (chain .body tests last))).simplify =
      collapse .or ((front ++ (tests ++ [u])).map test) := by
  induction tests generalizing front with
  | nil =>
    have hlengths : ∀ ts ∈ last.clauses, ts.length = 1 := by simp [hlast]
    rw [chain_nil] at hfresh ⊢
    rw [simplify_of_pass_eq_collapse (fun ts => nodup_of_mem_behind hfresh)
      (pass_behind hfront hfresh (.inl hlengths)), behind, hlast]
    simp [Function.comp_def]
  | cons t tests ih =>
    rw [chain_cons] at hfresh ⊢
    have hpass := pass_front hfront hfresh (clauses_chain_ne_nil hlast)
      (nil_notMem_clauses_chain hlast)
    obtain ⟨ht, -, -, hrest⟩ := hfresh
    have hfront' : (front ++ [t]).Nodup :=
      List.nodup_append.2 ⟨hfront, List.nodup_singleton t, fun a ha b hb heq =>
        ht (List.mem_singleton.1 hb ▸ heq ▸ ha)⟩
    rw [← simplify_pass, hpass, ih hfront' hrest, List.append_assoc]
    rfl

end Body

/-! ## Tests that lead past the body -/

/-- The ways through a chain are those behind it, after the inverses of its tests. -/
theorem clauses_chain_past :
    (chain .past tests last).clauses = last.clauses.map (tests.map Test.inverse ++ ·) := by
  induction tests with
  | nil => simp
  | cons t tests ih => simp [clauses, ih]

/-- A tree with a single way to the body simplifies to its clause. -/
theorem simplify_clauses_of_singleton {tree : DecisionTree} {ts : List Test}
    (hfresh : tree.Fresh []) (h : tree.clauses = [ts]) :
    (anyOf tree.clauses).simplify = clause ts := by
  have hlengths : (∀ us ∈ tree.clauses, us.length = 1) ∨ ∀ us ∈ tree.clauses, us.length ≠ 1 := by
    simpa [h] using Decidable.em (ts.length = 1)
  have hpass : (anyOf (behind [] tree)).pass false = collapse .or ((behind [] tree).map clause) :=
    pass_behind List.nodup_nil hfresh hlengths
  rw [behind, List.map_nil, List.nil_append] at hpass
  rw [simplify_of_pass_eq_collapse (fun us => hfresh.nodup) hpass, h]
  rfl

end DecisionTree

/-! ## Chains of blocks -/

/-- The members of a group follow each other in a chain between the body and the block past it: the
members in front jump to the body (`early`) or past it, and fall through to the next member, and
each edge of the last one leads to the body (`yes`, `no`) or past it. -/
structure Context.Chained (ctx : Context) (members : List Nat) (last body past : Nat)
    (early yes no : Bool) : Prop where
  nodup : (members ++ [last]).Nodup
  body_notMem : body ∉ members ++ [last]
  past_notMem : past ∉ members ++ [last]
  ne : body ≠ past
  falls : (members ++ [last]).IsChain fun id next =>
    ctx.edge? id true = some (if early then body else past) ∧ ctx.edge? id false = some next
  jump : ctx.edge? last true = some (if yes then body else past)
  fall : ctx.edge? last false = some (if no then body else past)

namespace DecisionGraph

variable {ctx : Context} {group : List Nat} {body past : Nat} {decisions : List Decision}

/-- A member with a test makes a decision if its edges lead to members or exits. -/
theorem exists_decide {id : Nat} {t : Test} (htest : ctx.jumpTest id = .ok t)
    (hedges : ∀ taken, ∃ next, ctx.edge? id taken = some next ∧
      (next = body ∨ next = past ∨ next ∈ group)) :
    ∃ d, decide ctx group body past id = .ok d := by
  obtain ⟨target, htarget, hplace⟩ := hedges true
  obtain ⟨otherwise, hotherwise, hplace'⟩ := hedges false
  obtain ⟨exit, hexit⟩ := exists_resolve id hplace
  obtain ⟨exit', hexit'⟩ := exists_resolve id hplace'
  have htarget : (ctx.graph.block? id).bind (·.target) = some target := htarget
  have hotherwise : (ctx.graph.block? id).bind (·.otherwise) = some otherwise := hotherwise
  unfold decide
  simp only [htest, htarget, hotherwise, hexit, hexit']
  exact ⟨_, rfl⟩

/-- The tree of an exit asks no tests. -/
theorem TreeAt.eq_leaf {toBody : Bool} {tree : DecisionTree} (hne : body ≠ past)
    (h : TreeAt decisions group body past (if toBody then body else past) tree) :
    tree = .leaf toBody := by
  generalize hid : (if toBody then body else past) = id at h
  cases h with
  | body =>
    cases toBody with
    | true => rfl
    | false => exact absurd hid.symm hne
  | past _ =>
    cases toBody with
    | true => exact absurd hid hne
    | false => rfl
  | member _ hbody hpast _ =>
    cases toBody with
    | true => exact absurd hid.symm hbody
    | false => exact absurd hid.symm hpast

end DecisionGraph

namespace Context.Chained

open DecisionGraph

variable {ctx : Context} {members : List Nat} {last body past : Nat} {early yes no : Bool}
  (h : ctx.Chained members last body past early yes no)
include h

/-- A member in front of others jumps to an exit and falls through to the next member. -/
theorem exists_next {k id : Nat} (hid : (members ++ [last])[k]? = some id)
    (hk : k < members.length) :
    ctx.edge? id true = some (if early then body else past) ∧
      ∃ next, ctx.edge? id false = some next ∧ (members ++ [last])[k + 1]? = some next ∧
        next ≠ body ∧ next ≠ past := by
  have hlt : k + 1 < (members ++ [last]).length := by simpa using hk
  obtain ⟨-, rfl⟩ := List.getElem?_eq_some_iff.1 hid
  obtain ⟨hjump, hfall⟩ := h.falls.getElem k hlt
  have hmem := List.getElem_mem hlt
  exact ⟨hjump, _, hfall, List.getElem?_eq_getElem hlt, fun heq => h.body_notMem (heq ▸ hmem),
    fun heq => h.past_notMem (heq ▸ hmem)⟩

/-- An edge of a member leads to an exit or to the next member. -/
theorem exists_edge {k id : Nat} (hid : (members ++ [last])[k]? = some id) (taken : Bool) :
    ∃ next, ctx.edge? id taken = some next ∧
      (next = body ∨ next = past ∨ (members ++ [last])[k + 1]? = some next) := by
  have hexit (toBody : Bool) : (if toBody then body else past) = body ∨
      (if toBody then body else past) = past := by cases toBody <;> simp
  by_cases hk : k < members.length
  · obtain ⟨hjump, next, hfall, hnext, -⟩ := h.exists_next hid hk
    cases taken with
    | true => exact ⟨_, hjump, (hexit early).imp_right .inl⟩
    | false => exact ⟨next, hfall, .inr (.inr hnext)⟩
  · obtain ⟨hlt, rfl⟩ := List.getElem?_eq_some_iff.1 hid
    obtain rfl : k = members.length := by
      rw [List.length_append, List.length_singleton] at hlt
      omega
    rw [List.getElem_concat_length rfl]
    cases taken with
    | true => exact ⟨_, h.jump, (hexit yes).imp_right .inl⟩
    | false => exact ⟨_, h.fall, (hexit no).imp_right .inl⟩

/-- Every member makes a decision if it has a test. -/
theorem exists_decisions {tests : List Test}
    (htests : (members ++ [last]).mapM ctx.jumpTest = .ok tests) :
    ∃ decisions, (members ++ [last]).mapM (decide ctx (members ++ [last]) body past) =
      .ok decisions := by
  refine exists_mapM_eq_ok fun id hid => ?_
  obtain ⟨k, hk⟩ := List.getElem?_of_mem hid
  obtain ⟨t, -, htest⟩ := getElem?_of_mapM_eq_ok htests hk
  refine exists_decide htest fun taken => ?_
  obtain ⟨next, hedge, hbody | hpast | hnext⟩ := h.exists_edge hk taken
  · exact ⟨next, hedge, .inl hbody⟩
  · exact ⟨next, hedge, .inr (.inl hpast)⟩
  · exact ⟨next, hedge, .inr (.inr (List.mem_of_getElem? hnext))⟩

variable {decisions : List Decision}
  (hdecisions : (members ++ [last]).mapM (decide ctx (members ++ [last]) body past) =
    .ok decisions)
include hdecisions

/-- The decisions of a chain lead forward. -/
theorem leadsOn {position : Nat} {d : Decision} (hd : decisions[position]? = some d) :
    LeadsOn decisions position d.target ∧ LeadsOn decisions position d.otherwise := by
  have hlength := length_of_mapM_eq_ok hdecisions
  obtain ⟨hlt, -⟩ := List.getElem?_eq_some_iff.1 hd
  have hid := List.getElem?_eq_getElem (hlength ▸ hlt)
  obtain ⟨-, -, -, hedges⟩ := exists_edges_of_decisions hdecisions hd hid
  have hon (taken : Bool) :
      LeadsOn decisions position (if taken then d.target else d.otherwise) := by
    obtain ⟨next, hedge, hstands⟩ := hedges taken
    generalize (if taken then d.target else d.otherwise) = exit at hstands ⊢
    cases exit with
    | body | past => trivial
    | member position' =>
      obtain ⟨hget, hbody, hpast⟩ := hstands
      obtain ⟨next', hedge', hnext⟩ := h.exists_edge hid taken
      cases hedge.symm.trans hedge'
      -- the next member stands at one position only
      have hnext := (hnext.resolve_left hbody).resolve_left hpast
      obtain ⟨hlt', -⟩ := List.getElem?_eq_some_iff.1 hnext
      obtain rfl := (List.getElem?_inj hlt' h.nodup).1 (hnext.trans hget.symm)
      exact ⟨Nat.lt_succ_self _, hlength ▸ hlt'⟩
  exact ⟨hon true, hon false⟩

/-- The tree of a member of a chain is a chain of the tests from there on. -/
theorem eq_chain_of_unfolds (before : List Nat) {behind : List Nat} {tests : List Test} {t : Test}
    {tree : DecisionTree} (hsplit : members ++ [last] = before ++ (behind ++ [last]))
    (htests : List.Forall₂ (fun id u => ctx.jumpTest id = .ok u) behind tests)
    (ht : ctx.jumpTest last = .ok t) (htree : Unfolds decisions (.member before.length) tree) :
    tree = .chain (.leaf early) tests (.ask t (.leaf yes) (.leaf no)) := by
  induction htests generalizing before tree with
  | nil =>
    have hid : (members ++ [last])[before.length]? = some last := by simp [hsplit]
    obtain ⟨u, left, right, rfl, hu, hedges⟩ := htree.exists_ask hdecisions hid
    cases ht.symm.trans hu
    obtain ⟨next, hedge, hleft⟩ := hedges true
    obtain ⟨next', hedge', hright⟩ := hedges false
    cases hedge.symm.trans h.jump
    cases hedge'.symm.trans h.fall
    have hleft : left = .leaf yes := hleft.eq_leaf h.ne
    have hright : right = .leaf no := hright.eq_leaf h.ne
    rw [hleft, hright, DecisionTree.chain_nil]
  | @cons id u behind tests hu _ ih =>
    have hid : (members ++ [last])[before.length]? = some id := by simp [hsplit]
    have hk : before.length < members.length := by
      have := congrArg List.length hsplit
      simp only [List.length_append, List.length_cons, List.length_nil] at this
      omega
    obtain ⟨u', left, right, rfl, hu', hedges⟩ := htree.exists_ask hdecisions hid
    cases hu.symm.trans hu'
    obtain ⟨hjump, next, hfall, hnext, hbody, hpast⟩ := h.exists_next hid hk
    obtain ⟨target, hedge, hleft⟩ := hedges true
    obtain ⟨otherwise, hedge', hright⟩ := hedges false
    cases hedge.symm.trans hjump
    cases hedge'.symm.trans hfall
    have hleft : left = .leaf early := hleft.eq_leaf h.ne
    -- the tree behind is that of the next member, which stands at the next position only
    obtain ⟨position, hget, hright⟩ := hright.exists_member hbody hpast
    obtain ⟨hlt, -⟩ := List.getElem?_eq_some_iff.1 hnext
    obtain rfl := (List.getElem?_inj hlt h.nodup).1 (hnext.trans hget.symm)
    have hright : right = .chain (.leaf early) tests (.ask t (.leaf yes) (.leaf no)) :=
      ih (before ++ [id]) (by simp [hsplit]) (by simpa using hright)
    rw [hleft, hright, DecisionTree.chain_cons]

omit hdecisions in
/-- A group that is a chain is built, and the paths to its body are the clauses of the chain of its
tests. -/
theorem exists_build {tests : List Test} {t : Test}
    (htests : members.mapM ctx.jumpTest = .ok tests) (ht : ctx.jumpTest last = .ok t) :
    ∃ g, build ctx (members ++ [last]) body past = .ok g ∧
      g.pathsTo .body =
        (DecisionTree.chain (.leaf early) tests (.ask t (.leaf yes) (.leaf no))).clauses.map
          clause := by
  have hall := mapM_eq_ok_iff_forall₂.1 htests
  obtain ⟨decisions, hdecisions⟩ :=
    h.exists_decisions (mapM_eq_ok_iff_forall₂.2 (List.rel_append hall (.cons ht .nil)))
  have hne : decisions ≠ [] := by
    rintro rfl
    simpa using length_of_mapM_eq_ok hdecisions
  obtain ⟨paths, hwalk⟩ := exists_walk (fun _ _ => h.leadsOn hdecisions) hne
  obtain ⟨tree, htree, hpaths⟩ := exists_unfolds_of_walk (sound_of_decisions hdecisions) hne hwalk
  obtain ⟨entry, hentry⟩ : ∃ entry, (members ++ [last]).head? = some entry := by
    cases members <;> simp
  refine ⟨⟨decisions, paths⟩, ?_, ?_⟩
  · rw [build_of_decisions hentry hdecisions, hwalk]
  · rw [← h.eq_chain_of_unfolds hdecisions [] rfl hall ht htree]
    exact (join.inj hpaths).2

end Context.Chained

/-- A group with paths to its body has their disjunction as its condition, simplified. -/
theorem Context.groupCondition_of_build {ctx : Context} {group : List Nat} {body past : Nat}
    {g : DecisionGraph} (hbuild : DecisionGraph.build ctx group body past = .ok g)
    (hne : g.pathsTo .body ≠ []) :
    ctx.groupCondition group body past = .ok (join .or (g.pathsTo .body)).simplify := by
  obtain ⟨c, cs, hpaths⟩ := List.exists_cons_of_ne_nil hne
  simp only [groupCondition, hbuild, bind, Except.bind, hpaths]
  rfl

namespace Context.Chained

variable {ctx : Context} {members : List Nat} {last body past : Nat} {tests : List Test} {t : Test}
  (htests : members.mapM ctx.jumpTest = .ok tests) (ht : ctx.jumpTest last = .ok t)
include htests ht

/-- If the members in front jump to the body, the paths to the body hold a test each, behind the
inverses of the tests before it. -/
theorem exists_paths {way : Bool} (h : ctx.Chained members last body past true way (!way)) :
    ∃ g, DecisionGraph.build ctx (members ++ [last]) body past = .ok g ∧
      (g.pathsTo .body).length = (members ++ [last]).length ∧
      ∀ k u, (tests ++ [if way then t else t.inverse])[k]? = some u →
        (g.pathsTo .body)[k]? = some (clause ((tests.take k).map Test.inverse ++ [u])) := by
  obtain ⟨g, hbuild, hpaths⟩ := h.exists_build htests ht
  have hlast := DecisionTree.clauses_ask_leaf t way
  refine ⟨g, hbuild, ?_, fun k u hk => ?_⟩
  · rw [hpaths, List.length_map, List.length_append, ← length_of_mapM_eq_ok htests]
    exact DecisionTree.length_clauses_chain hlast
  · rw [hpaths, List.getElem?_map]
    exact congrArg (Option.map clause) (DecisionTree.getElem?_clauses_chain hlast hk)

variable (hapart : Test.Apart (tests ++ [t]))
include hapart

omit htests ht in
/-- The chain of tests that are apart asks none of them twice. -/
theorem fresh_chain (early yes no : Bool) :
    (DecisionTree.chain (.leaf early) tests (.ask t (.leaf yes) (.leaf no))).Fresh [] := by
  have hfront : Test.Apart ([] ++ tests) := (List.pairwise_append.1 hapart).1
  obtain ⟨hmem, hmem'⟩ := hapart.notMem
  exact DecisionTree.fresh_chain (fun known => DecisionTree.fresh_leaf known early) hfront
    ⟨hmem, hmem', DecisionTree.fresh_leaf _ yes, DecisionTree.fresh_leaf _ no⟩

/-- If the members in front jump to the body, the condition is the disjunction of the tests. -/
theorem groupCondition_or {way : Bool} (h : ctx.Chained members last body past true way (!way)) :
    ctx.groupCondition (members ++ [last]) body past =
      .ok (collapse .or ((tests ++ [if way then t else t.inverse]).map test)) := by
  obtain ⟨g, hbuild, hpaths⟩ := h.exists_build htests ht
  have hlast := DecisionTree.clauses_ask_leaf t way
  have hne : g.pathsTo .body ≠ [] := by
    rw [hpaths, Ne, List.map_eq_nil_iff]
    exact DecisionTree.clauses_chain_ne_nil hlast
  rw [groupCondition_of_build hbuild hne, hpaths]
  exact congrArg Except.ok
    (DecisionTree.simplify_behind_chain hlast List.nodup_nil (fresh_chain hapart true way (!way)))

/-- If all members jump past the body, the condition is the conjunction of the inverses. -/
theorem groupCondition_and (h : ctx.Chained members last body past false false true) :
    ctx.groupCondition (members ++ [last]) body past =
      .ok (collapse .and ((tests ++ [t]).map fun u => test u.inverse)) := by
  obtain ⟨g, hbuild, hpaths⟩ := h.exists_build htests ht
  have hclauses : (DecisionTree.chain (.leaf false) tests
      (.ask t (.leaf false) (.leaf true))).clauses = [(tests ++ [t]).map Test.inverse] := by
    show (DecisionTree.chain .past tests (.ask t .past .body)).clauses = _
    rw [DecisionTree.clauses_chain_past]
    simp [DecisionTree.clauses]
  have hne : g.pathsTo .body ≠ [] := by simp [hpaths, hclauses]
  rw [groupCondition_of_build hbuild hne, hpaths]
  refine congrArg Except.ok ((DecisionTree.simplify_clauses_of_singleton
    (fresh_chain hapart false false true) hclauses).trans ?_)
  simp [clause, Function.comp_def]

end Context.Chained

/-- The condition of a chain whose tests are apart. If the members in front jump to the body, there
is one path to the body for each member, with its test behind the inverses of the tests before it,
and the condition is the disjunction of the tests, the last one turned around if it leads past the
body. If all members jump past the body, the condition is the conjunction of the inverses. -/
theorem Context.groupCondition_chained {ctx : Context} {members : List Nat} {last body past : Nat}
    {tests : List Test} {t : Test} (htests : members.mapM ctx.jumpTest = .ok tests)
    (ht : ctx.jumpTest last = .ok t) (hapart : Test.Apart (tests ++ [t])) :
    (∀ way, ctx.Chained members last body past true way (!way) →
      (∃ g, DecisionGraph.build ctx (members ++ [last]) body past = .ok g ∧
        (g.pathsTo .body).length = (members ++ [last]).length ∧
        ∀ k u, (tests ++ [if way then t else t.inverse])[k]? = some u →
          (g.pathsTo .body)[k]? = some (clause ((tests.take k).map Test.inverse ++ [u]))) ∧
      ctx.groupCondition (members ++ [last]) body past =
        .ok (collapse .or ((tests ++ [if way then t else t.inverse]).map test))) ∧
    (ctx.Chained members last body past false false true →
      ctx.groupCondition (members ++ [last]) body past =
        .ok (collapse .and ((tests ++ [t]).map fun u => test u.inverse))) :=
  ⟨fun _ h => ⟨h.exists_paths htests ht, h.groupCondition_or htests ht hapart⟩,
    fun h => h.groupCondition_and htests ht hapart⟩

/-- The test that `localTest` stands for. -/
def slotTest (op : Comparison) (slot : UInt16) : Test :=
  .compare op (.var ⟨slot, s!"local{slot.toNat}", .int⟩) (.int 0)

/-- The tests `a > 0 || b > 0 || c > 0`, the last of which jumps past the body if it fails. -/
def anyPositive : Context where
  graph := .build
    [⟨0, .iload0, .none⟩, ⟨1, .ifgt, .label 6⟩, ⟨4, .iload1, .none⟩, ⟨5, .ifgt, .label 6⟩,
      ⟨8, .iload2, .none⟩, ⟨9, .ifle, .label 7⟩, ⟨12, .iinc, .increment 3 1⟩,
      ⟨15, .returnVoid, .none⟩]
  locals := .empty
  constants := []

/-- The tests `a > 0 && b > 0 && c > 0`, each of which jumps past the body if it fails. -/
def allPositive : Context where
  graph := .build
    [⟨0, .iload0, .none⟩, ⟨1, .ifle, .label 7⟩, ⟨4, .iload1, .none⟩, ⟨5, .ifle, .label 7⟩,
      ⟨8, .iload2, .none⟩, ⟨9, .ifle, .label 7⟩, ⟨12, .iinc, .increment 3 1⟩,
      ⟨15, .returnVoid, .none⟩]
  locals := .empty
  constants := []

theorem Context.chained_anyPositive : anyPositive.Chained [0, 1] 2 3 4 true false true where
  nodup := by decide
  body_notMem := by decide
  past_notMem := by decide
  ne := by decide
  falls := by decide +kernel
  jump := by decide +kernel
  fall := by decide +kernel

theorem Context.chained_allPositive : allPositive.Chained [0, 1] 2 3 4 false false true where
  nodup := by decide
  body_notMem := by decide
  past_notMem := by decide
  ne := by decide
  falls := by decide +kernel
  jump := by decide +kernel
  fall := by decide +kernel

theorem Context.groupCondition_chained_positive :
    (∃ g, DecisionGraph.build anyPositive [0, 1, 2] 3 4 = .ok g ∧ (g.pathsTo .body).length = 3 ∧
      (g.pathsTo .body)[2]? =
        some (join .and [localTest .le 0, localTest .le 1, localTest .gt 2])) ∧
      anyPositive.groupCondition [0, 1, 2] 3 4 =
        .ok (join .or [localTest .gt 0, localTest .gt 1, localTest .gt 2]) ∧
      allPositive.groupCondition [0, 1, 2] 3 4 =
        .ok (join .and [localTest .gt 0, localTest .gt 1, localTest .gt 2]) := by
  have hany : [0, 1].mapM anyPositive.jumpTest = .ok [slotTest .gt 0, slotTest .gt 1] :=
    eq_ok_of_toOption_eq_some (by decide +kernel)
  have hlast : anyPositive.jumpTest 2 = .ok (slotTest .le 2) :=
    eq_ok_of_toOption_eq_some (by decide +kernel)
  have hall : [0, 1].mapM allPositive.jumpTest = .ok [slotTest .le 0, slotTest .le 1] :=
    eq_ok_of_toOption_eq_some (by decide +kernel)
  have hlast' : allPositive.jumpTest 2 = .ok (slotTest .le 2) :=
    eq_ok_of_toOption_eq_some (by decide +kernel)
  obtain ⟨hor, -⟩ := groupCondition_chained hany hlast (by decide +kernel)
  obtain ⟨-, hand⟩ := groupCondition_chained hall hlast' (by decide +kernel)
  obtain ⟨⟨g, hbuild, hlength, hpath⟩, hcondition⟩ := hor false chained_anyPositive
  exact ⟨⟨g, hbuild, hlength, hpath 2 (slotTest .gt 2) rfl⟩, hcondition,
    hand chained_allPositive⟩

end Unjump
