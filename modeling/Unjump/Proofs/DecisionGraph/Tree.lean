import Unjump.Proofs.Condition.Clause

/-!
# Decision trees

A decision tree asks one test after the other until it comes to the body of a group or past it.
Every way through the tree to the body is a clause, and asking these clauses one after the other
comes to the same as asking the tree (`outcomeAll_clauses`), provided that no test is asked in
vain.

Simplifying the disjunction of the clauses keeps this if no test is asked twice and the tests that
lead right to the body are asked first (`outcome_simplify_behind`). It takes such a test out of the
clauses behind it, one test in each pass (`pass_front`).
-/

namespace Unjump

open Condition

/-- The tests that decide between a body and the place past it. -/
inductive DecisionTree where
  | body
  | past
  | ask (t : Test) (yes no : DecisionTree)

namespace DecisionTree

/-- The ways through the tree to the body, in order. -/
def clauses : DecisionTree → List (List Test)
  | .body => [[]]
  | .past => []
  | .ask t yes no => yes.clauses.map (t :: ·) ++ no.clauses.map (t.inverse :: ·)

/-- What asking the tree comes to: whether it leads to the body, or an exception. -/
def outcome (o : Outcomes) : DecisionTree → Option Bool
  | .body => some true
  | .past => some false
  | .ask t yes no => (o.ofTest t).bind fun b => if b then yes.outcome o else no.outcome o

/-- The answer to every test matters: from every test the body can be reached. -/
def Live : DecisionTree → Prop
  | .body | .past => True
  | .ask t yes no => (ask t yes no).clauses ≠ [] ∧ yes.Live ∧ no.Live

/-- No test is asked, either way round, that is among the known ones or has been asked before. -/
def Fresh (known : List Test) : DecisionTree → Prop
  | .body | .past => True
  | .ask t yes no =>
    t ∉ known ∧ t.inverse ∉ known ∧ yes.Fresh (known ++ [t]) ∧ no.Fresh (known ++ [t])

/-- Behind the tests at the front that lead right to the body there is none that leads to the body
only if it fails, while other tests are asked if it holds. -/
def InOrder : DecisionTree → Prop
  | .ask _ .body no => no.InOrder
  | .ask _ (.ask _ _ _) no => no ≠ .body
  | _ => True

/-! ## Asking clauses -/

/-- The clauses behind a test that comes out the other way fail. -/
theorem outcomeAll_cons_of_false {o : Outcomes} {t : Test} (h : o.ofTest t = some false)
    (tss : List (List Test)) : outcomeAll o .or (tss.map fun ts => clause (t :: ts)) = some false := by
  refine outcomeAll_of_forall o fun c hc => ?_
  obtain ⟨ts, -, rfl⟩ := List.mem_map.1 hc
  rw [outcome_clause_cons, h]
  rfl

/-- The clauses behind a test that comes out their way are asked without it. -/
theorem outcomeAll_cons_of_true {o : Outcomes} {t : Test} (h : o.ofTest t = some true)
    (tss : List (List Test)) :
    outcomeAll o .or (tss.map fun ts => clause (t :: ts)) = outcomeAll o .or (tss.map clause) := by
  induction tss with
  | nil => rfl
  | cons ts tss ih =>
    rw [List.map_cons, List.map_cons, outcomeAll, outcomeAll, ih, outcome_clause_cons, h]
    rfl

/-- Every way through a tree begins with its first test. -/
theorem exists_cons_of_mem_clauses {t : Test} {yes no : DecisionTree} {ts : List Test}
    (h : ts ∈ (ask t yes no).clauses) :
    (∃ us ∈ yes.clauses, ts = t :: us) ∨ ∃ us ∈ no.clauses, ts = t.inverse :: us := by
  obtain h | h := List.mem_append.1 h
  · obtain ⟨us, hus, rfl⟩ := List.mem_map.1 h
    exact .inl ⟨us, hus, rfl⟩
  · obtain ⟨us, hus, rfl⟩ := List.mem_map.1 h
    exact .inr ⟨us, hus, rfl⟩

/-- Asking the clauses in order comes to the same as asking the tree. -/
theorem outcomeAll_clauses (o : Outcomes) {tree : DecisionTree} (hlive : tree.Live) :
    outcomeAll o .or (tree.clauses.map clause) = tree.outcome o := by
  induction tree with
  | body => rfl
  | past => rfl
  | ask t yes no ihyes ihno =>
    obtain ⟨hne, hyes, hno⟩ := hlive
    rw [outcome]
    cases ht : o.ofTest t with
    | none =>
      -- there is a first clause, and it begins with the test
      obtain ⟨ts, tss, htss⟩ := List.exists_cons_of_ne_nil hne
      have hfirst : (clause ts).outcome o = none := by
        obtain ⟨us, -, rfl⟩ | ⟨us, -, rfl⟩ :=
          exists_cons_of_mem_clauses (htss ▸ List.mem_cons_self : ts ∈ (ask t yes no).clauses)
        · rw [outcome_clause_cons, ht]; rfl
        · rw [outcome_clause_cons, o.ofTest_inverse, ht]; rfl
      rw [htss, List.map_cons, outcomeAll, hfirst]
      rfl
    | some b =>
      have ht' : o.ofTest t.inverse = some !b := by rw [o.ofTest_inverse, ht]; rfl
      rw [clauses, List.map_append, List.map_map, List.map_map, outcomeAll_append]
      simp only [Function.comp_def]
      -- the clauses on one side fail at the test, and those on the other side decide
      cases b with
      | true =>
        rw [outcomeAll_cons_of_true ht, outcomeAll_cons_of_false ht', ihyes hyes, Option.bind_some,
          if_pos rfl]
        cases yes.outcome o with
        | none => rfl
        | some b => cases b <;> rfl
      | false =>
        rw [outcomeAll_cons_of_false ht, outcomeAll_cons_of_true ht', ihno hno]
        rfl

/-! ## Clauses of a fresh tree -/

/-- The ways through a tree are different. -/
theorem nodup_clauses (tree : DecisionTree) : tree.clauses.Nodup := by
  induction tree with
  | body => simp [clauses]
  | past => simp [clauses]
  | ask t yes no ihyes ihno =>
    rw [clauses, List.nodup_append]
    refine ⟨ihyes.map fun _ _ h => List.tail_eq_of_cons_eq h,
      ihno.map fun _ _ h => List.tail_eq_of_cons_eq h, fun ts hts us hus heq => ?_⟩
    -- the first test goes one way in the clauses on one side, the other way in the others
    obtain ⟨ts', -, rfl⟩ := List.mem_map.1 hts
    obtain ⟨us', -, rfl⟩ := List.mem_map.1 hus
    exact t.inverse_ne (List.head_eq_of_cons_eq heq).symm

/-- The ways through a fresh tree hold no known test, either way round. -/
theorem Fresh.notMem {known : List Test} {tree : DecisionTree} (h : tree.Fresh known)
    {ts : List Test} (hts : ts ∈ tree.clauses) {u : Test} (hu : u ∈ ts) :
    u ∉ known ∧ u.inverse ∉ known := by
  induction tree generalizing known ts with
  | body => simp [List.mem_singleton.1 hts] at hu
  | past => simp [clauses] at hts
  | ask t yes no ihyes ihno =>
    obtain ⟨ht, ht', hyes, hno⟩ := h
    have hweaken (h : u ∉ known ++ [t] ∧ u.inverse ∉ known ++ [t]) :
        u ∉ known ∧ u.inverse ∉ known :=
      ⟨fun hmem => h.1 (List.mem_append_left _ hmem),
        fun hmem => h.2 (List.mem_append_left _ hmem)⟩
    obtain ⟨us, hus, rfl⟩ | ⟨us, hus, rfl⟩ := exists_cons_of_mem_clauses hts
    · obtain rfl | hu := List.mem_cons.1 hu
      · exact ⟨ht, ht'⟩
      · exact hweaken (ihyes hyes hus hu)
    · obtain rfl | hu := List.mem_cons.1 hu
      · exact ⟨ht', by rwa [Test.inverse_inverse]⟩
      · exact hweaken (ihno hno hus hu)

/-- No way through a fresh tree holds a test twice. -/
theorem Fresh.nodup {known : List Test} {tree : DecisionTree} (h : tree.Fresh known)
    {ts : List Test} (hts : ts ∈ tree.clauses) : ts.Nodup := by
  induction tree generalizing known ts with
  | body => simp [List.mem_singleton.1 hts]
  | past => simp [clauses] at hts
  | ask t yes no ihyes ihno =>
    obtain ⟨-, -, hyes, hno⟩ := h
    obtain ⟨us, hus, rfl⟩ | ⟨us, hus, rfl⟩ := exists_cons_of_mem_clauses hts
    · exact List.nodup_cons.2 ⟨fun hmem => (hyes.notMem hus hmem).1 (by simp), ihyes hyes hus⟩
    · exact List.nodup_cons.2 ⟨fun hmem => (hno.notMem hus hmem).2 (by simp), ihno hno hus⟩

/-! ## Simplifying the clauses -/

/-- Tests at the front that lead right to the body, and the ways through a tree behind them. -/
def behind (front : List Test) (tree : DecisionTree) : List (List Test) :=
  front.map ([·]) ++ tree.clauses

theorem mem_behind {front : List Test} {tree : DecisionTree} {ts : List Test} :
    ts ∈ behind front tree ↔ (∃ t ∈ front, ts = [t]) ∨ ts ∈ tree.clauses := by
  simp [behind, eq_comm]

section Behind

variable {front : List Test} {tree : DecisionTree}

theorem nodup_behind (hfront : front.Nodup) (hfresh : tree.Fresh front) :
    (behind front tree).Nodup := by
  rw [behind, List.nodup_append]
  refine ⟨hfront.map fun _ _ h => List.head_eq_of_cons_eq h, nodup_clauses tree,
    fun ts hts us hus heq => ?_⟩
  obtain ⟨t, ht, rfl⟩ := List.mem_map.1 hts
  exact (hfresh.notMem hus (heq ▸ List.mem_singleton_self t)).1 ht

theorem nodup_of_mem_behind (hfresh : tree.Fresh front) {ts : List Test}
    (hts : ts ∈ behind front tree) : ts.Nodup := by
  obtain ⟨t, -, rfl⟩ | hts := mem_behind.1 hts
  · exact List.nodup_singleton t
  · exact hfresh.nodup hts

theorem test_mem_siblings {t : Test} :
    test t ∈ siblings .or ((behind front tree).map clause) ↔ t ∈ front ∨ [t] ∈ tree.clauses := by
  rw [mem_siblings_map_clause, mem_behind]
  simp

/-- Asking the tests at the front, and the tree if they all fail. -/
theorem outcomeAll_behind (o : Outcomes) (hlive : tree.Live) :
    outcomeAll o .or ((behind front tree).map clause) =
      (outcomeAll o .or (front.map test)).bind fun b => if b then some true else tree.outcome o := by
  have hfront : (front.map ([·])).map clause = front.map test := by simp
  rw [behind, List.map_append, outcomeAll_append, hfront, outcomeAll_clauses o hlive]
  congr 1
  funext b
  cases b <;> rfl

/-- A pass keeps the clauses if either all of those behind the front are single tests or none is. -/
theorem pass_behind (hfront : front.Nodup) (hfresh : tree.Fresh front)
    (hlengths : (∀ ts ∈ tree.clauses, ts.length = 1) ∨ ∀ ts ∈ tree.clauses, ts.length ≠ 1) :
    (anyOf (behind front tree)).pass false = collapse .or ((behind front tree).map clause) := by
  rw [pass_anyOf (nodup_behind hfront hfresh) fun ts => nodup_of_mem_behind hfresh]
  congr 1
  refine List.flatMap_eq_self fun c hc => ?_
  obtain ⟨ts, hts, rfl⟩ := List.mem_map.1 hc
  obtain ⟨t, -, rfl⟩ | hts := mem_behind.1 hts
  · rfl
  · obtain hone | hmore := hlengths
    · obtain ⟨t, rfl⟩ := List.length_eq_one_iff.1 (hone ts hts)
      rfl
    · -- only tests at the front are siblings, and the tree is fresh
      have hapart {u : Test} (hu : u ∉ front) :
          test u ∉ siblings .or ((behind front tree).map clause) := by
        rw [test_mem_siblings, not_or]
        exact ⟨hu, fun hmem => hmore _ hmem rfl⟩
      refine prune_clause_of_apart fun u hu => ?_
      obtain ⟨hu, hu'⟩ := hfresh.notMem hts hu
      exact ⟨hapart hu, hapart hu'⟩

end Behind

/-- A way is empty only if the body is there at once. -/
theorem nil_notMem_clauses {tree : DecisionTree} (h : tree ≠ .body) : [] ∉ tree.clauses := by
  cases tree with
  | body => exact absurd rfl h
  | past => simp [clauses]
  | ask t yes no =>
    intro hnil
    obtain ⟨us, -, heq⟩ | ⟨us, -, heq⟩ := exists_cons_of_mem_clauses hnil
    · cases heq
    · cases heq

/-- Either the first test leads right to the body and others are asked behind it, or the ways
through a tree are all single tests, or none of them is. -/
theorem InOrder.front_or_lengths {t : Test} {yes no : DecisionTree}
    (h : (ask t yes no).InOrder) :
    (yes = .body ∧ ∃ u yes' no', no = ask u yes' no') ∨
      (∀ ts ∈ (ask t yes no).clauses, ts.length = 1) ∨
      ∀ ts ∈ (ask t yes no).clauses, ts.length ≠ 1 := by
  by_cases hyes : yes = .body
  · subst hyes
    cases no with
    | body => exact .inr (.inl (by simp [clauses]))
    | past => exact .inr (.inl (by simp [clauses]))
    | ask u yes' no' => exact .inl ⟨rfl, u, yes', no', rfl⟩
  · by_cases hno : no = .body
    · subst hno
      cases yes with
      | body => exact absurd rfl hyes
      | past => exact .inr (.inl (by simp [clauses]))
      | ask u yes' no' => exact absurd rfl h
    · refine .inr (.inr fun ts hts => ?_)
      obtain ⟨us, hus, rfl⟩ | ⟨us, hus, rfl⟩ := exists_cons_of_mem_clauses hts
      · have hne : us ≠ [] := fun heq => nil_notMem_clauses hyes (heq ▸ hus)
        simpa using hne
      · have hne : us ≠ [] := fun heq => nil_notMem_clauses hno (heq ▸ hus)
        simpa using hne

/-- If a test leads right to the body, a pass takes it out of the clauses behind it. -/
theorem pass_front {front : List Test} {t : Test} {rest : DecisionTree} (hfront : front.Nodup)
    (hfresh : (ask t .body rest).Fresh front) (hsome : rest.clauses ≠ [])
    (hnil : [] ∉ rest.clauses) :
    (anyOf (behind front (ask t .body rest))).pass false =
      anyOf (behind (front ++ [t]) rest) := by
  rw [pass_anyOf (nodup_behind hfront hfresh) fun ts => nodup_of_mem_behind hfresh]
  generalize hknown : siblings .or ((behind front (ask t .body rest)).map clause) = known
  -- the siblings are the tests at the front and the test itself
  have hmem {u : Test} : test u ∈ known ↔ u ∈ front ∨ u = t := by
    rw [← hknown, test_mem_siblings]
    simp [clauses, hnil]
  obtain ⟨ht, ht', -, hrest⟩ := hfresh
  have hapart {u : Test} (hu : u ∉ front ++ [t]) : test u ∉ known := by
    rw [hmem]
    simpa using hu
  have hprune : (rest.clauses.map fun ts => clause (t.inverse :: ts)).flatMap (prune .or known) =
      rest.clauses.map clause := by
    rw [List.flatMap_map, List.map_eq_flatMap]
    refine List.flatMap_congr fun ts hts => ?_
    have hne : ts ≠ [] := fun h => hnil (h ▸ hts)
    refine prune_clause_cons (hmem.2 (.inr rfl)) ?_ hne fun u hu => ?_
    · rw [hmem]
      exact not_or.2 ⟨ht', t.inverse_ne⟩
    · obtain ⟨hu, hu'⟩ := hrest.notMem hts hu
      exact ⟨hapart hu, hapart hu'⟩
  have hbehind : (behind front (ask t .body rest)).map clause =
      (front ++ [t]).map test ++ rest.clauses.map fun ts => clause (t.inverse :: ts) := by
    simp [behind, clauses, Function.comp_def]
  have hlength : ((front ++ [t]).map test ++ rest.clauses.map clause).length ≠ 1 := by
    have := List.length_pos_iff.2 hsome
    simp only [List.length_append, List.length_map, List.length_cons, List.length_nil]
    omega
  rw [hbehind, List.flatMap_append, hprune, flatMap_prune_map_test, collapse_of_length_ne hlength,
    anyOf, behind, List.map_append]
  simp

/-- Asking what simplifying the clauses gives comes to the same as asking the tree, after the tests
at the front. -/
theorem outcome_simplify_behind (o : Outcomes) {front : List Test} {tree : DecisionTree}
    (hfront : front.Nodup) (hfresh : tree.Fresh front) (hlive : tree.Live)
    (horder : tree.InOrder) (hbody : tree ≠ .body) :
    (anyOf (behind front tree)).simplify.outcome o =
      (outcomeAll o .or (front.map test)).bind fun b => if b then some true else tree.outcome o := by
  have hnodup : ∀ ts ∈ behind front tree, ts.Nodup := fun ts => nodup_of_mem_behind hfresh
  induction tree generalizing front with
  | body => exact absurd rfl hbody
  | past =>
    have hpass := pass_behind hfront hfresh (.inl (by simp [clauses]))
    rw [simplify_of_pass_eq_collapse hnodup hpass, outcome_collapse, outcomeAll_behind o hlive]
  | ask t yes no _ ih =>
    obtain ⟨rfl, u, yes', no', rfl⟩ | hlengths := horder.front_or_lengths
    · -- the test comes to the front, and the rest of the tree stands behind it
      have hnil : [] ∉ (ask u yes' no').clauses := nil_notMem_clauses (by simp)
      have hpass := pass_front hfront hfresh hlive.2.2.1 hnil
      obtain ⟨ht, ht', -, hrest⟩ := hfresh
      have hfront' : (front ++ [t]).Nodup := by
        refine List.nodup_append.2 ⟨hfront, List.nodup_singleton t, fun a ha b hb heq => ht ?_⟩
        rwa [← List.mem_singleton.1 hb, ← heq]
      rw [← simplify_pass, hpass,
        ih hfront' hrest hlive.2.2 horder (by simp) fun ts => nodup_of_mem_behind hrest,
        List.map_append, outcomeAll_append, List.map_singleton, outcomeAll_singleton,
        Option.bind_assoc]
      congr 1
      funext b
      cases b with
      | true => rfl
      | false =>
        rw [Condition.outcome, DecisionTree.outcome]
        congr 1
    · rw [simplify_of_pass_eq_collapse hnodup (pass_behind hfront hfresh hlengths),
        outcome_collapse, outcomeAll_behind o hlive]

end DecisionTree

end Unjump
