import Mathlib.Data.List.Basic
import Mathlib.Data.List.Nodup
import Unjump.Proofs.Condition.Fixpoint
import Unjump.Proofs.Condition.Outcome

/-!
# Disjunctions of clauses

A clause is the conjunction of some tests; a single test stands for itself. A pass over a
disjunction of clauses works on the clauses one by one (`pass_anyOf`): it leaves alone a clause
that shares no test with the clauses of a single test (`prune_clause_of_apart`), and it takes the
inverse of a single test off the front of a clause (`prune_clause_cons`).
-/

namespace Unjump

theorem Test.inverse_ne (t : Test) : t.inverse ≠ t := by
  cases t with
  | truth value negated => simp [inverse]
  | compare op left right => cases op <;> simp [inverse, Comparison.inverse]

namespace Condition

/-- The conjunction of tests. -/
def clause (ts : List Test) : Condition :=
  collapse .and (ts.map test)

/-- The disjunction of clauses. -/
def anyOf (tss : List (List Test)) : Condition :=
  join .or (tss.map clause)

theorem test_injective : Function.Injective test := fun _ _ => test.inj

theorem collapse_of_length_ne {k : Connective} {cs : List Condition} (h : cs.length ≠ 1) :
    collapse k cs = join k cs := by
  match cs, h with
  | [], _ => rfl
  | _ :: _ :: _, _ => rfl

theorem clause_of_length_ne {ts : List Test} (h : ts.length ≠ 1) :
    clause ts = join .and (ts.map test) :=
  collapse_of_length_ne (by rwa [List.length_map])

@[simp] theorem clause_singleton (t : Test) : clause [t] = test t := rfl

theorem clause_injective : Function.Injective clause := by
  intro ts us h
  match ts, us with
  | [t], [u] => exact congrArg ([·]) (test.inj h)
  | [], [u] | [], _ :: _ :: _ => simp [clause, collapse] at h
  | [t], [] | [t], _ :: _ :: _ => simp [clause, collapse] at h
  | _ :: _ :: _, [] | _ :: _ :: _, [u] => simp [clause, collapse] at h
  | [], [] => rfl
  | _ :: _ :: _, _ :: _ :: _ => exact List.map_injective_iff.2 test_injective (join.inj h).2

/-! ## Asking clauses -/

/-- A clause asks its first test, and the others if the first one holds. -/
theorem outcome_clause_cons (o : Outcomes) (t : Test) (ts : List Test) :
    (clause (t :: ts)).outcome o =
      (o.ofTest t).bind fun b => if b then (clause ts).outcome o else some false := by
  rw [clause, clause, outcome_collapse, outcome_collapse, List.map_cons, outcomeAll, outcome]
  congr 1
  funext b
  cases b <;> simp [Connective.deciding]

/-! ## A pass over a clause -/

theorem passAll_of_forall {cs : List Condition} (h : ∀ c ∈ cs, c.pass false = c) :
    passAll false cs = cs := by
  induction cs with
  | nil => rfl
  | cons c cs ih =>
    obtain ⟨hc, hcs⟩ := List.forall_mem_cons.1 h
    rw [passAll, hc, ih hcs]

/-- Tests have no terms to lose. -/
theorem flatMap_prune_map_test (k : Connective) (known : List Condition) (ts : List Test) :
    (ts.map test).flatMap (prune k known) = ts.map test :=
  List.flatMap_eq_self (by simp [prune, operands?])

/-- No pass changes a clause without repetitions. -/
theorem pass_clause {ts : List Test} (h : ts.Nodup) : (clause ts).pass false = clause ts := by
  by_cases hone : ts.length = 1
  · obtain ⟨t, rfl⟩ := List.length_eq_one_iff.1 hone
    rfl
  · have hpass : passAll false (ts.map test) = ts.map test :=
      passAll_of_forall (by simp [pass])
    have hsplice : (ts.map test).flatMap (splice .and) = ts.map test :=
      List.flatMap_eq_self (by simp [splice, operands?])
    have hunique := List.eraseDups_of_nodup (h.map test_injective)
    rw [clause_of_length_ne hone, pass, hpass]
    simp only [Bool.false_eq_true, if_false, joinSimplified, hsplice, hunique,
      flatMap_prune_map_test]
    exact clause_of_length_ne hone

/-! ## A pass over a disjunction of clauses -/

theorem operands?_clause_or (ts : List Test) : (clause ts).operands? .or = none := by
  match ts with
  | [t] | [] | _ :: _ :: _ => rfl

/-- Only clauses of a single test are siblings in a disjunction of clauses. -/
theorem mem_siblings_map_clause {tss : List (List Test)} {t : Test} :
    test t ∈ siblings .or (tss.map clause) ↔ [t] ∈ tss := by
  rw [mem_siblings, List.mem_map]
  constructor
  · rintro ⟨⟨ts, hts, heq⟩, -⟩
    exact clause_injective (show clause ts = clause [t] from heq) ▸ hts
  · exact fun h => ⟨⟨[t], h, rfl⟩, rfl⟩

/-- A pass works on clauses one by one. -/
theorem pass_anyOf {tss : List (List Test)} (hdistinct : tss.Nodup)
    (hnodup : ∀ ts ∈ tss, ts.Nodup) :
    (anyOf tss).pass false = collapse .or
      ((tss.map clause).flatMap (prune .or (siblings .or (tss.map clause)))) := by
  have hpass : passAll false (tss.map clause) = tss.map clause := by
    refine passAll_of_forall fun c hc => ?_
    obtain ⟨ts, hts, rfl⟩ := List.mem_map.1 hc
    exact pass_clause (hnodup ts hts)
  have hsplice : (tss.map clause).flatMap (splice .or) = tss.map clause := by
    refine List.flatMap_eq_self fun c hc => ?_
    obtain ⟨ts, -, rfl⟩ := List.mem_map.1 hc
    rw [splice, operands?_clause_or, Option.getD_none]
  have hunique := List.eraseDups_of_nodup (hdistinct.map clause_injective)
  rw [anyOf, pass, hpass]
  simp only [Bool.false_eq_true, if_false, joinSimplified, hsplice, hunique]

/-- If a pass does no more than take a single clause for the whole, so does simplifying. -/
theorem simplify_of_pass_eq_collapse {tss : List (List Test)} (hnodup : ∀ ts ∈ tss, ts.Nodup)
    (h : (anyOf tss).pass false = collapse .or (tss.map clause)) :
    (anyOf tss).simplify = collapse .or (tss.map clause) := by
  by_cases hone : tss.length = 1
  · obtain ⟨ts, rfl⟩ := List.length_eq_one_iff.1 hone
    rw [← simplify_pass, h]
    exact simplify_of_pass_eq (pass_clause (hnodup ts (List.mem_singleton_self ts)))
  · rw [collapse_of_length_ne (by rwa [List.length_map])] at h ⊢
    exact simplify_of_pass_eq h

variable {known : List Condition}

/-- What is left of a conjunction that no sibling implies. -/
theorem prune_join_and {terms kept : List Condition} (hapart : ∀ c ∈ terms, c ∉ known)
    (hkept : terms.filter (·.inverse ∉ known) = kept) :
    prune .or known (join .and terms) =
      if kept.length = terms.length ∨ kept = [] then [join .and terms]
      else if kept.length = 1 then kept else [join .and kept] := by
  have habsorbed : ¬terms.any (· ∈ known) := by simpa using hapart
  simp only [prune, operands?, Connective.dual, if_true, if_neg habsorbed, hkept]

/-- A clause stays if neither its tests nor their inverses are known. -/
theorem prune_clause_of_apart {ts : List Test}
    (h : ∀ t ∈ ts, test t ∉ known ∧ test t.inverse ∉ known) :
    prune .or known (clause ts) = [clause ts] := by
  by_cases hone : ts.length = 1
  · obtain ⟨t, rfl⟩ := List.length_eq_one_iff.1 hone
    rfl
  · have hkept : (ts.map test).filter (·.inverse ∉ known) = ts.map test := by
      rw [List.filter_eq_self]
      simpa [inverse] using fun t ht => (h t ht).2
    rw [clause_of_length_ne hone, prune_join_and (by simpa using fun t ht => (h t ht).1) hkept,
      if_pos (.inl rfl)]

/-- The inverse of a known test is taken off a clause, if there are other tests. -/
theorem prune_clause_cons {t : Test} {ts : List Test} (ht : test t ∈ known)
    (ht' : test t.inverse ∉ known) (hne : ts ≠ [])
    (h : ∀ u ∈ ts, test u ∉ known ∧ test u.inverse ∉ known) :
    prune .or known (clause (t.inverse :: ts)) = [clause ts] := by
  have htwo : (t.inverse :: ts).length ≠ 1 := by simpa using hne
  have hkept : ((t.inverse :: ts).map test).filter (·.inverse ∉ known) = ts.map test := by
    rw [List.map_cons, List.filter_cons_of_neg (by simpa [inverse] using ht), List.filter_eq_self]
    simpa [inverse] using fun u hu => (h u hu).2
  rw [clause_of_length_ne htwo,
    prune_join_and (by simpa [ht'] using fun u hu => (h u hu).1) hkept, if_neg (by simp [hne])]
  split
  · rename_i hone
    rw [List.length_map] at hone
    obtain ⟨u, rfl⟩ := List.length_eq_one_iff.1 hone
    rfl
  · rename_i hone
    rw [List.length_map] at hone
    rw [clause_of_length_ne hone]

end Condition

end Unjump
