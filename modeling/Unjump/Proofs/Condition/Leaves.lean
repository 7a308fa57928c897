import Mathlib.Data.List.Flatten
import Unjump.Proofs.Condition.NormalForm

/-!
# The tests of a condition

Simplifying a condition only drops tests: those that are left stand in the order in which they stood
before, and each of them is asked as it was (`Condition.tests_simplify_sublist`). A test under an odd
number of negations counts as its inverse, since the negations move down to it.
-/

namespace Unjump.Condition

mutual

/-- The tests of a condition from left to right. -/
def tests : Condition → List Test
  | .test t => [t]
  | .join _ operands => testsAll operands
  | .not inner => inner.tests

/-- The tests of the conditions of a list from left to right. -/
def testsAll : List Condition → List Test
  | [] => []
  | c :: cs => c.tests ++ testsAll cs

end

mutual

/-- The tests of a condition, or of its negation, from left to right. A test under an odd number of
negations is inverted. -/
def signedTests (negated : Bool) : Condition → List Test
  | .test t => [if negated then t.inverse else t]
  | .join _ operands => signedTestsAll negated operands
  | .not inner => signedTests (!negated) inner

/-- The tests of the conditions of a list, or of their negations, from left to right. -/
def signedTestsAll (negated : Bool) : List Condition → List Test
  | [] => []
  | c :: cs => signedTests negated c ++ signedTestsAll negated cs

end

theorem signedTestsAll_eq_flatMap (negated : Bool) (cs : List Condition) :
    signedTestsAll negated cs = cs.flatMap (signedTests negated) := by
  induction cs with
  | nil => rfl
  | cons c cs ih => rw [signedTestsAll, ih, List.flatMap_cons]

@[simp] theorem signedTests_join (negated : Bool) (k : Connective) (cs : List Condition) :
    (join k cs).signedTests negated = cs.flatMap (signedTests negated) :=
  signedTestsAll_eq_flatMap negated cs

mutual

/-- Without negations, every test is asked as it stands. -/
theorem signedTests_of_isNormal : (c : Condition) → c.IsNormal → c.signedTests false = c.tests
  | .test _, _ => rfl
  | .join _ cs, h => signedTestsAll_of_allNormal cs h.2

theorem signedTestsAll_of_allNormal : (cs : List Condition) → AllNormal cs →
    signedTestsAll false cs = testsAll cs
  | [], _ => rfl
  | c :: cs, h => by
    rw [signedTestsAll, testsAll, signedTests_of_isNormal c h.1, signedTestsAll_of_allNormal cs h.2]

end

/-! ## The steps of a pass -/

section Steps

variable (negated : Bool)

/-- The operands that a condition contributes have its tests. -/
theorem flatMap_signedTests_splice (k : Connective) (c : Condition) :
    (splice k c).flatMap (signedTests negated) = c.signedTests negated := by
  unfold splice
  cases h : c.operands? k with
  | none => simp
  | some terms =>
    obtain rfl := eq_join_of_operands? h
    simp

/-- What is left of an operand beside its siblings has some of its tests. -/
theorem flatMap_signedTests_prune_sublist (k : Connective) (known : List Condition)
    (c : Condition) :
    ((prune k known c).flatMap (signedTests negated)).Sublist (c.signedTests negated) := by
  unfold prune
  cases h : c.operands? k.dual with
  | none => simp
  | some terms =>
    obtain rfl := eq_join_of_operands? h
    have hkept : ((terms.filter (·.inverse ∉ known)).flatMap (signedTests negated)).Sublist
        ((join k.dual terms).signedTests negated) := by
      rw [signedTests_join]
      exact List.filter_sublist.flatMap _
    dsimp only
    split
    · exact List.nil_sublist _
    · split
      · simp
      · split
        · exact hkept
        · simpa using hkept

/-- A single operand has the tests of the whole condition. -/
theorem signedTests_collapse (k : Connective) (cs : List Condition) :
    (collapse k cs).signedTests negated = cs.flatMap (signedTests negated) := by
  match cs with
  | [] | _ :: _ :: _ => exact signedTests_join negated k _
  | [c] => simp [collapse]

/-- Joining conditions in the short form drops tests and keeps the order of the others. -/
theorem signedTests_joinSimplified_sublist (k : Connective) (cs : List Condition) :
    ((joinSimplified k cs).signedTests negated).Sublist (cs.flatMap (signedTests negated)) := by
  have hflat : (cs.flatMap (splice k)).flatMap (signedTests negated) =
      cs.flatMap (signedTests negated) := by
    rw [List.flatMap_assoc]
    simp only [flatMap_signedTests_splice]
  unfold joinSimplified
  dsimp only
  rw [signedTests_collapse, List.flatMap_assoc, ← hflat]
  -- first each operand may lose tests beside its siblings, and before that repetitions go
  exact (List.Sublist.flatMap_right _ fun c _ =>
    flatMap_signedTests_prune_sublist negated k _ c).trans
    ((List.eraseDups_sublist _).flatMap _)

end Steps

/-! ## Passes -/

mutual

/-- A pass drops tests and keeps the order of the others; it moves the negations down to them. -/
theorem signedTests_pass_sublist (negated : Bool) : (c : Condition) →
    ((c.pass negated).signedTests false).Sublist (c.signedTests negated)
  | .test t => .refl _
  | .join k cs => by
    rw [pass, signedTests_join]
    exact (signedTests_joinSimplified_sublist false _ _).trans
      (flatMap_signedTests_passAll_sublist negated cs)
  | .not inner => signedTests_pass_sublist (!negated) inner

theorem flatMap_signedTests_passAll_sublist (negated : Bool) : (cs : List Condition) →
    ((passAll negated cs).flatMap (signedTests false)).Sublist (cs.flatMap (signedTests negated))
  | [] => .slnil
  | c :: cs => by
    rw [passAll, List.flatMap_cons, List.flatMap_cons]
    exact (signedTests_pass_sublist negated c).append
      (flatMap_signedTests_passAll_sublist negated cs)

end

theorem signedTests_simplify_sublist (c : Condition) :
    (c.simplify.signedTests false).Sublist (c.signedTests false) := by
  fun_induction simplify c with
  | case1 c next _ ih => exact ih.trans (signedTests_pass_sublist false c)
  | case2 c next _ => exact signedTests_pass_sublist false c

/-- The tests of a simplified condition are some of the tests of the condition, in the same order;
those under an odd number of negations are inverted. -/
theorem tests_simplify_sublist (c : Condition) :
    c.simplify.tests.Sublist (c.signedTests false) := by
  rw [← signedTests_of_isNormal _ (isNormal_of_pass_eq _ (pass_simplify c))]
  exact signedTests_simplify_sublist c

end Unjump.Condition
