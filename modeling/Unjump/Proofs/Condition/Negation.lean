import Unjump.Proofs.Condition.Duality
import Unjump.Proofs.Condition.Truth

/-!
# Negation

The negation of a condition is true exactly when the condition is false, so a second negation gives
the truth value back. It gives back the condition itself exactly where no `not` stands in it
(`inverse_inverse_eq_iff`): negation takes an outermost `not` off, while it turns every other node
into one of the same kind and never into a `not`.
-/

namespace Unjump.Condition

/-- No condition is its own negation under a `not`. -/
theorem inverse_ne_not (c : Condition) : c.inverse ≠ .not c := by
  intro h
  cases c with
  | test t => cases h
  | join k cs => cases h
  | not inner =>
    -- the negation is the inner condition, which has fewer nodes
    have hsize := congrArg size h
    simp only [inverse, size] at hsize
    omega

mutual

/-- A condition that negating twice gives back has no negations. -/
theorem isPositive_of_inverse_inverse : (c : Condition) → c.inverse.inverse = c → c.IsPositive
  | .test _, _ => trivial
  | .join k cs, h => by
    rw [inverse, inverse, Connective.dual_dual] at h
    exact allPositive_of_inverseAll_inverseAll cs (join.inj h).2
  | .not inner, h => absurd h (inverse_ne_not inner)

theorem allPositive_of_inverseAll_inverseAll : (cs : List Condition) →
    inverseAll (inverseAll cs) = cs → AllPositive cs
  | [], _ => trivial
  | c :: cs, h => by
    rw [inverseAll, inverseAll] at h
    obtain ⟨hhead, htail⟩ := List.cons.inj h
    exact ⟨isPositive_of_inverse_inverse c hhead, allPositive_of_inverseAll_inverseAll cs htail⟩

end

/-- Negating twice gives back the condition itself exactly if no `not` stands in it. -/
theorem inverse_inverse_eq_iff (c : Condition) : c.inverse.inverse = c ↔ c.IsPositive :=
  ⟨isPositive_of_inverse_inverse c, inverse_inverse c⟩

/-- The negated condition is true exactly when the condition is false. Negating twice gives back
the truth value, and exactly where no `not` stands the condition itself. -/
theorem inverse_negates (c : Condition) :
    (∀ v : Valuation, (c.inverse.eval v = true ↔ c.eval v = false) ∧
      c.inverse.inverse.eval v = c.eval v) ∧
      (c.inverse.inverse = c ↔ c.IsPositive) := by
  refine ⟨fun v => ⟨?_, ?_⟩, inverse_inverse_eq_iff c⟩
  · rw [eval_inverse, Bool.not_eq_true']
  · rw [eval_inverse, eval_inverse, Bool.not_not]

end Unjump.Condition
