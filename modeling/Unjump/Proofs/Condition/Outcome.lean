import Unjump.Proofs.Condition.Truth

/-!
# Conditions whose tests can raise exceptions

Asking a test can raise an exception instead of giving a truth value. Then it matters which tests
are asked: the operands of a joined condition are asked from left to right, and only until one of
them decides the condition (`Condition.outcome`).

Where a condition has a truth value all the same, it has that one however the tests that raise
exceptions would turn out (`Condition.eval_of_outcome`).
-/

namespace Unjump

/-- What asking a test comes to: a truth value, or an exception. A test and its inverse both raise
an exception, or they have opposite truth values. -/
structure Outcomes where
  ofTest : Test → Option Bool
  ofTest_inverse : ∀ t, ofTest t.inverse = (ofTest t).map (!·)

/-- The truth values of the tests that raise no exception are those of a valuation. -/
def Outcomes.AgreesWith (o : Outcomes) (v : Valuation) : Prop :=
  ∀ t b, o.ofTest t = some b → v.holds t = b

/-- The valuation that gives tests the truth values they have; the others get some truth value. -/
def Outcomes.valuation (o : Outcomes) : Valuation where
  holds t := (o.ofTest t).getD ((Valuation.ofValues fun _ => 0).holds t)
  holds_inverse t := by
    rw [o.ofTest_inverse]
    cases o.ofTest t with
    | none => exact Valuation.holds_inverse _ t
    | some b => rfl

theorem Outcomes.agreesWith_valuation (o : Outcomes) : o.AgreesWith o.valuation := by
  intro t b h
  simp [valuation, h]

namespace Condition

mutual

/-- What asking a condition comes to. -/
def outcome (o : Outcomes) : Condition → Option Bool
  | .test t => o.ofTest t
  | .join k operands => outcomeAll o k operands
  | .not inner => (inner.outcome o).map (!·)

/-- What asking conditions from left to right comes to, until one decides the connective. -/
def outcomeAll (o : Outcomes) (k : Connective) : List Condition → Option Bool
  | [] => some (!k.deciding)
  | c :: cs => (c.outcome o).bind fun b => if b = k.deciding then some b else outcomeAll o k cs

end

variable (o : Outcomes) {k : Connective}

theorem outcomeAll_append (cs ds : List Condition) :
    outcomeAll o k (cs ++ ds) = (outcomeAll o k cs).bind fun b =>
      if b = k.deciding then some b else outcomeAll o k ds := by
  induction cs with
  | nil => simp [outcomeAll]
  | cons c cs ih =>
    rw [List.cons_append, outcomeAll, outcomeAll, ih]
    cases c.outcome o with
    | none => rfl
    | some b =>
      simp only [Option.bind_some]
      split
      · simp [*]
      · rfl

/-- Conditions of which none decides the connective leave it undecided. -/
theorem outcomeAll_of_forall {cs : List Condition}
    (h : ∀ c ∈ cs, c.outcome o = some (!k.deciding)) :
    outcomeAll o k cs = some (!k.deciding) := by
  induction cs with
  | nil => rfl
  | cons c cs ih =>
    obtain ⟨hc, hcs⟩ := List.forall_mem_cons.1 h
    rw [outcomeAll, hc, Option.bind_some, if_neg (by simp), ih hcs]

/-- A single condition decides or leaves undecided by itself. -/
theorem outcomeAll_singleton (c : Condition) : outcomeAll o k [c] = c.outcome o := by
  rw [outcomeAll]
  cases c.outcome o with
  | none => rfl
  | some b =>
    rw [Option.bind_some, outcomeAll]
    split
    · rfl
    · rename_i hne
      rw [← Bool.eq_not.2 hne]

theorem outcome_collapse (cs : List Condition) :
    (collapse k cs).outcome o = outcomeAll o k cs := by
  match cs with
  | [c] => rw [outcomeAll_singleton]; rfl
  | [] | _ :: _ :: _ => rfl

variable {o}

mutual

/-- A condition that has a truth value has it under every valuation that agrees. -/
theorem eval_of_outcome {v : Valuation} (hv : o.AgreesWith v) : (c : Condition) →
    ∀ {b : Bool}, c.outcome o = some b → c.eval v = b
  | .test t, b, h => hv t b h
  | .join k cs, b, h => by
    have hall := combine_of_outcomeAll hv k cs h
    exact hall
  | .not inner, b, h => by
    obtain ⟨a, ha, rfl⟩ := Option.map_eq_some_iff.1 h
    rw [eval, eval_of_outcome hv inner ha]

theorem combine_of_outcomeAll {v : Valuation} (hv : o.AgreesWith v) (k : Connective) :
    (cs : List Condition) → ∀ {b : Bool}, outcomeAll o k cs = some b →
      k.combine (evalAll v cs) = b
  | [], b, h => by
    obtain rfl : (!k.deciding) = b := by simpa [outcomeAll] using h
    cases k <;> rfl
  | c :: cs, b, h => by
    obtain ⟨a, ha, h⟩ := Option.bind_eq_some_iff.1 h
    have hc := eval_of_outcome hv c ha
    split at h
    · -- the first condition decides
      rename_i hdecides
      obtain rfl : a = b := Option.some.inj h
      rw [hdecides, Connective.combine_eq_deciding, evalAll, hc, hdecides]
      exact List.mem_cons_self
    · -- the first condition leaves the others to decide
      rename_i hundecided
      have hcs := combine_of_outcomeAll hv k cs h
      rw [← hcs]
      apply Connective.eq_of_deciding_iff (k := k)
      rw [Connective.combine_eq_deciding, Connective.combine_eq_deciding, evalAll, hc,
        List.mem_cons]
      exact or_iff_right fun h' => hundecided h'.symm

end

end Condition

end Unjump
