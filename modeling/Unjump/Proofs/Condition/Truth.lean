import Unjump.Condition.Simplify

/-!
# The truth of conditions

A valuation gives every test a truth value, and so every condition has one (`Condition.eval`).
Negating a condition negates its truth value (`eval_inverse`), and simplifying a condition keeps
it (`eval_simplify`): the simplified condition is equivalent to the condition itself
(`simplify_equivalent`).

The proofs treat both connectives at once: a joined condition has the truth value that decides its
connective exactly when one of its operands has it (`eval_join_eq_deciding`).
-/

namespace Unjump

/-- A truth value for every test, opposite ones for a test and its inverse. -/
structure Valuation where
  holds : Test → Bool
  holds_inverse : ∀ t, holds t.inverse = !holds t

/-- The valuation under which expressions have the given numbers as their values. -/
def Valuation.ofValues (value : Expr → Int) : Valuation where
  holds
    | .truth e negated => (value e != 0) != negated
    | .compare op left right => op.holds (value left) (value right)
  holds_inverse t := by
    cases t with
    | truth e negated => simp [Test.inverse]
    | compare op left right => exact Comparison.holds_inverse op _ _

namespace Connective

/-- The truth value of joined conditions that have the given truth values. -/
def combine : Connective → List Bool → Bool
  | .and, values => values.all id
  | .or, values => values.any id

/-- The truth value that decides a joined condition as soon as one operand has it. -/
def deciding : Connective → Bool
  | .and => false
  | .or => true

/-- The connectives are decided by opposite truth values. -/
theorem deciding_dual (k : Connective) : k.dual.deciding = !k.deciding := by
  cases k <;> rfl

/-- Joined values are decided exactly by one of them. -/
theorem combine_eq_deciding (k : Connective) (values : List Bool) :
    k.combine values = k.deciding ↔ k.deciding ∈ values := by
  cases k with
  | and => simp [combine, deciding]
  | or => simp [combine, deciding]

/-- De Morgan's law for a list of values. -/
theorem combine_dual_map_not (k : Connective) (values : List Bool) :
    k.dual.combine (values.map (!·)) = !k.combine values := by
  cases k with
  | and => simp [dual, combine, List.all_eq_not_any_not]
  | or => simp [dual, combine, List.any_eq_not_all_not]

/-- A truth value is known when it is known whether it is the deciding one. -/
theorem eq_of_deciding_iff {k : Connective} {a b : Bool}
    (h : a = k.deciding ↔ b = k.deciding) : a = b := by
  cases k <;> cases a <;> cases b <;> simp_all [deciding]

/-- What does not decide a connective decides its dual. -/
theorem ne_deciding_iff {k : Connective} {a : Bool} :
    a ≠ k.deciding ↔ a = k.dual.deciding := by
  rw [deciding_dual, Bool.eq_not]

end Connective

namespace Condition

mutual

/-- The truth value of a condition. -/
def eval (v : Valuation) : Condition → Bool
  | .test t => v.holds t
  | .join k operands => k.combine (evalAll v operands)
  | .not inner => !inner.eval v

/-- The truth values of the conditions of a list. -/
def evalAll (v : Valuation) : List Condition → List Bool
  | [] => []
  | c :: cs => c.eval v :: evalAll v cs

end

variable (v : Valuation)

theorem evalAll_eq_map (cs : List Condition) : evalAll v cs = cs.map (eval v) := by
  induction cs with
  | nil => rfl
  | cons c cs ih => simp [evalAll, ih]

/-- A joined condition is decided exactly by one of its operands. -/
theorem eval_join_eq_deciding (k : Connective) (cs : List Condition) :
    (join k cs).eval v = k.deciding ↔ ∃ c ∈ cs, c.eval v = k.deciding := by
  rw [eval, evalAll_eq_map, Connective.combine_eq_deciding, List.mem_map]

/-! ## Negation -/

mutual

/-- A negated condition has the opposite truth value. -/
theorem eval_inverse : (c : Condition) → c.inverse.eval v = !c.eval v
  | .test t => v.holds_inverse t
  | .join k cs => by
    simp only [inverse, eval]
    rw [evalAll_inverseAll cs, Connective.combine_dual_map_not]
  | .not inner => by simp [inverse, eval]

theorem evalAll_inverseAll : (cs : List Condition) →
    evalAll v (inverseAll cs) = (evalAll v cs).map (!·)
  | [] => rfl
  | c :: cs => by simp [inverseAll, evalAll, eval_inverse c, evalAll_inverseAll cs]

end

/-! ## The steps of a pass -/

/-- What a condition contributes is decided exactly if the condition is. -/
theorem eval_splice (k : Connective) (c : Condition) :
    (∃ d ∈ splice k c, d.eval v = k.deciding) ↔ c.eval v = k.deciding := by
  unfold splice
  cases h : c.operands? k with
  | none => simp
  | some terms => rw [Option.getD_some, eq_join_of_operands? h, eval_join_eq_deciding]

/-- A condition with a single operand is as true as the operand. -/
theorem eval_collapse (k : Connective) (cs : List Condition) :
    (collapse k cs).eval v = (join k cs).eval v := by
  match cs with
  | [] | _ :: _ :: _ => rfl
  | [c] => cases k <;> simp [collapse, eval, evalAll, Connective.combine]

theorem mem_siblings {k : Connective} {cs : List Condition} {c : Condition} :
    c ∈ siblings k cs ↔ c ∈ cs ∧ c.operands? k.dual = none := by
  simp [siblings]

/-- Where no sibling decides the condition, the terms that contradict a sibling do not matter. -/
theorem eval_kept {k : Connective} {known terms : List Condition}
    (hknown : ∀ s ∈ known, s.eval v ≠ k.deciding) :
    (join k.dual (terms.filter (·.inverse ∉ known))).eval v = (join k.dual terms).eval v := by
  apply Connective.eq_of_deciding_iff (k := k.dual)
  rw [eval_join_eq_deciding, eval_join_eq_deciding]
  constructor
  · rintro ⟨t, ht, htv⟩
    exact ⟨t, (List.mem_filter.1 ht).1, htv⟩
  · rintro ⟨t, ht, htv⟩
    refine ⟨t, List.mem_filter.2 ⟨ht, ?_⟩, htv⟩
    -- the inverse of a term that decides the dual would decide the condition itself
    have hinv : t.inverse.eval v = k.deciding := by
      rw [eval_inverse, htv, Connective.deciding_dual, Bool.not_not]
    simpa using fun hmem => hknown _ hmem hinv

/-- Where no sibling decides the condition, pruning an operand keeps whether it does. -/
theorem eval_prune {k : Connective} {known : List Condition}
    (hknown : ∀ s ∈ known, s.eval v ≠ k.deciding) (c : Condition) :
    (∃ d ∈ prune k known c, d.eval v = k.deciding) ↔ c.eval v = k.deciding := by
  unfold prune
  cases hc : c.operands? k.dual with
  | none => simp
  | some terms =>
    obtain rfl := eq_join_of_operands? hc
    dsimp only
    split
    · -- a sibling among the terms decides the dual, so the operand decides nothing
      rename_i habsorbed
      obtain ⟨t, ht, hts⟩ := List.any_eq_true.1 habsorbed
      have htv := Connective.ne_deciding_iff.1 (hknown t (by simpa using hts))
      have hjoin := (eval_join_eq_deciding v k.dual terms).2 ⟨t, ht, htv⟩
      simpa using Connective.ne_deciding_iff.2 hjoin
    · -- the terms that are left have the truth value of all of them, even if only one is left
      have hkept : (join k.dual (terms.filter (·.inverse ∉ known))).eval v =
        (join k.dual terms).eval v := eval_kept v hknown
      split
      · simp
      · split
        · rename_i hone
          obtain ⟨t, ht⟩ := List.length_eq_one_iff.1 hone
          rw [ht] at hkept ⊢
          rw [← hkept, ← eval_collapse]
          simp [collapse]
        · rw [← hkept]
          simp

/-- Joining simplified conditions in the short form keeps the truth value. -/
theorem eval_joinSimplified (k : Connective) (cs : List Condition) :
    (joinSimplified k cs).eval v = (join k cs).eval v := by
  apply Connective.eq_of_deciding_iff (k := k)
  unfold joinSimplified
  dsimp only
  rw [eval_collapse, eval_join_eq_deciding, eval_join_eq_deciding]
  generalize hunique : (cs.flatMap (splice k)).eraseDups = unique
  -- splicing nested operands and dropping repetitions keep whether an operand decides
  have hsame : (∃ c ∈ unique, c.eval v = k.deciding) ↔ ∃ c ∈ cs, c.eval v = k.deciding := by
    simp only [← hunique, List.mem_eraseDups, List.mem_flatMap]
    constructor
    · rintro ⟨d, ⟨c, hc, hd⟩, hdv⟩
      exact ⟨c, hc, (eval_splice v k c).1 ⟨d, hd, hdv⟩⟩
    · rintro ⟨c, hc, hcv⟩
      obtain ⟨d, hd, hdv⟩ := (eval_splice v k c).2 hcv
      exact ⟨d, ⟨c, hc, hd⟩, hdv⟩
  rw [← hsame]
  by_cases hdecided : ∃ s ∈ siblings k unique, s.eval v = k.deciding
  · -- a sibling that decides the condition is there before and after
    obtain ⟨s, hs, hsv⟩ := hdecided
    obtain ⟨hmem, hnone⟩ := mem_siblings.1 hs
    refine iff_of_true ⟨s, List.mem_flatMap.2 ⟨s, hmem, ?_⟩, hsv⟩ ⟨s, hmem, hsv⟩
    simp [prune, hnone]
  · -- no sibling decides the condition, so pruning keeps what each operand contributes
    have hknown : ∀ s ∈ siblings k unique, s.eval v ≠ k.deciding :=
      fun s hs hsv => hdecided ⟨s, hs, hsv⟩
    constructor
    · rintro ⟨d, hd, hdv⟩
      obtain ⟨c, hc, hdc⟩ := List.mem_flatMap.1 hd
      exact ⟨c, hc, (eval_prune v hknown c).1 ⟨d, hdc, hdv⟩⟩
    · rintro ⟨c, hc, hcv⟩
      obtain ⟨d, hd, hdv⟩ := (eval_prune v hknown c).2 hcv
      exact ⟨d, List.mem_flatMap.2 ⟨c, hc, hd⟩, hdv⟩

/-! ## Passes -/

mutual

/-- A pass keeps the truth value, or negates it if it works on the negation. -/
theorem eval_pass (negated : Bool) : (c : Condition) →
    (c.pass negated).eval v = if negated then !c.eval v else c.eval v
  | .test t => by cases negated <;> simp [pass, eval, v.holds_inverse]
  | .join k cs => by
    rw [pass, eval_joinSimplified, eval, evalAll_passAll negated cs]
    cases negated with
    | false => simp [eval]
    | true => simp [eval, Connective.combine_dual_map_not]
  | .not inner => by
    rw [pass, eval_pass (!negated) inner]
    cases negated <;> simp [eval]

theorem evalAll_passAll (negated : Bool) : (cs : List Condition) →
    evalAll v (passAll negated cs) =
      if negated then (evalAll v cs).map (!·) else evalAll v cs
  | [] => by simp [passAll, evalAll]
  | c :: cs => by
    rw [passAll, evalAll, eval_pass negated c, evalAll_passAll negated cs]
    cases negated <;> simp [evalAll]

end

/-- Simplifying a condition keeps its truth value. -/
theorem eval_simplify (c : Condition) : c.simplify.eval v = c.eval v := by
  fun_induction simplify c with
  | case1 c next _ ih => rw [ih, eval_pass]; rfl
  | case2 c next _ => rw [eval_pass]; rfl

/-- Conditions that have the same truth value whatever the tests come out to. -/
def Equivalent (c d : Condition) : Prop :=
  ∀ v : Valuation, c.eval v = d.eval v

/-- A condition may stand in for the one that it is simplified from. -/
theorem simplify_equivalent (c : Condition) : c.simplify.Equivalent c :=
  fun v => eval_simplify v c

end Condition

end Unjump
