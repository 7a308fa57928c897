import Mathlib.Data.List.Basic
import Unjump.Proofs.Condition.Fixpoint

/-!
# Negation and simplification

De Morgan's laws hold of the simplification of conditions to the letter: every step of a pass does
to the negated operands of the dual connective what it does to the operands themselves. So the
simplified negation of a condition is the negation of the simplified condition
(`simplify_inverse`), as a tree and not only in its truth value.

Negation takes off a `not` and adds none, so it tells conditions apart only where there is no `not`
(`inverse_injOn`). A pass leaves none (`isPositive_pass`).
-/

namespace Unjump.Condition

/-! ## Conditions without negations -/

mutual

/-- No `not` stands in the condition. -/
def IsPositive : Condition → Prop
  | .test _ => True
  | .join _ operands => AllPositive operands
  | .not _ => False

/-- No `not` stands in the conditions of a list. -/
def AllPositive : List Condition → Prop
  | [] => True
  | c :: cs => c.IsPositive ∧ AllPositive cs

end

theorem allPositive_iff {cs : List Condition} : AllPositive cs ↔ ∀ c ∈ cs, c.IsPositive := by
  induction cs with
  | nil => simp [AllPositive]
  | cons c cs ih => simp [AllPositive, ih]

mutual

/-- Negating twice gives back a condition without negations. -/
theorem inverse_inverse : (c : Condition) → c.IsPositive → c.inverse.inverse = c
  | .test t, _ => by simp [inverse]
  | .join k cs, h => by
    rw [inverse, inverse, inverseAll_inverseAll cs h, Connective.dual_dual]
  | .not _, h => h.elim

theorem inverseAll_inverseAll : (cs : List Condition) → AllPositive cs →
    inverseAll (inverseAll cs) = cs
  | [], _ => rfl
  | c :: cs, h => by
    rw [inverseAll, inverseAll, inverse_inverse c h.1, inverseAll_inverseAll cs h.2]

end

mutual

theorem isPositive_inverse : (c : Condition) → c.IsPositive → c.inverse.IsPositive
  | .test _, _ => trivial
  | .join _ cs, h => allPositive_inverseAll cs h
  | .not _, h => h.elim

theorem allPositive_inverseAll : (cs : List Condition) → AllPositive cs →
    AllPositive (inverseAll cs)
  | [], _ => trivial
  | c :: cs, h => ⟨isPositive_inverse c h.1, allPositive_inverseAll cs h.2⟩

end

theorem inverse_injOn {c d : Condition} (hc : c.IsPositive) (hd : d.IsPositive)
    (h : c.inverse = d.inverse) : c = d := by
  rw [← inverse_inverse c hc, h, inverse_inverse d hd]

/-! ## What a pass leaves -/

theorem isPositive_of_mem_operands? {k : Connective} {c d : Condition} {terms : List Condition}
    (hc : c.IsPositive) (h : c.operands? k = some terms) (hd : d ∈ terms) : d.IsPositive := by
  obtain rfl := eq_join_of_operands? h
  exact allPositive_iff.1 hc d hd

theorem isPositive_of_mem_splice {k : Connective} {c d : Condition} (hc : c.IsPositive)
    (h : d ∈ splice k c) : d.IsPositive := by
  unfold splice at h
  cases hterms : c.operands? k with
  | none =>
    obtain rfl : d = c := by simpa [hterms] using h
    exact hc
  | some terms =>
    rw [hterms] at h
    exact isPositive_of_mem_operands? hc hterms h

theorem isPositive_of_mem_prune {k : Connective} {known : List Condition} {c d : Condition}
    (hc : c.IsPositive) (h : d ∈ prune k known c) : d.IsPositive := by
  unfold prune at h
  cases hterms : c.operands? k.dual with
  | none =>
    obtain rfl : d = c := by simpa [hterms] using h
    exact hc
  | some terms =>
    have hkept : ∀ e ∈ terms.filter (·.inverse ∉ known), e.IsPositive := fun e he =>
      isPositive_of_mem_operands? hc hterms (List.mem_filter.1 he).1
    simp only [hterms] at h
    split at h
    · simp at h
    · split at h
      · obtain rfl := List.mem_singleton.1 h
        exact hc
      · split at h
        · exact hkept d h
        · obtain rfl := List.mem_singleton.1 h
          exact allPositive_iff.2 hkept

theorem isPositive_collapse {k : Connective} {cs : List Condition}
    (h : ∀ c ∈ cs, c.IsPositive) : (collapse k cs).IsPositive := by
  match cs with
  | [c] => exact h c List.mem_cons_self
  | [] | _ :: _ :: _ => exact allPositive_iff.2 h

theorem isPositive_joinSimplified {k : Connective} {cs : List Condition}
    (h : ∀ c ∈ cs, c.IsPositive) : (joinSimplified k cs).IsPositive := by
  refine isPositive_collapse fun d hd => ?_
  obtain ⟨c, hc, hd⟩ := List.mem_flatMap.1 hd
  obtain ⟨b, hb, hc⟩ := List.mem_flatMap.1 (List.mem_eraseDups.1 hc)
  exact isPositive_of_mem_prune (isPositive_of_mem_splice (h b hb) hc) hd

mutual

/-- A pass leaves no negation. -/
theorem isPositive_pass (negated : Bool) : (c : Condition) → (c.pass negated).IsPositive
  | .test _ => trivial
  | .join _ cs => isPositive_joinSimplified (allPositive_iff.1 (allPositive_passAll negated cs))
  | .not inner => isPositive_pass (!negated) inner

theorem allPositive_passAll (negated : Bool) : (cs : List Condition) →
    AllPositive (passAll negated cs)
  | [] => trivial
  | c :: cs => ⟨isPositive_pass negated c, allPositive_passAll negated cs⟩

end

/-! ## The steps of a pass on negated operands -/

section Steps

variable (k : Connective)

theorem operands?_inverse {c : Condition} (hc : c.IsPositive) :
    c.inverse.operands? k = (c.operands? k.dual).map (·.map inverse) := by
  cases c with
  | test t => rfl
  | not inner => exact hc.elim
  | join l cs =>
    have hiff : l.dual = k ↔ l = k.dual := by cases l <;> cases k <;> decide
    simp only [inverse, operands?, hiff, inverseAll_eq_map]
    split <;> rfl

/-- A negated condition is among negated ones exactly if the condition is among them. -/
theorem inverse_mem_map {c : Condition} {cs : List Condition} (hc : c.IsPositive)
    (h : ∀ d ∈ cs, d.IsPositive) : c.inverse ∈ cs.map inverse ↔ c ∈ cs := by
  rw [List.mem_map]
  constructor
  · rintro ⟨d, hd, heq⟩
    exact inverse_injOn (h d hd) hc heq ▸ hd
  · exact fun hmem => ⟨c, hmem, rfl⟩

theorem splice_inverse {c : Condition} (hc : c.IsPositive) :
    splice k.dual c.inverse = (splice k c).map inverse := by
  rw [splice, splice, operands?_inverse k.dual hc, Connective.dual_dual]
  cases c.operands? k <;> rfl

theorem siblings_inverse {cs : List Condition} (h : ∀ c ∈ cs, c.IsPositive) :
    siblings k.dual (cs.map inverse) = (siblings k cs).map inverse := by
  rw [siblings, siblings, List.filter_map]
  congr 1
  apply List.filter_congr
  intro c hc
  simp [operands?_inverse k (h c hc)]

theorem prune_inverse {known : List Condition} {c : Condition} (hc : c.IsPositive)
    (hknown : ∀ d ∈ known, d.IsPositive) :
    prune k.dual (known.map inverse) c.inverse = (prune k known c).map inverse := by
  unfold prune
  rw [Connective.dual_dual, operands?_inverse k hc]
  cases hterms : c.operands? k.dual with
  | none => rfl
  | some terms =>
    have hpositive : ∀ t ∈ terms, t.IsPositive := fun t ht =>
      isPositive_of_mem_operands? hc hterms ht
    -- the negated terms are absorbed and kept as the terms are
    have habsorbed : (terms.map inverse).any (· ∈ known.map inverse) = terms.any (· ∈ known) := by
      rw [List.any_map, Bool.eq_iff_iff, List.any_eq_true, List.any_eq_true]
      simp only [Function.comp_apply, decide_eq_true_eq]
      exact exists_congr fun t => and_congr_right fun ht =>
        inverse_mem_map (hpositive t ht) hknown
    have hkept : (terms.map inverse).filter (·.inverse ∉ known.map inverse) =
        (terms.filter (·.inverse ∉ known)).map inverse := by
      rw [List.filter_map]
      congr 1
      apply List.filter_congr
      intro t ht
      have hiff := inverse_mem_map (isPositive_inverse t (hpositive t ht)) hknown
      simp only [Function.comp_apply, hiff]
    simp only [Option.map_some, habsorbed, hkept, List.length_map, List.map_eq_nil_iff]
    split
    · rfl
    · split
      · rfl
      · split
        · rfl
        · simp [inverse, inverseAll_eq_map]

theorem collapse_inverse (cs : List Condition) :
    collapse k.dual (cs.map inverse) = (collapse k cs).inverse := by
  match cs with
  | [c] => rfl
  | [] | _ :: _ :: _ => simp [collapse, inverse, inverseAll_eq_map]

/-- Joining negated operands in the short form gives the negation of the joined operands. -/
theorem joinSimplified_inverse {cs : List Condition} (h : ∀ c ∈ cs, c.IsPositive) :
    joinSimplified k.dual (cs.map inverse) = (joinSimplified k cs).inverse := by
  have hsplice : (cs.map inverse).flatMap (splice k.dual) =
      (cs.flatMap (splice k)).map inverse := by
    rw [List.flatMap_map, List.map_flatMap]
    exact List.flatMap_congr fun c hc => splice_inverse k (h c hc)
  have hspliced : ∀ c ∈ cs.flatMap (splice k), c.IsPositive := by
    intro c hc
    obtain ⟨b, hb, hc⟩ := List.mem_flatMap.1 hc
    exact isPositive_of_mem_splice (h b hb) hc
  have hunique : ((cs.map inverse).flatMap (splice k.dual)).eraseDups =
      (cs.flatMap (splice k)).eraseDups.map inverse := by
    rw [hsplice]
    exact List.eraseDups_map _ fun c hc d hd => inverse_injOn (hspliced c hc) (hspliced d hd)
  unfold joinSimplified
  dsimp only
  rw [hunique]
  generalize hdups : (cs.flatMap (splice k)).eraseDups = unique
  have hpositive : ∀ c ∈ unique, c.IsPositive := by
    intro c hc
    exact hspliced c (List.mem_eraseDups.1 (hdups ▸ hc))
  have hsiblings : ∀ c ∈ siblings k unique, c.IsPositive := fun c hc =>
    hpositive c (List.mem_filter.1 hc).1
  rw [siblings_inverse k hpositive, ← collapse_inverse, List.flatMap_map, List.map_flatMap]
  congr 1
  exact List.flatMap_congr fun c hc => prune_inverse k (hpositive c hc) hsiblings

end Steps

/-! ## Passes -/

mutual

/-- A pass over the negation of a condition is the pass for the other sign. -/
theorem pass_inverse (negated : Bool) : (c : Condition) →
    c.inverse.pass negated = c.pass (!negated)
  | .test t => by cases negated <;> simp [inverse, pass]
  | .join k cs => by
    rw [inverse, pass, pass, passAll_inverseAll negated cs]
    cases negated <;> simp
  | .not inner => by rw [inverse, pass, Bool.not_not]

theorem passAll_inverseAll (negated : Bool) : (cs : List Condition) →
    passAll negated (inverseAll cs) = passAll (!negated) cs
  | [] => rfl
  | c :: cs => by
    rw [inverseAll, passAll, passAll, pass_inverse negated c, passAll_inverseAll negated cs]

end

mutual

/-- A pass for the other sign gives the negation. -/
theorem pass_not (negated : Bool) : (c : Condition) →
    c.pass (!negated) = (c.pass negated).inverse
  | .test t => by cases negated <;> simp [pass, inverse]
  | .join k cs => by
    have hpositive := allPositive_iff.1 (allPositive_passAll negated cs)
    rw [pass, pass, passAll_not negated cs, ← joinSimplified_inverse _ hpositive]
    cases negated <;> simp
  | .not inner => by rw [pass, pass, pass_not (!negated) inner]

theorem passAll_not (negated : Bool) : (cs : List Condition) →
    passAll (!negated) cs = (passAll negated cs).map inverse
  | [] => rfl
  | c :: cs => by
    rw [passAll, passAll, pass_not negated c, passAll_not negated cs, List.map_cons]

end

/-! ## Simplifying -/

/-- The simplified negation of a condition is the negation of the simplified condition. -/
theorem simplify_inverse (c : Condition) : c.inverse.simplify = c.simplify.inverse := by
  -- after one pass the two conditions are the negations of each other
  have hpass : c.inverse.pass false = (c.pass false).inverse := by
    rw [pass_inverse, pass_not]
  obtain heq | hlt := c.pass_eq_or_size_lt
  · rw [heq] at hpass
    rw [simplify_of_pass_eq hpass, simplify_of_pass_eq heq]
  · have ih := simplify_inverse (c.pass false)
    rw [← simplify_pass c.inverse, hpass, ih, simplify_pass]
  termination_by c.size

end Unjump.Condition
