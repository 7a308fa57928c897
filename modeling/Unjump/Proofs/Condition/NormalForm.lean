import Unjump.Proofs.Condition.Fixpoint
import Unjump.Proofs.Condition.Truth

/-!
# The normal form of conditions

`Condition.simplify` repeats passes until one changes nothing, and there are fewer of them than the
condition has nodes (`exists_repeats`). What no pass changes is in normal form
(`isNormal_of_pass_eq`): every step of a pass leaves its operands alone or makes them smaller, so
if the whole pass changes nothing, no step does. A pass never empties a joined condition
(`isFilled_pass`).
-/

namespace Unjump.Condition

/-! ## Normal forms -/

/-- An operand of which other operands can be told to be superfluous. -/
def IsSibling (k : Connective) (operands : List Condition) (c : Condition) : Prop :=
  c ∈ operands ∧ ∀ terms, c ≠ .join k.dual terms

/-- Operands that are joined in a given way and leave nothing to simplify. -/
structure Settled (k : Connective) (operands : List Condition) : Prop where
  /-- No operand is joined in the same way. -/
  flat : ∀ terms, .join k terms ∉ operands
  /-- A single operand stands for itself. -/
  length_ne_one : operands.length ≠ 1
  nodup : operands.Nodup
  /-- No operand that is joined in the other way is implied by a sibling. -/
  needed : ∀ terms, .join k.dual terms ∈ operands → ∀ t ∈ terms, ¬ IsSibling k operands t
  /-- If a sibling contradicts one term of an operand that is joined in the other way, each of its
  terms is contradicted by a sibling. -/
  contradicted : ∀ terms, .join k.dual terms ∈ operands →
    (∃ t ∈ terms, IsSibling k operands t.inverse) → ∀ t ∈ terms, IsSibling k operands t.inverse

mutual

/-- No `not` stands in the condition, and the operands of every joined condition in it are
settled. -/
def IsNormal : Condition → Prop
  | .test _ => True
  | .join k operands => Settled k operands ∧ AllNormal operands
  | .not _ => False

/-- All conditions of a list are in normal form. -/
def AllNormal : List Condition → Prop
  | [] => True
  | c :: cs => c.IsNormal ∧ AllNormal cs

end

mutual

/-- Every joined condition in the condition has operands. -/
def IsFilled : Condition → Prop
  | .test _ => True
  | .join _ operands => operands ≠ [] ∧ AllFilled operands
  | .not inner => inner.IsFilled

/-- In all conditions of a list, every joined condition has operands. -/
def AllFilled : List Condition → Prop
  | [] => True
  | c :: cs => c.IsFilled ∧ AllFilled cs

end

theorem allFilled_iff {cs : List Condition} : AllFilled cs ↔ ∀ c ∈ cs, c.IsFilled := by
  induction cs with
  | nil => simp [AllFilled]
  | cons c cs ih => simp [AllFilled, ih]

/-- Passes are repeated from a condition on until one changes nothing: `n` of them do, and the last
condition is the answer. -/
inductive Repeats : Nat → Condition → Condition → Prop where
  | stop {c : Condition} (hpass : c.pass false = c) : Repeats 0 c c
  | again {n : Nat} {c answer : Condition} (hpass : c.pass false ≠ c)
      (hrest : Repeats n (c.pass false) answer) : Repeats (n + 1) c answer

/-- Repeating passes ends at the simplified condition. -/
theorem exists_repeats (c : Condition) : ∃ n < c.size, Repeats n c c.simplify := by
  obtain heq | hlt := c.pass_eq_or_size_lt
  · rw [simplify_of_pass_eq heq]
    exact ⟨0, c.size_pos, .stop heq⟩
  · obtain ⟨n, hn, hrest⟩ := exists_repeats (c.pass false)
    rw [simplify_pass] at hrest
    have hne : c.pass false ≠ c := fun heq => absurd hlt (by rw [heq]; exact Nat.lt_irrefl _)
    exact ⟨n + 1, by omega, .again hne hrest⟩
  termination_by c.size

/-! ## Steps that change nothing -/

theorem operands?_eq_none_iff {k : Connective} {c : Condition} :
    c.operands? k = none ↔ ∀ terms, c ≠ .join k terms := by
  cases c with
  | test t => simp [operands?]
  | not inner => simp [operands?]
  | join l cs => simp [operands?]

theorem mem_siblings_iff {k : Connective} {operands : List Condition} {c : Condition} :
    c ∈ siblings k operands ↔ IsSibling k operands c := by
  rw [mem_siblings, operands?_eq_none_iff, IsSibling]

/-- A step that keeps the number of nodes changes nothing. -/
theorem Shrinks.eq_of_sizeAll_eq {cs ds : List Condition} (h : Shrinks cs ds)
    (hsize : sizeAll ds = sizeAll cs) : ds = cs := by
  obtain heq | hlt := h
  · exact heq
  · omega

/-- A step on each operand by itself that changes nothing changes no operand. -/
theorem eq_singleton_of_flatMap_eq {f : Condition → List Condition} {cs : List Condition}
    (hshrinks : ∀ c, Shrinks [c] (f c)) (h : cs.flatMap f = cs) : ∀ c ∈ cs, f c = [c] := by
  induction cs with
  | nil => simp
  | cons c cs ih =>
    have hhead := (hshrinks c).sizeAll_le
    have hrest : Shrinks cs (cs.flatMap f) := shrinks_flatMap fun c _ => hshrinks c
    have htail := hrest.sizeAll_le
    -- neither the first operand nor the others can lose a node
    have hsize : sizeAll (f c) + sizeAll (cs.flatMap f) = c.size + sizeAll cs := by
      rw [← sizeAll_append, ← List.flatMap_cons, h, sizeAll]
    have hone : sizeAll [c] = c.size := by simp [sizeAll]
    have hc : f c = [c] := (hshrinks c).eq_of_sizeAll_eq (by omega)
    rw [List.flatMap_cons, hc, List.singleton_append, List.cons.injEq] at h
    exact List.forall_mem_cons.2 ⟨hc, ih h.2⟩

/-- A condition that gives its own operands to another is larger than they are. -/
theorem ne_join_of_splice_eq {k : Connective} {c : Condition} (h : splice k c = [c])
    (terms : List Condition) : c ≠ .join k terms := by
  rintro rfl
  have hsize := congrArg sizeAll h
  simp [splice, operands?, sizeAll, size] at hsize

/-- An operand that is left as it is beside its siblings is not implied by one of them. -/
theorem notMem_of_prune_eq {k : Connective} {known terms : List Condition}
    (h : prune k known (.join k.dual terms) = [.join k.dual terms]) : ∀ t ∈ terms, t ∉ known := by
  intro t ht hknown
  have hany : terms.any (· ∈ known) = true := List.any_eq_true.2 ⟨t, ht, by simpa using hknown⟩
  simp [prune, operands?, hany] at h

/-- An operand that is left as it is loses no term, or would lose all of them. -/
theorem kept_of_prune_eq {k : Connective} {known terms : List Condition}
    (h : prune k known (.join k.dual terms) = [.join k.dual terms]) :
    (∀ t ∈ terms, t.inverse ∉ known) ∨ ∀ t ∈ terms, t.inverse ∈ known := by
  have hany : terms.any (· ∈ known) = false := by
    rw [List.any_eq_false]
    intro t ht
    simpa using notMem_of_prune_eq h t ht
  have hkept : (terms.filter (·.inverse ∉ known)).Sublist terms := List.filter_sublist
  simp only [prune, operands?, if_true, hany, Bool.false_eq_true, if_false] at h
  split at h
  · rename_i hsame
    obtain hlength | hnil := hsame
    · exact .inl (by simpa using List.filter_eq_self.1 (hkept.eq_of_length hlength))
    · exact .inr (by simpa using List.filter_eq_nil_iff.1 hnil)
  · rename_i hsame
    -- otherwise the operand has fewer terms than before
    exfalso
    refine hsame (.inl ?_)
    split at h
    · have hsize := congrArg sizeAll h
      have hle := sizeAll_le_of_sublist hkept
      simp only [sizeAll, size] at hsize
      omega
    · rw [List.cons.injEq, Condition.join.injEq] at h
      rw [h.1.2]

/-- Joining operands in the short form changes nothing only if none of its steps does. -/
theorem steps_of_joinSimplified_eq {k : Connective} {cs : List Condition}
    (h : joinSimplified k cs = .join k cs) :
    cs.flatMap (splice k) = cs ∧ cs.Nodup ∧ cs.flatMap (prune k (siblings k cs)) = cs ∧
      cs.length ≠ 1 := by
  obtain ⟨flat, hflat⟩ : ∃ flat, cs.flatMap (splice k) = flat := ⟨_, rfl⟩
  obtain ⟨unique, hunique⟩ : ∃ unique, flat.eraseDups = unique := ⟨_, rfl⟩
  obtain ⟨result, hresult⟩ : ∃ result, unique.flatMap (prune k (siblings k unique)) = result :=
    ⟨_, rfl⟩
  unfold joinSimplified at h
  dsimp only at h
  rw [hflat, hunique, hresult] at h
  have hsplice : Shrinks cs flat := hflat ▸ shrinks_flatMap fun c _ => shrinks_splice k c
  have hnodup : unique.Nodup := hunique ▸ List.nodup_eraseDups flat
  have herase : Shrinks flat unique := hunique ▸ shrinks_of_sublist (List.eraseDups_sublist _)
  have hprune : Shrinks unique result := hresult ▸ shrinks_flatMap fun c _ => shrinks_prune k _ c
  have hle := hsplice.sizeAll_le
  have hle' := herase.sizeAll_le
  have hle'' := hprune.sizeAll_le
  -- a single operand that is left is too small to be the whole condition
  have hlength : result.length ≠ 1 := by
    intro hone
    obtain ⟨c, rfl⟩ := List.length_eq_one_iff.1 hone
    obtain rfl : c = .join k cs := h
    simp only [sizeAll, size] at hle''
    omega
  have heq : result = cs := by
    match result, hlength with
    | [], _ | _ :: _ :: _, _ => exact (Condition.join.inj h).2
  subst heq
  -- no step loses a node, so none changes anything
  have hsame'' : result = unique := hprune.eq_of_sizeAll_eq (by omega)
  have hsame' : unique = flat := herase.eq_of_sizeAll_eq (by omega)
  subst hsame'' hsame'
  exact ⟨hflat, hnodup, hresult, hlength⟩

theorem settled_of_joinSimplified_eq {k : Connective} {cs : List Condition}
    (h : joinSimplified k cs = .join k cs) : Settled k cs := by
  obtain ⟨hsplice, hnodup, hprune, hlength⟩ := steps_of_joinSimplified_eq h
  have hflat := eq_singleton_of_flatMap_eq (shrinks_splice k) hsplice
  have hkept := eq_singleton_of_flatMap_eq (shrinks_prune k (siblings k cs)) hprune
  refine ⟨?_, hlength, hnodup, ?_, ?_⟩
  · intro terms hmem
    exact ne_join_of_splice_eq (hflat _ hmem) terms rfl
  · intro terms hmem t ht hsibling
    exact notMem_of_prune_eq (hkept _ hmem) t ht (mem_siblings_iff.2 hsibling)
  · rintro terms hmem ⟨t, ht, hsibling⟩ u hu
    obtain hnone | hall := kept_of_prune_eq (hkept _ hmem)
    · exact absurd (mem_siblings_iff.2 hsibling) (hnone t ht)
    · exact mem_siblings_iff.1 (hall u hu)

/-! ## Passes that change nothing -/

/-- A pass that changes no joined condition changes none of its operands. -/
theorem passAll_eq_of_pass_eq {k : Connective} {cs : List Condition}
    (h : (join k cs).pass false = .join k cs) :
    passAll false cs = cs ∧ joinSimplified k cs = .join k cs := by
  rw [pass, if_neg Bool.false_ne_true] at h
  have hle := sizeAll_passAll_le false cs
  obtain heq | hlt := joinSimplified_eq_or_size_lt k (passAll false cs)
  · have hpassAll : passAll false cs = cs := (Condition.join.inj (heq.symm.trans h)).2
    rw [hpassAll] at h
    exact ⟨hpassAll, h⟩
  · rw [h, size] at hlt
    omega

mutual

/-- A condition that no pass changes is in normal form. -/
theorem isNormal_of_pass_eq : (c : Condition) → c.pass false = c → c.IsNormal
  | .test _, _ => trivial
  | .join _ cs, h =>
    have hsteps := passAll_eq_of_pass_eq h
    ⟨settled_of_joinSimplified_eq hsteps.2, allNormal_of_passAll_eq cs hsteps.1⟩
  | .not inner, h => by
    -- a pass takes the `not` off
    have hle := size_pass_le true inner
    rw [pass, Bool.not_false] at h
    rw [h, size] at hle
    omega

theorem allNormal_of_passAll_eq : (cs : List Condition) → passAll false cs = cs → AllNormal cs
  | [], _ => trivial
  | c :: cs, h => by
    rw [passAll, List.cons.injEq] at h
    exact ⟨isNormal_of_pass_eq c h.1, allNormal_of_passAll_eq cs h.2⟩

end

/-! ## Conditions without empty operand lists -/

theorem isFilled_of_mem_splice {k : Connective} {c d : Condition} (hc : c.IsFilled)
    (h : d ∈ splice k c) : d.IsFilled := by
  unfold splice at h
  cases hterms : c.operands? k with
  | none =>
    obtain rfl : d = c := by simpa [hterms] using h
    exact hc
  | some terms =>
    obtain rfl := eq_join_of_operands? hterms
    exact allFilled_iff.1 hc.2 d (by simpa [hterms] using h)

theorem splice_ne_nil {k : Connective} {c : Condition} (hc : c.IsFilled) : splice k c ≠ [] := by
  unfold splice
  cases hterms : c.operands? k with
  | none => simp
  | some terms =>
    obtain rfl := eq_join_of_operands? hterms
    exact hc.1

theorem isFilled_of_mem_prune {k : Connective} {known : List Condition} {c d : Condition}
    (hc : c.IsFilled) (h : d ∈ prune k known c) : d.IsFilled := by
  unfold prune at h
  cases hterms : c.operands? k.dual with
  | none =>
    obtain rfl : d = c := by simpa [hterms] using h
    exact hc
  | some terms =>
    obtain rfl := eq_join_of_operands? hterms
    have hkept : ∀ e ∈ terms.filter (·.inverse ∉ known), e.IsFilled := fun e he =>
      allFilled_iff.1 hc.2 e (List.mem_filter.1 he).1
    simp only [hterms] at h
    split at h
    · simp at h
    · split at h
      · obtain rfl := List.mem_singleton.1 h
        exact hc
      · rename_i hsome
        split at h
        · exact hkept d h
        · obtain rfl := List.mem_singleton.1 h
          exact ⟨fun hnil => hsome (.inr hnil), allFilled_iff.2 hkept⟩

/-- An operand is dropped only beside a sibling, and the sibling stays. -/
theorem flatMap_prune_ne_nil {k : Connective} {cs : List Condition} (h : cs ≠ []) :
    cs.flatMap (prune k (siblings k cs)) ≠ [] := by
  cases hsiblings : siblings k cs with
  | nil =>
    have hself : cs.flatMap (prune k []) = cs := by
      refine List.flatMap_eq_self fun c _ => ?_
      unfold prune
      cases c.operands? k.dual <;> simp
    rwa [hself]
  | cons s rest =>
    have hs : s ∈ siblings k cs := by simp [hsiblings]
    obtain ⟨hmem, hnone⟩ := mem_siblings.1 hs
    have hstays : s ∈ cs.flatMap (prune k (s :: rest)) :=
      List.mem_flatMap.2 ⟨s, hmem, by simp [prune, hnone]⟩
    exact List.ne_nil_of_mem hstays

theorem isFilled_collapse {k : Connective} {cs : List Condition} (hne : cs ≠ [])
    (h : ∀ c ∈ cs, c.IsFilled) : (collapse k cs).IsFilled := by
  match cs with
  | [] => exact absurd rfl hne
  | [c] => exact h c List.mem_cons_self
  | _ :: _ :: _ => exact ⟨hne, allFilled_iff.2 h⟩

theorem isFilled_joinSimplified {k : Connective} {cs : List Condition} (hne : cs ≠ [])
    (h : ∀ c ∈ cs, c.IsFilled) : (joinSimplified k cs).IsFilled := by
  have hunique : (cs.flatMap (splice k)).eraseDups ≠ [] := by
    obtain ⟨c, hc⟩ := List.exists_mem_of_ne_nil cs hne
    obtain ⟨d, hd⟩ := List.exists_mem_of_ne_nil _ (splice_ne_nil (k := k) (h c hc))
    exact List.ne_nil_of_mem (List.mem_eraseDups.2 (List.mem_flatMap.2 ⟨c, hc, hd⟩))
  refine isFilled_collapse (flatMap_prune_ne_nil hunique) fun d hd => ?_
  obtain ⟨c, hc, hd⟩ := List.mem_flatMap.1 hd
  obtain ⟨b, hb, hc⟩ := List.mem_flatMap.1 (List.mem_eraseDups.1 hc)
  exact isFilled_of_mem_prune (isFilled_of_mem_splice (h b hb) hc) hd

mutual

theorem isFilled_pass (negated : Bool) : (c : Condition) → c.IsFilled → (c.pass negated).IsFilled
  | .test _, _ => trivial
  | .join _ cs, h => by
    have hne : passAll negated cs ≠ [] := by
      cases cs with
      | nil => exact absurd rfl h.1
      | cons c cs => simp [passAll]
    exact isFilled_joinSimplified hne (allFilled_iff.1 (allFilled_passAll negated cs h.2))
  | .not inner, h => isFilled_pass (!negated) inner h

theorem allFilled_passAll (negated : Bool) : (cs : List Condition) → AllFilled cs →
    AllFilled (passAll negated cs)
  | [], _ => trivial
  | c :: cs, h => ⟨isFilled_pass negated c h.1, allFilled_passAll negated cs h.2⟩

end

theorem isFilled_simplify {c : Condition} (h : c.IsFilled) : c.simplify.IsFilled := by
  fun_induction simplify c with
  | case1 c next _ ih => exact ih (isFilled_pass false c h)
  | case2 c next _ => exact isFilled_pass false c h

/-! ## Simplified conditions -/

/-- Simplifying ends, and with a condition in normal form. It empties no joined condition. -/
theorem simplify_normalForm (c : Condition) :
    (∃ n < c.size, Repeats n (c.pass false) c.simplify) ∧ c.simplify.pass false = c.simplify ∧
      c.simplify.IsNormal ∧ (c.IsFilled → c.simplify.IsFilled) := by
  refine ⟨?_, pass_simplify c, isNormal_of_pass_eq _ (pass_simplify c), isFilled_simplify⟩
  obtain ⟨n, hn, hrepeats⟩ := exists_repeats (c.pass false)
  rw [simplify_pass] at hrepeats
  exact ⟨n, Nat.lt_of_lt_of_le hn (size_pass_le false c), hrepeats⟩

/-- The negation of `!x && !y && (x || y)`. Each term of the last operand contradicts a sibling. -/
def opposed : Condition :=
  let x : Condition := .test (.truth (.int 1) false)
  let y : Condition := .test (.truth (.int 2) false)
  .not (.join .and [.not x, .not y, .join .or [x, y]])

theorem simplify_normalForm_opposed :
    opposed.IsFilled ∧ opposed.simplify.IsNormal ∧ opposed.simplify.IsFilled :=
  have h : opposed.IsFilled := by simp [opposed, IsFilled, AllFilled]
  ⟨h, (simplify_normalForm opposed).2.2.1, (simplify_normalForm opposed).2.2.2 h⟩

end Unjump.Condition
