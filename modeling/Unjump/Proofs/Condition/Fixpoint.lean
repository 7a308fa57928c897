import Unjump.Condition.Simplify
import Unjump.Proofs.List

/-!
# The end of simplifying

A pass that changes a condition makes it smaller (`pass_eq_or_size_lt`). So the condition at which
simplifying stops is one that no further pass changes (`pass_simplify`), and simplifying may begin
with a pass (`simplify_pass`).
-/

namespace Unjump.Condition

/-- There is at least one node. -/
theorem size_pos (c : Condition) : 0 < c.size := by
  cases c with
  | test t => simp [size]
  | join k cs => rw [size]; omega
  | not inner => rw [size]; omega

@[simp] theorem sizeAll_append (cs ds : List Condition) :
    sizeAll (cs ++ ds) = sizeAll cs + sizeAll ds := by
  induction cs with
  | nil => simp [sizeAll]
  | cons c cs ih => rw [List.cons_append, sizeAll, sizeAll, ih, Nat.add_assoc]

theorem sizeAll_le_of_sublist {cs ds : List Condition} (h : ds.Sublist cs) :
    sizeAll ds ≤ sizeAll cs := by
  induction h with
  | slnil => exact Nat.le_refl _
  | cons c _ ih => rw [sizeAll]; omega
  | cons_cons c _ ih => rw [sizeAll, sizeAll]; omega

/-! ## The steps of a pass -/

/-- A step on the operands of a condition leaves them alone or makes them smaller. -/
def Shrinks (cs ds : List Condition) : Prop :=
  ds = cs ∨ sizeAll ds < sizeAll cs

theorem Shrinks.sizeAll_le {cs ds : List Condition} (h : Shrinks cs ds) :
    sizeAll ds ≤ sizeAll cs := by
  obtain rfl | h := h
  · exact Nat.le_refl _
  · exact Nat.le_of_lt h

theorem Shrinks.trans {cs ds es : List Condition} (h : Shrinks cs ds) (h' : Shrinks ds es) :
    Shrinks cs es := by
  obtain rfl | h := h
  · exact h'
  · exact .inr (Nat.lt_of_le_of_lt h'.sizeAll_le h)

/-- Dropping operands makes them smaller, unless none is dropped. -/
theorem shrinks_of_sublist {cs ds : List Condition} (h : ds.Sublist cs) : Shrinks cs ds := by
  induction h with
  | slnil => exact .inl rfl
  | cons c h _ =>
    have := sizeAll_le_of_sublist h
    have := c.size_pos
    exact .inr (by rw [sizeAll]; omega)
  | cons_cons c _ ih =>
    obtain rfl | ih := ih
    · exact .inl rfl
    · exact .inr (by rw [sizeAll, sizeAll]; omega)

/-- A step that shrinks each operand by itself shrinks all of them. -/
theorem shrinks_flatMap {f : Condition → List Condition} {cs : List Condition}
    (h : ∀ c ∈ cs, Shrinks [c] (f c)) : Shrinks cs (cs.flatMap f) := by
  induction cs with
  | nil => exact .inl rfl
  | cons c cs ih =>
    obtain ⟨hc, hcs⟩ := List.forall_mem_cons.1 h
    have hle := (ih hcs).sizeAll_le
    rw [List.flatMap_cons]
    obtain hc | hc := hc
    · obtain heq | hlt := ih hcs
      · exact .inl (by rw [hc, heq]; rfl)
      · exact .inr (by rw [hc, sizeAll_append, sizeAll, sizeAll, sizeAll]; omega)
    · rw [sizeAll, sizeAll] at hc
      exact .inr (by rw [sizeAll_append, sizeAll]; omega)

theorem shrinks_splice (k : Connective) (c : Condition) : Shrinks [c] (splice k c) := by
  unfold splice
  cases h : c.operands? k with
  | none => exact .inl rfl
  | some terms =>
    obtain rfl := eq_join_of_operands? h
    exact .inr (by simp [sizeAll, size])

theorem shrinks_prune (k : Connective) (known : List Condition) (c : Condition) :
    Shrinks [c] (prune k known c) := by
  unfold prune
  cases h : c.operands? k.dual with
  | none => exact .inl rfl
  | some terms =>
    obtain rfl := eq_join_of_operands? h
    dsimp only
    split
    · exact .inr (by simp [sizeAll, size_pos])
    · split
      · exact .inl rfl
      · rename_i hsome
        -- some of the terms are left, but not all
        obtain heq | hlt := shrinks_of_sublist (List.filter_sublist (l := terms)
          (p := fun t => decide (t.inverse ∉ known)))
        · exact absurd (.inl (congrArg List.length heq)) hsome
        · split
          · exact .inr (by simp only [sizeAll, size]; omega)
          · exact .inr (by simp only [sizeAll, size]; omega)

theorem collapse_eq_or_size_lt (k : Connective) (cs : List Condition) :
    collapse k cs = join k cs ∨ (collapse k cs).size < 1 + sizeAll cs := by
  match cs with
  | [] | _ :: _ :: _ => exact .inl rfl
  | [c] => exact .inr (by simp [collapse, sizeAll])

/-- Joining operands in the short form saves nodes, or it joins the operands as they are. -/
theorem joinSimplified_eq_or_size_lt (k : Connective) (cs : List Condition) :
    joinSimplified k cs = join k cs ∨ (joinSimplified k cs).size < 1 + sizeAll cs := by
  unfold joinSimplified
  dsimp only
  have hshrinks : Shrinks cs ((cs.flatMap (splice k)).eraseDups.flatMap
      (prune k (siblings k (cs.flatMap (splice k)).eraseDups))) :=
    ((shrinks_flatMap fun c _ => shrinks_splice k c).trans
      (shrinks_of_sublist (List.eraseDups_sublist _))).trans
      (shrinks_flatMap fun c _ => shrinks_prune k _ c)
  obtain heq | hlt := collapse_eq_or_size_lt k _
  · rw [heq]
    obtain heq | hlt := hshrinks
    · exact .inl (by rw [heq])
    · exact .inr (by rw [size]; omega)
  · have := hshrinks.sizeAll_le
    exact .inr (by omega)

/-! ## Passes -/

mutual

theorem size_pass_le (negated : Bool) : (c : Condition) → (c.pass negated).size ≤ c.size
  | .test t => by simp [pass, size]
  | .join k cs => by
    have hle := sizeAll_passAll_le negated cs
    rw [pass, size]
    obtain heq | hlt := joinSimplified_eq_or_size_lt (if negated then k.dual else k)
      (passAll negated cs)
    · rw [heq, size]; omega
    · omega
  | .not inner => by
    have hle := size_pass_le (!negated) inner
    rw [pass, size]; omega

theorem sizeAll_passAll_le (negated : Bool) : (cs : List Condition) →
    sizeAll (passAll negated cs) ≤ sizeAll cs
  | [] => Nat.le_refl _
  | c :: cs => by
    have hle := size_pass_le negated c
    have hle' := sizeAll_passAll_le negated cs
    rw [passAll, sizeAll, sizeAll]; omega

end

mutual

/-- A pass that changes a condition makes it smaller. -/
theorem pass_eq_or_size_lt : (c : Condition) →
    c.pass false = c ∨ (c.pass false).size < c.size
  | .test t => .inl rfl
  | .join k cs => by
    rw [pass, size]
    have hle := sizeAll_passAll_le false cs
    obtain heq | hlt := joinSimplified_eq_or_size_lt k (passAll false cs)
    · obtain heq' | hlt := shrinks_passAll cs
      · exact .inl (heq.trans (by rw [heq']))
      · exact .inr (by simp only [Bool.false_eq_true, if_false, heq, size]; omega)
    · exact .inr (by simp only [Bool.false_eq_true, if_false]; omega)
  | .not inner => by
    have hle := size_pass_le true inner
    exact .inr (by rw [pass, size, Bool.not_false]; omega)

theorem shrinks_passAll : (cs : List Condition) → Shrinks cs (passAll false cs)
  | [] => .inl rfl
  | c :: cs => by
    have hle := size_pass_le false c
    have hle' := sizeAll_passAll_le false cs
    obtain heq | hlt := pass_eq_or_size_lt c
    · obtain heq' | hlt := shrinks_passAll cs
      · exact .inl (by rw [passAll, heq, heq'])
      · exact .inr (by rw [passAll, sizeAll, sizeAll]; omega)
    · exact .inr (by rw [passAll, sizeAll, sizeAll]; omega)

end

/-! ## Simplifying -/

/-- A condition that no pass changes is simple. -/
theorem simplify_of_pass_eq {c : Condition} (h : c.pass false = c) : c.simplify = c := by
  unfold simplify
  simp [h]

/-- Simplifying may begin with a pass. -/
theorem simplify_pass (c : Condition) : (c.pass false).simplify = c.simplify := by
  obtain heq | hlt := c.pass_eq_or_size_lt
  · rw [heq]
  · conv => rhs; unfold simplify
    simp [hlt]

/-- No further pass changes a simplified condition. -/
theorem pass_simplify (c : Condition) : c.simplify.pass false = c.simplify := by
  fun_induction simplify c with
  | case1 c next _ ih => exact ih
  | case2 c next hsize =>
    obtain heq | hlt := c.pass_eq_or_size_lt
    · rw [show next = c from heq]; exact heq
    · exact absurd hlt hsize

end Unjump.Condition
