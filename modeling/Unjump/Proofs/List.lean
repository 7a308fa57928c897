import Mathlib.Data.List.Forall2

/-!
# Lists

What `List.eraseDups` keeps: the order of the elements, every element of a list without
repetitions, and the places of repetitions under a map that tells the elements apart. Where a list
is cut by `takeWhile` and `dropWhile` at the first place of an element. Lists whose elements are
related one by one, and what they have at a place.
-/

namespace List

/-- A list stays what it is if every element stands for itself. -/
theorem flatMap_eq_self {α : Type} {f : α → List α} {l : List α} (h : ∀ a ∈ l, f a = [a]) :
    l.flatMap f = l := by
  induction l with
  | nil => rfl
  | cons a l ih =>
    obtain ⟨ha, hl⟩ := forall_mem_cons.1 h
    rw [flatMap_cons, ha, ih hl, singleton_append]

/-- Lists with the same images have elements with the same image at a place. -/
theorem exists_getElem?_of_map_eq {α β γ : Type} {f : α → γ} {g : β → γ} {xs : List α} {ys : List β}
    (heq : xs.map f = ys.map g) {position : Nat} {x : α} (h : xs[position]? = some x) :
    ∃ y, ys[position]? = some y ∧ g y = f x := by
  have hy : (ys.map g)[position]? = some (f x) := by
    rw [← heq, getElem?_map, h, Option.map_some]
  rw [getElem?_map] at hy
  exact Option.map_eq_some_iff.1 hy

/-- Elements that stand in the same places have the same images if their relation says so. -/
theorem map_eq_of_forall₂ {α β γ : Type} {R : α → β → Prop} {f : α → γ} {g : β → γ}
    (himage : ∀ x y, R x y → g y = f x) {xs : List α} {ys : List β} (h : Forall₂ R xs ys) :
    ys.map g = xs.map f := by
  induction h with
  | nil => rfl
  | cons hxy _ ih => rw [map_cons, map_cons, himage _ _ hxy, ih]

section Forall₂

variable {α β γ δ : Type} {R : α → β → Prop} {S : γ → δ → Prop} {xs : List α} {ys : List β}

/-- Lists that are related by way of a third one are related. -/
theorem Forall₂.comp {P : α → γ → Prop} {Q : γ → β → Prop} {zs : List γ}
    (hPQ : ∀ x z y, P x z → Q z y → R x y) (h : Forall₂ P xs zs) (h' : Forall₂ Q zs ys) :
    Forall₂ R xs ys := by
  induction h generalizing ys with
  | nil =>
    cases h'
    exact .nil
  | cons hxz _ ih =>
    obtain _ | ⟨hzy, hrest⟩ := h'
    exact .cons (hPQ _ _ _ hxz hzy) (ih hrest)

/-- Related lists are cut at the same places. -/
theorem Forall₂.exists_append_cons {front back : List α} {x : α}
    (h : Forall₂ R (front ++ x :: back) ys) :
    ∃ front' y back', ys = front' ++ y :: back' ∧ Forall₂ R front front' ∧ R x y ∧
      Forall₂ R back back' := by
  induction front generalizing ys with
  | nil =>
    obtain _ | ⟨hxy, hback⟩ := h
    exact ⟨[], _, _, rfl, .nil, hxy, hback⟩
  | cons a front ih =>
    obtain _ | ⟨ha, hrest⟩ := h
    obtain ⟨front', y, back', rfl, hfront, hxy, hback⟩ := ih hrest
    exact ⟨_ :: front', y, back', rfl, .cons ha hfront, hxy, hback⟩

/-- Related lists have related elements at every place. -/
theorem Forall₂.getElem? (h : Forall₂ R xs ys) (i : Nat) : Option.Rel R xs[i]? ys[i]? := by
  induction h generalizing i with
  | nil => exact .none
  | cons hxy _ ih =>
    cases i with
    | zero => exact .some hxy
    | succ i => exact ih i

/-- Related lists end with related elements. -/
theorem Forall₂.getLast? (h : Forall₂ R xs ys) : Option.Rel R xs.getLast? ys.getLast? := by
  rw [getLast?_eq_getElem?, getLast?_eq_getElem?, ← h.length_eq]
  exact h.getElem? _

/-- What is made of related elements at the same places is related. -/
theorem Forall₂.mapIdx (h : Forall₂ R xs ys) {f : Nat → α → γ} {g : Nat → β → δ}
    (hfg : ∀ i x y, R x y → S (f i x) (g i y)) : Forall₂ S (xs.mapIdx f) (ys.mapIdx g) := by
  induction h generalizing f g with
  | nil => exact .nil
  | cons hxy _ ih =>
    rw [mapIdx_cons, mapIdx_cons]
    exact .cons (hfg 0 _ _ hxy) (ih fun i => hfg (i + 1))

end Forall₂

/-- Dropping repetitions keeps the order of what stays. -/
theorem eraseDups_sublist {α : Type} [BEq α] : (l : List α) → l.eraseDups.Sublist l
  | [] => .slnil
  | a :: l => by
    have hrest := eraseDups_sublist (l.filter fun b => !b == a)
    rw [eraseDups_cons]
    exact (hrest.trans filter_sublist).cons_cons a
  termination_by l => l.length
  decreasing_by exact Nat.lt_succ_of_le (length_filter_le _ _)

variable {α β : Type} [BEq α] [LawfulBEq α]

/-- A list without repetitions loses nothing. -/
theorem eraseDups_of_nodup {l : List α} (h : l.Nodup) : l.eraseDups = l := by
  induction l with
  | nil => rfl
  | cons a l ih =>
    obtain ⟨hnotMem, hnodup⟩ := nodup_cons.1 h
    have hkeep : l.filter (fun b => !b == a) = l := by
      rw [filter_eq_self]
      intro b hb
      simpa using fun heq : b = a => hnotMem (heq ▸ hb)
    rw [eraseDups_cons, hkeep, ih hnodup]

/-- What is left has no repetitions. -/
theorem nodup_eraseDups : (l : List α) → l.eraseDups.Nodup
  | [] => .nil
  | a :: l => by
    rw [eraseDups_cons, nodup_cons]
    exact ⟨by simp, nodup_eraseDups (l.filter fun b => !b == a)⟩
  termination_by l => l.length
  decreasing_by exact Nat.lt_succ_of_le (length_filter_le _ _)

/-- A map that tells the elements of a list apart keeps the places of its repetitions. -/
theorem eraseDups_map [BEq β] [LawfulBEq β] {f : α → β} (l : List α)
    (h : ∀ a ∈ l, ∀ b ∈ l, f a = f b → a = b) : (l.map f).eraseDups = l.eraseDups.map f := by
  match l with
  | [] => rfl
  | a :: l =>
    -- an image repeats that of `a` exactly if its element repeats `a`
    have hfilter : (l.map f).filter (fun b => !b == f a) = (l.filter fun b => !b == a).map f := by
      rw [filter_map]
      congr 1
      apply filter_congr
      intro b hb
      have hiff : f b = f a ↔ b = a :=
        ⟨h b (mem_cons_of_mem _ hb) a mem_cons_self, congrArg f⟩
      rw [Bool.eq_iff_iff]
      simp [hiff]
    rw [map_cons, eraseDups_cons, eraseDups_cons, map_cons, hfilter, eraseDups_map]
    intro b hb c hc
    exact h b (mem_cons_of_mem _ (mem_filter.1 hb).1) c (mem_cons_of_mem _ (mem_filter.1 hc).1)
  termination_by l.length
  decreasing_by exact Nat.lt_succ_of_le (length_filter_le _ _)

/-! ## The first place of an element -/

variable {γ : Type} [DecidableEq γ] {a : γ}

/-- The first two of the lists that are put together may be one. -/
theorem intercalate_append_cons {γ : Type} (sep front back : List γ) (rest : List (List γ)) :
    sep.intercalate (front :: back :: rest) = sep.intercalate ((front ++ sep ++ back) :: rest) := by
  cases rest with
  | nil => simp [intercalate_cons_cons]
  | cons next rest => simp [intercalate_cons_cons]

/-- What is taken up to an element is what stands before its first place. -/
theorem takeWhile_ne_append_cons {l rest : List γ} (h : a ∉ l) :
    (l ++ a :: rest).takeWhile (· ≠ a) = l := by
  have hkeep : ∀ b ∈ l, decide (b ≠ a) = true := fun b hb => by
    simpa using fun heq : b = a => h (heq ▸ hb)
  rw [takeWhile_append_of_pos hkeep, takeWhile_cons_of_neg (by simp), append_nil]

/-- What is left from an element on starts with its first place. -/
theorem dropWhile_ne_append_cons {l rest : List γ} (h : a ∉ l) :
    (l ++ a :: rest).dropWhile (· ≠ a) = a :: rest := by
  have hkeep : ∀ b ∈ l, decide (b ≠ a) = true := fun b hb => by
    simpa using fun heq : b = a => h (heq ▸ hb)
  rw [dropWhile_append_of_pos hkeep, dropWhile_cons_of_neg (by simp)]

/-- The element is not among what is taken up to it. -/
theorem notMem_takeWhile_ne {l : List γ} : a ∉ l.takeWhile (· ≠ a) := fun h => by
  simpa using all_eq_true.1 all_takeWhile a h

/-- If anything is left from an element on, the element is the first of it. -/
theorem eq_append_of_dropWhile_ne {b : γ} {l rest : List γ}
    (h : l.dropWhile (· ≠ a) = b :: rest) : l = l.takeWhile (· ≠ a) ++ a :: rest := by
  have hhead : b = a := by
    have hfirst := head?_dropWhile_not (· ≠ a) l
    rw [h] at hfirst
    simpa using hfirst
  rw [← hhead, ← h, hhead, takeWhile_append_dropWhile]

end List

/-- What is asked of two options has one answer if it has of related values, and of no value. -/
theorem Option.Rel.congr {α β γ : Type} {R : α → β → Prop} {x : Option α} {y : Option β}
    (h : Option.Rel R x y) {f : Option α → γ} {g : Option β → γ} (hnone : g .none = f .none)
    (hsome : ∀ a b, R a b → g (.some b) = f (.some a)) : g y = f x := by
  cases h with
  | none => exact hnone
  | some hab => exact hsome _ _ hab
