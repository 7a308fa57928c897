import Mathlib.Data.List.Forall2
import Unjump.Proofs.List

/-!
# Computations that succeed or fail

What is known of the parts of a computation in `Except` when the whole succeeds, and which part it
is that fails. Computations that come to the same, or fail alike (`SameOutcome`).
-/

namespace Unjump

/-- Two computations in a row succeed exactly if both do. -/
theorem bind_eq_ok {ε α β : Type} {x : Except ε α} {f : α → Except ε β} {b : β} :
    x >>= f = .ok b ↔ ∃ a, x = .ok a ∧ f a = .ok b := by
  cases x with
  | error e => simp [bind, Except.bind]
  | ok a => simp [bind, Except.bind]

/-- Two computations in a row fail if the first does, or the second after the first. -/
theorem bind_eq_error {ε α β : Type} {x : Except ε α} {f : α → Except ε β} {e : ε} :
    x >>= f = .error e ↔ x = .error e ∨ ∃ a, x = .ok a ∧ f a = .error e := by
  cases x with
  | error e' => simp [bind, Except.bind]
  | ok a => simp [bind, Except.bind]

/-- A computation whose result is changed succeeds exactly if it does. -/
theorem map_eq_ok {ε α β : Type} {x : Except ε α} {f : α → β} {b : β} :
    x.map f = .ok b ↔ ∃ a, x = .ok a ∧ f a = b := by
  cases x with
  | error e => simp [Except.map]
  | ok a => simp [Except.map]

/-- A computation whose failure is changed succeeds exactly if it does. -/
theorem mapError_eq_ok {ε ε' α : Type} {x : Except ε α} {f : ε → ε'} {a : α} :
    x.mapError f = .ok a ↔ x = .ok a := by
  cases x with
  | error e =>
    show Except.error (f e) = .ok a ↔ _
    simp
  | ok b =>
    show Except.ok b = .ok a ↔ _
    simp

/-- A computation whose result is changed fails as it does. -/
theorem map_eq_error {ε α β : Type} {x : Except ε α} {f : α → β} {e : ε} :
    x.map f = .error e ↔ x = .error e := by
  cases x with
  | error e' => simp [Except.map]
  | ok a => simp [Except.map]

/-- A computation whose failure is changed fails exactly if it does. -/
theorem mapError_eq_error {ε ε' α : Type} {x : Except ε α} {f : ε → ε'} {e : ε'} :
    x.mapError f = .error e ↔ ∃ e', x = .error e' ∧ f e' = e := by
  cases x with
  | error e' =>
    show Except.error (f e') = .error e ↔ _
    simp
  | ok a =>
    show Except.ok a = .error e ↔ _
    simp

/-- A computation that has a result succeeds with it. -/
theorem eq_ok_of_toOption_eq_some {ε α : Type} {x : Except ε α} {a : α}
    (h : x.toOption = some a) : x = .ok a := by
  cases x with
  | error e => cases h
  | ok b => cases h; rfl

/-! ## Computations on lists -/

section MapM

variable {ε α β : Type} {f : α → Except ε β} {xs : List α} {ys : List β}

/-- A computation succeeds on every element of a list exactly if the results are those of the
elements, one by one. -/
theorem mapM_eq_ok_iff_forall₂ :
    xs.mapM f = .ok ys ↔ List.Forall₂ (fun x y => f x = .ok y) xs ys := by
  induction xs generalizing ys with
  | nil =>
    constructor
    · rintro ⟨⟩
      exact .nil
    · rintro ⟨⟩
      rfl
  | cons x xs ih =>
    rw [List.mapM_cons, bind_eq_ok]
    constructor
    · rintro ⟨y, hy, h⟩
      obtain ⟨ys, hys, h⟩ := bind_eq_ok.1 h
      cases h
      exact .cons hy (ih.1 hys)
    · rintro (_ | ⟨hy, hys⟩)
      exact ⟨_, hy, bind_eq_ok.2 ⟨_, ih.2 hys, rfl⟩⟩

/-- If a computation succeeds on every element of a list, every element has its result at the same
position. -/
theorem getElem?_of_mapM_eq_ok (h : xs.mapM f = .ok ys) {i : Nat} {x : α} (hx : xs[i]? = some x) :
    ∃ y, ys[i]? = some y ∧ f x = .ok y := by
  have hall := mapM_eq_ok_iff_forall₂.1 h
  obtain ⟨hi, rfl⟩ := List.getElem?_eq_some_iff.1 hx
  have hys : i < ys.length := hall.length_eq ▸ hi
  exact ⟨ys[i], List.getElem?_eq_getElem hys, hall.get hi hys⟩

/-- Every result of a computation on the elements of a list is the result of one of them. -/
theorem exists_of_mem_mapM_eq_ok (h : xs.mapM f = .ok ys) {y : β} (hy : y ∈ ys) :
    ∃ x ∈ xs, f x = .ok y := by
  have hall := mapM_eq_ok_iff_forall₂.1 h
  obtain ⟨i, hi, rfl⟩ := List.getElem_of_mem hy
  have hxs : i < xs.length := hall.length_eq ▸ hi
  exact ⟨xs[i], List.getElem_mem hxs, hall.get hxs hi⟩

/-- A computation on the elements of a list has a result for each of them. -/
theorem length_of_mapM_eq_ok (h : xs.mapM f = .ok ys) : ys.length = xs.length :=
  (mapM_eq_ok_iff_forall₂.1 h).length_eq.symm

/-- If the result of every computation is changed alike, so are the results on a list. -/
theorem mapM_map {γ : Type} (f : α → Except ε β) (g : β → γ) (xs : List α) :
    xs.mapM (fun x => (f x).map g) = (xs.mapM f).map (List.map g) := by
  induction xs with
  | nil => rfl
  | cons x xs ih =>
    rw [List.mapM_cons, List.mapM_cons, ih]
    cases f x with
    | error e => rfl
    | ok y => cases xs.mapM f <;> rfl

/-- What every computation keeps of its element, the computations on a list keep of the list. -/
theorem map_eq_of_mapM_eq_ok {γ : Type} {g : α → γ} {g' : β → γ}
    (hkeep : ∀ x y, f x = .ok y → g' y = g x) (h : xs.mapM f = .ok ys) : ys.map g' = xs.map g :=
  List.map_eq_of_forall₂ hkeep (mapM_eq_ok_iff_forall₂.1 h)

end MapM

/-! ## Failures -/

/-- A computation on the elements of a list fails with one of them. -/
theorem exists_of_mapM_eq_error {ε α β : Type} {f : α → Except ε β} {xs : List α} {e : ε}
    (h : xs.mapM f = .error e) : ∃ x ∈ xs, f x = .error e := by
  induction xs with
  | nil => cases h
  | cons a xs ih =>
    rw [List.mapM_cons] at h
    obtain h | ⟨b, -, h⟩ := bind_eq_error.1 h
    · exact ⟨a, List.mem_cons_self, h⟩
    · obtain h | ⟨bs, -, h⟩ := bind_eq_error.1 h
      · obtain ⟨x, hx, hfx⟩ := ih h
        exact ⟨x, List.mem_cons_of_mem _ hx, hfx⟩
      · cases h

/-- A computation that succeeds on every element of a list succeeds on the list. -/
theorem exists_mapM_eq_ok {ε α β : Type} {f : α → Except ε β} {xs : List α}
    (h : ∀ x ∈ xs, ∃ y, f x = .ok y) : ∃ ys, xs.mapM f = .ok ys := by
  cases hmap : xs.mapM f with
  | ok ys => exact ⟨ys, rfl⟩
  | error e =>
    obtain ⟨x, hx, herror⟩ := exists_of_mapM_eq_error hmap
    obtain ⟨y, hok⟩ := h x hx
    rw [hok] at herror
    cases herror

/-- A computation on the elements of a list fails with the first element on which it does. -/
theorem mapM_append_cons_eq_error {ε α β : Type} {f : α → Except ε β} {before after : List α}
    {x : α} {e : ε} (hbefore : ∀ y ∈ before, ∃ b, f y = .ok b) (hx : f x = .error e) :
    (before ++ x :: after).mapM f = .error e := by
  obtain ⟨bs, hbs⟩ := exists_mapM_eq_ok hbefore
  rw [List.mapM_append, List.mapM_cons, hbs, hx]
  rfl

/-- A fold over a list fails with one of the elements. -/
theorem exists_of_foldlM_eq_error {ε α β : Type} {f : β → α → Except ε β} {xs : List α} {b : β}
    {e : ε} (h : xs.foldlM f b = .error e) : ∃ x ∈ xs, ∃ b, f b x = .error e := by
  induction xs generalizing b with
  | nil => cases h
  | cons a xs ih =>
    rw [List.foldlM_cons] at h
    obtain h | ⟨b', -, h⟩ := bind_eq_error.1 h
    · exact ⟨a, List.mem_cons_self, b, h⟩
    · obtain ⟨x, hx, hfx⟩ := ih h
      exact ⟨x, List.mem_cons_of_mem _ hx, hfx⟩

/-- A fold over a list goes on alike from a changed state if every step that succeeds does. -/
theorem foldlM_eq_ok_of_step {ε α β : Type} {f : β → α → Except ε β} {g : β → β}
    (hstep : ∀ b x b', f b x = .ok b' → f (g b) x = .ok (g b')) {xs : List α} {b b' : β}
    (h : xs.foldlM f b = .ok b') : xs.foldlM f (g b) = .ok (g b') := by
  induction xs generalizing b with
  | nil => cases h; rfl
  | cons x xs ih =>
    rw [List.foldlM_cons] at h ⊢
    obtain ⟨next, hnext, hrest⟩ := bind_eq_ok.1 h
    exact bind_eq_ok.2 ⟨g next, hstep b x next hnext, ih hrest⟩

/-! ## Computations that come to the same -/

/-- Two computations succeed with the same result, or fail with related failures. -/
inductive SameOutcome {ε α : Type} (R : ε → ε → Prop) : Except ε α → Except ε α → Prop where
  | ok (a : α) : SameOutcome R (.ok a) (.ok a)
  | error {e e' : ε} (h : R e e') : SameOutcome R (.error e) (.error e')

namespace SameOutcome

variable {ε α β : Type} {R : ε → ε → Prop}

/-- Either both computations succeed, or both fail. -/
theorem cases {x x' : Except ε α} (h : SameOutcome R x x') :
    (∃ a, x = .ok a ∧ x' = .ok a) ∨ ∃ e e', x = .error e ∧ x' = .error e' ∧ R e e' := by
  cases h with
  | ok a => exact .inl ⟨a, rfl, rfl⟩
  | error h => exact .inr ⟨_, _, rfl, rfl, h⟩

/-- What comes to the same as a success is that success. -/
theorem of_ok {a : α} {x' : Except ε α} (h : SameOutcome R (.ok a) x') : x' = .ok a := by
  cases h
  rfl

/-- What comes to the same as a failure fails alike. -/
theorem of_error {e : ε} {x' : Except ε α} (h : SameOutcome R (.error e) x') :
    ∃ e', x' = .error e' ∧ R e e' := by
  cases h with
  | error h => exact ⟨_, rfl, h⟩

/-- A computation comes to what it comes to. -/
theorem refl (hR : ∀ e, R e e) (x : Except ε α) : SameOutcome R x x := by
  cases x with
  | error e => exact .error (hR e)
  | ok a => exact .ok a

/-- Computations that come to the same go on to the same if what follows does from every result. -/
theorem bind {x x' : Except ε α} (h : SameOutcome R x x') {f f' : α → Except ε β}
    (hf : ∀ a, SameOutcome R (f a) (f' a)) : SameOutcome R (x >>= f) (x' >>= f') := by
  cases h with
  | ok a => exact hf a
  | error h => exact .error h

/-- Computations that come to the same do so when their results are changed. -/
theorem map {x x' : Except ε α} (h : SameOutcome R x x') (f : α → β) :
    SameOutcome R (x.map f) (x'.map f) := by
  cases h with
  | ok a => exact .ok (f a)
  | error h => exact .error h

/-- Computations on a list come to the same if they do on every element. -/
theorem mapM {f f' : α → Except ε β} (xs : List α) (h : ∀ x ∈ xs, SameOutcome R (f x) (f' x)) :
    SameOutcome R (xs.mapM f) (xs.mapM f') := by
  induction xs with
  | nil => exact .ok []
  | cons x xs ih =>
    obtain ⟨hx, hxs⟩ := List.forall_mem_cons.1 h
    rw [List.mapM_cons, List.mapM_cons]
    exact hx.bind fun y => (ih hxs).bind fun ys => .ok (y :: ys)

end SameOutcome

end Unjump
