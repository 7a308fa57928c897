import Mathlib.Data.List.TakeWhile
import Unjump.Text.Blank

/-!
# Cuts at blanks and at separators

A text is what is left of it by `trim` with blanks around (`exists_eq_append_trim`), and what is
left neither starts nor ends with a blank (`isBlank_head?_trim`, `isBlank_getLast?_trim`). The cut
at the first blank parts a trimmed text into a word, blanks and what follows them
(`exists_gap_of_cutAtBlank`).

Cutting at separators goes part by part: the parts of two texts with a separator between them are
the parts of the one and those of the other (`splitAt_append_cons`, `fields_append_cons`).
-/

namespace Unjump.Text

/-- The blanks at the start of a text are left out. -/
theorem exists_eq_append_trimLeft (cs : List Char) :
    ∃ front, cs = front ++ trimLeft cs ∧ ∀ c ∈ front, isBlank c = true :=
  ⟨cs.takeWhile isBlank, List.takeWhile_append_dropWhile.symm, fun _ => List.mem_takeWhile_imp⟩

/-- The blanks at the end of a text are left out. -/
theorem exists_eq_trimRight_append (cs : List Char) :
    ∃ back, cs = trimRight cs ++ back ∧ ∀ c ∈ back, isBlank c = true := by
  refine ⟨(cs.reverse.takeWhile isBlank).reverse, ?_, fun c hc => ?_⟩
  · rw [trimRight, ← List.reverse_append, List.takeWhile_append_dropWhile, List.reverse_reverse]
  · exact List.mem_takeWhile_imp (List.mem_reverse.1 hc)

/-- The blanks around a text are left out. -/
theorem exists_eq_append_trim (cs : List Char) :
    ∃ front back, cs = front ++ trim cs ++ back ∧
      (∀ c ∈ front, isBlank c = true) ∧ ∀ c ∈ back, isBlank c = true := by
  obtain ⟨front, hfront, hblank⟩ := exists_eq_append_trimLeft cs
  obtain ⟨back, hback, hblank'⟩ := exists_eq_trimRight_append (trimLeft cs)
  refine ⟨front, back, ?_, hblank, hblank'⟩
  rw [List.append_assoc, trim, ← hback, ← hfront]

theorem isBlank_head?_trimLeft {cs : List Char} {c : Char} (h : (trimLeft cs).head? = some c) :
    isBlank c = false := by
  have hfirst := List.head?_dropWhile_not isBlank cs
  rw [← trimLeft, h] at hfirst
  simpa using hfirst

theorem isBlank_getLast?_trimRight {cs : List Char} {c : Char}
    (h : (trimRight cs).getLast? = some c) : isBlank c = false := by
  have hfirst := List.head?_dropWhile_not isBlank cs.reverse
  rw [trimRight, List.getLast?_reverse] at h
  rw [h] at hfirst
  simpa using hfirst

/-- A trimmed text does not start with a blank. -/
theorem isBlank_head?_trim {cs : List Char} {c : Char} (h : (trim cs).head? = some c) :
    isBlank c = false := by
  obtain ⟨back, hback, -⟩ := exists_eq_trimRight_append (trimLeft cs)
  have hfirst : (trimLeft cs).head? = some c := by
    rw [hback, List.head?_append, ← trim, h, Option.some_or]
  exact isBlank_head?_trimLeft hfirst

/-- A trimmed text does not end with a blank. -/
theorem isBlank_getLast?_trim {cs : List Char} {c : Char} (h : (trim cs).getLast? = some c) :
    isBlank c = false :=
  isBlank_getLast?_trimRight h

/-- A text that neither starts nor ends with a blank is what is left of it with blanks around. -/
theorem trim_append_append {front text back : List Char} (hfront : ∀ c ∈ front, isBlank c = true)
    (hback : ∀ c ∈ back, isBlank c = true) {first last : Char} (hfirst : text.head? = some first)
    (hlast : text.getLast? = some last) (hends : isBlank first = false ∧ isBlank last = false) :
    trim (front ++ text ++ back) = text := by
  have hleft : trimLeft (front ++ text ++ back) = text ++ back := by
    obtain ⟨rest, rfl⟩ := List.head?_eq_some_iff.1 hfirst
    rw [trimLeft, List.append_assoc, List.dropWhile_append_of_pos hfront, List.cons_append,
      List.dropWhile_cons_of_neg (by simp [hends.1])]
  have hright : trimRight (text ++ back) = text := by
    obtain ⟨rest, rfl⟩ := List.getLast?_eq_some_iff.1 hlast
    have hblank : ∀ c ∈ back.reverse, isBlank c = true := fun c hc =>
      hback c (List.mem_reverse.1 hc)
    rw [trimRight, List.reverse_append, List.dropWhile_append_of_pos hblank, List.reverse_concat,
      List.dropWhile_cons_of_neg (by simp [hends.2]), ← List.reverse_concat, List.reverse_reverse]
  rw [trim, hleft, hright]

/-- A word is cut off at the blank that follows it. -/
theorem cutAtBlank_append_cons {word : List Char} {c : Char} (hword : ∀ c ∈ word, isBlank c = false)
    (hc : isBlank c = true) (rest : List Char) : cutAtBlank (word ++ c :: rest) = (word, rest) := by
  have hpos : ∀ d ∈ word, (!isBlank d) = true := fun d hd => by rw [hword d hd, Bool.not_false]
  rw [cutAtBlank, List.takeWhile_append_of_pos hpos, List.dropWhile_append_of_pos hpos,
    List.takeWhile_cons_of_neg (by simp [hc]), List.dropWhile_cons_of_neg (by simp [hc]),
    List.append_nil, List.drop_one, List.tail_cons]

/-- What is cut off at the first blank of a trimmed text stands behind the first word and blanks. -/
theorem exists_gap_of_cutAtBlank {text word rest : List Char}
    (h : cutAtBlank (trim text) = (word, rest)) :
    ∃ gap, trim text = word ++ gap ++ trim rest ∧ (∀ c ∈ gap, isBlank c = true) ∧
      (gap = [] → trim rest = []) := by
  simp only [cutAtBlank, Prod.mk.injEq] at h
  obtain ⟨hword, hrest⟩ := h
  have hcut : trim text = word ++ (trim text).dropWhile (!isBlank ·) := by
    rw [← hword, List.takeWhile_append_dropWhile]
  cases htail : (trim text).dropWhile (!isBlank ·) with
  | nil =>
    rw [htail, List.drop_nil] at hrest
    subst hrest
    exact ⟨[], by rw [hcut, htail]; simp [trim, trimLeft, trimRight], by simp, fun _ => rfl⟩
  | cons b tail =>
    rw [htail, List.drop_one, List.tail_cons] at hrest
    subst hrest
    have hb : isBlank b = true := by
      have hfirst := List.head?_dropWhile_not (!isBlank ·) (trim text)
      rw [htail] at hfirst
      simpa using hfirst
    obtain ⟨front, back, htrim, hfront, hback⟩ := exists_eq_append_trim tail
    -- the text does not end with a blank, so nothing but its own end follows what is left
    have hend : back = [] := by
      by_contra hne
      obtain ⟨c, hc⟩ := Option.ne_none_iff_exists'.1 (mt List.getLast?_eq_none_iff.1 hne)
      have hlast : (trim text).getLast? = some c := by
        rw [hcut, htail, htrim]
        simp [List.getLast?_append, List.getLast?_cons, hc]
      have := hback c (List.mem_of_getLast? hc)
      rw [isBlank_getLast?_trim hlast] at this
      cases this
    subst hend
    refine ⟨b :: front, ?_, ?_, by simp⟩
    · rw [List.append_nil] at htrim
      rw [hcut, htail, List.append_assoc, List.cons_append, ← htrim]
    · simpa [hb] using hfront

/-! ## Separators -/

section Separators

variable {isSeparator : Char → Bool} {c : Char} {cs : List Char}

theorem splitAt_ne_nil (isSeparator : Char → Bool) (cs : List Char) :
    splitAt isSeparator cs ≠ [] := by
  cases cs with
  | nil => exact List.cons_ne_nil _ _
  | cons c cs =>
    rw [splitAt]
    split
    · exact List.cons_ne_nil _ _
    · split <;> exact List.cons_ne_nil _ _

/-- A separator ends a part. -/
theorem splitAt_cons_of_pos (h : isSeparator c = true) :
    splitAt isSeparator (c :: cs) = [] :: splitAt isSeparator cs := by
  rw [splitAt, if_pos h]

/-- Any other character belongs to the first part. -/
theorem splitAt_cons_of_neg (h : isSeparator c = false) :
    splitAt isSeparator (c :: cs) = (splitAt isSeparator cs).modifyHead (c :: ·) := by
  rw [splitAt, if_neg (Bool.eq_false_iff.1 h)]
  split
  · rename_i hnil
    exact absurd hnil (splitAt_ne_nil isSeparator cs)
  · rename_i hcons
    rw [hcons, List.modifyHead_cons]

theorem splitAt_append_cons (h : isSeparator c = true) (front back : List Char) :
    splitAt isSeparator (front ++ c :: back) =
      splitAt isSeparator front ++ splitAt isSeparator back := by
  induction front with
  | nil => exact splitAt_cons_of_pos h
  | cons d front ih =>
    cases hd : isSeparator d with
    | true => rw [List.cons_append, splitAt_cons_of_pos hd, splitAt_cons_of_pos hd, ih,
        List.cons_append]
    | false =>
      rw [List.cons_append, splitAt_cons_of_neg hd, splitAt_cons_of_neg hd, ih]
      obtain ⟨part, parts, hparts⟩ :=
        List.exists_cons_of_ne_nil (splitAt_ne_nil isSeparator front)
      rw [hparts, List.cons_append, List.modifyHead_cons, List.modifyHead_cons, List.cons_append]

/-- A text without separators is one part. -/
theorem splitAt_of_forall (h : ∀ c ∈ cs, isSeparator c = false) :
    splitAt isSeparator cs = [cs] := by
  induction cs with
  | nil => rfl
  | cons c cs ih =>
    obtain ⟨hc, hcs⟩ := List.forall_mem_cons.1 h
    rw [splitAt_cons_of_neg hc, ih hcs, List.modifyHead_cons]

/-- Where a text has more than one part, the first of them ends at a separator. -/
theorem exists_append_of_splitAt {part : List Char} {parts : List (List Char)}
    (h : splitAt isSeparator cs = part :: parts) (hne : parts ≠ []) :
    ∃ c rest, cs = part ++ c :: rest ∧ isSeparator c = true ∧
      splitAt isSeparator rest = parts := by
  induction cs generalizing part with
  | nil =>
    obtain ⟨-, rfl⟩ := List.cons.inj h
    exact absurd rfl hne
  | cons d cs ih =>
    cases hd : isSeparator d with
    | true =>
      rw [splitAt_cons_of_pos hd] at h
      obtain ⟨rfl, hparts⟩ := List.cons.inj h
      exact ⟨d, cs, rfl, hd, hparts⟩
    | false =>
      obtain ⟨first, more, hmore⟩ :=
        List.exists_cons_of_ne_nil (splitAt_ne_nil isSeparator cs)
      rw [splitAt_cons_of_neg hd, hmore, List.modifyHead_cons] at h
      obtain ⟨rfl, rfl⟩ := List.cons.inj h
      obtain ⟨c, rest, rfl, hc, hrest⟩ := ih hmore
      exact ⟨c, rest, rfl, hc, hrest⟩

/-- No part holds a separator. -/
theorem isSeparator_of_mem_splitAt {part : List Char} (hpart : part ∈ splitAt isSeparator cs)
    (hc : c ∈ part) : isSeparator c = false := by
  induction cs generalizing part with
  | nil => rw [List.mem_singleton.1 hpart] at hc; cases hc
  | cons d cs ih =>
    cases hd : isSeparator d with
    | true =>
      rw [splitAt_cons_of_pos hd] at hpart
      obtain rfl | hpart := List.mem_cons.1 hpart
      · cases hc
      · exact ih hpart hc
    | false =>
      obtain ⟨first, parts, hparts⟩ :=
        List.exists_cons_of_ne_nil (splitAt_ne_nil isSeparator cs)
      rw [splitAt_cons_of_neg hd, hparts, List.modifyHead_cons] at hpart
      rw [hparts] at ih
      obtain rfl | hpart := List.mem_cons.1 hpart
      · obtain rfl | hc := List.mem_cons.1 hc
        · exact hd
        · exact ih List.mem_cons_self hc
      · exact ih (List.mem_cons_of_mem first hpart) hc

theorem fields_append_cons (h : isSeparator c = true) (front back : List Char) :
    fields isSeparator (front ++ c :: back) =
      fields isSeparator front ++ fields isSeparator back := by
  rw [fields, splitAt_append_cons h, List.filter_append, fields, fields]

@[simp] theorem fields_nil (isSeparator : Char → Bool) : fields isSeparator [] = [] := rfl

/-- A text without separators is one field unless it is empty. -/
theorem fields_of_forall (h : ∀ c ∈ cs, isSeparator c = false) (hne : cs ≠ []) :
    fields isSeparator cs = [cs] := by
  rw [fields, splitAt_of_forall h]
  exact List.filter_eq_self.2 (by simpa using hne)

end Separators

end Unjump.Text
