import Mathlib.Data.List.Basic
import Unjump.Text.Lines

/-!
# Texts inside a line

A text without line ends stays in one line, whatever stands around it, and the lines around it do
not depend on it (`exists_lines_append`). A text with a line feed at its end has a line for every
line feed in it (`length_lines_concat`).
-/

namespace Unjump.Text

/-- A text without the characters that lines end with. -/
structure Unbroken (text : List Char) : Prop where
  feed_notMem : '\n' ∉ text
  return_notMem : '\r' ∉ text

theorem unbroken_cons {c : Char} {text : List Char} :
    Unbroken (c :: text) ↔ (c ≠ '\n' ∧ c ≠ '\r') ∧ Unbroken text := by
  constructor
  · rintro ⟨hfeed, hreturn⟩
    rw [List.mem_cons, not_or] at hfeed hreturn
    exact ⟨⟨Ne.symm hfeed.1, Ne.symm hreturn.1⟩, hfeed.2, hreturn.2⟩
  · rintro ⟨⟨hfeed, hreturn⟩, hfeeds, hreturns⟩
    exact ⟨List.not_mem_cons_of_ne_of_not_mem (Ne.symm hfeed) hfeeds,
      List.not_mem_cons_of_ne_of_not_mem (Ne.symm hreturn) hreturns⟩

/-- A line end does not stand in an unbroken text. -/
theorem Unbroken.notMem {c : Char} {text : List Char} (h : Unbroken text)
    (hc : c = '\n' ∨ c = '\r') : c ∉ text := by
  obtain rfl | rfl := hc
  · exact h.feed_notMem
  · exact h.return_notMem

theorem unbroken_append {front back : List Char} :
    Unbroken (front ++ back) ↔ Unbroken front ∧ Unbroken back := by
  constructor
  · rintro ⟨hfeed, hreturn⟩
    rw [List.mem_append, not_or] at hfeed hreturn
    exact ⟨⟨hfeed.1, hreturn.1⟩, hfeed.2, hreturn.2⟩
  · rintro ⟨⟨hfeed, hreturn⟩, hfeeds, hreturns⟩
    exact ⟨List.not_mem_append hfeed hfeeds, List.not_mem_append hreturn hreturns⟩

instance (text : List Char) : Decidable (Unbroken text) :=
  decidable_of_iff ('\n' ∉ text ∧ '\r' ∉ text) ⟨fun h => ⟨h.1, h.2⟩, fun h => ⟨h.1, h.2⟩⟩

/-- The digits of a number do not break a line. -/
theorem unbroken_toDigits {base : Nat} (h : 1 < base) (n : Nat) :
    Unbroken (Nat.toDigits base n) := by
  have hdigit : ∀ digit : Nat, Unbroken [digit.digitChar] := fun digit =>
    ⟨by simp, by simp⟩
  induction n using Nat.strongRecOn with
  | ind n ih =>
    rw [Nat.toDigits_eq_if h]
    split
    · exact hdigit n
    · rename_i hle
      have hpos : 0 < n := by omega
      exact unbroken_append.2 ⟨ih (n / base) (Nat.div_lt_self hpos h), hdigit _⟩

/-- A character that ends no line stands in front of the first line. -/
theorem lines_cons {c : Char} {cs : List Char} (hfeed : c ≠ '\n')
    (hreturn : c = '\r' → cs.head? ≠ some '\n') :
    lines (c :: cs) = (c :: (lines cs).headD []) :: (lines cs).tail := by
  rw [lines]
  · cases lines cs <;> rfl
  · exact hfeed
  · rintro rest rfl rfl
    exact hreturn rfl rfl

/-- What is unbroken is the start of a line. -/
theorem lines_append_of_unbroken {text : List Char} (hne : text ≠ []) (h : Unbroken text)
    (back : List Char) :
    lines (text ++ back) = (text ++ (lines back).headD []) :: (lines back).tail := by
  induction text with
  | nil => exact absurd rfl hne
  | cons c text ih =>
    obtain ⟨⟨hfeed, hreturn⟩, htext⟩ := unbroken_cons.1 h
    rw [List.cons_append, lines_cons hfeed fun heq => absurd heq hreturn]
    by_cases hend : text = []
    · rw [hend]
      rfl
    · rw [ih hend htext]
      rfl

/-- A carriage return before a line feed is part of the line end. -/
theorem lines_return_feed {cs : List Char} (h : cs.head? = some '\n') :
    lines ('\r' :: cs) = lines cs := by
  obtain ⟨rest, rfl⟩ := List.head?_eq_some_iff.1 h
  rfl

/-- A text that ends with a line feed has as many lines as line feeds. -/
theorem length_lines_concat (text : List Char) :
    (lines (text ++ ['\n'])).length = text.count '\n' + 1 := by
  induction text with
  | nil => rfl
  | cons c text ih =>
    rw [List.cons_append]
    by_cases hfeed : c = '\n'
    · rw [hfeed, lines, List.length_cons, ih, List.count_cons_self]
    rw [List.count_cons_of_ne hfeed]
    by_cases hreturn : c = '\r' ∧ (text ++ ['\n']).head? = some '\n'
    · rw [hreturn.1, lines_return_feed hreturn.2, ih]
    · rw [lines_cons hfeed fun heq hhead => hreturn ⟨heq, hhead⟩, List.length_cons,
        List.length_tail, ih, Nat.add_sub_cancel]

/-- In front of an unbroken text, what comes next is no line feed unless it was one before. -/
theorem head?_append_ne_feed {front text : List Char} (hfront : front.head? ≠ some '\n')
    (hne : text ≠ []) (h : Unbroken text) (back : List Char) :
    (front ++ text ++ back).head? ≠ some '\n' := by
  cases front with
  | nil =>
    obtain ⟨c, text, rfl⟩ := List.exists_cons_of_ne_nil hne
    exact fun heq => (unbroken_cons.1 h).1.1 (Option.some.inj heq)
  | cons d front => exact hfront

/-- An unbroken text is part of one line, and nothing else depends on what text it is. -/
theorem exists_lines_append (front back : List Char) :
    ∃ before first last after, ∀ text, text ≠ [] → Unbroken text →
      lines (front ++ text ++ back) = before ++ (first ++ text ++ last) :: after := by
  induction front with
  | nil =>
    exact ⟨[], [], (lines back).headD [], (lines back).tail, fun text hne h =>
      lines_append_of_unbroken hne h back⟩
  | cons c front ih =>
    obtain ⟨before, first, last, after, hlines⟩ := ih
    by_cases hfeed : c = '\n'
    · refine ⟨[] :: before, first, last, after, fun text hne h => ?_⟩
      show lines (c :: (front ++ text ++ back)) = [] :: (before ++ (first ++ text ++ last) :: after)
      rw [← hlines text hne h, hfeed]
      rfl
    by_cases hreturn : c = '\r' ∧ front.head? = some '\n'
    · refine ⟨before, first, last, after, fun text hne h => ?_⟩
      rw [hreturn.1, ← hlines text hne h]
      refine lines_return_feed ?_
      simp [hreturn.2]
    -- the character belongs to the line that comes first
    have hcons : ∀ text, text ≠ [] → Unbroken text → lines (c :: front ++ text ++ back) =
        (c :: (lines (front ++ text ++ back)).headD []) :: (lines (front ++ text ++ back)).tail :=
      fun text hne h => lines_cons hfeed fun heq =>
        head?_append_ne_feed (fun hhead => hreturn ⟨heq, hhead⟩) hne h back
    cases before with
    | nil =>
      refine ⟨[], c :: first, last, after, fun text hne h => ?_⟩
      rw [hcons text hne h, hlines text hne h]
      rfl
    | cons line before =>
      refine ⟨(c :: line) :: before, first, last, after, fun text hne h => ?_⟩
      rw [hcons text hne h, hlines text hne h]
      rfl

end Unjump.Text
