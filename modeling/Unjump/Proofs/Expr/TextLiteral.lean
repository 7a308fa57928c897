import Mathlib.Algebra.Ring.Parity
import Unjump.Expr.Printer
import Unjump.Proofs.Java.Token
import Unjump.Proofs.Text.Lines
import Unjump.Text.Blank

/-!
# Text literals

`JavaString.read?` reads a literal whose escapes are those that are written for a text. The literal
of a text is read as this text, by this reader and by the rules of Java, and it neither ends before
its last quote nor breaks the line that it stands in (`source_text_exact`).
-/

namespace Unjump

namespace JavaString

/-! ## Reading a literal -/

/-- The character that is written as a backslash and a second character. -/
def escaped? : Char → Option Char
  | '"' => some '"'
  | '\\' => some '\\'
  | 'n' => some '\n'
  | 'r' => some '\r'
  | 't' => some '\t'
  | _ => none

/-- Reads what stands between the quotes of a literal. -/
def readBody? : List Char → Option (List Char)
  | [] => some []
  | '\\' :: e :: rest =>
    match escaped? e, readBody? rest with
    | some c, some cs => some (c :: cs)
    | _, _ => none
  | c :: rest =>
    if c ∈ ['"', '\\', '\n', '\r'] then none else (readBody? rest).map (c :: ·)

/-- Reads a literal. -/
def read? : List Char → Option (List Char)
  | '"' :: rest => (Text.dropSuffix? '"' rest).bind readBody?
  | _ => none

variable {body front rest value : List Char} {c e : Char}

theorem readBody?_escape_cons :
    readBody? ('\\' :: e :: rest) = some value ↔
      ∃ c cs, escaped? e = some c ∧ readBody? rest = some cs ∧ value = c :: cs := by
  rw [readBody?]
  split
  · rename_i c cs hc hcs
    simp [hc, hcs, eq_comm]
  · rename_i hnone
    simp only [reduceCtorEq, false_iff]
    rintro ⟨c, cs, hc, hcs, -⟩
    exact hnone c cs hc hcs

theorem readBody?_plain_cons (hc : c ≠ '\\') :
    readBody? (c :: rest) = some value ↔
      (c ≠ '"' ∧ c ≠ '\n' ∧ c ≠ '\r') ∧ ∃ cs, readBody? rest = some cs ∧ value = c :: cs := by
  rw [readBody?]
  · have hmem : c ∈ ['"', '\\', '\n', '\r'] ↔ ¬ (c ≠ '"' ∧ c ≠ '\n' ∧ c ≠ '\r') := by
      simp [hc]
      tauto
    by_cases hplain : c ≠ '"' ∧ c ≠ '\n' ∧ c ≠ '\r'
    · rw [if_neg (mt hmem.1 (not_not_intro hplain)), Option.map_eq_some_iff]
      simp [hplain, eq_comm]
    · rw [if_pos (hmem.2 hplain)]
      exact iff_of_false nofun fun h => hplain h.1
  · rintro e rest rfl
    exact absurd rfl hc

/-- An escaped character is read as itself. -/
theorem readBody?_escape_append (h : readBody? rest = some value) :
    readBody? (escape c ++ rest) = some (c :: value) := by
  rw [escape]
  split_ifs with hquote hslash hfeed hreturn htab
  · exact readBody?_escape_cons.2 ⟨c, value, by rw [hquote]; rfl, h, rfl⟩
  · exact readBody?_escape_cons.2 ⟨c, value, by rw [hslash]; rfl, h, rfl⟩
  · exact readBody?_escape_cons.2 ⟨c, value, by rw [hfeed]; rfl, h, rfl⟩
  · exact readBody?_escape_cons.2 ⟨c, value, by rw [hreturn]; rfl, h, rfl⟩
  · exact readBody?_escape_cons.2 ⟨c, value, by rw [htab]; rfl, h, rfl⟩
  · exact (readBody?_plain_cons hslash).2 ⟨⟨hquote, hfeed, hreturn⟩, value, h, rfl⟩

/-- The escaped characters of a text are read as the text. -/
theorem readBody?_flatMap_escape (value : List Char) :
    readBody? (value.flatMap escape) = some value := by
  induction value with
  | nil => rfl
  | cons c value ih => exact readBody?_escape_append ih

/-! ## What can be read -/

/-- The escapes are among those of Java, and none of them holds a line end. -/
theorem java_escaped? (h : escaped? e = some c) :
    Java.escaped? e = some c ∧ e ≠ '\n' ∧ e ≠ '\r' := by
  unfold escaped? at h
  split at h <;> first | (cases h; decide) | cases h

/-- What can be read is made of escapes and of characters that stand for themselves. -/
theorem induction_of_readBody?
    {motive : (body value : List Char) → readBody? body = some value → Prop}
    (nil : motive [] [] rfl)
    (escape : ∀ {e c body value} (hc : escaped? e = some c) (h : readBody? body = some value),
      motive body value h →
        motive ('\\' :: e :: body) (c :: value) (readBody?_escape_cons.2 ⟨c, value, hc, h, rfl⟩))
    (plain : ∀ {c body value} (hslash : c ≠ '\\') (hc : c ≠ '"' ∧ c ≠ '\n' ∧ c ≠ '\r')
      (h : readBody? body = some value), motive body value h →
        motive (c :: body) (c :: value) ((readBody?_plain_cons hslash).2 ⟨hc, value, h, rfl⟩)) :
    {body value : List Char} → (h : readBody? body = some value) → motive body value h
  | [], _, h => by
    cases h
    exact nil
  | c :: rest, _, h => by
    by_cases hslash : c = '\\'
    · subst hslash
      cases rest with
      | nil => cases h
      | cons e rest =>
        obtain ⟨c, cs, hc, hcs, rfl⟩ := readBody?_escape_cons.1 h
        exact escape hc hcs (induction_of_readBody? nil escape plain hcs)
    · obtain ⟨hplain, cs, hcs, rfl⟩ := (readBody?_plain_cons hslash).1 h
      exact plain hslash hplain hcs (induction_of_readBody? nil escape plain hcs)

/-- What is read here is read alike by the rules of Java. -/
theorem quoted_of_readBody? (h : readBody? body = some value) :
    Java.Quoted (body ++ ['"']) value := by
  induction h using induction_of_readBody? with
  | nil => exact .close
  | escape hc _ ih => exact .escape (java_escaped? hc).1 ih
  | plain hslash hplain _ ih => exact .plain ⟨hplain.1, hslash, hplain.2⟩ ih

theorem unbroken_of_readBody? (h : readBody? body = some value) : Text.Unbroken body := by
  induction h using induction_of_readBody? with
  | nil => exact ⟨List.not_mem_nil, List.not_mem_nil⟩
  | escape hc _ ih =>
    exact Text.unbroken_cons.2 ⟨by decide, Text.unbroken_cons.2 ⟨(java_escaped? hc).2, ih⟩⟩
  | plain _ hplain _ ih => exact Text.unbroken_cons.2 ⟨hplain.2, ih⟩

/-! ## Which quotes are escaped -/

/-- How many backslashes a text ends with. -/
def endSlashes (text : List Char) : Nat :=
  (text.reverse.takeWhile (· == '\\')).length

theorem endSlashes_le (text : List Char) : endSlashes text ≤ text.length := by
  have hle := (List.takeWhile_prefix (· == '\\') (l := text.reverse)).length_le
  rwa [List.length_reverse] at hle

/-- One backslash more in front counts if nothing but backslashes follows. -/
theorem endSlashes_cons (c : Char) (text : List Char) :
    endSlashes (c :: text) =
      endSlashes text + if c = '\\' ∧ endSlashes text = text.length then 1 else 0 := by
  unfold endSlashes
  rw [List.reverse_cons, List.takeWhile_append, List.length_reverse]
  by_cases hall : (text.reverse.takeWhile (· == '\\')).length = text.length
  · by_cases hslash : c = '\\' <;> simp [hall, hslash]
  · rw [if_neg hall, if_neg fun h => hall h.2, Nat.add_zero]

theorem endSlashes_cons_of_ne (h : c ≠ '\\') (text : List Char) :
    endSlashes (c :: text) = endSlashes text := by
  rw [endSlashes_cons, if_neg fun hall => h hall.1, Nat.add_zero]

/-- An escape in front keeps the parity. -/
theorem even_endSlashes_escape (e : Char) (text : List Char) :
    Even (endSlashes ('\\' :: e :: text)) ↔ Even (endSlashes text) := by
  have hle := endSlashes_le text
  rw [endSlashes_cons, endSlashes_cons, List.length_cons]
  by_cases hall : endSlashes text = text.length
  · by_cases hslash : e = '\\'
    · simp [hall, hslash, Nat.even_add_one]
    · simp [hall, hslash]
  · have hlt : endSlashes text ≠ text.length + 1 := by omega
    simp [hall, hlt]

/-- Where what can be read is cut, an escape is cut apart exactly if the backslashes in front of the
cut are odd in number. -/
theorem odd_or_even_of_readBody? (h : readBody? body = some value) {front rest : List Char}
    (hcut : body = front ++ rest) :
    Odd (endSlashes front) ∧ rest ≠ [] ∨
      Even (endSlashes front) ∧ ∃ value, readBody? rest = some value := by
  induction h using induction_of_readBody? generalizing front with
  | nil =>
    obtain ⟨rfl, rfl⟩ := List.append_eq_nil_iff.1 hcut.symm
    exact .inr ⟨.zero, [], rfl⟩
  | escape hc h ih =>
    match front, hcut with
    | [], hcut => exact .inr ⟨.zero, _, hcut ▸ readBody?_escape_cons.2 ⟨_, _, hc, h, rfl⟩⟩
    | ['\\'], hcut =>
      cases hcut
      exact .inl ⟨odd_one, List.cons_ne_nil _ _⟩
    | _ :: _ :: front, hcut =>
      cases hcut
      rw [← Nat.not_even_iff_odd, even_endSlashes_escape, Nat.not_even_iff_odd]
      exact ih rfl
  | plain hslash hc h ih =>
    match front, hcut with
    | [], hcut => exact .inr ⟨.zero, _, hcut ▸ (readBody?_plain_cons hslash).2 ⟨hc, _, h, rfl⟩⟩
    | _ :: front, hcut =>
      cases hcut
      rw [endSlashes_cons_of_ne hslash]
      exact ih rfl

/-! ## The literal of a text -/

/-- A literal of a text. -/
structure IsLiteral (literal value : List Char) : Prop where
  /-- It stands between two quotes and in one line. Of the quotes behind the first one, exactly the
  last one is not escaped. -/
  enclosed : ∃ body, literal = '"' :: (body ++ ['"']) ∧ Text.Unbroken body ∧
    Even (endSlashes body) ∧ ∀ front back, body = front ++ '"' :: back → Odd (endSlashes front)
  read?_eq : read? literal = some value
  /-- By the rules of Java, it is one token, and stands for nothing else than the text. -/
  token_iff : ∀ {α : Type} (letters : Java.Letters) (token : Java.Token α),
    Java.Spelled letters literal token ↔ token = .text value

/-- What can be read makes up a literal between quotes. -/
theorem isLiteral_of_readBody? (h : readBody? body = some value) :
    IsLiteral ('"' :: (body ++ ['"'])) value where
  enclosed := by
    refine ⟨body, rfl, unbroken_of_readBody? h, ?_, fun front back hcut => ?_⟩
    · obtain ⟨-, hrest⟩ | ⟨heven, -⟩ := odd_or_even_of_readBody? h (List.append_nil body).symm
      · exact absurd rfl hrest
      · exact heven
    · obtain ⟨hodd, -⟩ | ⟨-, _, hread⟩ := odd_or_even_of_readBody? h hcut
      · exact hodd
      · exact absurd rfl ((readBody?_plain_cons (by decide)).1 hread).1.1
  read?_eq := by
    rw [read?, Text.dropSuffix?, if_pos List.getLast?_concat, List.dropLast_concat,
      Option.bind_some, h]
  token_iff := by
    intro α letters token
    have hspelled : Java.Spelled letters ('"' :: (body ++ ['"'])) (.text value : Java.Token α) :=
      .text (quoted_of_readBody? h)
    exact ⟨fun htoken => htoken.unique hspelled, fun heq => heq ▸ hspelled⟩

end JavaString

open JavaString

/-- The escaped characters of a text make up a literal for that text. -/
theorem quoted_flatMap_escape (value : List Char) :
    Java.Quoted (value.flatMap escape ++ ['"']) value :=
  quoted_of_readBody? (readBody?_flatMap_escape value)

namespace Expr

theorem toList_source_text (value : String) : (text value).source.toList =
    '"' :: (value.toList.flatMap escape ++ ['"']) := by
  simp [source, literal]

theorem isLiteral_source_text (value : String) :
    IsLiteral (text value).source.toList value.toList :=
  toList_source_text value ▸ isLiteral_of_readBody? (readBody?_flatMap_escape value.toList)

theorem unbroken_source_text (value : String) : Text.Unbroken (text value).source.toList := by
  obtain ⟨body, heq, hbody, -⟩ := (isLiteral_source_text value).enclosed
  rw [heq]
  refine ⟨?_, ?_⟩ <;> simp [hbody.feed_notMem, hbody.return_notMem]

/-- A text is written as a literal for it and for no other text. The literal is part of one line,
and the lines around it do not depend on the text. -/
theorem source_text_exact :
    (∀ value : String, IsLiteral (text value).source.toList value.toList) ∧
      (∀ value value' : String, (text value).source = (text value').source → value = value') ∧
      ∀ front back, ∃ before first last after, ∀ value : String,
        Text.lines (front ++ (text value).source.toList ++ back) =
          before ++ (first ++ (text value).source.toList ++ last) :: after := by
  refine ⟨isLiteral_source_text, fun value value' heq => ?_, fun front back => ?_⟩
  · have hvalue := (isLiteral_source_text value).read?_eq
    rw [heq, (isLiteral_source_text value').read?_eq] at hvalue
    exact String.toList_inj.1 (Option.some.inj hvalue).symm
  · obtain ⟨before, first, last, after, hlines⟩ := Text.exists_lines_append front back
    refine ⟨before, first, last, after, fun value => hlines _ ?_ (unbroken_source_text value)⟩
    rw [toList_source_text]
    exact List.cons_ne_nil _ _

end Expr

end Unjump
