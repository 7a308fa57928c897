import Mathlib.Data.Bool.AllAny
import Mathlib.Data.List.Basic

/-!
# Tokens of Java source text

A text is split into tokens from left to right, and every token is the longest one that stands at
its place (`Tokenized`). So a text is split in one way at most (`Tokenized.unique`).

Which characters names are made of differs from one version of the character set to the next. Only
the ASCII part of it is fixed here (`Letters`).
-/

namespace Unjump.Java

/-- A piece of a text: a character, or a part that counts as one unit. -/
inductive Piece (α : Type) where
  | char (c : Char)
  | unit (a : α)

/-- A text as pieces. -/
def pieces {α : Type} (text : List Char) : List (Piece α) :=
  text.map .char

@[simp] theorem pieces_nil {α : Type} : (pieces [] : List (Piece α)) = [] := rfl

@[simp] theorem pieces_cons {α : Type} (c : Char) (text : List Char) :
    (pieces (c :: text) : List (Piece α)) = .char c :: pieces text := rfl

@[simp] theorem pieces_append {α : Type} (text text' : List Char) :
    (pieces (text ++ text') : List (Piece α)) = pieces text ++ pieces text' :=
  List.map_append

/-! ## Characters -/

/-- The ASCII characters that a name can start with. -/
def isAsciiLetter (c : Char) : Bool :=
  c.isAlpha || c == '_' || c == '$'

/-- The characters that names are made of. -/
structure Letters where
  /-- The characters that a name can start with. -/
  starts : Char → Bool
  /-- The characters that a name can go on with. -/
  continues : Char → Bool
  continues_of_starts : ∀ c, starts c = true → continues c = true
  starts_ascii : ∀ c, c.toNat < 128 → starts c = isAsciiLetter c
  /-- Control characters are left open. -/
  continues_ascii : ∀ c, 32 ≤ c.toNat → c.toNat < 127 →
    continues c = (isAsciiLetter c || c.isDigit)

/-- The letters and digits of ASCII, and no others. -/
def Letters.ascii : Letters where
  starts := isAsciiLetter
  continues c := isAsciiLetter c || c.isDigit
  continues_of_starts _ h := by rw [h, Bool.true_or]
  starts_ascii _ _ := rfl
  continues_ascii _ _ _ := rfl

/-- A character that takes no part in names. -/
def isMark (c : Char) : Bool :=
  32 ≤ c.toNat && c.toNat < 127 && !isAsciiLetter c && !c.isDigit

theorem Letters.starts_of_isMark (letters : Letters) {c : Char} (h : isMark c = true) :
    letters.starts c = false := by
  simp only [isMark, Bool.and_eq_true, decide_eq_true_eq, Bool.not_eq_true'] at h
  rw [letters.starts_ascii c (by omega), h.1.2]

theorem Letters.continues_of_isMark (letters : Letters) {c : Char} (h : isMark c = true) :
    letters.continues c = false := by
  simp only [isMark, Bool.and_eq_true, decide_eq_true_eq, Bool.not_eq_true'] at h
  rw [letters.continues_ascii c h.1.1.1 h.1.1.2, h.1.2, h.2, Bool.or_self]

/-- The digits are ASCII characters and no letters. -/
theorem isAsciiLetter_of_isDigit {c : Char} (h : c.isDigit = true) :
    (32 ≤ c.toNat ∧ c.toNat < 127) ∧ isAsciiLetter c = false := by
  simp only [Char.isDigit, ge_iff_le, Bool.and_eq_true, decide_eq_true_eq,
    UInt32.le_iff_toNat_le] at h
  have hlow : 48 ≤ c.val.toNat := h.1
  have hhigh : c.val.toNat ≤ 57 := h.2
  refine ⟨⟨by show 32 ≤ c.val.toNat; omega, by show c.val.toNat < 127; omega⟩, ?_⟩
  by_contra hletter
  have halpha : c.isAlpha =
      (decide (65 ≤ c.val ∧ c.val ≤ 90) || (97 ≤ c.val && c.val ≤ 122)) := rfl
  simp only [isAsciiLetter, halpha, Bool.not_eq_false, Bool.or_eq_true, Bool.and_eq_true,
    decide_eq_true_eq, UInt32.le_iff_toNat_le, beq_iff_eq] at hletter
  obtain ((⟨hupper, -⟩ | ⟨hlower, -⟩) | rfl) | rfl := hletter
  · have : 65 ≤ c.val.toNat := hupper
    omega
  · have : 97 ≤ c.val.toNat := hlower
    omega
  · exact absurd hhigh (by decide)
  · exact absurd hlow (by decide)

theorem Letters.starts_of_isDigit (letters : Letters) {c : Char} (h : c.isDigit = true) :
    letters.starts c = false := by
  obtain ⟨⟨-, hlt⟩, hletter⟩ := isAsciiLetter_of_isDigit h
  rw [letters.starts_ascii c (by omega), hletter]

theorem Letters.continues_of_isDigit (letters : Letters) {c : Char} (h : c.isDigit = true) :
    letters.continues c = true := by
  obtain ⟨⟨hle, hlt⟩, -⟩ := isAsciiLetter_of_isDigit h
  rw [letters.continues_ascii c hle hlt, h, Bool.or_true]

theorem isDigit_of_isMark {c : Char} (h : isMark c = true) : c.isDigit = false := by
  simp only [isMark, Bool.and_eq_true, Bool.not_eq_true'] at h
  exact h.2

/-- The characters that part tokens and are none themselves. -/
def isGap (c : Char) : Bool :=
  c == ' ' || c == '\t' || c == '\x0c' || c == '\n' || c == '\r'

/-! ## Tokens -/

/-- Separators and operators, and three more signs that no expression holds: those that start a
comment, and the one that starts a block of text. -/
def signs : List (List Char) :=
  [['('], [')'], ['\x7b'], ['\x7d'], ['['], [']'], [';'], [','], ['.'], ['.', '.', '.'], ['@'],
   [':', ':'], ['='], ['>'], ['<'], ['!'], ['~'], ['?'], [':'], ['-', '>'], ['=', '='],
   ['>', '='], ['<', '='], ['!', '='], ['&', '&'], ['|', '|'], ['+', '+'], ['-', '-'], ['+'],
   ['-'], ['*'], ['/'], ['&'], ['|'], ['^'], ['%'], ['<', '<'], ['>', '>'], ['>', '>', '>'],
   ['+', '='], ['-', '='], ['*', '='], ['/', '='], ['&', '='], ['|', '='], ['^', '='],
   ['%', '='], ['<', '<', '='], ['>', '>', '='], ['>', '>', '>', '='], ['/', '/'], ['/', '*'],
   ['"', '"', '"']]

/-- A token of a text. -/
inductive Token (α : Type) where
  /-- A name, a keyword, or one of the words `true`, `false` and `null`. -/
  | word (text : List Char)
  | number (text : List Char)
  | text (value : List Char)
  | sign (text : List Char)
  | unit (a : α)

/-- The character that is written as a letter after a backslash. -/
def escaped? : Char → Option Char
  | 'b' => some '\x08'
  | 's' => some ' '
  | 't' => some '\t'
  | 'n' => some '\n'
  | 'f' => some '\x0c'
  | 'r' => some '\r'
  | '"' => some '"'
  | '\'' => some '\''
  | '\\' => some '\\'
  | _ => none

/-- What follows the first quote of a string literal, and the text that the literal stands for. -/
inductive Quoted : List Char → List Char → Prop
  | close : Quoted ['"'] []
  | plain {c : Char} {body value : List Char} (hc : c ≠ '"' ∧ c ≠ '\\' ∧ c ≠ '\n' ∧ c ≠ '\r')
    (h : Quoted body value) : Quoted (c :: body) (c :: value)
  | escape {e c : Char} {body value : List Char} (he : escaped? e = some c)
    (h : Quoted body value) : Quoted ('\\' :: e :: body) (c :: value)

variable {α : Type} {letters : Letters}

/-- The characters are those of the token. -/
inductive Spelled (letters : Letters) : List Char → Token α → Prop
  | word {c : Char} {cs : List Char} (hc : letters.starts c = true)
    (hcs : ∀ d ∈ cs, letters.continues d = true) : Spelled letters (c :: cs) (.word (c :: cs))
  /-- Numbers of all kinds start with a digit and go on with letters, digits and dots. -/
  | number {c : Char} {cs : List Char} (hc : c.isDigit = true)
    (hcs : ∀ d ∈ cs, letters.continues d = true ∨ d = '.') :
    Spelled letters (c :: cs) (.number (c :: cs))
  | text {body value : List Char} (h : Quoted body value) :
    Spelled letters ('"' :: body) (.text value)
  | sign {text : List Char} (h : text ∈ signs) : Spelled letters text (.sign text)

/-- No more than the given characters is a token where they are followed by the rest. -/
def Longest (α : Type) (letters : Letters) (front : List Char) (rest : List (Piece α)) : Prop :=
  ∀ more after, more ≠ [] → rest = pieces more ++ after →
    ∀ token : Token α, ¬ Spelled letters (front ++ more) token

/-- A text splits into tokens, each of which is the longest one at its place. -/
inductive Tokenized (letters : Letters) : List (Piece α) → List (Token α) → Prop
  | nil : Tokenized letters [] []
  | gap {c : Char} {rest : List (Piece α)} {tokens : List (Token α)} (hc : isGap c = true)
    (h : Tokenized letters rest tokens) : Tokenized letters (.char c :: rest) tokens
  | unit (a : α) {rest : List (Piece α)} {tokens : List (Token α)}
    (h : Tokenized letters rest tokens) : Tokenized letters (.unit a :: rest) (.unit a :: tokens)
  | token {front : List Char} {rest : List (Piece α)} {token : Token α} {tokens : List (Token α)}
    (hspelled : Spelled letters front token) (hlongest : Longest α letters front rest)
    (h : Tokenized letters rest tokens) : Tokenized letters (pieces front ++ rest) (token :: tokens)

/-! ## A text is split in one way -/

/-- Signs are made of marks, and none starts with a gap. -/
theorem isMark_of_mem_signs : ∀ text ∈ signs, text ≠ [] ∧
    ∀ c ∈ text, isMark c = true ∧ isGap c = false := by
  have hall : ∀ text ∈ signs, text ≠ [] ∧ text.all (fun c => isMark c && !isGap c) = true := by
    decide
  simpa using hall

theorem starts_of_isGap {c : Char} (h : isGap c = true) : letters.starts c = false := by
  simp only [isGap, Bool.or_eq_true, beq_iff_eq] at h
  obtain (((rfl | rfl) | rfl) | rfl) | rfl := h <;> exact letters.starts_ascii _ (by decide)

/-- A token has a first character, which is no gap. -/
theorem Spelled.exists_head {front : List Char} {token : Token α}
    (h : Spelled letters front token) : ∃ c cs, front = c :: cs ∧ isGap c = false := by
  cases h with
  | @word c cs hc _ =>
    refine ⟨c, cs, rfl, ?_⟩
    by_contra hgap
    rw [starts_of_isGap (Bool.not_eq_false _ ▸ hgap)] at hc
    cases hc
  | @number c cs hc _ =>
    refine ⟨c, cs, rfl, ?_⟩
    by_contra hgap
    simp only [isGap, Bool.not_eq_false, Bool.or_eq_true, beq_iff_eq] at hgap
    obtain (((rfl | rfl) | rfl) | rfl) | rfl := hgap <;> cases hc
  | @text body _ _ => exact ⟨'"', body, rfl, rfl⟩
  | sign h =>
    obtain ⟨hne, hmarks⟩ := isMark_of_mem_signs _ h
    obtain ⟨c, cs, rfl⟩ := List.exists_cons_of_ne_nil hne
    exact ⟨c, cs, rfl, (hmarks c List.mem_cons_self).2⟩

theorem Quoted.of_quote {rest value : List Char} (h : Quoted ('"' :: rest) value) :
    rest = [] ∧ value = [] := by
  cases h with
  | close => exact ⟨rfl, rfl⟩
  | plain hc _ => exact absurd rfl hc.1

theorem Quoted.of_plain {c : Char} {rest value : List Char} (hquote : c ≠ '"') (hslash : c ≠ '\\')
    (h : Quoted (c :: rest) value) : ∃ value', value = c :: value' ∧ Quoted rest value' := by
  cases h with
  | close => exact absurd rfl hquote
  | plain _ h => exact ⟨_, rfl, h⟩
  | escape _ _ => exact absurd rfl hslash

theorem Quoted.of_escape {e : Char} {rest value : List Char}
    (h : Quoted ('\\' :: e :: rest) value) :
    ∃ c value', escaped? e = some c ∧ value = c :: value' ∧ Quoted rest value' := by
  cases h with
  | plain hc _ => exact absurd rfl hc.2.1
  | escape he h => exact ⟨_, _, he, rfl, h⟩

/-- A literal ends with the first quote that stands alone. -/
theorem Quoted.eq_of_append {body value more value' : List Char} (h : Quoted body value)
    (h' : Quoted (body ++ more) value') : more = [] ∧ value = value' := by
  induction h generalizing value' with
  | close =>
    obtain ⟨rfl, rfl⟩ := h'.of_quote
    exact ⟨rfl, rfl⟩
  | plain hc _ ih =>
    obtain ⟨_, rfl, hrest⟩ := h'.of_plain hc.1 hc.2.1
    obtain ⟨rfl, rfl⟩ := ih hrest
    exact ⟨rfl, rfl⟩
  | escape he _ ih =>
    obtain ⟨_, _, he', rfl, hrest⟩ := h'.of_escape
    obtain ⟨rfl, rfl⟩ := ih hrest
    obtain rfl := Option.some.inj (he.symm.trans he')
    exact ⟨rfl, rfl⟩

/-- A name is neither a number, nor a literal, nor a sign. -/
theorem Spelled.eq_word {c : Char} {cs : List Char} {token : Token α}
    (h : Spelled letters (c :: cs) token) (hc : letters.starts c = true) :
    (∀ d ∈ cs, letters.continues d = true) ∧ token = .word (c :: cs) := by
  cases h with
  | word _ hcs => exact ⟨hcs, rfl⟩
  | number hc' _ => rw [letters.starts_of_isDigit hc'] at hc; cases hc
  | text _ => rw [letters.starts_of_isMark rfl] at hc; cases hc
  | sign h =>
    rw [letters.starts_of_isMark ((isMark_of_mem_signs _ h).2 c List.mem_cons_self).1] at hc
    cases hc

theorem Spelled.eq_number {c : Char} {cs : List Char} {token : Token α}
    (h : Spelled letters (c :: cs) token) (hc : c.isDigit = true) :
    (∀ d ∈ cs, letters.continues d = true ∨ d = '.') ∧ token = .number (c :: cs) := by
  cases h with
  | word hc' _ => rw [letters.starts_of_isDigit hc] at hc'; cases hc'
  | number _ hcs => exact ⟨hcs, rfl⟩
  | text _ => cases hc
  | sign h =>
    rw [isDigit_of_isMark ((isMark_of_mem_signs _ h).2 c List.mem_cons_self).1] at hc
    cases hc

/-- A token that starts with a quote is a literal, or it opens a block of text. -/
theorem Spelled.eq_text {body : List Char} {token : Token α}
    (h : Spelled letters ('"' :: body) token) :
    (∃ value, Quoted body value ∧ token = .text value) ∨ body = ['"', '"'] := by
  cases h with
  | word hc _ => rw [letters.starts_of_isMark rfl] at hc; cases hc
  | number hc _ => cases hc
  | text h => exact .inl ⟨_, h, rfl⟩
  | sign h => exact .inr (by simpa [signs] using h)

/-- A token that starts with another mark is a sign. -/
theorem Spelled.eq_sign {c : Char} {cs : List Char} {token : Token α}
    (h : Spelled letters (c :: cs) token) (hc : isMark c = true) (hquote : c ≠ '"') :
    c :: cs ∈ signs ∧ token = .sign (c :: cs) := by
  cases h with
  | word hc' _ => rw [letters.starts_of_isMark hc] at hc'; cases hc'
  | number hc' _ => rw [isDigit_of_isMark hc] at hc'; cases hc'
  | text _ => exact absurd rfl hquote
  | sign h => exact ⟨h, rfl⟩

/-- The block of text is opened by no literal. -/
theorem Quoted.not_quotes {value : List Char} : ¬ Quoted ['"', '"'] value := by
  intro h
  cases h.of_quote.1

/-- The characters of a token say which token it is. -/
theorem Spelled.unique {front : List Char} {token token' : Token α}
    (h : Spelled letters front token) (h' : Spelled letters front token') : token = token' := by
  cases h with
  | word hc _ => exact (h'.eq_word hc).2.symm
  | number hc _ => exact (h'.eq_number hc).2.symm
  | @text body _ h =>
    obtain ⟨value, hvalue, rfl⟩ | rfl := h'.eq_text
    · rw [← List.append_nil body] at hvalue
      rw [(h.eq_of_append hvalue).2]
    · exact absurd h Quoted.not_quotes
  | sign h =>
    obtain ⟨hne, hmarks⟩ := isMark_of_mem_signs _ h
    obtain ⟨c, cs, rfl⟩ := List.exists_cons_of_ne_nil hne
    by_cases hquote : c = '"'
    · subst hquote
      obtain ⟨value, hvalue, rfl⟩ | rfl := h'.eq_text
      · obtain rfl : cs = ['"', '"'] := by simpa [signs] using h
        exact absurd hvalue Quoted.not_quotes
      · cases h' with
        | word hc _ => rw [letters.starts_of_isMark rfl] at hc; cases hc
        | number hc _ => cases hc
        | text h => exact absurd h Quoted.not_quotes
        | sign _ => rfl
    · exact (h'.eq_sign (hmarks c List.mem_cons_self).1 hquote).2.symm

/-- The ways in which a text can be split. -/
theorem Tokenized.inversion {text : List (Piece α)} {tokens : List (Token α)}
    (h : Tokenized letters text tokens) :
    (text = [] ∧ tokens = []) ∨
    (∃ c rest, isGap c = true ∧ text = .char c :: rest ∧ Tokenized letters rest tokens) ∨
    (∃ a rest later, text = .unit a :: rest ∧ tokens = .unit a :: later ∧
      Tokenized letters rest later) ∨
    ∃ front rest token later, text = pieces front ++ rest ∧ tokens = token :: later ∧
      Spelled letters front token ∧ Longest α letters front rest ∧
      Tokenized letters rest later := by
  cases h with
  | nil => exact .inl ⟨rfl, rfl⟩
  | gap hc h => exact .inr (.inl ⟨_, _, hc, rfl, h⟩)
  | unit a h => exact .inr (.inr (.inl ⟨a, _, _, rfl, rfl, h⟩))
  | token hspelled hlongest h =>
    exact .inr (.inr (.inr ⟨_, _, _, _, rfl, rfl, hspelled, hlongest, h⟩))

/-- Of two tokens at one place, each of which is the longest, both are the same. -/
theorem Spelled.eq_of_longest {front front' : List Char} {rest rest' : List (Piece α)}
    {token token' : Token α} (h : Spelled letters front token) (h' : Spelled letters front' token')
    (hlongest : Longest α letters front rest) (hlongest' : Longest α letters front' rest')
    (heq : (pieces front ++ rest : List (Piece α)) = pieces front' ++ rest') :
    token = token' ∧ rest = rest' := by
  -- one of the two starts with the other, which is not the longest if there is more of it
  obtain ⟨_, hfront, hrest⟩ | ⟨_, hfront, hrest⟩ := List.append_eq_append_iff.1 heq
  · obtain ⟨same, more, rfl, hsame, rfl⟩ := List.map_eq_append_iff.1 hfront
    obtain rfl : same = front := List.map_injective_iff.2 (fun _ _ => Piece.char.inj) hsame
    by_cases hmore : more = []
    · subst hmore
      rw [List.append_nil] at h'
      exact ⟨h.unique h', hrest⟩
    · exact absurd h' (hlongest more rest' hmore hrest token')
  · obtain ⟨same, more, rfl, hsame, rfl⟩ := List.map_eq_append_iff.1 hfront
    obtain rfl : same = front' := List.map_injective_iff.2 (fun _ _ => Piece.char.inj) hsame
    by_cases hmore : more = []
    · subst hmore
      rw [List.append_nil] at h
      exact ⟨h.unique h', hrest.symm⟩
    · exact absurd h (hlongest' more rest hmore hrest token)

/-- The first token of a text is the longest one that stands there. -/
theorem Tokenized.eq_cons {front : List Char} {rest : List (Piece α)} {token : Token α}
    {tokens : List (Token α)} (h : Tokenized letters (pieces front ++ rest) tokens)
    (hspelled : Spelled letters front token) (hlongest : Longest α letters front rest) :
    ∃ later, tokens = token :: later ∧ Tokenized letters rest later := by
  obtain ⟨c, cs, rfl, hgap⟩ := hspelled.exists_head
  obtain ⟨heq, -⟩ | ⟨_, _, hc, heq, -⟩ | ⟨_, _, _, heq, -⟩ |
    ⟨front', _, _, later, heq, rfl, hspelled', hlongest', h'⟩ := h.inversion
  · cases heq
  · cases heq
    rw [hc] at hgap
    cases hgap
  · cases heq
  · obtain ⟨rfl, rfl⟩ := hspelled.eq_of_longest hspelled' hlongest hlongest' heq
    exact ⟨later, rfl, h'⟩

/-- A text is split into tokens in one way at most. -/
theorem Tokenized.unique {text : List (Piece α)} {tokens tokens' : List (Token α)}
    (h : Tokenized letters text tokens) (h' : Tokenized letters text tokens') :
    tokens = tokens' := by
  induction h generalizing tokens' with
  | nil =>
    obtain ⟨-, rfl⟩ | ⟨_, _, _, heq, _⟩ | ⟨_, _, _, heq, _⟩ |
      ⟨front, _, _, _, heq, -, hspelled, -⟩ := h'.inversion
    · rfl
    · cases heq
    · cases heq
    · obtain ⟨c, cs, rfl, -⟩ := hspelled.exists_head
      cases heq
  | gap hc _ ih =>
    obtain ⟨heq, -⟩ | ⟨_, _, _, heq, h'⟩ | ⟨_, _, _, heq, _⟩ |
      ⟨front, _, _, _, heq, -, hspelled, -⟩ := h'.inversion
    · cases heq
    · cases heq
      exact ih h'
    · cases heq
    · obtain ⟨c, cs, rfl, hgap⟩ := hspelled.exists_head
      cases heq
      rw [hc] at hgap
      cases hgap
  | unit a _ ih =>
    obtain ⟨heq, -⟩ | ⟨_, _, _, heq, -⟩ | ⟨_, _, later, heq, rfl, h'⟩ |
      ⟨front, _, _, _, heq, -, hspelled, -⟩ := h'.inversion
    · cases heq
    · cases heq
    · cases heq
      rw [ih h']
    · obtain ⟨c, cs, rfl, -⟩ := hspelled.exists_head
      cases heq
  | token hspelled hlongest _ ih =>
    obtain ⟨later, rfl, hlater⟩ := h'.eq_cons hspelled hlongest
    rw [ih hlater]

/-! ## What may follow a token -/

variable {rest : List (Piece α)} {tokens : List (Token α)}

/-- A token is the longest one if it stays none together with the character that comes next,
whatever follows that. -/
theorem longest_of_next {front : List Char}
    (h : ∀ d cs, rest.head? = some (.char d) →
      ∀ token : Token α, ¬ Spelled letters (front ++ d :: cs) token) :
    Longest α letters front rest := by
  intro more after hmore hrest
  obtain ⟨d, cs, rfl⟩ := List.exists_cons_of_ne_nil hmore
  exact h d cs (by rw [hrest]; rfl)

/-- A name ends where no letter follows. -/
theorem Tokenized.word {c : Char} {cs : List Char} (hc : letters.starts c = true)
    (hcs : ∀ d ∈ cs, letters.continues d = true)
    (hnext : ∀ d, rest.head? = some (.char d) → letters.continues d = false)
    (h : Tokenized letters rest tokens) :
    Tokenized letters (pieces (c :: cs) ++ rest) (.word (c :: cs) :: tokens) := by
  refine .token (.word hc hcs) (longest_of_next fun d _ hd token hspelled => ?_) h
  have hcontinues := (hspelled.eq_word hc).1 d (by simp)
  rw [hnext d hd] at hcontinues
  cases hcontinues

/-- A number ends where neither a letter nor a dot follows. -/
theorem Tokenized.number {c : Char} {cs : List Char} (hc : c.isDigit = true)
    (hcs : ∀ d ∈ cs, letters.continues d = true ∨ d = '.')
    (hnext : ∀ d, rest.head? = some (.char d) → letters.continues d = false ∧ d ≠ '.')
    (h : Tokenized letters rest tokens) :
    Tokenized letters (pieces (c :: cs) ++ rest) (.number (c :: cs) :: tokens) := by
  refine .token (.number hc hcs) (longest_of_next fun d _ hd token hspelled => ?_) h
  obtain ⟨hcontinues, hdot⟩ := hnext d hd
  obtain hcontinues' | rfl := (hspelled.eq_number hc).1 d (by simp)
  · rw [hcontinues] at hcontinues'
    cases hcontinues'
  · exact hdot rfl

/-- A literal ends with its quote, unless it is empty and a third quote follows. -/
theorem Tokenized.text {body value : List Char} (hquoted : Quoted body value)
    (hnext : rest.head? ≠ some (.char '"')) (h : Tokenized letters rest tokens) :
    Tokenized letters (pieces ('"' :: body) ++ rest) (.text value :: tokens) := by
  refine .token (.text hquoted) (longest_of_next fun d cs hd token hspelled => ?_) h
  rw [List.cons_append] at hspelled
  obtain ⟨_, hvalue, -⟩ | hblock := hspelled.eq_text
  · cases (hquoted.eq_of_append hvalue).1
  · cases hquoted with
    | close =>
      cases hblock
      exact hnext hd
    | plain hc _ => exact hc.1 (List.cons.inj hblock).1
    | escape _ _ => exact absurd (List.cons.inj hblock).1 (by decide)

/-- A sign ends where no longer sign goes on. -/
theorem Tokenized.sign {text : List Char} (hmem : text ∈ signs) (hquote : text.head? ≠ some '"')
    (hnext : ∀ d, rest.head? = some (.char d) → ∀ longer ∈ signs, ¬ text ++ [d] <+: longer)
    (h : Tokenized letters rest tokens) :
    Tokenized letters (pieces text ++ rest) (.sign text :: tokens) := by
  refine .token (.sign hmem) (longest_of_next fun d cs hd token hspelled => ?_) h
  obtain ⟨hne, hmarks⟩ := isMark_of_mem_signs _ hmem
  obtain ⟨c, tail, rfl⟩ := List.exists_cons_of_ne_nil hne
  rw [List.cons_append] at hspelled
  obtain ⟨hlonger, -⟩ := hspelled.eq_sign
    (hmarks c List.mem_cons_self).1 fun heq => hquote (congrArg some heq)
  exact hnext d hd _ hlonger ⟨cs, by simp⟩

/-- A sign ends where a gap follows. -/
theorem Tokenized.sign_gap {text : List Char} (hmem : text ∈ signs)
    (hquote : text.head? ≠ some '"') {c : Char} (hc : isGap c = true)
    (h : Tokenized letters rest tokens) :
    Tokenized letters (pieces text ++ .char c :: rest) (.sign text :: tokens) := by
  refine .sign hmem hquote (fun d hd longer hlonger hle => ?_) (.gap hc h)
  obtain rfl : c = d := Piece.char.inj (Option.some.inj hd)
  have hgap := ((isMark_of_mem_signs _ hlonger).2 c (hle.subset (by simp))).2
  rw [hc] at hgap
  cases hgap

/-- The brackets of expressions. -/
def brackets : List Char := ['(', ')', '[', ']']

/-- No longer sign starts with a bracket. -/
theorem Tokenized.bracket {c : Char} (hc : c ∈ brackets) (h : Tokenized letters rest tokens) :
    Tokenized letters (.char c :: rest) (.sign [c] :: tokens) := by
  have halone : ∀ c ∈ brackets, [c] ∈ signs ∧ c ≠ '"' ∧
      ∀ longer ∈ signs, longer.head? = some c → longer.length = 1 :=
    List.all_iff_forall_prop.1 (by decide)
  obtain ⟨hmem, hquote, halone⟩ := halone c hc
  show Tokenized letters (pieces [c] ++ rest) _
  refine .sign hmem (by simpa using hquote) (fun d _ longer hlonger hle => ?_) h
  obtain ⟨after, rfl⟩ := hle
  have := halone _ hlonger rfl
  simp at this

end Unjump.Java
