import Unjump.Proofs.Java.Grammar

/-!
# Writing expressions

`Writes letters text level tree` says that a text is an expression of the level wherever the text
goes on with a space, a bracket or not at all. Expressions that are written so can be put together
with signs and brackets (`Writes.unary`, `Writes.binary`, `Writes.index`, `Writes.paren`), and an
expression that is written so is read as its tree and as no other (`Writes.reads_iff`).
-/

namespace Unjump.Java

variable {α : Type} {letters : Letters}

/-- The text goes on with a space, a bracket or not at all. -/
def Delimited (rest : List (Piece α)) : Prop :=
  ∀ d, rest.head? = some (.char d) → d ∈ [' ', ')', '[', ']']

theorem Delimited.nil : Delimited ([] : List (Piece α)) := nofun

theorem Delimited.cons {c : Char} (hc : c ∈ [' ', ')', '[', ']']) (rest : List (Piece α)) :
    Delimited (.char c :: rest) := by
  intro d hd
  obtain rfl : c = d := Piece.char.inj (Option.some.inj hd)
  exact hc

theorem Delimited.isMark {rest : List (Piece α)} (h : Delimited rest) {d : Char}
    (hd : rest.head? = some (.char d)) : isMark d = true ∧ d ≠ '.' ∧ d ≠ '"' := by
  have hall : ∀ d ∈ [' ', ')', '[', ']'], Java.isMark d = true ∧ d ≠ '.' ∧ d ≠ '"' :=
    List.all_iff_forall_prop.1 (by decide)
  exact hall d (h d hd)

/-- In front of a delimiter, the text splits into the tokens of an expression of the level that is
built as the tree. -/
def Writes (letters : Letters) (text : List (Piece α)) (level : Nat) (tree : ExprTree α) : Prop :=
  ∃ tokens, Derives level tokens tree ∧ ∀ rest later, Delimited rest →
    Tokenized letters rest later → Tokenized letters (text ++ rest) (tokens ++ later)

/-- What is written is read as its tree only. -/
theorem Writes.reads_iff {text : List (Piece α)} {level : Nat} {tree : ExprTree α}
    (h : Writes letters text level tree) (tree' : ExprTree α) :
    Reads letters text tree' ↔ tree' = tree := by
  obtain ⟨tokens, hderives, htokens⟩ := h
  have hreads : Reads letters text tree := by
    refine ⟨tokens, ?_, .looser (Nat.zero_le _) hderives⟩
    simpa using htokens [] [] .nil .nil
  exact ⟨fun h' => h'.unique hreads, fun heq => heq ▸ hreads⟩

theorem Writes.looser {text : List (Piece α)} {level level' : Nat} {tree : ExprTree α}
    (hle : level ≤ level') (h : Writes letters text level' tree) :
    Writes letters text level tree := by
  obtain ⟨tokens, hderives, htokens⟩ := h
  exact ⟨tokens, .looser hle hderives, htokens⟩

/-! ## Words, numbers and literals -/

/-- The text is a name, a keyword, or one of the words that are literals. -/
def Letters.IsWord (letters : Letters) : List Char → Prop
  | [] => False
  | c :: cs => letters.starts c = true ∧ cs.all letters.continues = true

/-- The text can name a variable. -/
def Letters.IsName (letters : Letters) (text : List Char) : Prop :=
  letters.IsWord text ∧ text ∉ reserved

instance (letters : Letters) : (text : List Char) → Decidable (letters.IsWord text)
  | [] => .isFalse id
  | _ :: _ => instDecidableAnd

instance (letters : Letters) (text : List Char) : Decidable (letters.IsName text) :=
  instDecidableAnd

/-- ASCII letters make words whatever the character set. -/
theorem Letters.isWord_of_ascii (letters : Letters) {c : Char} {cs : List Char}
    (h : (c :: cs).all fun d => isAsciiLetter d ∧ 32 ≤ d.toNat ∧ d.toNat < 127) :
    letters.IsWord (c :: cs) := by
  rw [List.all_iff_forall_prop] at h
  refine ⟨?_, List.all_eq_true.2 fun d hd => ?_⟩
  · obtain ⟨hletter, -, hlt⟩ := h c List.mem_cons_self
    rw [letters.starts_ascii c (by omega), hletter]
  · obtain ⟨hletter, hle, hlt⟩ := h d (List.mem_cons_of_mem c hd)
    rw [letters.continues_ascii d hle hlt, hletter, Bool.true_or]

theorem Writes.word {text : List Char} {tree : ExprTree α} (hword : letters.IsWord text)
    (hderives : Derives primaryLevel [.word text] tree) :
    Writes letters (pieces text) primaryLevel tree := by
  refine ⟨[.word text], hderives, fun rest later hrest hlater => ?_⟩
  cases text with
  | nil => exact hword.elim
  | cons c cs =>
    exact hlater.word hword.1 (List.all_eq_true.1 hword.2) fun d hd =>
      letters.continues_of_isMark (hrest.isMark hd).1

theorem Writes.null : Writes letters (pieces "null".toList) primaryLevel (.null : ExprTree α) :=
  .word (letters.isWord_of_ascii (by decide)) .null

theorem Writes.truth (b : Bool) :
    Writes letters (pieces (truthWord b)) primaryLevel (.truth b : ExprTree α) := by
  refine .word ?_ (.truth b)
  cases b with
  | false => exact letters.isWord_of_ascii (by decide)
  | true => exact letters.isWord_of_ascii (by decide)

theorem Writes.name {text : List Char} (h : letters.IsName text) :
    Writes letters (pieces text) primaryLevel (.name text : ExprTree α) :=
  .word h.1 (.name h.2)

/-- The digits of a number are one token. -/
theorem Tokenized.toDigits (n : Nat) {rest : List (Piece α)} {later : List (Token α)}
    (hrest : Delimited rest) (hlater : Tokenized letters rest later) :
    Tokenized letters (pieces (Nat.toDigits 10 n) ++ rest)
      (.number (Nat.toDigits 10 n) :: later) := by
  have hdigits : ∀ d ∈ Nat.toDigits 10 n, d.isDigit = true := fun d hd =>
    Nat.isDigit_of_mem_toDigits (by decide) (by decide) hd
  obtain ⟨c, cs, heq⟩ := List.exists_cons_of_ne_nil (@Nat.toDigits_ne_nil n 10)
  rw [heq] at hdigits ⊢
  refine hlater.number (hdigits c List.mem_cons_self) (fun d hd => .inl ?_) fun d hd => ?_
  · exact letters.continues_of_isDigit (hdigits d (List.mem_cons_of_mem c hd))
  · obtain ⟨hmark, hdot, -⟩ := hrest.isMark hd
    exact ⟨letters.continues_of_isMark hmark, hdot⟩

theorem Writes.number {n : Nat} (hn : n < 2147483648) :
    Writes letters (pieces (Nat.toDigits 10 n)) primaryLevel (.number n : ExprTree α) :=
  ⟨[.number (Nat.toDigits 10 n)], .number hn, fun _ _ hrest hlater => .toDigits n hrest hlater⟩

theorem Writes.text {body value : List Char} (h : Quoted body value) :
    Writes letters (pieces ('"' :: body)) primaryLevel (.text value : ExprTree α) := by
  refine ⟨[.text value], .text value, fun rest later hrest hlater => hlater.text h ?_⟩
  exact fun hquote => (hrest.isMark hquote).2.2 rfl

theorem Writes.unit (a : α) : Writes letters [.unit a] primaryLevel (.unit a) :=
  ⟨[.unit a], .unit a, fun _ _ _ hlater => .unit a hlater⟩

/-! ## Signs and brackets -/

/-- The text starts with nothing that would make a longer sign of the one in front of it. -/
def Apart (sign : UnarySign) (text : List (Piece α)) : Prop :=
  text ≠ [] ∧ ∀ d, text.head? = some (.char d) → ∀ longer ∈ signs, ¬ sign.text ++ [d] <+: longer

theorem Tokenized.unarySign (sign : UnarySign) {text : List (Piece α)} {tokens : List (Token α)}
    (hapart : Apart sign text) (h : Tokenized letters text tokens) :
    Tokenized letters (pieces sign.text ++ text) (.sign sign.text :: tokens) := by
  refine h.sign ?_ ?_ hapart.2
  · cases sign <;> decide
  · cases sign <;> decide

theorem Apart.cons {sign : UnarySign} {c : Char}
    (hc : ∀ longer ∈ signs, ¬ sign.text ++ [c] <+: longer) (text : List (Piece α)) :
    Apart sign (.char c :: text) := by
  refine ⟨nofun, fun d hd => ?_⟩
  obtain rfl : c = d := Piece.char.inj (Option.some.inj hd)
  exact hc

theorem Apart.paren (sign : UnarySign) (text : List (Piece α)) :
    Apart sign (.char '(' :: text) := by
  cases sign <;> exact .cons (by decide) text

/-- A minus sign is part of three longer signs. -/
theorem Apart.minus {c : Char} (hc : c ∉ ['-', '=', '>']) (text : List (Piece α)) :
    Apart .minus (.char c :: text) := by
  have hall : ∀ longer ∈ signs, longer.head? = some '-' →
      longer.tail.all (· ∈ ['-', '=', '>']) = true := by decide
  refine .cons (fun longer hlonger hle => hc ?_) text
  obtain ⟨after, rfl⟩ := hle
  have htail := hall _ hlonger rfl
  rw [List.all_iff_forall_prop] at htail
  exact htail c (by simp [UnarySign.text])

theorem Apart.toDigits (n : Nat) : Apart .minus (pieces (Nat.toDigits 10 n) : List (Piece α)) := by
  obtain ⟨c, cs, heq⟩ := List.exists_cons_of_ne_nil (@Nat.toDigits_ne_nil n 10)
  have hdigit : c.isDigit = true :=
    Nat.isDigit_of_mem_toDigits (by decide) (by decide) (heq ▸ List.mem_cons_self)
  rw [heq]
  refine .minus (fun hmem => ?_) _
  have hall : ∀ d ∈ ['-', '=', '>'], d.isDigit = false := List.all_iff_forall_prop.1 (by decide)
  rw [hall c hmem] at hdigit
  cases hdigit

theorem Apart.isName {text : List Char} (h : letters.IsName text) :
    Apart .minus (pieces text : List (Piece α)) := by
  cases text with
  | nil => exact h.1.elim
  | cons c cs =>
    refine .minus (fun hmem => ?_) _
    have hall : ∀ d ∈ ['-', '=', '>'], isMark d = true := List.all_iff_forall_prop.1 (by decide)
    have hstarts := h.1.1
    rw [letters.starts_of_isMark (hall c hmem)] at hstarts
    cases hstarts

theorem Apart.append {sign : UnarySign} {text : List (Piece α)} (h : Apart sign text)
    (rest : List (Piece α)) : Apart sign (text ++ rest) := by
  obtain ⟨c, cs, rfl⟩ := List.exists_cons_of_ne_nil h.1
  exact ⟨nofun, h.2⟩

theorem Writes.unary (sign : UnarySign) {text : List (Piece α)} {tree : ExprTree α}
    (h : Writes letters text unaryLevel tree) (hapart : Apart sign text) :
    Writes letters (pieces sign.text ++ text) unaryLevel (.unary sign tree) := by
  obtain ⟨tokens, hderives, htokens⟩ := h
  refine ⟨.sign sign.text :: tokens, .unary sign hderives, fun rest later hrest hlater => ?_⟩
  rw [List.append_assoc]
  exact .unarySign sign (hapart.append rest) (htokens rest later hrest hlater)

theorem Tokenized.minus_toDigits (n : Nat) {rest : List (Piece α)} {later : List (Token α)}
    (hrest : Delimited rest) (hlater : Tokenized letters rest later) :
    Tokenized letters (pieces ('-' :: Nat.toDigits 10 n) ++ rest)
      (.sign UnarySign.minus.text :: .number (Nat.toDigits 10 n) :: later) :=
  .unarySign .minus ((Apart.toDigits n).append rest) (.toDigits n hrest hlater)

/-- A minus sign and a number make a constant, also the least one. -/
theorem Writes.minus_toDigits {n : Nat} (hn : n ≤ 2147483648) :
    Writes letters (pieces ('-' :: Nat.toDigits 10 n)) unaryLevel
      (.unary .minus (.number n) : ExprTree α) := by
  obtain hlt | rfl := Nat.lt_or_eq_of_le hn
  · exact .unary .minus (.looser (Nat.le_of_lt unaryLevel_lt_primaryLevel) (.number hlt))
      (.toDigits n)
  · exact ⟨_, .least, fun _ _ hrest hlater => .minus_toDigits 2147483648 hrest hlater⟩

/-- The text between parentheses, if they are needed. -/
def enclose (needed : Bool) (text : List (Piece α)) : List (Piece α) :=
  if needed then .char '(' :: text ++ [.char ')'] else text

theorem Apart.enclose {sign : UnarySign} {text : List (Piece α)} (needed : Bool)
    (h : needed = false → Apart sign text) : Apart sign (Java.enclose needed text) := by
  cases needed with
  | false => exact h rfl
  | true => exact .paren sign _

/-- Two minus signs in a row are one sign, with which no expression starts. -/
theorem not_reads_of_minus_minus (rest : List (Piece α)) (tree : ExprTree α) :
    ¬ Reads letters (.char '-' :: .char '-' :: rest) tree := by
  rintro ⟨tokens, htokens, hderives⟩
  have halone : ∀ longer ∈ signs, ['-', '-'] <+: longer → longer.length = 2 := by decide
  have hlongest : Longest α letters ['-', '-'] rest := by
    refine longest_of_next fun d cs _ token hspelled => ?_
    rw [List.cons_append, List.singleton_append] at hspelled
    obtain ⟨hmem, -⟩ := hspelled.eq_sign (by decide) (by decide)
    cases halone _ hmem ⟨d :: cs, rfl⟩
  replace htokens : Tokenized letters (pieces ['-', '-'] ++ rest) tokens := htokens
  obtain ⟨later, rfl, -⟩ := htokens.eq_cons (.sign (by decide)) hlongest
  cases hderives.read?_eq

theorem Writes.paren {text : List (Piece α)} {level : Nat} {tree : ExprTree α}
    (h : Writes letters text level tree) :
    Writes letters (.char '(' :: text ++ [.char ')']) primaryLevel tree := by
  obtain ⟨tokens, hderives, htokens⟩ := h
  refine ⟨_, .paren (.looser (Nat.zero_le _) hderives), fun rest later _ hlater => ?_⟩
  rw [List.append_assoc, List.append_assoc]
  exact .bracket (by decide) (htokens _ _ (.cons (by decide) rest) (.bracket (by decide) hlater))

/-- What stands in parentheses is an operand of any level; without them, the level has to do. -/
theorem Writes.enclose {text : List (Piece α)} {level level' : Nat} {tree : ExprTree α}
    (h : Writes letters text level tree) (needed : Bool) (hle : level' ≤ primaryLevel)
    (hlevel : needed = false → level' ≤ level) :
    Writes letters (Java.enclose needed text) level' tree := by
  cases needed with
  | false => exact .looser (hlevel rfl) h
  | true => exact .looser hle h.paren

theorem Writes.index {array index : List (Piece α)} {level : Nat} {arrayTree indexTree : ExprTree α}
    (harray : Writes letters array primaryLevel arrayTree)
    (hindex : Writes letters index level indexTree) :
    Writes letters (array ++ .char '[' :: index ++ [.char ']']) primaryLevel
      (.index arrayTree indexTree) := by
  obtain ⟨arrayTokens, harrayDerives, harrayTokens⟩ := harray
  obtain ⟨indexTokens, hindexDerives, hindexTokens⟩ := hindex
  refine ⟨_, .index harrayDerives (.looser (Nat.zero_le _) hindexDerives),
    fun rest later _ hlater => ?_⟩
  simp only [List.append_assoc, List.cons_append, List.nil_append]
  refine harrayTokens _ _ (.cons (by decide) _) (.bracket (by decide) ?_)
  exact hindexTokens _ _ (.cons (by decide) rest) (.bracket (by decide) hlater)

theorem Writes.binary (sign : BinarySign) {left right : List (Piece α)}
    {leftTree rightTree : ExprTree α} (hleft : Writes letters left sign.level leftTree)
    (hright : Writes letters right (sign.level + 1) rightTree) :
    Writes letters (left ++ .char ' ' :: (pieces sign.text ++ .char ' ' :: right)) sign.level
      (.binary sign leftTree rightTree) := by
  obtain ⟨leftTokens, hleftDerives, hleftTokens⟩ := hleft
  obtain ⟨rightTokens, hrightDerives, hrightTokens⟩ := hright
  refine ⟨_, .binary sign hleftDerives hrightDerives, fun rest later hrest hlater => ?_⟩
  simp only [List.append_assoc, List.cons_append]
  refine hleftTokens _ _ (.cons (by decide) _) (.gap (by decide) ?_)
  refine .sign_gap ?_ ?_ (by decide) (hrightTokens rest later hrest hlater)
  · cases sign <;> decide
  · cases sign <;> decide

end Unjump.Java
