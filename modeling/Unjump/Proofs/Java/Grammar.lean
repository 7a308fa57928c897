import Unjump.Proofs.Java.Token

/-!
# Expressions of Java

`Derives level tokens tree` says that tokens are an expression that is built as the tree, and that
its parts hold together at least as tightly as the level. Unary signs bind tighter than binary ones,
which bind to the left, and an index belongs to the primary expression in front of it.

The grammar is unambiguous (`Derives.unique`): a machine that keeps what it has begun on a stack
reads every expression as the tree that derives it (`Derives.read?_eq`).
-/

namespace Unjump.Java

/-! ## Signs and words -/

/-- The sign in front of an operand. -/
inductive UnarySign where
  | minus
  | bang
  deriving DecidableEq

/-- The characters of the sign. -/
def UnarySign.text : UnarySign → List Char
  | .minus => ['-']
  | .bang => ['!']

/-- The sign with the given characters. -/
def UnarySign.ofText? (text : List Char) : Option UnarySign :=
  [.minus, .bang].find? (·.text = text)

@[simp] theorem UnarySign.ofText?_text (sign : UnarySign) : ofText? sign.text = some sign := by
  cases sign <;> rfl

/-- The sign between two operands. -/
inductive BinarySign where
  | or
  | and
  | bitOr
  | bitXor
  | bitAnd
  | shl
  | shr
  | add
  | sub
  | mul
  | div
  | rem
  deriving DecidableEq

namespace BinarySign

/-- The characters of the sign. -/
def text : BinarySign → List Char
  | .or => ['|', '|']
  | .and => ['&', '&']
  | .bitOr => ['|']
  | .bitXor => ['^']
  | .bitAnd => ['&']
  | .shl => ['<', '<']
  | .shr => ['>', '>']
  | .add => ['+']
  | .sub => ['-']
  | .mul => ['*']
  | .div => ['/']
  | .rem => ['%']

/-- How tightly the sign binds its operands. -/
def level : BinarySign → Nat
  | .or => 0
  | .and => 1
  | .bitOr => 2
  | .bitXor => 3
  | .bitAnd => 4
  | .shl | .shr => 5
  | .add | .sub => 6
  | .mul | .div | .rem => 7

/-- The sign with the given characters. -/
def ofText? (text : List Char) : Option BinarySign :=
  [.or, .and, .bitOr, .bitXor, .bitAnd, .shl, .shr, .add, .sub, .mul, .div, .rem].find?
    (·.text = text)

@[simp] theorem ofText?_text (sign : BinarySign) : ofText? sign.text = some sign := by
  cases sign <;> rfl

end BinarySign

/-- How tightly the unary signs bind their operands. -/
def unaryLevel : Nat := 8

/-- The level of names, literals, indexed arrays and expressions in parentheses. -/
def primaryLevel : Nat := 9

theorem unaryLevel_lt_primaryLevel : unaryLevel < primaryLevel := by decide

theorem BinarySign.level_lt_unaryLevel (sign : BinarySign) : sign.level < unaryLevel := by
  cases sign <;> decide

/-- The keywords, and the words that are literals. -/
def reserved : List (List Char) :=
  ["abstract", "assert", "boolean", "break", "byte", "case", "catch", "char", "class", "const",
    "continue", "default", "do", "double", "else", "enum", "extends", "final", "finally", "float",
    "for", "goto", "if", "implements", "import", "instanceof", "int", "interface", "long", "native",
    "new", "package", "private", "protected", "public", "return", "short", "static", "strictfp",
    "super", "switch", "synchronized", "this", "throw", "throws", "transient", "try", "void",
    "volatile", "while", "_", "true", "false", "null"].map String.toList

/-- The word for a truth value. -/
def truthWord : Bool → List Char
  | true => "true".toList
  | false => "false".toList

/-! ## The grammar -/

/-- How an expression is built. Parentheses leave no trace. -/
inductive ExprTree (α : Type) where
  | number (value : Nat)
  | text (value : List Char)
  | null
  | truth (value : Bool)
  | name (text : List Char)
  | unit (a : α)
  | index (array index : ExprTree α)
  | unary (sign : UnarySign) (operand : ExprTree α)
  | binary (sign : BinarySign) (left right : ExprTree α)

variable {α : Type}

/-- The tokens are an expression of the level that is built as the tree. -/
inductive Derives : Nat → List (Token α) → ExprTree α → Prop
  | looser {level level' : Nat} {tokens : List (Token α)} {tree : ExprTree α} (hle : level ≤ level')
    (h : Derives level' tokens tree) : Derives level tokens tree
  | number {n : Nat} (hn : n < 2147483648) :
    Derives primaryLevel [.number (Nat.toDigits 10 n)] (.number n)
  /-- The number after the greatest one stands behind a minus sign only. -/
  | least : Derives unaryLevel [.sign UnarySign.minus.text, .number (Nat.toDigits 10 2147483648)]
    (.unary .minus (.number 2147483648))
  | text (value : List Char) : Derives primaryLevel [.text value] (.text value)
  | null : Derives primaryLevel [.word "null".toList] .null
  | truth (b : Bool) : Derives primaryLevel [.word (truthWord b)] (.truth b)
  | name {text : List Char} (h : text ∉ reserved) : Derives primaryLevel [.word text] (.name text)
  | unit (a : α) : Derives primaryLevel [.unit a] (.unit a)
  | paren {tokens : List (Token α)} {tree : ExprTree α} (h : Derives 0 tokens tree) :
    Derives primaryLevel (.sign ['('] :: tokens ++ [.sign [')']]) tree
  | index {arrayTokens indexTokens : List (Token α)} {array index : ExprTree α}
    (harray : Derives primaryLevel arrayTokens array) (hindex : Derives 0 indexTokens index) :
    Derives primaryLevel (arrayTokens ++ .sign ['['] :: indexTokens ++ [.sign [']']])
      (.index array index)
  | unary (sign : UnarySign) {tokens : List (Token α)} {tree : ExprTree α}
    (h : Derives unaryLevel tokens tree) :
    Derives unaryLevel (.sign sign.text :: tokens) (.unary sign tree)
  /-- Of two signs of one level, the one on the left is part of the left operand. -/
  | binary (sign : BinarySign) {leftTokens rightTokens : List (Token α)} {left right : ExprTree α}
    (hleft : Derives sign.level leftTokens left)
    (hright : Derives (sign.level + 1) rightTokens right) :
    Derives sign.level (leftTokens ++ .sign sign.text :: rightTokens) (.binary sign left right)

/-! ## The machine -/

/-- What has been begun and waits for an operand. -/
inductive Frame (α : Type) where
  | paren
  | bracket (array : ExprTree α)
  | unary (sign : UnarySign)
  | binary (left : ExprTree α) (sign : BinarySign)

/-- Gives the operand to the innermost signs, as long as these bind at least as tightly as the
level. -/
def reduce (level : Nat) : List (Frame α) → ExprTree α → List (Frame α) × ExprTree α
  | .unary sign :: frames, tree =>
    if level ≤ unaryLevel then reduce level frames (.unary sign tree)
    else (.unary sign :: frames, tree)
  | .binary left sign :: frames, tree =>
    if level ≤ sign.level then reduce level frames (.binary sign left tree)
    else (.binary left sign :: frames, tree)
  | frames, tree => (frames, tree)

/-- The tree of a word. -/
def ExprTree.ofWord (text : List Char) : ExprTree α :=
  if text = "null".toList then .null
  else if text = truthWord true then .truth true
  else if text = truthWord false then .truth false
  else .name text

/-- Reads one token, with the operand that was read last. -/
def shift : Token α → List (Frame α) → Option (ExprTree α) →
    Option (List (Frame α) × Option (ExprTree α))
  | .number text, frames, none => some (frames, some (.number (Nat.ofDigitChars 10 text 0)))
  | .text value, frames, none => some (frames, some (.text value))
  | .word text, frames, none => some (frames, some (.ofWord text))
  | .unit a, frames, none => some (frames, some (.unit a))
  | .sign ['('], frames, none => some (.paren :: frames, none)
  | .sign text, frames, none =>
    (UnarySign.ofText? text).map fun sign => (.unary sign :: frames, none)
  | .sign [')'], frames, some tree =>
    match reduce 0 frames tree with
    | (.paren :: frames, tree) => some (frames, some tree)
    | _ => none
  | .sign ['['], frames, some tree => some (.bracket tree :: frames, none)
  | .sign [']'], frames, some tree =>
    match reduce 0 frames tree with
    | (.bracket array :: frames, tree) => some (frames, some (.index array tree))
    | _ => none
  | .sign text, frames, some tree =>
    (BinarySign.ofText? text).map fun sign =>
      (.binary (reduce sign.level frames tree).2 sign :: (reduce sign.level frames tree).1, none)
  | _, _, some _ => none

/-- Reads tokens to their end, where nothing that was begun may be left. -/
def run : List (Token α) → List (Frame α) → Option (ExprTree α) → Option (ExprTree α)
  | [], _, none => none
  | [], frames, some tree =>
    match reduce 0 frames tree with
    | ([], tree) => some tree
    | _ => none
  | token :: tokens, frames, operand =>
    (shift token frames operand).bind fun next => run tokens next.1 next.2

/-- The tree of an expression. -/
def read? (tokens : List (Token α)) : Option (ExprTree α) :=
  run tokens [] none

/-! ## The machine reads what the grammar derives -/

/-- An operand of the level can stand behind the innermost frame. -/
def Admits (level : Nat) : List (Frame α) → Prop
  | .unary _ :: _ => unaryLevel ≤ level
  | .binary _ sign :: _ => sign.level < level
  | _ => True

theorem Admits.mono {level level' : Nat} {frames : List (Frame α)} (hle : level ≤ level')
    (h : Admits level frames) : Admits level' frames := by
  match frames, h with
  | [], _ => trivial
  | .paren :: _, _ => trivial
  | .bracket _ :: _, _ => trivial
  | .unary _ :: _, h => exact Nat.le_trans h hle
  | .binary _ _ :: _, h => exact Nat.lt_of_lt_of_le h hle

/-- A binary sign leaves the frames that admit its left operand as they are. -/
theorem reduce_of_admits {level : Nat} {frames : List (Frame α)} (h : Admits level frames)
    (hlevel : level < unaryLevel) (tree : ExprTree α) :
    reduce level frames tree = (frames, tree) := by
  match frames, h with
  | [], _ => rfl
  | .paren :: _, _ => rfl
  | .bracket _ :: _, _ => rfl
  | .unary _ :: _, h => exact absurd hlevel (Nat.not_lt.2 h)
  | .binary _ _ :: _, h => rw [reduce, if_neg (Nat.not_le.2 h)]

/-- No sign binds as tightly as the parts of a primary expression. -/
theorem reduce_primaryLevel (frames : List (Frame α)) (tree : ExprTree α) :
    reduce primaryLevel frames tree = (frames, tree) := by
  match frames with
  | [] => rfl
  | .paren :: _ => rfl
  | .bracket _ :: _ => rfl
  | .unary _ :: _ => rw [reduce, if_neg (Nat.not_le.2 unaryLevel_lt_primaryLevel)]
  | .binary _ sign :: _ =>
    rw [reduce, if_neg (Nat.not_le.2
      (Nat.lt_trans sign.level_lt_unaryLevel unaryLevel_lt_primaryLevel))]

theorem ExprTree.ofWord_truthWord (b : Bool) : (ofWord (truthWord b) : ExprTree α) = .truth b := by
  cases b <;> rfl

theorem ExprTree.ofWord_of_notMem {text : List Char} (h : text ∉ reserved) :
    (ofWord text : ExprTree α) = .name text := by
  have hne : ∀ word ∈ reserved, text ≠ word := fun word hword heq => h (heq ▸ hword)
  rw [ofWord, if_neg (hne _ (by decide)), if_neg (hne _ (by decide)), if_neg (hne _ (by decide))]

theorem shift_unary (sign : UnarySign) (frames : List (Frame α)) :
    shift (.sign sign.text) frames none = some (.unary sign :: frames, none) := by
  cases sign <;> rfl

theorem shift_binary (sign : BinarySign) (frames : List (Frame α)) (tree : ExprTree α) :
    shift (.sign sign.text) frames (some tree) =
      some (.binary (reduce sign.level frames tree).2 sign :: (reduce sign.level frames tree).1,
        none) := by
  cases sign <;> rfl

theorem run_cons_of_shift {token : Token α} {frames frames' : List (Frame α)}
    {operand operand' : Option (ExprTree α)}
    (h : shift token frames operand = some (frames', operand'))
    (tokens : List (Token α)) :
    run (token :: tokens) frames operand = run tokens frames' operand' := by
  rw [run, h, Option.bind_some]

/-- After the tokens of an expression, the machine is as good as if it had put the tree behind the
frames: both are the same once the signs that the level lets through are reduced. -/
theorem Derives.run_append {level : Nat} {tokens : List (Token α)} {tree : ExprTree α}
    (h : Derives level tokens tree) : ∀ (frames : List (Frame α)) (rest : List (Token α)),
    Admits level frames → ∃ frames' tree', run (tokens ++ rest) frames none =
      run rest frames' (some tree') ∧
      ∀ q ≤ level, reduce q frames' tree' = reduce q frames tree := by
  -- the frames and the rest change along the derivation: an operand has its sign in front of it,
  -- and what follows the operand behind it
  induction h with
  | looser hle _ ih =>
    intro frames rest hadmits
    obtain ⟨frames', tree', hrun, hreduce⟩ := ih frames rest (hadmits.mono hle)
    exact ⟨frames', tree', hrun, fun q hq => hreduce q (Nat.le_trans hq hle)⟩
  | @number n _ =>
    intro frames rest _
    refine ⟨frames, .number n, ?_, fun _ _ => rfl⟩
    rw [List.singleton_append, run_cons_of_shift rfl,
      Nat.ofDigitChars_toDigits (by decide) (by decide)]
  | least =>
    intro frames rest _
    -- the machine knows no such number: it waits with the sign until something reduces it
    refine ⟨.unary .minus :: frames, .number 2147483648, ?_, fun q hq => by rw [reduce, if_pos hq]⟩
    rw [List.cons_append, run_cons_of_shift (shift_unary .minus frames), List.singleton_append,
      run_cons_of_shift rfl, Nat.ofDigitChars_toDigits (by decide) (by decide)]
  | text value => exact fun _ _ _ => ⟨_, _, run_cons_of_shift rfl _, fun _ _ => rfl⟩
  | null => exact fun _ _ _ => ⟨_, _, run_cons_of_shift rfl _, fun _ _ => rfl⟩
  | truth b =>
    intro frames rest _
    refine ⟨frames, .truth b, ?_, fun _ _ => rfl⟩
    rw [List.singleton_append, run_cons_of_shift rfl, ExprTree.ofWord_truthWord]
  | @name text hname =>
    intro frames rest _
    refine ⟨frames, .name text, ?_, fun _ _ => rfl⟩
    rw [List.singleton_append, run_cons_of_shift rfl, ExprTree.ofWord_of_notMem hname]
  | unit a => exact fun _ _ _ => ⟨_, _, run_cons_of_shift rfl _, fun _ _ => rfl⟩
  | @paren tokens tree _ ih =>
    intro frames rest _
    obtain ⟨frames', tree', hrun, hreduce⟩ := ih (.paren :: frames) (.sign [')'] :: rest) trivial
    refine ⟨frames, tree, ?_, fun _ _ => rfl⟩
    have hshift : shift (.sign [')']) frames' (some tree') = some (frames, some tree) := by
      simp only [shift, hreduce 0 (Nat.le_refl 0)]
      rfl
    rw [List.cons_append, List.cons_append, run_cons_of_shift rfl, List.append_assoc,
      List.singleton_append, hrun, run_cons_of_shift hshift]
  | @index arrayTokens indexTokens array index _ _ iharray ihindex =>
    intro frames rest hadmits
    obtain ⟨frames₁, tree₁, hrun₁, hreduce₁⟩ := iharray frames
      (.sign ['['] :: (indexTokens ++ .sign [']'] :: rest)) hadmits
    -- nothing waits inside an array, so the machine has exactly the tree of the array
    have hprimary := hreduce₁ primaryLevel (Nat.le_refl _)
    rw [reduce_primaryLevel, reduce_primaryLevel] at hprimary
    obtain ⟨rfl, rfl⟩ := Prod.mk.inj hprimary
    obtain ⟨frames₂, tree₂, hrun₂, hreduce₂⟩ := ihindex (.bracket tree₁ :: frames₁)
      (.sign [']'] :: rest) trivial
    refine ⟨frames₁, .index tree₁ index, ?_, fun _ _ => rfl⟩
    have hshift : shift (.sign [']']) frames₂ (some tree₂) =
        some (frames₁, some (.index tree₁ index)) := by
      simp only [shift, hreduce₂ 0 (Nat.le_refl 0)]
      rfl
    rw [List.append_assoc, List.append_assoc, List.cons_append, List.singleton_append, hrun₁,
      run_cons_of_shift rfl, hrun₂, run_cons_of_shift hshift]
  | unary sign _ ih =>
    intro frames rest _
    obtain ⟨frames', tree', hrun, hreduce⟩ := ih (.unary sign :: frames) rest (Nat.le_refl _)
    refine ⟨frames', tree', ?_, fun q hq => ?_⟩
    · rw [List.cons_append, run_cons_of_shift (shift_unary sign frames), hrun]
    · rw [hreduce q hq, reduce, if_pos hq]
  | @binary sign leftTokens rightTokens left right _ _ ihleft ihright =>
    intro frames rest hadmits
    obtain ⟨frames₁, tree₁, hrun₁, hreduce₁⟩ := ihleft frames
      (.sign sign.text :: (rightTokens ++ rest)) hadmits
    obtain ⟨frames₂, tree₂, hrun₂, hreduce₂⟩ := ihright (.binary left sign :: frames) rest
      (Nat.lt_succ_self _)
    refine ⟨frames₂, tree₂, ?_, fun q hq => ?_⟩
    · -- the sign ends its left operand, and nothing in front of that
      have hleft : reduce sign.level frames₁ tree₁ = (frames, left) := by
        rw [hreduce₁ _ (Nat.le_refl _), reduce_of_admits hadmits sign.level_lt_unaryLevel]
      rw [List.append_assoc, List.cons_append, hrun₁, run_cons_of_shift (shift_binary ..), hleft,
        hrun₂]
    · rw [hreduce₂ q (Nat.le_succ_of_le hq), reduce, if_pos hq]

/-- The machine reads an expression as the tree that it is built as. -/
theorem Derives.read?_eq {level : Nat} {tokens : List (Token α)} {tree : ExprTree α}
    (h : Derives level tokens tree) : read? tokens = some tree := by
  obtain ⟨frames', tree', hrun, hreduce⟩ := h.run_append [] [] trivial
  rw [List.append_nil] at hrun
  rw [read?, hrun, run, hreduce 0 (Nat.zero_le _)]
  rfl

/-- Tokens are an expression in one way at most. -/
theorem Derives.unique {level level' : Nat} {tokens : List (Token α)} {tree tree' : ExprTree α}
    (h : Derives level tokens tree) (h' : Derives level' tokens tree') : tree = tree' :=
  Option.some.inj (h.read?_eq.symm.trans h'.read?_eq)

/-! ## Texts -/

/-- The text is an expression that is built as the tree. -/
def Reads (letters : Letters) (text : List (Piece α)) (tree : ExprTree α) : Prop :=
  ∃ tokens, Tokenized letters text tokens ∧ Derives 0 tokens tree

/-- A text is an expression in one way at most. -/
theorem Reads.unique {letters : Letters} {text : List (Piece α)} {tree tree' : ExprTree α}
    (h : Reads letters text tree) (h' : Reads letters text tree') : tree = tree' := by
  obtain ⟨tokens, htokens, hderives⟩ := h
  obtain ⟨tokens', htokens', hderives'⟩ := h'
  exact hderives.unique (htokens.unique htokens' ▸ hderives')

end Unjump.Java
