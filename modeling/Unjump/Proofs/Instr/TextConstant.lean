import Unjump.Proofs.Instr.Resolution

/-!
# Text constants in a listing

A line that says `ldc` and a text between quotes gives one instruction, whose operand is exactly
this text: whatever the text holds, quotes apart, and whatever blanks and comment stand around it
(`assemble_text`).
-/

namespace Unjump.Listing

open Text

/-- What a line says that loads a text: `ldc`, blanks and the text between quotes. -/
def loadText (gap text : List Char) : List Char :=
  "ldc".toList ++ (gap ++ '"' :: (text ++ ['"']))

/-- A line that loads a text without quotes. Blanks may stand around what it says, and a comment may
follow. -/
inductive LoadsText : List Char → List Char → Prop
  | intro {front gap text back comment : List Char} (hfront : ∀ c ∈ front, isBlank c = true)
    (hgap : gap ≠ [] ∧ ∀ c ∈ gap, isBlank c = true) (htext : '"' ∉ text)
    (hback : ∀ c ∈ back, isBlank c = true) (hcomment : comment = [] ∨ ['/', '/'] <+: comment) :
    LoadsText (front ++ loadText gap text ++ back ++ comment) text

/-! ## Reading the line -/

variable {quoted : Bool} {cs text rest : List Char}

/-- Nothing is cut off before a quote, a slash outside of quotes apart. -/
theorem stripComment_append (h : ∀ c ∈ cs, c ≠ '"' ∧ (quoted = false → c ≠ '/')) :
    stripComment quoted (cs ++ rest) = cs ++ stripComment quoted rest := by
  induction cs with
  | nil => rfl
  | cons c cs ih =>
    obtain ⟨⟨hquote, hslash⟩, hcs⟩ := List.forall_mem_cons.1 h
    have hopens : (!quoted && c == '/' && (cs ++ rest).head? == some '/') = false := by
      cases quoted with
      | true => rfl
      | false => simp [hslash rfl]
    rw [List.cons_append, stripComment, if_neg hquote, hopens, if_neg (by simp), ih hcs,
      List.cons_append]

/-- A text between quotes is no comment, whatever it holds. -/
theorem stripComment_quotes (h : '"' ∉ text) :
    stripComment false ('"' :: (text ++ '"' :: rest)) =
      '"' :: (text ++ '"' :: stripComment false rest) := by
  have hinside : stripComment true (text ++ '"' :: rest) =
      text ++ stripComment true ('"' :: rest) :=
    stripComment_append fun c hc => ⟨fun heq => h (heq ▸ hc), nofun⟩
  rw [stripComment, if_pos rfl, Bool.not_false, hinside, stripComment, if_pos rfl, Bool.not_true]

/-- A comment is cut off. -/
theorem stripComment_comment (h : cs = [] ∨ ['/', '/'] <+: cs) : stripComment false cs = [] := by
  obtain rfl | ⟨rest, rfl⟩ := h
  · rfl
  · rfl

/-- Outside of quotes, nothing is cut off before a quote or a slash. -/
theorem stripComment_outside (h : ∀ c ∈ cs, c ≠ '"' ∧ c ≠ '/') :
    stripComment false (cs ++ rest) = cs ++ stripComment false rest :=
  stripComment_append fun c hc => ⟨(h c hc).1, fun _ => (h c hc).2⟩

theorem ne_of_isBlank {c : Char} (h : isBlank c = true) : c ≠ '"' ∧ c ≠ '/' := by
  constructor <;> rintro rfl <;> cases h

variable {front gap back comment : List Char}

/-- Up to its comment, the line is kept. -/
theorem stripComment_line (hfront : ∀ c ∈ front, isBlank c = true)
    (hgap : ∀ c ∈ gap, isBlank c = true) (htext : '"' ∉ text)
    (hback : ∀ c ∈ back, isBlank c = true) (hcomment : comment = [] ∨ ['/', '/'] <+: comment) :
    stripComment false (front ++ loadText gap text ++ back ++ comment) =
      front ++ loadText gap text ++ back := by
  have hword : ∀ c ∈ "ldc".toList, c ≠ '"' ∧ c ≠ '/' :=
    List.forall_iff_forall_mem.1 (by decide)
  simp only [loadText, List.append_assoc, List.cons_append, List.nil_append]
  rw [stripComment_outside fun c hc => ne_of_isBlank (hfront c hc), stripComment_outside hword,
    stripComment_outside fun c hc => ne_of_isBlank (hgap c hc), stripComment_quotes htext,
    stripComment_outside fun c hc => ne_of_isBlank (hback c hc), stripComment_comment hcomment,
    List.append_nil]

/-- A text between quotes is read as the constant that it is. -/
theorem readConstant?_quotes (text : List Char) :
    readConstant? ('"' :: (text ++ ['"'])) = some (.constant (.text (String.ofList text))) := by
  rw [readConstant?, dropSuffix?, if_pos List.getLast?_concat, List.dropLast_concat,
    Option.map_some]

theorem getLast?_quotes (text : List Char) : ('"' :: (text ++ ['"'])).getLast? = some '"' := by
  rw [← List.cons_append, List.getLast?_concat]

theorem getLast?_loadText (gap text : List Char) : (loadText gap text).getLast? = some '"' := by
  rw [loadText, List.getLast?_append, List.getLast?_append, getLast?_quotes]
  rfl

/-- Blanks around what the line says are cut off. -/
theorem trim_loadText (hfront : ∀ c ∈ front, isBlank c = true)
    (hback : ∀ c ∈ back, isBlank c = true) :
    trim (front ++ loadText gap text ++ back) = loadText gap text :=
  trim_append_append hfront hback rfl (getLast?_loadText gap text) ⟨rfl, rfl⟩

/-- What the line says is no label. -/
theorem dropSuffix?_loadText (gap text : List Char) :
    dropSuffix? ':' (loadText gap text) = none := by
  rw [dropSuffix?, getLast?_loadText, if_neg (by decide)]

/-- What the line says falls apart into the opcode and the text between quotes. -/
theorem cutAtBlank_loadText (hgap : gap ≠ [] ∧ ∀ c ∈ gap, isBlank c = true) (text : List Char) :
    ∃ rest, cutAtBlank (loadText gap text) = ("ldc".toList, rest) ∧
      trim rest = '"' :: (text ++ ['"']) := by
  obtain ⟨hne, hgap⟩ := hgap
  obtain ⟨b, blanks, rfl⟩ := List.exists_cons_of_ne_nil hne
  obtain ⟨hb, hblanks⟩ := List.forall_mem_cons.1 hgap
  have htrim : trim (blanks ++ '"' :: (text ++ ['"']) ++ []) = '"' :: (text ++ ['"']) :=
    trim_append_append hblanks (List.forall_mem_nil _) rfl (getLast?_quotes text) ⟨rfl, rfl⟩
  rw [List.append_nil] at htrim
  exact ⟨_, cutAtBlank_append_cons (List.forall_iff_forall_mem.1 (by decide)) hb _, htrim⟩

/-- What the line says is read as one instruction with the text. -/
theorem readLine_of_loadsText {line : List Char} (h : LoadsText line text) (number : Nat) :
    readLine number line =
      .ok (.instr .ldc (.operand (.constant (.text (String.ofList text))))) := by
  obtain ⟨hfront, hgap, htext, hback, hcomment⟩ := h
  obtain ⟨rest, hcut, hrest⟩ := cutAtBlank_loadText hgap text
  have hopcode : Opcode.ofMnemonic? (String.ofList "ldc".toList) = some .ldc := by decide
  rw [readLine, stripComment_line hfront hgap.2 htext hback hcomment, trim_loadText hfront hback]
  simp only [dropSuffix?_loadText, hcut, hrest, hopcode, Opcode.format, readArgument?,
    readConstant?_quotes]
  rfl

/-! ## The instruction of the line -/

/-- A line that is read as an instruction with an operand assembles to this instruction. -/
theorem assemble_singleton {line : String} {opcode : Opcode} {value : Operand}
    (h : ∀ number, readLine number line.toList = .ok (.instr opcode (.operand value))) :
    assemble [line] = .ok [⟨0, opcode, value⟩] := by
  simp [assemble, readLines, h, Draft.resolve]

/-- In a listing, a line that is read as an instruction with an operand gives this one instruction,
in between those of the lines before it and those of the lines behind it. -/
theorem exists_append_of_assemble {before after : List String} {line : String} {code : List Instr}
    {opcode : Opcode} {value : Operand}
    (hline : ∀ number, readLine number line.toList = .ok (.instr opcode (.operand value)))
    (h : assemble (before ++ line :: after) = .ok code) :
    ∃ front offset back, code = front ++ ⟨offset, opcode, value⟩ :: back ∧
      front.length = (before.map String.toList).countP holdsInstr ∧
      back.length = (after.map String.toList).countP holdsInstr := by
  unfold assemble at h
  split at h
  · cases h
  · rename_i labels drafts hread
    split at h
    · cases h
    · have hall := (forall₂_readLine_of_readLines hread).comp (R := fun line i => ∃ draft number,
          readLine number line = .ok (.instr draft.opcode draft.argument) ∧
            draft.resolve labels = .ok i)
        (fun _ draft _ ⟨number, hread⟩ hresolve => ⟨draft, number, hread, hresolve⟩)
        (mapM_eq_ok_iff_forall₂.1 h)
      have hholds : holdsInstr line.toList = true := (names_of_readLine_instr (hline 0)).1
      rw [List.map_append, List.map_cons, List.filter_append,
        List.filter_cons_of_pos hholds] at hall
      obtain ⟨front, i, back, rfl, hfront, ⟨draft, number, hread, hresolve⟩, hback⟩ :=
        hall.exists_append_cons
      obtain ⟨hopcode, hargument⟩ :=
        Line.instr.inj (Except.ok.inj ((hline number).symm.trans hread))
      have hi : i = ⟨draft.offset, opcode, value⟩ := by
        rw [Draft.resolve, ← hargument, ← hopcode] at hresolve
        exact (Except.ok.inj hresolve).symm
      refine ⟨front, draft.offset, back, by rw [hi], ?_, ?_⟩
      · rw [← hfront.length_eq, List.countP_eq_length_filter]
      · rw [← hback.length_eq, List.countP_eq_length_filter]

/-- A line that loads a text assembles to one instruction, whose operand is the text. In a listing,
too, it is never the reason for a refusal and gives this one instruction. -/
theorem assemble_text {line : String} {text : String} (h : LoadsText line.toList text.toList) :
    assemble [line] = .ok [⟨0, .ldc, .constant (.text text)⟩] ∧
      (∀ number, readLine number line.toList =
        .ok (.instr .ldc (.operand (.constant (.text text))))) ∧
      ∀ before after code, assemble (before ++ line :: after) = .ok code →
        ∃ front offset back, code = front ++ ⟨offset, .ldc, .constant (.text text)⟩ :: back ∧
          front.length = (before.map String.toList).countP holdsInstr ∧
          back.length = (after.map String.toList).countP holdsInstr := by
  have hline : ∀ number, readLine number line.toList =
      .ok (.instr .ldc (.operand (.constant (.text text)))) := fun number => by
    rw [readLine_of_loadsText h number, String.ofList_toList]
  exact ⟨assemble_singleton hline, hline, fun _ _ _ => exists_append_of_assemble hline⟩

/-- Two slashes, a hash sign, a colon and blanks between the quotes, and quotes in the comment. -/
def slashedLine : String := "\tldc  \" a//b #1: \" // not \"this\""

/-- The text that the line loads. -/
def slashedText : String := " a//b #1: "

/-- The code of a listing with the line in a loop. -/
def slashedLoop : List Instr :=
  [⟨0, .ldc, .constant (.text slashedText)⟩, ⟨2, .pop, .none⟩, ⟨3, .goto, .label 0⟩]

theorem assemble_text_slashed :
    LoadsText slashedLine.toList slashedText.toList ∧
      assemble [slashedLine] = .ok [⟨0, .ldc, .constant (.text slashedText)⟩] ∧
      assemble (["start:"] ++ slashedLine :: ["pop", "goto start"]) = .ok slashedLoop ∧
      ∃ front offset back,
        slashedLoop = front ++ ⟨offset, .ldc, .constant (.text slashedText)⟩ :: back ∧
          front.length = (["start:"].map String.toList).countP holdsInstr ∧
          back.length = (["pop", "goto start"].map String.toList).countP holdsInstr := by
  have hloads : LoadsText slashedLine.toList slashedText.toList := by
    have hline : slashedLine.toList = "\t".toList ++ loadText "  ".toList slashedText.toList ++
        " ".toList ++ "// not \"this\"".toList := by decide
    rw [hline]
    exact .intro (List.forall_iff_forall_mem.1 (by decide))
      ⟨by decide, List.forall_iff_forall_mem.1 (by decide)⟩ (by decide)
      (List.forall_iff_forall_mem.1 (by decide)) (by decide)
  have hloop : assemble (["start:"] ++ slashedLine :: ["pop", "goto start"]) = .ok slashedLoop :=
    eq_ok_of_toOption_eq_some (by decide +kernel)
  exact ⟨hloads, (assemble_text hloads).1, hloop, (assemble_text hloads).2.2 _ _ _ hloop⟩

end Unjump.Listing
