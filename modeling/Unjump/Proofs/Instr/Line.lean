import Unjump.Instr.Listing
import Unjump.Proofs.Text.Blank

/-!
# The lines of a listing

What a line says is what stands before its comment, without the blanks around it (`content`). A line
that says nothing is blank, a line that says a name and a colon defines a label (`definedLabel?`),
and every other line names an opcode and the text of its operand (`Names`). Reading a line tells
these three apart in the same way (`content_of_readLine_blank`, `definedLabel?_of_readLine_label`,
`names_of_readLine_instr`).
-/

namespace Unjump.Listing

open Text

/-! ## Comments -/

/-- A comment starts at a place if two slashes stand there and no quoted text is open; `quoted` says
whether the line starts inside a quoted text. -/
def opensComment (quoted : Bool) (line : List Char) (place : Nat) : Bool :=
  ['/', '/'].isPrefixOf (line.drop place) && (line.take place).count '"' % 2 == quoted.toNat

/-- The first place where a comment starts, or the end of the line. -/
def commentStart (quoted : Bool) (line : List Char) : Nat :=
  ((List.range line.length).find? (opensComment quoted line)).getD line.length

theorem opensComment_zero (quoted : Bool) (c : Char) (cs : List Char) :
    opensComment quoted (c :: cs) 0 = (!quoted && c == '/' && cs.head? == some '/') := by
  cases cs <;> cases quoted <;> simp [opensComment, List.isPrefixOf, BEq.comm]

/-- A quote opens or closes a quoted text. -/
theorem opensComment_succ (quoted : Bool) (c : Char) (cs : List Char) (place : Nat) :
    opensComment quoted (c :: cs) (place + 1) =
      opensComment (if c = '"' then !quoted else quoted) cs place := by
  unfold opensComment
  rw [List.drop_succ_cons, List.take_succ_cons, List.count_cons]
  congr 1
  rw [Bool.eq_iff_iff]
  simp only [beq_iff_eq]
  by_cases hc : c = '"'
  · rw [if_pos hc, if_pos hc]
    cases quoted <;>
      simp only [Bool.not_true, Bool.not_false, Bool.toNat_true, Bool.toNat_false] <;> omega
  · rw [if_neg hc, if_neg hc, Nat.add_zero]

theorem commentStart_cons (quoted : Bool) (c : Char) (cs : List Char) :
    commentStart quoted (c :: cs) =
      if opensComment quoted (c :: cs) 0 then 0
      else commentStart (if c = '"' then !quoted else quoted) cs + 1 := by
  unfold commentStart
  rw [List.length_cons, List.range_succ_eq_map, List.find?_cons]
  cases opensComment quoted (c :: cs) 0 with
  | true => rfl
  | false =>
    rw [List.find?_map]
    have hshift : (opensComment quoted (c :: cs) ∘ Nat.succ) =
        opensComment (if c = '"' then !quoted else quoted) cs :=
      funext fun place => opensComment_succ quoted c cs place
    rw [hshift]
    cases (List.range cs.length).find?
      (opensComment (if c = '"' then !quoted else quoted) cs) <;> rfl

/-- A line is cut where its comment starts. -/
theorem stripComment_eq_take (quoted : Bool) (line : List Char) :
    stripComment quoted line = line.take (commentStart quoted line) := by
  induction line generalizing quoted with
  | nil => rfl
  | cons c cs ih =>
    rw [stripComment, commentStart_cons, opensComment_zero]
    by_cases hc : c = '"'
    · have hslash : (c == '/') = false := by rw [hc]; rfl
      rw [if_pos hc, if_pos hc, hslash, Bool.and_false, Bool.false_and, if_neg (by simp),
        List.take_succ_cons, ih]
    · rw [if_neg hc, if_neg hc]
      split
      · rw [List.take_zero]
      · rw [List.take_succ_cons, ih]

/-! ## What a line says -/

/-- What stands before the comment of a line, without the blanks around it. -/
def content (line : List Char) : List Char :=
  trim (line.take (commentStart false line))

/-- The name of the label that a line defines. -/
def definedLabel? (line : List Char) : Option (List Char) :=
  (dropSuffix? ':' (content line)).map trim

/-- A line that is neither blank, nor only a comment, nor the line of a label. -/
def holdsInstr (line : List Char) : Bool :=
  content line ≠ [] && (definedLabel? line).isNone

/-- A line says the mnemonic of an opcode, and behind it, after blanks, the text of an operand. -/
def Names (line : List Char) (opcode : Opcode) (operand : List Char) : Prop :=
  ∃ gap, content line = opcode.mnemonic.toList ++ gap ++ operand ∧
    (∀ c ∈ gap, isBlank c = true) ∧ (gap = [] → operand = []) ∧
    ∀ c ∈ operand.head?, isBlank c = false

/-- A line that defines a label holds no instruction. -/
theorem holdsInstr_of_definedLabel? {line name : List Char} (h : definedLabel? line = some name) :
    holdsInstr line = false := by
  simp [holdsInstr, h]

theorem definedLabel?_of_holdsInstr {line : List Char} (h : holdsInstr line = true) :
    definedLabel? line = none := by
  simpa using (Bool.and_eq_true_iff.1 h).2

/-- A line that says nothing defines no label. -/
theorem definedLabel?_of_content_eq_nil {line : List Char} (h : content line = []) :
    definedLabel? line = none := by
  simp [definedLabel?, h, dropSuffix?]

theorem content_eq_trim_stripComment (line : List Char) :
    trim (stripComment false line) = content line := by
  rw [stripComment_eq_take, content]

theorem Opcode.toList_mnemonic_of_ofMnemonic? {word : List Char} {opcode : Opcode}
    (h : Opcode.ofMnemonic? (String.ofList word) = some opcode) :
    opcode.mnemonic.toList = word := by
  have hname : opcode.mnemonic = String.ofList word := by
    simpa using List.find?_some h
  rw [hname, String.toList_ofList]

/-- A line is read as a blank one only if it says nothing. -/
theorem content_of_readLine_blank {number : Nat} {source : List Char}
    (h : readLine number source = .ok .blank) : content source = [] := by
  unfold readLine at h
  simp only [content_eq_trim_stripComment] at h
  split at h
  · rename_i hempty
    exact List.isEmpty_iff.1 hempty
  · split at h
    · cases h
    · repeat' split at h
      all_goals cases h

/-- A line is read as that of a label only if it defines the label. -/
theorem definedLabel?_of_readLine_label {number : Nat} {source name : List Char}
    (h : readLine number source = .ok (.label name)) : definedLabel? source = some name := by
  unfold readLine at h
  simp only [content_eq_trim_stripComment] at h
  split at h
  · cases h
  · split at h
    · rename_i hsuffix
      cases h
      rw [definedLabel?, hsuffix, Option.map_some]
    · repeat' split at h
      all_goals cases h

/-- A line is read as an instruction only if it holds one and says its opcode and its operand. -/
theorem names_of_readLine_instr {number : Nat} {source : List Char} {opcode : Opcode}
    {argument : Argument} (h : readLine number source = .ok (.instr opcode argument)) :
    holdsInstr source = true ∧ ∃ operand, Names source opcode operand ∧
      readArgument? opcode.format operand = some argument := by
  unfold readLine at h
  simp only [content_eq_trim_stripComment] at h
  split at h
  · cases h
  · rename_i hempty
    split at h
    · cases h
    · rename_i hsuffix
      have hholds : holdsInstr source = true := by
        simpa [holdsInstr, definedLabel?, hsuffix] using hempty
      refine ⟨hholds, ?_⟩
      obtain ⟨gap, hcontent, hgap, hnone⟩ :=
        exists_gap_of_cutAtBlank (rfl : cutAtBlank (content source) = _)
      split at h
      · cases h
      · rename_i hopcode
        split at h
        · cases h
        · split at h
          · cases h
          · split at h
            · rename_i hread
              cases h
              refine ⟨_, ⟨gap, ?_, hgap, hnone, fun c hc => isBlank_head?_trim hc⟩, hread⟩
              rw [Opcode.toList_mnemonic_of_ofMnemonic? hopcode]
              exact hcontent
            · cases h

end Unjump.Listing
