import Unjump.Proofs.Instr.Label
import Unjump.Proofs.Instr.Layout
import Unjump.Proofs.Instr.Line

/-!
# Labels and offsets of a listing

The instructions of a listing are those of its lines, in order: of every line that is neither blank,
nor only a comment, nor the line of a label. A jump goes to the instruction that follows the one
line that defines its label, wherever that line stands, and every instruction starts where the ones
before it end (`resolves_of_assemble`).
-/

namespace Unjump

/-- The offset at a place is the sum of the sizes before it. -/
theorem getElem?_offsetsFrom {start n offset : Nat} {ops : List Opcode}
    (h : (offsetsFrom start ops)[n]? = some offset) :
    offset = start + ((ops.take n).map (·.format.size)).sum := by
  induction ops generalizing start n with
  | nil => simp [offsetsFrom] at h
  | cons op ops ih =>
    cases n with
    | zero => simpa [offsetsFrom, eq_comm] using h
    | succ n =>
      rw [ih h, List.take_succ_cons, List.map_cons, List.sum_cons, Nat.add_assoc]

namespace Listing

/-- Exactly one line of a listing defines the label, and so many instructions stand before it as the
target says. -/
def Marks (lines : List (List Char)) (name : List Char) (target : Nat) : Prop :=
  ∃ before line after, lines = before ++ line :: after ∧ definedLabel? line = some name ∧
    (∀ other ∈ before ++ after, definedLabel? other ≠ some name) ∧
    target = before.countP holdsInstr

/-- A line of a listing gives the instruction: the line names its opcode, and the text of the
operand names the label that a jump goes to, or is read as the operand. -/
def Gives (lines : List (List Char)) (line : List Char) (i : Instr) : Prop :=
  ∃ operand, Names line i.opcode operand ∧
    (i.opcode.format = .jump → ∃ target, Marks lines operand target ∧ i.operand = .label target) ∧
    (i.opcode.format ≠ .jump →
      readArgument? i.opcode.format operand = some (.operand i.operand))

/-- The code is what the lines of a listing give. -/
structure Resolves (lines : List (List Char)) (code : List Instr) : Prop where
  /-- Line by line, the instructions are the ones that the lines give. -/
  instrs : List.Forall₂ (Gives lines) (lines.filter holdsInstr) code
  /-- Every target is the position of an instruction. -/
  target_lt : ∀ i ∈ code, ∀ target ∈ i.label?, target < code.length
  /-- Every offset is the sum of the sizes of the instructions before. -/
  offset_eq : ∀ n i, code[n]? = some i →
    i.offset = ((code.take n).map (·.opcode.format.size)).sum
  /-- Offsets are numbers of 32 bits if the size of the whole code is. -/
  offset_lt : (code.map (·.opcode.format.size)).sum < 2 ^ 32 → ∀ i ∈ code, i.offset < 2 ^ 32

/-! ## Reading the lines -/

variable {number position offset : Nat} {labels labels' : Labels} {lines : List (List Char)}
  {drafts : List Draft}

/-- What reading one more line adds: nothing, a new label at the position that comes next, or the
instruction that the line says. -/
theorem readLines_cons_eq_ok {source : List Char} {rest : List (List Char)}
    (h : readLines number position offset labels (source :: rest) = .ok (labels', drafts)) :
    (content source = [] ∧
      readLines (number + 1) position offset labels rest = .ok (labels', drafts)) ∨
    (∃ name, definedLabel? source = some name ∧ labels.lookup name = none ∧
      readLines (number + 1) position offset (labels ++ [(name, position)]) rest =
        .ok (labels', drafts)) ∨
    ∃ opcode argument later, readLine number source = .ok (.instr opcode argument) ∧
      holdsInstr source = true ∧
      readLines (number + 1) (position + 1) (offset + opcode.format.size) labels rest =
        .ok (labels', later) ∧
      drafts = ⟨number, offset, opcode, argument⟩ :: later := by
  unfold readLines at h
  split at h
  · cases h
  · rename_i hline
    exact .inl ⟨content_of_readLine_blank hline, h⟩
  · rename_i name hline
    split at h
    · cases h
    · rename_i hnew
      exact .inr (.inl ⟨name, definedLabel?_of_readLine_label hline,
        Option.not_isSome_iff_eq_none.1 hnew, h⟩)
  · rename_i opcode argument hline
    split at h
    · cases h
    · rename_i labels'' later hrest
      cases h
      exact .inr (.inr ⟨opcode, argument, later, hline, (names_of_readLine_instr hline).1, hrest,
        rfl⟩)

/-- The instructions are what the lines that hold one are read as. -/
theorem forall₂_readLine_of_readLines
    (h : readLines number position offset labels lines = .ok (labels', drafts)) :
    List.Forall₂ (fun line (draft : Draft) => ∃ number,
      readLine number line = .ok (.instr draft.opcode draft.argument))
      (lines.filter holdsInstr) drafts := by
  induction lines generalizing number position offset labels drafts with
  | nil => cases h; exact .nil
  | cons source rest ih =>
    obtain ⟨hblank, h⟩ | ⟨name, hname, -, h⟩ | ⟨_, _, _, hline, hholds, hrest, rfl⟩ :=
      readLines_cons_eq_ok h
    · rw [List.filter_cons_of_neg (by simp [holdsInstr, hblank])]
      exact ih h
    · rw [List.filter_cons_of_neg (by simp [holdsInstr_of_definedLabel? hname])]
      exact ih h
    · rw [List.filter_cons_of_pos hholds]
      exact .cons ⟨number, hline⟩ (ih hrest)

/-- The instructions are read off the lines that hold one. -/
theorem forall₂_drafts_of_readLines
    (h : readLines number position offset labels lines = .ok (labels', drafts)) :
    List.Forall₂ (fun line (draft : Draft) => ∃ operand, Names line draft.opcode operand ∧
      readArgument? draft.opcode.format operand = some draft.argument)
      (lines.filter holdsInstr) drafts :=
  (forall₂_readLine_of_readLines h).imp fun _ _ ⟨_, hline⟩ => (names_of_readLine_instr hline).2

/-- The labels are those that the lines define, in order. -/
theorem names_of_readLines
    (h : readLines number position offset labels lines = .ok (labels', drafts)) :
    labels'.map (·.1) = labels.map (·.1) ++ lines.filterMap definedLabel? := by
  induction lines generalizing number position offset labels drafts with
  | nil => cases h; simp
  | cons source rest ih =>
    obtain ⟨hblank, h⟩ | ⟨name, hname, -, h⟩ | ⟨_, _, _, -, hholds, h, -⟩ :=
      readLines_cons_eq_ok h
    · rw [ih h, List.filterMap_cons_none (definedLabel?_of_content_eq_nil hblank)]
    · rw [ih h, List.filterMap_cons_some hname]
      simp
    · rw [ih h, List.filterMap_cons_none (definedLabel?_of_holdsInstr hholds)]

/-- No label is defined twice. -/
theorem nodup_names_of_readLines (hnodup : (labels.map (·.1)).Nodup)
    (h : readLines number position offset labels lines = .ok (labels', drafts)) :
    (labels'.map (·.1)).Nodup := by
  induction lines generalizing number position offset labels drafts with
  | nil => cases h; exact hnodup
  | cons source rest ih =>
    obtain ⟨-, h⟩ | ⟨name, -, hnew, h⟩ | ⟨_, _, _, -, -, h, -⟩ := readLines_cons_eq_ok h
    · exact ih hnodup h
    · refine ih ?_ h
      -- a name that is looked up in vain is not among the labels
      have hnotMem : name ∉ labels.map (·.1) := fun hmem => by
        obtain ⟨⟨_, target⟩, hlabel, rfl⟩ := List.mem_map.1 hmem
        simpa using List.lookup_eq_none_iff.1 hnew _ hlabel
      rw [List.map_append, List.map_singleton, List.nodup_append]
      refine ⟨hnodup, by simp, fun a ha b hb heq => ?_⟩
      rw [heq, List.mem_singleton.1 hb] at ha
      exact hnotMem ha
    · exact ih hnodup h

/-- A label that is new has as target the number of instructions up to the line that defines it. -/
theorem exists_line_of_mem_readLines
    (h : readLines number position offset labels lines = .ok (labels', drafts))
    {name : List Char} {target : Nat} (hmem : (name, target) ∈ labels') :
    (name, target) ∈ labels ∨ ∃ before line after, lines = before ++ line :: after ∧
      definedLabel? line = some name ∧ target = position + before.countP holdsInstr := by
  induction lines generalizing number position offset labels drafts with
  | nil => cases h; exact .inl hmem
  | cons source rest ih =>
    obtain ⟨hblank, h⟩ | ⟨new, hnew, -, h⟩ | ⟨_, _, _, -, hholds, h, -⟩ :=
      readLines_cons_eq_ok h
    · obtain hold | ⟨before, line, after, rfl, hline, rfl⟩ := ih h
      · exact .inl hold
      · refine .inr ⟨source :: before, line, after, rfl, hline, ?_⟩
        rw [List.countP_cons_of_neg (by simp [holdsInstr, hblank])]
    · obtain hold | ⟨before, line, after, rfl, hline, rfl⟩ := ih h
      · obtain hold | hself := List.mem_append.1 hold
        · exact .inl hold
        · obtain ⟨rfl, rfl⟩ := Prod.mk.inj (List.mem_singleton.1 hself)
          exact .inr ⟨[], source, rest, rfl, hnew, rfl⟩
      · refine .inr ⟨source :: before, line, after, rfl, hline, ?_⟩
        rw [List.countP_cons_of_neg (by simp [holdsInstr_of_definedLabel? hnew])]
    · obtain hold | ⟨before, line, after, rfl, hline, rfl⟩ := ih h
      · exact .inl hold
      · refine .inr ⟨source :: before, line, after, rfl, hline, ?_⟩
        rw [List.countP_cons_of_pos hholds]
        omega

/-! ## Looking up the labels -/

/-- The label that is looked up is defined in one line, and its target is the number of instructions
before this line. -/
theorem marks_of_lookup (h : readLines 1 0 0 [] lines = .ok (labels, drafts)) {name : List Char}
    {target : Nat} (hlookup : labels.lookup name = some target) : Marks lines name target := by
  obtain ⟨first, last, rfl, -⟩ := List.lookup_eq_some_iff.1 hlookup
  obtain hold | ⟨before, line, after, rfl, hline, htarget⟩ :=
    exists_line_of_mem_readLines h (List.mem_append_right first List.mem_cons_self)
  · cases hold
  · refine ⟨before, line, after, rfl, hline, ?_, by rw [htarget, Nat.zero_add]⟩
    have hnodup := nodup_names_of_readLines (by simp) h
    rw [names_of_readLines h, List.map_nil, List.nil_append, List.filterMap_append,
      List.filterMap_cons_some hline, (List.perm_middle).nodup_iff, List.nodup_cons] at hnodup
    intro other hother heq
    apply hnodup.1
    rw [← List.filterMap_append]
    exact List.mem_filterMap.2 ⟨other, hother, heq⟩

/-- Only a jump leaves its operand to a label. -/
theorem exists_operand_of_format_ne_jump {format : Format} {cs : List Char} {argument : Argument}
    (h : readArgument? format cs = some argument) (hformat : format ≠ .jump) :
    ∃ value, argument = .operand value := by
  have hfits := fits_of_readArgument? h
  cases argument with
  | operand value => exact ⟨value, rfl⟩
  | label name => exact absurd (of_decide_eq_true hfits) hformat

/-- An instruction whose label has been looked up is the one that its line gives. -/
theorem gives_of_resolve (h : readLines 1 0 0 [] lines = .ok (labels, drafts))
    {line operand : List Char} {draft : Draft} {i : Instr}
    (hnames : Names line draft.opcode operand)
    (hread : readArgument? draft.opcode.format operand = some draft.argument)
    (hresolve : draft.resolve labels = .ok i) : Gives lines line i := by
  unfold Gives
  rw [(Draft.place_of_resolve hresolve).2]
  refine ⟨operand, hnames, fun hformat => ?_, fun hformat => ?_⟩
  · -- the operand of a jump is a name, which has been looked up
    rw [hformat] at hread
    have hname : draft.argument = .label operand := (Option.some.inj hread).symm
    simp only [Draft.resolve, hname] at hresolve
    split at hresolve
    · rename_i target hlookup
      cases hresolve
      exact ⟨target, marks_of_lookup h hlookup, rfl⟩
    · cases hresolve
  · obtain ⟨value, hvalue⟩ := exists_operand_of_format_ne_jump hread hformat
    simp only [Draft.resolve, hvalue] at hresolve
    cases hresolve
    rw [hread, hvalue]

/-! ## The listing as a whole -/

/-- In code that is assembled, every offset is the sum of the sizes before. -/
theorem offset_eq_of_assemble {source : List String} {code : List Instr}
    (h : assemble source = .ok code) {n : Nat} {i : Instr} (hi : code[n]? = some i) :
    i.offset = ((code.take n).map (·.opcode.format.size)).sum := by
  have hoffset : (offsetsFrom 0 (code.map (·.opcode)))[n]? = some i.offset := by
    rw [← offsets_of_assemble h, List.getElem?_map, hi, Option.map_some]
  rw [getElem?_offsetsFrom hoffset, ← List.map_take, List.map_map, Nat.zero_add]
  rfl

/-- In code that is assembled, every instruction starts before the end of the code. -/
theorem offset_lt_of_assemble {source : List String} {code : List Instr}
    (h : assemble source = .ok code) {i : Instr} (hi : i ∈ code) :
    i.offset < (code.map (·.opcode.format.size)).sum := by
  have hmem : i.offset ∈ offsetsFrom 0 (code.map (·.opcode)) := by
    rw [← offsets_of_assemble h]
    exact List.mem_map_of_mem hi
  have hlt := lt_of_mem_offsetsFrom hmem
  rwa [List.map_map, Nat.zero_add] at hlt

/-- The code of a listing has one instruction for each line that holds one, in order. Its jumps go
to the instructions behind the lines that define their labels, and its offsets count the bytes
before every instruction. -/
theorem resolves_of_assemble {source : List String} {code : List Instr}
    (h : assemble source = .ok code) : Resolves (source.map String.toList) code where
  instrs := by
    unfold assemble at h
    split at h
    · cases h
    · rename_i labels drafts hread
      split at h
      · cases h
      · refine (forall₂_drafts_of_readLines hread).comp ?_ (mapM_eq_ok_iff_forall₂.1 h)
        rintro line draft i ⟨operand, hnames, hargument⟩ hresolve
        exact gives_of_resolve hread hnames hargument hresolve
  target_lt := lt_length_of_assemble h
  offset_eq := fun _ _ => offset_eq_of_assemble h
  offset_lt := fun hsize _ hi => Nat.lt_trans (offset_lt_of_assemble h hi) hsize

/-- Two labels before one instruction, a jump forwards, a jump backwards, and a text with two
slashes in it. -/
def crossingLines : List String :=
  ["start: // two names for one place", " again :", "ldc \"a//b\"  // a text", "pop", "",
    "\tgoto  end", "  // never reached", "iinc 1, -1", "goto again", "end:", "return"]

/-- The code of the listing. -/
def crossing : List Instr :=
  [⟨0, .ldc, .constant (.text "a//b")⟩, ⟨2, .pop, .none⟩, ⟨3, .goto, .label 5⟩,
    ⟨6, .iinc, .increment 1 (-1)⟩, ⟨9, .goto, .label 0⟩, ⟨12, .returnVoid, .none⟩]

theorem resolves_of_assemble_crossing :
    assemble crossingLines = .ok crossing ∧
      Resolves (crossingLines.map String.toList) crossing := by
  have hlines : assemble crossingLines = .ok crossing :=
    eq_ok_of_toOption_eq_some (by decide +kernel)
  exact ⟨hlines, resolves_of_assemble hlines⟩

end Listing

end Unjump
