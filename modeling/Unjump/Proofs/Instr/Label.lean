import Unjump.Proofs.Instr.Shape

/-!
# The labels of code

In code that a listing or bytes give, exactly the jumps name a target, and every target is the
position of an instruction (`labelled_of_produced`).
-/

namespace Unjump

/-- Exactly the jumps name a target, and every target is the position of an instruction. -/
def Labelled (code : List Instr) : Prop :=
  ∀ i ∈ code, i.label?.isSome = i.opcode.isJump ∧ ∀ target ∈ i.label?, target < code.length

instance (code : List Instr) : Decidable (Labelled code) :=
  inferInstanceAs (Decidable (∀ i ∈ code, _ ∧ ∀ target ∈ i.label?, _))

/-- A target fits the format of a jump only. -/
theorem Operand.eq_jump_of_fits_label {format : Format} {target : Nat}
    (h : (Operand.label target).fits format = true) : format = .jump := by
  cases format with
  | jump => rfl
  | none | byte | short | slot | pool | increment => cases h

/-- An instruction names a target exactly if it is a jump. -/
theorem Instr.isSome_label? {i : Instr} (hfits : i.operand.fits i.opcode.format = true) :
    i.label?.isSome = i.opcode.isJump := by
  obtain ⟨offset, opcode, operand⟩ := i
  cases hjump : opcode.isJump with
  | false =>
    rw [Option.isSome_eq_false_iff, Option.isNone_iff_eq_none, Option.eq_none_iff_forall_ne_some]
    intro target htarget
    have := isJump_of_label? hfits htarget
    simp [hjump] at this
  | true =>
    -- no other operand fits the format of a jump
    have hformat : opcode.format = .jump := by
      cases opcode <;> first | rfl | cases hjump
    rw [hformat] at hfits
    cases operand with
    | label target => rfl
    | none | immediate | slot | pool | constant | increment => cases hfits

/-! ## Listings -/

namespace Listing

/-- A target is never read: the name of a label is. -/
theorem readArgument?_ne_label {format : Format} {cs : List Char} {target : Nat} :
    readArgument? format cs ≠ some (.operand (.label target)) := by
  intro h
  obtain rfl := Operand.eq_jump_of_fits_label (fits_of_readArgument? h)
  cases h

/-- A target is the position of one of the labels. -/
theorem Draft.exists_label_of_resolve {labels : Labels} {draft : Draft} {i : Instr} {cs : List Char}
    (hread : readArgument? draft.opcode.format cs = some draft.argument)
    (h : draft.resolve labels = .ok i) {target : Nat} (htarget : i.label? = some target) :
    ∃ name, (name, target) ∈ labels := by
  unfold resolve at h
  split at h
  · rename_i value hvalue
    cases h
    -- what needs no label is no target
    rw [hvalue] at hread
    cases value with
    | label => exact absurd hread readArgument?_ne_label
    | none | immediate | slot | pool | constant | increment => cases htarget
  · rename_i name _
    split at h
    · rename_i found hlookup
      cases h
      obtain rfl : found = target := by simpa [Instr.label?] using htarget
      obtain ⟨before, after, hlabels, -⟩ := List.lookup_eq_some_iff.1 hlookup
      exact ⟨name, by simp [hlabels]⟩
    · cases h

/-- No label of a listing stands after its last instruction. -/
theorem lt_length_of_assemble {lines : List String} {code : List Instr}
    (h : assemble lines = .ok code) : ∀ i ∈ code, ∀ target ∈ i.label?, target < code.length := by
  unfold assemble at h
  split at h
  · cases h
  · rename_i labels drafts hread
    split at h
    · cases h
    · rename_i hdangling
      intro i hi target htarget
      obtain ⟨draft, hdraft, hresolve⟩ := exists_of_mem_mapM_eq_ok h hi
      obtain ⟨cs, hcs⟩ := exists_readArgument?_of_readLines hread draft hdraft
      obtain ⟨name, hname⟩ := Draft.exists_label_of_resolve hcs hresolve htarget
      have hinside := List.find?_eq_none.1 hdangling (name, target) hname
      rw [length_of_mapM_eq_ok h]
      simpa using hinside

end Listing

/-! ## Bytecode -/

namespace Bytecode

/-- A target is never read: the distance to it is. -/
theorem readArgument?_ne_label {format : Format} {bytes : List UInt8} {target : Nat} :
    readArgument? format bytes ≠ some (.operand (.label target)) := by
  intro h
  obtain rfl := Operand.eq_jump_of_fits_label (fits_of_readArgument? h)
  unfold readArgument? at h
  split at h <;> cases h

/-- A target is the position of an instruction. -/
theorem lt_length_of_decode {bytes : List UInt8} {code : List Instr} (h : decode bytes = .ok code) :
    ∀ i ∈ code, ∀ target ∈ i.label?, target < code.length := by
  unfold decode at h
  split at h
  · cases h
  · rename_i drafts hscan
    intro i hi target htarget
    obtain ⟨draft, hdraft, hresolve⟩ := exists_of_mem_mapM_eq_ok h hi
    obtain ⟨rest, hread⟩ := exists_readArgument?_of_scan drafts hscan draft hdraft
    rw [length_of_mapM_eq_ok h]
    unfold Draft.resolve at hresolve
    split at hresolve
    · rename_i value hvalue
      cases hresolve
      rw [hvalue] at hread
      cases value with
      | label => exact absurd hread readArgument?_ne_label
      | none | immediate | slot | pool | constant | increment => cases htarget
    · simp only at hresolve
      split at hresolve
      · -- the target has been found among the instructions
        rename_i position hfind
        cases hresolve
        obtain rfl : position = target := by simpa [Instr.label?] using htarget
        exact (List.findIdx?_eq_some_iff_getElem.1 hfind).1
      · cases hresolve

end Bytecode

/-- In code that a listing or bytes give, exactly the jumps name a target, and every target is the
position of an instruction. -/
theorem labelled_of_produced {code : List Instr} (h : Produced code) : Labelled code := by
  intro i hi
  refine ⟨Instr.isSome_label? (fits_of_produced h i hi), ?_⟩
  obtain ⟨lines, h⟩ | ⟨bytes, h⟩ := h
  · exact Listing.lt_length_of_assemble h i hi
  · exact Bytecode.lt_length_of_decode h i hi

end Unjump
