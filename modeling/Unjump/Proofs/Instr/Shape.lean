import Unjump.Instr.Bytecode
import Unjump.Instr.Listing
import Unjump.Proofs.Except

/-!
# The shape of operands

An instruction that a listing or bytes give has an operand of the shape that its opcode asks for
(`fits_of_produced`). So only jumps name a target.
-/

namespace Unjump

/-- The code is what some listing says or what some bytes encode. -/
def Produced (code : List Instr) : Prop :=
  (∃ lines, Listing.assemble lines = .ok code) ∨ ∃ bytes, Bytecode.decode bytes = .ok code

/-- The operand has the shape that a format asks for. -/
def Operand.fits : Format → Operand → Bool
  | .none, .none => true
  | .byte, .immediate _ | .short, .immediate _ => true
  | .slot, .slot _ => true
  | .pool, .pool _ | .pool, .constant _ => true
  | .increment, .increment _ _ => true
  | .jump, .label _ => true
  | _, _ => false

/-- An instruction with a target is a jump. -/
theorem Instr.isJump_of_label? {i : Instr} (hfits : i.operand.fits i.opcode.format = true)
    {target : Nat} (h : i.label? = some target) : i.opcode.isJump = true := by
  obtain ⟨offset, opcode, operand⟩ := i
  cases operand with
  -- a label fits the format of a jump only
  | label target => cases opcode <;> first | rfl | cases hfits
  | none | immediate | slot | pool | constant | increment => cases h

/-! ## Listings -/

namespace Listing

/-- The argument has the shape that a format asks for, or a label stands for it. -/
def Argument.fits (format : Format) : Argument → Bool
  | .operand value => value.fits format
  | .label _ => format = .jump

theorem fits_of_readConstant? {cs : List Char} {value : Operand}
    (h : readConstant? cs = some value) : value.fits .pool = true := by
  unfold readConstant? at h
  split at h <;>
  · obtain ⟨_, _, rfl⟩ := Option.map_eq_some_iff.1 h
    rfl

theorem fits_of_readIncrement? {cs : List Char} {value : Operand}
    (h : readIncrement? cs = some value) : value.fits .increment = true := by
  unfold readIncrement? at h
  split at h
  · split at h
    · cases h; rfl
    · cases h
  · cases h

theorem fits_of_readArgument? {format : Format} {cs : List Char} {argument : Argument}
    (h : readArgument? format cs = some argument) : argument.fits format = true := by
  cases format with
  | none | jump => cases h; rfl
  | byte | short | slot =>
    obtain ⟨_, _, rfl⟩ := Option.map_eq_some_iff.1 h
    rfl
  | pool =>
    obtain ⟨value, hvalue, rfl⟩ := Option.map_eq_some_iff.1 h
    exact fits_of_readConstant? hvalue
  | increment =>
    obtain ⟨value, hvalue, rfl⟩ := Option.map_eq_some_iff.1 h
    exact fits_of_readIncrement? hvalue

/-- The argument of a line has been read in the format of its opcode. -/
theorem exists_readArgument?_of_readLine {number : Nat} {source : List Char} {opcode : Opcode}
    {argument : Argument} (h : readLine number source = .ok (.instr opcode argument)) :
    ∃ cs, readArgument? opcode.format cs = some argument := by
  -- only the last way through a line gives an instruction
  unfold readLine at h
  simp only at h
  split at h
  · cases h
  · split at h
    · cases h
    · split at h
      · cases h
      · split at h
        · cases h
        · split at h
          · cases h
          · split at h
            · rename_i hread
              cases h
              exact ⟨_, hread⟩
            · cases h

theorem exists_readArgument?_of_readLines {number position offset : Nat} {labels labels' : Labels}
    {lines : List (List Char)} {drafts : List Draft}
    (h : readLines number position offset labels lines = .ok (labels', drafts)) :
    ∀ d ∈ drafts, ∃ cs, readArgument? d.opcode.format cs = some d.argument := by
  induction lines generalizing number position offset labels drafts with
  | nil => cases h; simp
  | cons source rest ih =>
    unfold readLines at h
    split at h
    · cases h
    · -- a line without an instruction adds no draft
      exact ih h
    · split at h
      · cases h
      · exact ih h
    · rename_i opcode argument hline
      split at h
      · cases h
      · rename_i labels'' later hrest
        cases h
        intro d hd
        obtain rfl | hd := List.mem_cons.1 hd
        · exact exists_readArgument?_of_readLine hline
        · exact ih hrest d hd

theorem Draft.fits_of_resolve {labels : Labels} {draft : Draft} {i : Instr}
    (h : draft.resolve labels = .ok i) (hfits : draft.argument.fits draft.opcode.format = true) :
    i.operand.fits i.opcode.format = true := by
  unfold resolve at h
  split at h
  · rename_i value hvalue
    cases h
    rwa [hvalue] at hfits
  · rename_i name hname
    split at h
    · cases h
      simp only [hname, Argument.fits, decide_eq_true_eq] at hfits
      simp [hfits, Operand.fits]
    · cases h

theorem fits_of_assemble {lines : List String} {code : List Instr}
    (h : assemble lines = .ok code) : ∀ i ∈ code, i.operand.fits i.opcode.format = true := by
  unfold assemble at h
  split at h
  · cases h
  · rename_i labels drafts hread
    split at h
    · cases h
    · intro i hi
      obtain ⟨draft, hdraft, hresolve⟩ := exists_of_mem_mapM_eq_ok h hi
      obtain ⟨cs, hcs⟩ := exists_readArgument?_of_readLines hread draft hdraft
      exact Draft.fits_of_resolve hresolve (fits_of_readArgument? hcs)

end Listing

/-! ## Bytecode -/

namespace Bytecode

/-- The argument has the shape that a format asks for, or a distance stands for it. -/
def Argument.fits (format : Format) : Argument → Bool
  | .operand value => value.fits format
  | .distance _ => format = .jump

theorem fits_of_readArgument? {format : Format} {bytes : List UInt8} {argument : Argument}
    (h : readArgument? format bytes = some argument) : argument.fits format = true := by
  unfold readArgument? at h
  split at h <;> cases h <;> rfl

/-- The argument of a draft has been read in the format of its opcode. -/
theorem exists_readArgument?_of_scan {offset : Nat} {bytes : List UInt8} :
    ∀ drafts, scan offset bytes = .ok drafts →
      ∀ d ∈ drafts, ∃ rest, readArgument? d.opcode.format rest = some d.argument := by
  fun_induction scan offset bytes with
  | case1 => rintro drafts ⟨⟩; simp
  | case2 => rintro drafts ⟨⟩
  | case3 => rintro drafts ⟨⟩
  | case4 => rintro drafts ⟨⟩
  | case5 offset b rest opcode _ argument hread later hscan ih =>
    rintro drafts ⟨⟩ d hd
    obtain rfl | hd := List.mem_cons.1 hd
    · exact ⟨rest, hread⟩
    · exact ih later hscan d hd

theorem Draft.fits_of_resolve {all : List Draft} {draft : Draft} {i : Instr}
    (h : draft.resolve all = .ok i) (hfits : draft.argument.fits draft.opcode.format = true) :
    i.operand.fits i.opcode.format = true := by
  unfold resolve at h
  split at h
  · rename_i value hvalue
    cases h
    rwa [hvalue] at hfits
  · rename_i bytes hbytes
    simp only at h
    split at h
    · cases h
      simp only [hbytes, Argument.fits, decide_eq_true_eq] at hfits
      simp [hfits, Operand.fits]
    · cases h

theorem fits_of_decode {bytes : List UInt8} {code : List Instr} (h : decode bytes = .ok code) :
    ∀ i ∈ code, i.operand.fits i.opcode.format = true := by
  unfold decode at h
  split at h
  · cases h
  · rename_i drafts hscan
    intro i hi
    obtain ⟨draft, hdraft, hresolve⟩ := exists_of_mem_mapM_eq_ok h hi
    obtain ⟨rest, hrest⟩ := exists_readArgument?_of_scan drafts hscan draft hdraft
    exact Draft.fits_of_resolve hresolve (fits_of_readArgument? hrest)

end Bytecode

/-- Every instruction of a listing or of bytes has an operand of the shape of its format. -/
theorem fits_of_produced {code : List Instr} (h : Produced code) :
    ∀ i ∈ code, i.operand.fits i.opcode.format = true := by
  obtain ⟨lines, h⟩ | ⟨bytes, h⟩ := h
  · exact Listing.fits_of_assemble h
  · exact Bytecode.fits_of_decode h

end Unjump
