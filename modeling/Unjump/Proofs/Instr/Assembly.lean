import Unjump.Proofs.Instr.Encoding

/-!
# Assembled code and encoded code

The numbers of a listing are read in the ranges that the bytes of their formats can hold
(`inRange_of_readArgument?`). So the code that a listing gives is also the code that the bytes
written for it give (`decode_encode_of_assemble`).
-/

namespace Unjump

/-! ## Numbers in a text -/

namespace Text.Decimal

theorem le_of_natural? {high n : Nat} {cs : List Char} (h : natural? high cs = some n) :
    n ≤ high := by
  simpa using (Option.filter_eq_some_iff.1 h).2

theorem mem_range_of_integer? {low high n : Int} {cs : List Char}
    (h : integer? low high cs = some n) : low ≤ n ∧ n ≤ high := by
  simpa using (Option.filter_eq_some_iff.1 h).2

end Text.Decimal

namespace Listing

open Text

theorem mem_range_of_readSigned8? {cs : List Char} {value : Int32}
    (h : readSigned8? cs = some value) : -128 ≤ value.toInt ∧ value.toInt ≤ 127 := by
  obtain ⟨n, hn, rfl⟩ := Option.map_eq_some_iff.1 h
  have hrange := Decimal.mem_range_of_integer? hn
  rwa [Int32.toInt_ofInt_of_le (by omega) (by omega)]

theorem le_of_readSlot? {cs : List Char} {slot : UInt16} (h : readSlot? cs = some slot) :
    slot.toNat ≤ 255 := by
  obtain ⟨n, hn, rfl⟩ := Option.map_eq_some_iff.1 h
  have := Decimal.le_of_natural? hn
  rw [UInt16.toNat_ofNat']
  omega

/-- An operand of `ldc` is a constant in the listing or an index that a byte can hold. -/
theorem inRange_of_readConstant? {cs : List Char} {value : Operand}
    (h : readConstant? cs = some value) (hconstant : ∀ c, value ≠ .constant c) :
    value.inRange .pool = true := by
  unfold readConstant? at h
  split at h
  · obtain ⟨text, -, rfl⟩ := Option.map_eq_some_iff.1 h
    exact absurd rfl (hconstant _)
  · obtain ⟨n, hn, rfl⟩ := Option.map_eq_some_iff.1 h
    have := Decimal.le_of_natural? hn
    simp only [Operand.inRange, decide_eq_true_eq, UInt16.toNat_ofNat']
    omega
  · obtain ⟨n, -, rfl⟩ := Option.map_eq_some_iff.1 h
    exact absurd rfl (hconstant _)

theorem inRange_of_readIncrement? {cs : List Char} {value : Operand}
    (h : readIncrement? cs = some value) : value.inRange .increment = true := by
  unfold readIncrement? at h
  split at h
  · split at h
    · rename_i hslot hamount
      cases h
      exact decide_eq_true ⟨le_of_readSlot? hslot, mem_range_of_readSigned8? hamount⟩
    · cases h
  · cases h

/-- An operand that is read in a format is in the range of the format, apart from a constant that
stands in the listing. -/
theorem inRange_of_readArgument? {format : Format} {cs : List Char} {value : Operand}
    (h : readArgument? format cs = some (.operand value)) (hconstant : ∀ c, value ≠ .constant c) :
    value.inRange format = true := by
  cases format with
  | none => cases h; rfl
  | jump => cases h
  | byte =>
    obtain ⟨n, hn, heq⟩ := Option.map_eq_some_iff.1 h
    cases heq
    exact decide_eq_true (mem_range_of_readSigned8? hn)
  | short =>
    obtain ⟨n, hn, heq⟩ := Option.map_eq_some_iff.1 h
    cases heq
    have hrange := Decimal.mem_range_of_integer? hn
    simp only [Operand.inRange, decide_eq_true_eq]
    rwa [Int32.toInt_ofInt_of_le (by omega) (by omega)]
  | slot =>
    obtain ⟨n, hn, heq⟩ := Option.map_eq_some_iff.1 h
    cases heq
    exact decide_eq_true (le_of_readSlot? hn)
  | pool =>
    obtain ⟨operand, hoperand, heq⟩ := Option.map_eq_some_iff.1 h
    cases heq
    exact inRange_of_readConstant? hoperand hconstant
  | increment =>
    obtain ⟨operand, hoperand, heq⟩ := Option.map_eq_some_iff.1 h
    cases heq
    exact inRange_of_readIncrement? hoperand

theorem Draft.inRange_of_resolve {labels : Labels} {draft : Draft} {i : Instr} {cs : List Char}
    (hread : readArgument? draft.opcode.format cs = some draft.argument)
    (h : draft.resolve labels = .ok i) (hconstant : ∀ c, i.operand ≠ .constant c) :
    i.operand.inRange i.opcode.format = true := by
  have hfits := fits_of_readArgument? hread
  unfold resolve at h
  split at h
  · rename_i value hvalue
    cases h
    exact inRange_of_readArgument? (hvalue ▸ hread) hconstant
  · rename_i name hname
    split at h
    · cases h
      -- only a jump names a label
      rw [hname] at hfits
      simp only [of_decide_eq_true hfits, Operand.inRange]
    · cases h

/-- The operands of a listing are in the ranges of their formats, apart from constants that stand in
the listing. -/
theorem inRange_of_assemble {lines : List String} {code : List Instr}
    (h : assemble lines = .ok code) {i : Instr} (hi : i ∈ code)
    (hconstant : ∀ c, i.operand ≠ .constant c) : i.operand.inRange i.opcode.format = true := by
  unfold assemble at h
  split at h
  · cases h
  · rename_i labels drafts hlines
    split at h
    · cases h
    · obtain ⟨draft, hdraft, hresolve⟩ := exists_of_mem_mapM_eq_ok h hi
      obtain ⟨cs, hread⟩ := exists_readArgument?_of_readLines hlines draft hdraft
      exact Draft.inRange_of_resolve hread hresolve hconstant

/-- The code of a listing without constants can be encoded, if its jumps are near enough to their
targets. -/
theorem isEncodable_of_assemble {lines : List String} {code : List Instr}
    (h : assemble lines = .ok code) (hconstant : ∀ i ∈ code, ∀ c, i.operand ≠ .constant c)
    (hnear : ∀ i ∈ code, ∀ target ∈ i.label?, ∀ goal ∈ code[target]?, i.isNear goal) :
    Bytecode.IsEncodable code where
  offsets := offsets_of_assemble h
  operands := fun i hi => inRange_of_assemble h hi (hconstant i hi)
  targets := fun i hi target htarget => by
    have hlt := lt_length_of_assemble h i hi target htarget
    exact ⟨code[target], List.getElem?_eq_getElem hlt,
      hnear i hi target htarget _ (List.getElem?_eq_getElem hlt)⟩

/-- The code of a listing without constants, whose jumps are near enough to their targets, is what
the bytes written for it are decoded to. -/
theorem decode_encode_of_assemble {lines : List String} {code : List Instr}
    (h : assemble lines = .ok code) (hconstant : ∀ i ∈ code, ∀ c, i.operand ≠ .constant c)
    (hnear : ∀ i ∈ code, ∀ target ∈ i.label?, ∀ goal ∈ code[target]?, i.isNear goal) :
    ∃ bytes, Bytecode.encode? code = some bytes ∧ Bytecode.decode bytes = .ok code :=
  (isEncodable_of_assemble h hconstant hnear).exists_bytes

/-- The listing of the loop. -/
def countdownLines : List String :=
  ["ldc #2", "istore 1 // the number to start with", "again:", "  iload_1", "  ifeq done",
    "  iinc 1, -1", "  goto again", "", "done: // nothing is left", "return"]

theorem decode_encode_of_assemble_countdown :
    assemble countdownLines = .ok Bytecode.countdown ∧
      (∀ i ∈ Bytecode.countdown, ∀ c, i.operand ≠ .constant c) ∧
      (∀ i ∈ Bytecode.countdown, ∀ target ∈ i.label?, ∀ goal ∈ Bytecode.countdown[target]?,
        i.isNear goal) ∧
      ∃ bytes, Bytecode.encode? Bytecode.countdown = some bytes ∧
        Bytecode.decode bytes = .ok Bytecode.countdown := by
  have hlines : assemble countdownLines = .ok Bytecode.countdown :=
    eq_ok_of_toOption_eq_some (by decide +kernel)
  have hconstant : ∀ i ∈ Bytecode.countdown, ∀ c, i.operand ≠ .constant c := by
    simp [Bytecode.countdown]
  have hnear : ∀ i ∈ Bytecode.countdown, ∀ target ∈ i.label?,
      ∀ goal ∈ Bytecode.countdown[target]?, i.isNear goal := by decide
  exact ⟨hlines, hconstant, hnear, decode_encode_of_assemble hlines hconstant hnear⟩

end Listing

end Unjump
