import Unjump.Proofs.Instr.Label
import Unjump.Proofs.Instr.Layout
import Unjump.Proofs.Instr.Written
import Unjump.Proofs.List

/-!
# Encoded code

Bytes are decoded to code exactly if they are written for it and every instruction starts where the
one before it ends (`decode_eq_ok_iff`). What is found in the bytes before targets are looked up is
given by `WrittenAll`, and `Draft.StandsFor` says which instruction a draft becomes.

- `scan_eq_ok_iff`: drafts are found exactly in the bytes that stand for them.
- `encodeAll?_eq_some_iff`: bytes are written for instructions exactly if they stand for drafts
  that become the instructions.
- `decode_exact`: decoding undoes encoding, both ways.
-/

namespace Unjump

namespace Bytecode

/-! ## Code -/

/-- The bytes stand for the drafts, one after the other. -/
inductive WrittenAll : List Draft → List UInt8 → Prop
  | nil : WrittenAll [] []
  | cons {draft : Draft} {drafts : List Draft} {bytes rest : List UInt8} :
    Written draft.opcode.format draft.argument bytes → WrittenAll drafts rest →
      WrittenAll (draft :: drafts) (draft.opcode.byte :: bytes ++ rest)

/-- The opcode with a byte is written as the byte. -/
theorem byte_of_ofByte? {b : UInt8} {op : Opcode} (h : Opcode.ofByte? b = some op) :
    op.byte = b := by
  simpa using List.find?_some h

/-- Bytes take as much room as their instructions. -/
theorem WrittenAll.length {drafts : List Draft} {bytes : List UInt8} (h : WrittenAll drafts bytes) :
    bytes.length = (drafts.map (·.opcode.format.size)).sum := by
  induction h with
  | nil => rfl
  | cons hwritten _ ih =>
    have := hwritten.length
    simp only [List.length_append, List.length_cons, List.map_cons, List.sum_cons, ← ih]
    omega

/-- No draft names a target: a jump goes by a distance. -/
theorem WrittenAll.ne_label {drafts : List Draft} {bytes : List UInt8}
    (h : WrittenAll drafts bytes) :
    ∀ draft ∈ drafts, ∀ target, draft.argument ≠ .operand (.label target) := by
  induction h with
  | nil => exact List.forall_mem_nil _
  | cons hwritten _ ih => exact List.forall_mem_cons.2 ⟨hwritten.ne_label, ih⟩

/-- The bytes that are scanned stand for the drafts that are found. -/
theorem writtenAll_of_scan {offset : Nat} {bytes : List UInt8} {drafts : List Draft}
    (h : scan offset bytes = .ok drafts) : WrittenAll drafts bytes := by
  fun_induction scan offset bytes generalizing drafts with
  | case1 => cases h; exact .nil
  | case2 => cases h
  | case3 => cases h
  | case4 => cases h
  | case5 offset b rest opcode hopcode argument hread later hscan ih =>
    cases h
    obtain ⟨front, after, hwritten, rfl⟩ := readArgument?_eq_some_iff.1 hread
    rw [hwritten.drop_append] at hscan ih
    rw [← byte_of_ofByte? hopcode, ← List.cons_append]
    exact .cons hwritten (ih hscan)

/-- The drafts that bytes stand for are found, if one stands behind the other. -/
theorem scan_of_writtenAll {offset : Nat} {bytes : List UInt8} {drafts : List Draft}
    (hoffsets : drafts.map (·.offset) = offsetsFrom offset (drafts.map (·.opcode)))
    (h : WrittenAll drafts bytes) : scan offset bytes = .ok drafts := by
  induction h generalizing offset with
  | nil => rw [scan]
  | @cons draft drafts front rest hwritten _ ih =>
    obtain ⟨rfl, hrest⟩ := List.cons.inj hoffsets
    have hread := readArgument?_eq_some_iff.2 ⟨front, rest, hwritten, rfl⟩
    rw [List.cons_append, scan]
    simp only [Opcode.ofByte?_byte, hread, hwritten.drop_append, ih hrest]

/-- The drafts are found exactly in the bytes that stand for them, if one stands behind the
other. -/
theorem scan_eq_ok_iff {offset : Nat} {bytes : List UInt8} {drafts : List Draft} :
    scan offset bytes = .ok drafts ↔
      drafts.map (·.offset) = offsetsFrom offset (drafts.map (·.opcode)) ∧
        WrittenAll drafts bytes :=
  ⟨fun h => ⟨offsets_of_scan h, writtenAll_of_scan h⟩, fun h => scan_of_writtenAll h.1 h.2⟩

/-- The draft is the instruction as bytes give it. -/
structure Draft.StandsFor (code : List Instr) (draft : Draft) (i : Instr) : Prop where
  offset : i.offset = draft.offset
  opcode : i.opcode = draft.opcode
  argument : argument? code i = some draft.argument

/-- The bytes of some of the instructions of code. -/
def encodeAll? (code instrs : List Instr) : Option (List UInt8) :=
  (instrs.mapM fun i => (encodeOperand? code i).map (i.opcode.byte :: ·)).map List.flatten

theorem encode?_eq (code : List Instr) : encode? code = encodeAll? code code := rfl

/-- What is written for instructions is what is written for the first of them and what is written
for the rest. -/
theorem encodeAll?_cons {code instrs : List Instr} {i : Instr} {bytes : List UInt8} :
    encodeAll? code (i :: instrs) = some bytes ↔
      ∃ operand rest, encodeOperand? code i = some operand ∧ encodeAll? code instrs = some rest ∧
        bytes = i.opcode.byte :: operand ++ rest := by
  unfold encodeAll?
  rw [List.mapM_cons]
  cases encodeOperand? code i with
  | none => simp
  | some operand =>
    cases instrs.mapM fun i => (encodeOperand? code i).map (i.opcode.byte :: ·) with
    | none => simp
    | some parts => simp [eq_comm]

/-- What is written for instructions are the bytes that stand for them. -/
theorem encodeAll?_eq_some_iff {code instrs : List Instr} {bytes : List UInt8} :
    encodeAll? code instrs = some bytes ↔
      ∃ drafts, List.Forall₂ (Draft.StandsFor code) drafts instrs ∧ WrittenAll drafts bytes := by
  induction instrs generalizing bytes with
  | nil =>
    constructor
    · rintro ⟨⟩
      exact ⟨[], .nil, .nil⟩
    · rintro ⟨_, ⟨⟩, ⟨⟩⟩
      rfl
  | cons i instrs ih =>
    rw [encodeAll?_cons]
    constructor
    · rintro ⟨operand, rest, hoperand, hrest, rfl⟩
      obtain ⟨argument, hargument, hwritten⟩ := encodeOperand?_eq_some_iff.1 hoperand
      obtain ⟨drafts, hdrafts, hall⟩ := ih.1 hrest
      exact ⟨⟨i.offset, i.opcode, argument⟩ :: drafts, .cons ⟨rfl, rfl, hargument⟩ hdrafts,
        .cons hwritten hall⟩
    · rintro ⟨_, hdrafts, hall⟩
      cases hdrafts with
      | @cons draft _ drafts _ hstands hdrafts =>
        cases hall with
        | @cons _ _ operand rest hwritten hall =>
          rw [← hstands.opcode] at hwritten ⊢
          exact ⟨operand, rest, encodeOperand?_eq_some_iff.2 ⟨_, hstands.argument, hwritten⟩,
            ih.2 ⟨drafts, hdrafts, hall⟩, rfl⟩

/-! ## Targets -/

/-- A draft stands for the instruction that looking up its target gives. -/
theorem Draft.standsFor_of_resolve {drafts : List Draft} {code : List Instr} {draft : Draft}
    {i : Instr} (hoffsets : drafts.map (·.offset) = code.map (·.offset))
    (hlabel : ∀ target, draft.argument ≠ .operand (.label target))
    (h : draft.resolve drafts = .ok i) : draft.StandsFor code i := by
  obtain ⟨hoffset, hopcode⟩ := place_of_resolve h
  refine ⟨hoffset, hopcode, ?_⟩
  unfold resolve at h
  split at h
  · rename_i value hvalue
    cases h
    cases value with
    | label target => exact absurd hvalue (hlabel target)
    | none | immediate | slot | pool | constant | increment => rw [hvalue]; rfl
  · rename_i n hn
    simp only at h
    split at h
    · rename_i position hfind
      cases h
      obtain ⟨hlt, htarget, -⟩ := List.findIdx?_eq_some_iff_getElem.1 hfind
      obtain ⟨goal, hgoal, hgoalOffset⟩ :=
        List.exists_getElem?_of_map_eq hoffsets (List.getElem?_eq_getElem hlt)
      -- the draft that was found and the instruction in its place have the same offset
      have hdistance : (goal.offset : Int) - draft.offset = n := by
        rw [hgoalOffset]
        simp only [decide_eq_true_eq] at htarget
        omega
      simp only [argument?, hgoal, hn, Option.map_some, hdistance]
    · cases h

/-- Among ascending offsets the place of an offset is the first one with it. -/
theorem findIdx?_of_ascending {drafts : List Draft}
    (hascending : (drafts.map (·.offset)).Pairwise (· < ·)) {position : Nat} {other : Draft}
    (h : drafts[position]? = some other) :
    drafts.findIdx? (fun draft => (draft.offset : Int) = other.offset) = some position := by
  obtain ⟨hlt, rfl⟩ := List.getElem?_eq_some_iff.1 h
  refine List.findIdx?_eq_some_iff_getElem.2 ⟨hlt, by simp, fun before hbefore => ?_⟩
  -- a draft before it has a smaller offset
  have := List.pairwise_iff_getElem.1 (List.pairwise_map.1 hascending) before position
    (Nat.lt_trans hbefore hlt) hlt hbefore
  simp only [decide_eq_true_eq]
  omega

/-- Looking up the target of a draft gives the instruction that it stands for, if the offsets
ascend. -/
theorem Draft.resolve_of_standsFor {drafts : List Draft} {code : List Instr} {draft : Draft}
    {i : Instr} (hoffsets : code.map (·.offset) = drafts.map (·.offset))
    (hascending : (drafts.map (·.offset)).Pairwise (· < ·)) (h : draft.StandsFor code i) :
    draft.resolve drafts = .ok i := by
  obtain ⟨hoffset, hopcode, hargument⟩ := h
  unfold resolve
  split
  · rename_i value hvalue
    rw [hvalue] at hargument
    rw [← argument?_eq_operand hargument, ← hoffset, ← hopcode]
  · rename_i n hn
    rw [hn] at hargument
    obtain ⟨target, goal, hoperand, hgoal, hdistance⟩ := argument?_eq_distance hargument
    obtain ⟨other, hother, hotherOffset⟩ := List.exists_getElem?_of_map_eq hoffsets hgoal
    have htarget : (draft.offset : Int) + n = other.offset := by omega
    simp only [htarget, findIdx?_of_ascending hascending hother]
    rw [← hoperand, ← hoffset, ← hopcode]

/-- Bytes are decoded to code exactly if they are written for it and every instruction starts where
the one before it ends. -/
theorem decode_eq_ok_iff {bytes : List UInt8} {code : List Instr} :
    decode bytes = .ok code ↔
      code.map (·.offset) = offsetsFrom 0 (code.map (·.opcode)) ∧ encode? code = some bytes := by
  rw [encode?_eq, encodeAll?_eq_some_iff]
  constructor
  · intro h
    refine ⟨offsets_of_decode h, ?_⟩
    unfold decode at h
    split at h
    · cases h
    · rename_i drafts hscan
      obtain ⟨-, hwritten⟩ := scan_eq_ok_iff.1 hscan
      have hoffsets : drafts.map (·.offset) = code.map (·.offset) :=
        (map_eq_of_mapM_eq_ok (fun _ _ hi => (Draft.place_of_resolve hi).1) h).symm
      refine ⟨drafts, ?_, hwritten⟩
      -- bytes give no draft that names its target, so every draft has gone by its distance
      have hall := (List.forall₂_and_left _ _).2
        ⟨hwritten.ne_label, mapM_eq_ok_iff_forall₂.1 h⟩
      exact hall.imp fun _ _ hi => Draft.standsFor_of_resolve hoffsets hi.1 hi.2
  · rintro ⟨hlayout, drafts, hstands, hwritten⟩
    have hoffsets : code.map (·.offset) = drafts.map (·.offset) :=
      List.map_eq_of_forall₂ (fun _ _ hi => Draft.StandsFor.offset hi) hstands
    have hopcodes : code.map (·.opcode) = drafts.map (·.opcode) :=
      List.map_eq_of_forall₂ (fun _ _ hi => Draft.StandsFor.opcode hi) hstands
    rw [hoffsets, hopcodes] at hlayout
    -- a target is found again, because no two drafts have the same offset
    have hascending : (drafts.map (·.offset)).Pairwise (· < ·) :=
      hlayout ▸ pairwise_offsetsFrom 0 _
    unfold decode
    rw [scan_eq_ok_iff.2 ⟨hlayout, hwritten⟩]
    exact mapM_eq_ok_iff_forall₂.2
      (hstands.imp fun _ _ hi => Draft.resolve_of_standsFor hoffsets hascending hi)

end Bytecode

/-! ## Code that can be encoded -/

/-- The operand has the shape of a format, and its bytes can hold it. -/
def Operand.inRange : Format → Operand → Bool
  | .none, .none => true
  | .byte, .immediate value => -128 ≤ value.toInt ∧ value.toInt ≤ 127
  | .short, .immediate value => -32768 ≤ value.toInt ∧ value.toInt ≤ 32767
  | .slot, .slot n | .pool, .pool n => n.toNat ≤ 255
  | .increment, .increment n amount =>
    n.toNat ≤ 255 ∧ -128 ≤ amount.toInt ∧ amount.toInt ≤ 127
  | .jump, .label _ => true
  | _, _ => false

/-- The distance from an instruction to another one is a number of 16 bits. -/
def Instr.isNear (i goal : Instr) : Bool :=
  -32768 ≤ (goal.offset : Int) - i.offset ∧ (goal.offset : Int) - i.offset ≤ 32767

namespace Bytecode

/-- The code has bytes that can be written for it. -/
structure IsEncodable (code : List Instr) : Prop where
  /-- Every instruction starts where the one before it ends. -/
  offsets : code.map (·.offset) = offsetsFrom 0 (code.map (·.opcode))
  /-- The operands have the shapes of their formats, and their bytes can hold them. -/
  operands : ∀ i ∈ code, i.operand.inRange i.opcode.format = true
  /-- Every target is the position of an instruction that is near enough. -/
  targets : ∀ i ∈ code, ∀ target ∈ i.label?, ∃ goal, code[target]? = some goal ∧ i.isNear goal

/-- An operand that its bytes can hold is written, and so is the distance to a target that is near
enough. -/
theorem exists_encodeOperand? {code : List Instr} {i : Instr}
    (hrange : i.operand.inRange i.opcode.format = true)
    (htargets : ∀ target ∈ i.label?, ∃ goal, code[target]? = some goal ∧ i.isNear goal) :
    ∃ bytes, encodeOperand? code i = some bytes := by
  unfold Operand.inRange at hrange
  split at hrange <;> rename_i hformat hoperand <;> simp only [encodeOperand?, hformat, hoperand]
  · exact ⟨_, rfl⟩
  · exact ⟨_, if_pos (of_decide_eq_true hrange)⟩
  · exact ⟨_, if_pos (of_decide_eq_true hrange)⟩
  · exact ⟨_, if_pos (of_decide_eq_true hrange)⟩
  · exact ⟨_, if_pos (of_decide_eq_true hrange)⟩
  · obtain ⟨hslot, hamount⟩ := of_decide_eq_true hrange
    exact ⟨_, by rw [index?, if_pos hslot, byte?, if_pos hamount]; rfl⟩
  · rename_i target
    obtain ⟨goal, hgoal, hnear⟩ := htargets target (by simp [Instr.label?, hoperand])
    rw [hgoal]
    exact ⟨_, if_pos (of_decide_eq_true hnear)⟩
  · cases hrange

/-- Bytes can be written for code whose operands can be. -/
theorem exists_encodeAll? {code instrs : List Instr}
    (h : ∀ i ∈ instrs, ∃ bytes, encodeOperand? code i = some bytes) :
    ∃ bytes, encodeAll? code instrs = some bytes := by
  induction instrs with
  | nil => exact ⟨[], rfl⟩
  | cons i instrs ih =>
    obtain ⟨⟨bytes, hbytes⟩, hinstrs⟩ := List.forall_mem_cons.1 h
    obtain ⟨rest, hrest⟩ := ih hinstrs
    exact ⟨_, encodeAll?_cons.2 ⟨bytes, rest, hbytes, hrest, rfl⟩⟩

/-- Bytes can be written for code that can be encoded, and the code is decoded from them. -/
theorem IsEncodable.exists_bytes {code : List Instr} (h : IsEncodable code) :
    ∃ bytes, encode? code = some bytes ∧ decode bytes = .ok code := by
  obtain ⟨bytes, hbytes⟩ :=
    exists_encodeAll? fun i hi => exists_encodeOperand? (h.operands i hi) (h.targets i hi)
  exact ⟨bytes, hbytes, decode_eq_ok_iff.2 ⟨h.offsets, hbytes⟩⟩

/-- Code takes as many bytes as its instructions. -/
theorem length_of_encode? {code : List Instr} {bytes : List UInt8} (h : encode? code = some bytes) :
    bytes.length = (code.map (·.opcode.format.size)).sum := by
  obtain ⟨drafts, hstands, hwritten⟩ := encodeAll?_eq_some_iff.1 h
  have hsizes : code.map (·.opcode.format.size) = drafts.map (·.opcode.format.size) :=
    List.map_eq_of_forall₂ (fun _ _ hi => by rw [hi.opcode]) hstands
  rw [hwritten.length, hsizes]

/-- Instructions are not more than their bytes. -/
theorem length_le_sum_size (code : List Instr) :
    code.length ≤ (code.map (·.opcode.format.size)).sum := by
  induction code with
  | nil => exact Nat.le_refl _
  | cons i code ih =>
    have := i.opcode.format.size_pos
    rw [List.length_cons, List.map_cons, List.sum_cons]
    omega

/-- The offsets and the targets of code that is decoded from bytes are less than the number of the
bytes. -/
theorem lt_length_bytes_of_decode {bytes : List UInt8} {code : List Instr}
    (h : decode bytes = .ok code) :
    ∀ i ∈ code, i.offset < bytes.length ∧ ∀ target ∈ i.label?, target < bytes.length := by
  obtain ⟨hoffsets, hencode⟩ := decode_eq_ok_iff.1 h
  have hlength := length_of_encode? hencode
  intro i hi
  constructor
  · have hmem : i.offset ∈ offsetsFrom 0 (code.map (·.opcode)) :=
      hoffsets ▸ List.mem_map_of_mem hi
    have := lt_of_mem_offsetsFrom hmem
    rw [List.map_map, Nat.zero_add] at this
    exact hlength ▸ this
  · intro target htarget
    have := lt_length_of_decode h i hi target htarget
    have := length_le_sum_size code
    omega

/-- Decoding undoes encoding, both ways: bytes that are decoded are those that are written for the
code, and code that can be encoded is decoded from what is written for it. Of less than `2 ^ 32`
bytes, 32 bits hold all offsets and targets. -/
theorem decode_exact :
    (∀ (bytes : List UInt8) (code : List Instr), bytes.length < 2 ^ 32 →
      decode bytes = .ok code →
        encode? code = some bytes ∧
          ∀ i ∈ code, i.offset < 2 ^ 32 ∧ ∀ target ∈ i.label?, target < 2 ^ 32) ∧
    ∀ code : List Instr, IsEncodable code →
      ∃ bytes, encode? code = some bytes ∧ decode bytes = .ok code := by
  refine ⟨fun bytes code hshort h => ⟨(decode_eq_ok_iff.1 h).2, fun i hi => ?_⟩,
    fun code h => h.exists_bytes⟩
  obtain ⟨hoffset, htargets⟩ := lt_length_bytes_of_decode h i hi
  exact ⟨Nat.lt_trans hoffset hshort, fun target htarget =>
    Nat.lt_trans (htargets target htarget) hshort⟩

/-- A loop that counts a variable down. -/
def countdown : List Instr :=
  [⟨0, .ldc, .pool 2⟩, ⟨2, .istore, .slot 1⟩, ⟨4, .iload1, .none⟩, ⟨5, .ifeq, .label 6⟩,
    ⟨8, .iinc, .increment 1 (-1)⟩, ⟨11, .goto, .label 2⟩, ⟨14, .returnVoid, .none⟩]

/-- The bytes of the loop. -/
def countdownBytes : List UInt8 :=
  [0x12, 0x02, 0x36, 0x01, 0x1b, 0x99, 0x00, 0x09, 0x84, 0x01, 0xff, 0xa7, 0xff, 0xf9, 0xb1]

theorem decode_exact_countdown :
    (countdownBytes.length < 2 ^ 32 ∧ decode countdownBytes = .ok countdown ∧
      encode? countdown = some countdownBytes ∧
        ∀ i ∈ countdown, i.offset < 2 ^ 32 ∧ ∀ target ∈ i.label?, target < 2 ^ 32) ∧
    IsEncodable countdown ∧
      ∃ bytes, encode? countdown = some bytes ∧ decode bytes = .ok countdown := by
  have hshort : countdownBytes.length < 2 ^ 32 := by decide
  have hdecode : decode countdownBytes = .ok countdown :=
    decode_eq_ok_iff.2 ⟨by decide, by decide⟩
  have hencodable : IsEncodable countdown :=
    ⟨by decide, by decide, by decide⟩
  exact ⟨⟨hshort, hdecode, decode_exact.1 _ _ hshort hdecode⟩, hencodable,
    decode_exact.2 _ hencodable⟩

end Bytecode

end Unjump
