import Unjump.Instr.Bytecode

/-!
# Encoded operands

`Written` says for each format which bytes stand for an operand. What is read off bytes and what is
written for an instruction are both given by it (`readArgument?_eq_some_iff`,
`encodeOperand?_eq_some_iff`). For numbers, writing and reading undo each other
(`byte?_eq_some_iff`, `bytes?_eq_some_iff`, `index?_eq_some_iff`).
-/

namespace Unjump.Bytecode

/-! ## Numbers -/

/-- The upper half of the bytes stands for the negative numbers. -/
theorem signed8_eq (b : UInt8) :
    signed8 b = if b.toNat < 128 then (b.toNat : Int) else b.toNat - 256 := by
  have hb := b.toNat_lt
  unfold signed8
  rw [Int.bmod_def]
  by_cases hlow : b.toNat < 128
  · rw [if_pos hlow, if_pos (by omega)]
    omega
  · rw [if_neg hlow, if_neg (by omega)]
    omega

/-- The upper half of the pairs of bytes stands for the negative numbers. -/
theorem signed16_eq (high low : UInt8) :
    signed16 high low =
      if high.toNat < 128 then 256 * (high.toNat : Int) + low.toNat
      else 256 * (high.toNat : Int) + low.toNat - 65536 := by
  have hhigh := high.toNat_lt
  have hlow := low.toNat_lt
  unfold signed16
  rw [Int.bmod_def]
  by_cases hpositive : high.toNat < 128
  · rw [if_pos hpositive, if_pos (by omega)]
    omega
  · rw [if_neg hpositive, if_neg (by omega)]
    omega

/-- A number of 8 bits is written as the byte that it is read from. -/
theorem byte?_eq_some_iff {n : Int} {bytes : List UInt8} :
    byte? n = some bytes ↔ ∃ b, bytes = [b] ∧ signed8 b = n := by
  unfold byte?
  constructor
  · intro h
    split at h
    · cases h
      refine ⟨_, rfl, ?_⟩
      rw [signed8_eq, UInt8.toNat_ofNat']
      split <;> omega
    · cases h
  · rintro ⟨b, rfl, rfl⟩
    have hb := b.toNat_lt
    rw [signed8_eq]
    split <;>
    · rw [if_pos (by omega)]
      congr 2
      apply UInt8.toNat_inj.1
      rw [UInt8.toNat_ofNat']
      omega

/-- A number of 16 bits is written as the two bytes that it is read from. -/
theorem bytes?_eq_some_iff {n : Int} {bytes : List UInt8} :
    bytes? n = some bytes ↔ ∃ high low, bytes = [high, low] ∧ signed16 high low = n := by
  unfold bytes?
  constructor
  · intro h
    split at h
    · cases h
      refine ⟨_, _, rfl, ?_⟩
      rw [signed16_eq, UInt8.toNat_ofNat', UInt8.toNat_ofNat']
      split <;> omega
    · cases h
  · rintro ⟨high, low, rfl, rfl⟩
    have hhigh := high.toNat_lt
    have hlow := low.toNat_lt
    rw [signed16_eq]
    split <;>
    · rw [if_pos (by omega)]
      congr 3 <;>
      · apply UInt8.toNat_inj.1
        rw [UInt8.toNat_ofNat']
        omega

/-- A slot or an index is written as the byte that it is read from. -/
theorem index?_eq_some_iff {n : UInt16} {bytes : List UInt8} :
    index? n = some bytes ↔ ∃ b, bytes = [b] ∧ b.toUInt16 = n := by
  unfold index?
  constructor
  · intro h
    split at h
    · cases h
      refine ⟨_, rfl, ?_⟩
      apply UInt16.toNat_inj.1
      rw [UInt8.toNat_toUInt16, UInt16.toNat_toUInt8]
      omega
    · cases h
  · rintro ⟨b, rfl, rfl⟩
    have hb := b.toNat_lt
    rw [UInt8.toNat_toUInt16, if_pos (by omega), UInt8.toUInt8_toUInt16]

/-- What a byte stands for is kept by a number of 32 bits. -/
theorem toInt_ofInt_signed8 (b : UInt8) : (Int32.ofInt (signed8 b)).toInt = signed8 b := by
  have hb := b.toNat_lt
  apply Int32.toInt_ofInt_of_le <;> rw [signed8_eq] <;> split <;> omega

/-- What two bytes stand for is kept by a number of 32 bits. -/
theorem toInt_ofInt_signed16 (high low : UInt8) :
    (Int32.ofInt (signed16 high low)).toInt = signed16 high low := by
  have hhigh := high.toNat_lt
  have hlow := low.toNat_lt
  apply Int32.toInt_ofInt_of_le <;> rw [signed16_eq] <;> split <;> omega

/-! ## Operands -/

/-- The bytes stand for the operand in a format. -/
inductive Written : Format → Argument → List UInt8 → Prop
  | none : Written .none (.operand .none) []
  | byte (b : UInt8) : Written .byte (.operand (.immediate (Int32.ofInt (signed8 b)))) [b]
  | short (high low : UInt8) :
    Written .short (.operand (.immediate (Int32.ofInt (signed16 high low)))) [high, low]
  | slot (b : UInt8) : Written .slot (.operand (.slot b.toUInt16)) [b]
  | pool (b : UInt8) : Written .pool (.operand (.pool b.toUInt16)) [b]
  | increment (slot amount : UInt8) :
    Written .increment
      (.operand (.increment slot.toUInt16 (Int32.ofInt (signed8 amount)))) [slot, amount]
  | jump (high low : UInt8) : Written .jump (.distance (signed16 high low)) [high, low]

/-- An operand takes as many bytes as its format says. -/
theorem Written.length {format : Format} {argument : Argument} {bytes : List UInt8}
    (h : Written format argument bytes) : bytes.length + 1 = format.size := by
  cases h <;> rfl

/-- Behind an operand stands what follows it. -/
theorem Written.drop_append {format : Format} {argument : Argument} {bytes : List UInt8}
    (h : Written format argument bytes) (rest : List UInt8) :
    (bytes ++ rest).drop (format.size - 1) = rest := by
  rw [← h.length, Nat.add_sub_cancel, List.drop_left]

/-- A target is never written: the distance to it is. -/
theorem Written.ne_label {format : Format} {argument : Argument} {bytes : List UInt8}
    (h : Written format argument bytes) (target : Nat) : argument ≠ .operand (.label target) := by
  cases h <;> nofun

/-- An operand is read exactly off bytes that start with the ones that stand for it. -/
theorem readArgument?_eq_some_iff {format : Format} {bytes : List UInt8} {argument : Argument} :
    readArgument? format bytes = some argument ↔
      ∃ front rest, Written format argument front ∧ bytes = front ++ rest := by
  constructor
  · intro h
    unfold readArgument? at h
    split at h <;> cases h
    · exact ⟨[], _, .none, rfl⟩
    · exact ⟨[_], _, .byte _, rfl⟩
    · exact ⟨[_, _], _, .short _ _, rfl⟩
    · exact ⟨[_], _, .slot _, rfl⟩
    · exact ⟨[_], _, .pool _, rfl⟩
    · exact ⟨[_, _], _, .increment _ _, rfl⟩
    · exact ⟨[_, _], _, .jump _ _, rfl⟩
  · rintro ⟨front, rest, hwritten, rfl⟩
    cases hwritten <;> rfl

/-- The operand of an instruction as bytes give it: a jump goes by the distance to its target. -/
def argument? (code : List Instr) (i : Instr) : Option Argument :=
  match i.operand with
  | .label target => code[target]?.map fun goal => .distance ((goal.offset : Int) - i.offset)
  | value => some (.operand value)

/-- An operand that needs nothing else stands in the instruction itself. -/
theorem argument?_eq_operand {code : List Instr} {i : Instr} {value : Operand}
    (h : argument? code i = some (.operand value)) : i.operand = value := by
  unfold argument? at h
  split at h
  · obtain ⟨goal, -, heq⟩ := Option.map_eq_some_iff.1 h
    cases heq
  · cases h
    rfl

/-- A distance leads to the target of the instruction. -/
theorem argument?_eq_distance {code : List Instr} {i : Instr} {n : Int}
    (h : argument? code i = some (.distance n)) :
    ∃ target goal, i.operand = .label target ∧ code[target]? = some goal ∧
      (goal.offset : Int) - i.offset = n := by
  unfold argument? at h
  split at h
  · rename_i target htarget
    obtain ⟨goal, hgoal, heq⟩ := Option.map_eq_some_iff.1 h
    cases heq
    exact ⟨target, goal, htarget, hgoal, rfl⟩
  · cases h

/-- The bytes that are written for the operand of an instruction stand for it. -/
theorem written_of_encodeOperand? {code : List Instr} {i : Instr} {bytes : List UInt8}
    (h : encodeOperand? code i = some bytes) :
    ∃ argument, argument? code i = some argument ∧ Written i.opcode.format argument bytes := by
  unfold encodeOperand? at h
  split at h <;> rename_i hformat hoperand <;> simp only [argument?, hformat, hoperand]
  · cases h
    exact ⟨_, rfl, .none⟩
  · rename_i value
    obtain ⟨b, rfl, hb⟩ := byte?_eq_some_iff.1 h
    obtain rfl : Int32.ofInt (signed8 b) = value := by rw [hb, Int32.ofInt_toInt]
    exact ⟨_, rfl, .byte b⟩
  · rename_i value
    obtain ⟨high, low, rfl, hvalue⟩ := bytes?_eq_some_iff.1 h
    obtain rfl : Int32.ofInt (signed16 high low) = value := by rw [hvalue, Int32.ofInt_toInt]
    exact ⟨_, rfl, .short high low⟩
  · obtain ⟨b, rfl, rfl⟩ := index?_eq_some_iff.1 h
    exact ⟨_, rfl, .slot b⟩
  · obtain ⟨b, rfl, rfl⟩ := index?_eq_some_iff.1 h
    exact ⟨_, rfl, .pool b⟩
  · rename_i slot amount
    obtain ⟨first, hfirst, hrest⟩ := Option.bind_eq_some_iff.1 h
    obtain ⟨second, hsecond, heq⟩ := Option.bind_eq_some_iff.1 hrest
    cases heq
    obtain ⟨a, rfl, rfl⟩ := index?_eq_some_iff.1 hfirst
    obtain ⟨b, rfl, hb⟩ := byte?_eq_some_iff.1 hsecond
    obtain rfl : Int32.ofInt (signed8 b) = amount := by rw [hb, Int32.ofInt_toInt]
    exact ⟨_, rfl, .increment a b⟩
  · rename_i target
    obtain ⟨goal, hgoal, hbytes⟩ := Option.bind_eq_some_iff.1 h
    obtain ⟨high, low, rfl, hdistance⟩ := bytes?_eq_some_iff.1 hbytes
    have hwritten : Written .jump (.distance ((goal.offset : Int) - i.offset)) [high, low] :=
      hdistance ▸ .jump high low
    exact ⟨_, by rw [hgoal]; rfl, hwritten⟩
  · cases h

/-- The bytes that stand for the operand of an instruction are written for it. -/
theorem encodeOperand?_of_written {code : List Instr} {i : Instr} {argument : Argument}
    {bytes : List UInt8} (hargument : argument? code i = some argument)
    (h : Written i.opcode.format argument bytes) : encodeOperand? code i = some bytes := by
  unfold encodeOperand?
  generalize i.opcode.format = format at h ⊢
  cases h with
  | none => simp only [argument?_eq_operand hargument]
  | byte b =>
    simp only [argument?_eq_operand hargument, toInt_ofInt_signed8]
    exact byte?_eq_some_iff.2 ⟨b, rfl, rfl⟩
  | short high low =>
    simp only [argument?_eq_operand hargument, toInt_ofInt_signed16]
    exact bytes?_eq_some_iff.2 ⟨high, low, rfl, rfl⟩
  | slot b | pool b =>
    simp only [argument?_eq_operand hargument]
    exact index?_eq_some_iff.2 ⟨b, rfl, rfl⟩
  | increment slot amount =>
    simp only [argument?_eq_operand hargument, toInt_ofInt_signed8,
      index?_eq_some_iff.2 ⟨slot, rfl, rfl⟩, byte?_eq_some_iff.2 ⟨amount, rfl, rfl⟩]
    rfl
  | jump high low =>
    obtain ⟨target, goal, hoperand, hgoal, hdistance⟩ := argument?_eq_distance hargument
    simp only [hoperand, hgoal]
    exact bytes?_eq_some_iff.2 ⟨high, low, rfl, hdistance.symm⟩

/-- What is written for the operand of an instruction are the bytes that stand for it. -/
theorem encodeOperand?_eq_some_iff {code : List Instr} {i : Instr} {bytes : List UInt8} :
    encodeOperand? code i = some bytes ↔
      ∃ argument, argument? code i = some argument ∧ Written i.opcode.format argument bytes :=
  ⟨written_of_encodeOperand?, fun ⟨_, hargument, h⟩ => encodeOperand?_of_written hargument h⟩

end Unjump.Bytecode
