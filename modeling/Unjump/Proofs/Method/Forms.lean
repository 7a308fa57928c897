import Unjump.Proofs.Instr.Shape
import Unjump.Proofs.Region.Alike

/-!
# Short and long forms of instructions

Some opcodes say by their name what others say in an operand: the slot of a variable, or a small
number. Whether a method is written with the short forms or with the longer ones, it decompiles to
the same statements or fails for the same reason (`Method.decompile_of_sameOrLonger`): the two forms
are alike (`Instr.SameOrLonger.alike`), and nothing else of an instruction matters
(`Method.decompile_alike`).
-/

namespace Unjump

/-- The longer forms of a short opcode with their operands. -/
def Opcode.longForms : Opcode → List (Opcode × Operand)
  | .iload0 => [(.iload, .slot 0)]
  | .iload1 => [(.iload, .slot 1)]
  | .iload2 => [(.iload, .slot 2)]
  | .iload3 => [(.iload, .slot 3)]
  | .aload0 => [(.aload, .slot 0)]
  | .aload1 => [(.aload, .slot 1)]
  | .aload2 => [(.aload, .slot 2)]
  | .aload3 => [(.aload, .slot 3)]
  | .istore0 => [(.istore, .slot 0)]
  | .istore1 => [(.istore, .slot 1)]
  | .istore2 => [(.istore, .slot 2)]
  | .istore3 => [(.istore, .slot 3)]
  | .astore0 => [(.astore, .slot 0)]
  | .astore1 => [(.astore, .slot 1)]
  | .astore2 => [(.astore, .slot 2)]
  | .astore3 => [(.astore, .slot 3)]
  | .iconstM1 => number (-1)
  | .iconst0 => number 0
  | .iconst1 => number 1
  | .iconst2 => number 2
  | .iconst3 => number 3
  | .iconst4 => number 4
  | .iconst5 => number 5
  | _ => []
where
  /-- The forms that push a number. -/
  number (value : Int32) : List (Opcode × Operand) :=
    [(.bipush, .immediate value), (.sipush, .immediate value), (.ldc, .constant (.int value))]

namespace Instr

/-- The second instruction says what the first one says, at any offset, in the same form or, in
place of a short form, in a longer one. -/
def SameOrLonger (i i' : Instr) : Prop :=
  (i'.opcode = i.opcode ∧ i'.operand = i.operand) ∨ (i'.opcode, i'.operand) ∈ i.opcode.longForms

instance (i i' : Instr) : Decidable (i.SameOrLonger i') :=
  inferInstanceAs (Decidable (_ ∨ _))

/-- An instruction in a longer form cannot be told apart from the short one. -/
theorem SameOrLonger.alike {i i' : Instr} (h : i.SameOrLonger i')
    (hfits : i.operand.fits i.opcode.format = true) : i.Alike i' := by
  obtain ⟨hopcode, hoperand⟩ | hlong := h
  · exact .of_eq hopcode hoperand
  · obtain ⟨offset, opcode, operand⟩ := i
    obtain ⟨offset', opcode', operand'⟩ := i'
    cases opcode with
    | iload0 | iload1 | iload2 | iload3 | aload0 | aload1 | aload2 | aload3 | istore0 | istore1
    | istore2 | istore3 | astore0 | astore1 | astore2 | astore3 =>
      obtain ⟨rfl, rfl⟩ := Prod.mk.inj (List.mem_singleton.1 hlong)
      -- the operand of a short form is none, so it names no target
      cases operand <;> cases hfits
      exact ⟨rfl, rfl, rfl, rfl, nofun⟩
    | iconstM1 | iconst0 | iconst1 | iconst2 | iconst3 | iconst4 | iconst5 =>
      simp only [Opcode.longForms, Opcode.longForms.number, List.mem_cons, List.not_mem_nil,
        or_false, Prod.mk.injEq] at hlong
      cases operand <;> cases hfits
      obtain ⟨rfl, rfl⟩ | ⟨rfl, rfl⟩ | ⟨rfl, rfl⟩ := hlong <;>
        exact ⟨rfl, rfl, rfl, rfl, nofun⟩
    | _ => cases hlong

/-- Code with instructions in longer forms cannot be told apart from the short one. -/
theorem alike_of_sameOrLonger {code code' : List Instr} (h : List.Forall₂ SameOrLonger code code')
    (hfits : ∀ i ∈ code, i.operand.fits i.opcode.format = true) :
    List.Forall₂ Alike code code' := by
  induction h with
  | nil => exact .nil
  | cons hi _ ih =>
    obtain ⟨hfit, hfits⟩ := List.forall_mem_cons.1 hfits
    exact .cons (hi.alike hfit) (ih hfits)

end Instr

namespace Method

variable {m : Method} {code : List Instr}

/-- A method decompiles in the same way with code that is alike. -/
theorem decompile_alike (h : List.Forall₂ Instr.Alike m.code code) :
    SameOutcome Failure.Alike m.decompile { m with code }.decompile :=
  Context.decompile_alike ⟨BlockGraph.alike_build h, rfl, rfl⟩

/-- With instructions of its code in longer forms, a method decompiles to the same statements, and
it fails for the same reason. -/
theorem decompile_of_sameOrLonger (hcode : Produced m.code)
    (hforms : List.Forall₂ Instr.SameOrLonger m.code code) :
    (∀ statements, { m with code }.decompile = .ok statements ↔ m.decompile = .ok statements) ∧
      ∀ failure, m.decompile = .error failure →
        ∃ failure', { m with code }.decompile = .error failure' ∧ failure.Alike failure' := by
  obtain ⟨statements, h, h'⟩ | ⟨failure, failure', h, h', hfailure⟩ :=
    (decompile_alike (Instr.alike_of_sameOrLonger hforms (fits_of_produced hcode))).cases
  · simp [h, h']
  · simp [h, h', hfailure]

/-- A guarded assignment in short forms. -/
def brief : Method where
  name := "brief"
  descriptor := none
  locals := .empty
  constants := []
  code :=
    [⟨0, .iload0, .none⟩, ⟨1, .iconst2, .none⟩, ⟨2, .ifIcmplt, .label 5⟩, ⟨5, .iconstM1, .none⟩,
      ⟨6, .istore1, .none⟩, ⟨7, .returnVoid, .none⟩]

/-- The code of `brief` in longer forms, at the offsets that these take. -/
def briefLonger : List Instr :=
  [⟨0, .iload, .slot 0⟩, ⟨2, .sipush, .immediate 2⟩, ⟨5, .ifIcmplt, .label 5⟩,
    ⟨8, .ldc, .constant (.int (-1))⟩, ⟨10, .istore, .slot 1⟩, ⟨12, .returnVoid, .none⟩]

/-- The statements of `brief`. -/
def briefStatements : List Statement :=
  [.branch (.test (.compare .ge (.var ⟨0, "local0", .int⟩) (.int 2)))
      [.assign ⟨1, "local1", .int⟩ (.int (-1))] [],
    .leave none]

theorem decompile_of_sameOrLonger_brief :
    Produced brief.code ∧ List.Forall₂ Instr.SameOrLonger brief.code briefLonger ∧
      brief.decompile = .ok briefStatements ∧
      { brief with code := briefLonger }.decompile = .ok briefStatements :=
  have hcode : Produced brief.code :=
    .inl ⟨["iload_0", "iconst_2", "if_icmplt end", "iconst_m1", "istore_1", "end:", "return"],
      eq_ok_of_toOption_eq_some (by decide +kernel)⟩
  have hforms : List.Forall₂ Instr.SameOrLonger brief.code briefLonger := by decide
  have h : brief.decompile = .ok briefStatements := by with_unfolding_all rfl
  ⟨hcode, hforms, h, ((decompile_of_sameOrLonger hcode hforms).1 _).2 h⟩

end Method

end Unjump
