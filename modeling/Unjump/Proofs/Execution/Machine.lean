import Unjump.Proofs.Execution.State
import Unjump.Replay

/-!
# Executing instructions

A frame is the state of a running method with the values on its operand stack. `Instr.execute` says
what an instruction does to a frame, opcode by opcode, and `runCode` runs the instructions of a
block that does not choose where control goes on. A run ends where an instruction leaves the method,
or raises an exception, or is applied to values of the wrong type.

`Action.run` gives the actions of a replay their meaning on values. An instruction does what its
action does (`Instr.run_of_execute`), although an action does not look at types.
-/

namespace Unjump

/-- The state of a running method and its operands, the one on top first. -/
structure Frame where
  state : State
  stack : List Value

/-- The type is one of references. -/
def JavaType.isReference : JavaType → Bool
  | .object _ | .array _ => true
  | _ => false

/-- The value of a constant. -/
def Constant.value : Constant → Value
  | .int n => .int n
  | .text t => .text t

namespace Frame

/-- Puts a value on top of the stack. -/
def push (f : Frame) (v : Value) : Option (Ending Frame) :=
  some (.goesOn { f with stack := v :: f.stack })

/-- Pushes the value of a variable, if it fits. -/
def load (f : Frame) (slot? : Option UInt16) (fits : Value → Bool) : Option (Ending Frame) :=
  match slot? with
  | some slot => if fits (f.state.locals slot) then f.push (f.state.locals slot) else none
  | none => none

/-- Takes a value from the stack, if it fits, and gives it to a variable. -/
def store (f : Frame) (slot? : Option UInt16) (fits : Value → Bool) : Option (Ending Frame) :=
  match slot?, f.stack with
  | some slot, v :: stack => if fits v then some (.goesOn ⟨f.state.setLocal slot v, stack⟩) else none
  | _, _ => none

/-- Adds a number to a variable. -/
def increment (f : Frame) (slot : UInt16) (amount : Int32) : Option (Ending Frame) :=
  match f.state.locals slot with
  | .int n => some (.goesOn { f with state := f.state.setLocal slot (.int (n + amount)) })
  | _ => none

/-- The type of the elements of an array. -/
def component? (f : Frame) (array : Value) : Option JavaType :=
  (f.state.array? array).map (·.2.component)

/-- Takes an index and an array whose type fits, and pushes the element. -/
def loadElement (f : Frame) (fits : JavaType → Bool) : Option (Ending Frame) :=
  match f.stack with
  | index :: array :: stack =>
    if (f.component? array).any fits then
      (f.state.element? array index).map fun v => .goesOn { f with stack := v :: stack }
    else none
  | _ => none

/-- Takes a value that fits, an index and an array whose type fits, and gives the element the
value. -/
def storeElement (f : Frame) (fits : JavaType → Bool) (fitsValue : Value → Bool) :
    Option (Ending Frame) :=
  match f.stack with
  | v :: index :: array :: stack =>
    if (f.component? array).any fits && fitsValue v then
      (f.state.setElement? array index v).map fun s => .goesOn ⟨s, stack⟩
    else none
  | _ => none

/-- Takes two numbers and pushes what an operation makes of them. -/
def compute (f : Frame) (op : Int32 → Int32 → Option Int32) : Option (Ending Frame) :=
  match f.stack with
  | .int b :: .int a :: stack =>
    (op a b).map fun n => .goesOn { f with stack := .int n :: stack }
  | _ => none

/-- Negates the number on top. -/
def negate (f : Frame) : Option (Ending Frame) :=
  match f.stack with
  | .int n :: stack => some (.goesOn { f with stack := .int (-n) :: stack })
  | _ => none

/-- Pushes the value on top once more. -/
def duplicate (f : Frame) : Option (Ending Frame) :=
  match f.stack with
  | v :: stack => some (.goesOn { f with stack := v :: v :: stack })
  | [] => none

/-- Takes the value on top away. -/
def discard (f : Frame) : Option (Ending Frame) :=
  match f.stack with
  | _ :: stack => some (.goesOn { f with stack })
  | [] => none

/-- Leaves the method with the value on top, if it fits. -/
def leaveWith (f : Frame) (fits : Value → Bool) : Option (Ending Frame) :=
  match f.stack with
  | v :: _ => if fits v then some (.leaves (some v) f.state) else none
  | [] => none

end Frame

namespace Instr

/-- Executes an instruction. There is no ending if that raises an exception, if the operands have
the wrong types, or if the instruction chooses where control goes on. -/
def execute (constants : List Constant) (i : Instr) (f : Frame) : Option (Ending Frame) :=
  match i.opcode with
  | .nop | .goto => some (.goesOn f)
  | .aconstNull => f.push .null
  | .iconstM1 => f.push (.int (-1))
  | .iconst0 => f.push (.int 0)
  | .iconst1 => f.push (.int 1)
  | .iconst2 => f.push (.int 2)
  | .iconst3 => f.push (.int 3)
  | .iconst4 => f.push (.int 4)
  | .iconst5 => f.push (.int 5)
  | .bipush | .sipush =>
    match i.operand with
    | .immediate n => f.push (.int n)
    | _ => none
  | .ldc =>
    match i.operand with
    | .constant c => f.push c.value
    | .pool index =>
      match constants[index.toNat]? with
      | some c => f.push c.value
      | none => none
    | _ => none
  | .iload | .iload0 | .iload1 | .iload2 | .iload3 => f.load i.slot? Value.isInt
  | .aload | .aload0 | .aload1 | .aload2 | .aload3 => f.load i.slot? Value.isReference
  | .istore | .istore0 | .istore1 | .istore2 | .istore3 => f.store i.slot? Value.isInt
  | .astore | .astore0 | .astore1 | .astore2 | .astore3 => f.store i.slot? Value.isReference
  | .iinc =>
    match i.operand with
    | .increment slot amount => f.increment slot amount
    | _ => none
  | .iaload => f.loadElement fun type => type = .int
  | .aaload => f.loadElement JavaType.isReference
  | .baload => f.loadElement fun type => type = .byte ∨ type = .boolean
  | .caload => f.loadElement fun type => type = .char
  | .iastore => f.storeElement (fun type => type = .int) Value.isInt
  | .aastore => f.storeElement JavaType.isReference Value.isReference
  | .iadd => f.compute fun a b => some (a + b)
  | .isub => f.compute fun a b => some (a - b)
  | .imul => f.compute fun a b => some (a * b)
  | .idiv => f.compute fun a b => if b = 0 then none else some (a / b)
  | .irem => f.compute fun a b => if b = 0 then none else some (a % b)
  | .ishl => f.compute fun a b => some (a <<< b)
  | .ishr => f.compute fun a b => some (a >>> b)
  | .iand => f.compute fun a b => some (a &&& b)
  | .ior => f.compute fun a b => some (a ||| b)
  | .ixor => f.compute fun a b => some (a ^^^ b)
  | .ineg => f.negate
  | .dup => f.duplicate
  | .pop => f.discard
  | .ireturn => f.leaveWith Value.isInt
  | .areturn => f.leaveWith Value.isReference
  | .returnVoid => some (.leaves none f.state)
  | .ifeq | .ifne | .iflt | .ifge | .ifgt | .ifle | .ifIcmpeq | .ifIcmpne | .ifIcmplt | .ifIcmpge
  | .ifIcmpgt | .ifIcmple | .ifAcmpeq | .ifAcmpne | .ifnull | .ifnonnull => none

end Instr

/-- Runs instructions one after the other, until one leaves the method. -/
def runCode (constants : List Constant) : List Instr → Frame → Option (Ending Frame)
  | [], f => some (.goesOn f)
  | i :: rest, f => do
    match ← i.execute constants f with
    | .goesOn f' => runCode constants rest f'
    | .leaves v s => some (.leaves v s)

/-! ## Actions on values -/

/-- Does with values what an action does with expressions. -/
def Action.run (constants : List Constant) (f : Frame) : Action → Option (Ending Frame)
  | .nothing => some (.goesOn f)
  | .push e => (e.value? f.state).bind f.push
  | .pushConstant index =>
    match constants[index.toNat]? with
    | some c => f.push c.value
    | none => none
  | .load slot _ => f.load (some slot) fun _ => true
  | .assign slot? _ => f.store slot? fun _ => true
  | .increment slot amount => f.increment slot amount
  | .loadElement => f.loadElement fun _ => true
  | .storeElement => f.storeElement (fun _ => true) fun _ => true
  | .arithmetic op => f.compute op.result?
  | .negate => f.negate
  | .duplicate => f.duplicate
  | .discard => f.discard
  | .leaveWithValue => f.leaveWith fun _ => true
  | .leave => some (.leaves none f.state)
  | .malformed => none

namespace Frame

variable {f : Frame} {ending : Ending Frame}

/-! A step that looks at types does what it would do without looking, if it does anything. -/

theorem load_of_fits {slot : UInt16} {fits : Value → Bool}
    (h : f.load (some slot) fits = some ending) :
    f.load (some slot) (fun _ => true) = some ending := by
  obtain ⟨-, h⟩ := Option.ite_none_right_eq_some.1 h
  exact h

theorem store_of_fits {slot? : Option UInt16} {fits : Value → Bool}
    (h : f.store slot? fits = some ending) : f.store slot? (fun _ => true) = some ending := by
  obtain ⟨state, stack⟩ := f
  cases slot? with
  | none => exact h
  | some slot =>
    cases stack with
    | nil => exact h
    | cons v stack =>
      obtain ⟨-, h⟩ := Option.ite_none_right_eq_some.1 h
      exact h

theorem leaveWith_of_fits {fits : Value → Bool} (h : f.leaveWith fits = some ending) :
    f.leaveWith (fun _ => true) = some ending := by
  obtain ⟨state, stack⟩ := f
  cases stack with
  | nil => exact h
  | cons v stack =>
    obtain ⟨-, h⟩ := Option.ite_none_right_eq_some.1 h
    exact h

theorem loadElement_of_fits {fits : JavaType → Bool} (h : f.loadElement fits = some ending) :
    f.loadElement (fun _ => true) = some ending := by
  obtain ⟨state, stack⟩ := f
  match stack, h with
  | index :: array :: stack, h =>
    obtain ⟨hfits, h⟩ := Option.ite_none_right_eq_some.1 h
    obtain ⟨type, htype, -⟩ := (Option.any_eq_true _ _).1 hfits
    exact (if_pos ((Option.any_eq_true _ _).2 ⟨type, htype, rfl⟩)).trans h

theorem storeElement_of_fits {fits : JavaType → Bool} {fitsValue : Value → Bool}
    (h : f.storeElement fits fitsValue = some ending) :
    f.storeElement (fun _ => true) (fun _ => true) = some ending := by
  obtain ⟨state, stack⟩ := f
  match stack, h with
  | v :: index :: array :: stack, h =>
    obtain ⟨hfits, h⟩ := Option.ite_none_right_eq_some.1 h
    obtain ⟨hfits, -⟩ := Bool.and_eq_true_iff.1 hfits
    obtain ⟨type, htype, -⟩ := (Option.any_eq_true _ _).1 hfits
    exact (if_pos (Bool.and_eq_true_iff.2
      ⟨(Option.any_eq_true _ _).2 ⟨type, htype, rfl⟩, rfl⟩)).trans h

end Frame

/-- An instruction that pushes a variable has the slot of the variable. -/
theorem Action.run_load {constants : List Constant} {f : Frame} {ending : Ending Frame}
    {slot? : Option UInt16} {fits : Value → Bool} (type : JavaType)
    (h : f.load slot? fits = some ending) :
    (match slot? with
      | some slot => Action.load slot type
      | none => .malformed).run constants f = some ending := by
  cases slot? with
  | none => exact h
  | some slot => exact Frame.load_of_fits h

/-- An instruction does what its action does. -/
theorem Instr.run_of_execute {constants : List Constant} {i : Instr} {f : Frame}
    {ending : Ending Frame} (h : i.execute constants f = some ending) :
    i.action.run constants f = some ending := by
  unfold execute at h
  unfold action
  cases hopcode : i.opcode with
  | nop | goto | aconstNull | iconstM1 | iconst0 | iconst1 | iconst2 | iconst3 | iconst4 | iconst5
  | iadd | isub | imul | idiv | irem | ishl | ishr | iand | ior | ixor | ineg | dup | pop
  | returnVoid =>
    simp only [hopcode] at h ⊢
    exact h
  | ifeq | ifne | iflt | ifge | ifgt | ifle | ifIcmpeq | ifIcmpne | ifIcmplt | ifIcmpge | ifIcmpgt
  | ifIcmple | ifAcmpeq | ifAcmpne | ifnull | ifnonnull =>
    simp only [hopcode] at h
    cases h
  | iload | iload0 | iload1 | iload2 | iload3 =>
    simp only [hopcode] at h ⊢
    exact Action.run_load .int h
  | aload | aload0 | aload1 | aload2 | aload3 =>
    simp only [hopcode] at h ⊢
    exact Action.run_load .javaObject h
  | istore | istore0 | istore1 | istore2 | istore3
  | astore | astore0 | astore1 | astore2 | astore3 =>
    simp only [hopcode] at h ⊢
    exact Frame.store_of_fits h
  | iaload | aaload | baload | caload =>
    simp only [hopcode] at h ⊢
    exact Frame.loadElement_of_fits h
  | iastore | aastore =>
    simp only [hopcode] at h ⊢
    exact Frame.storeElement_of_fits h
  | ireturn | areturn =>
    simp only [hopcode] at h ⊢
    exact Frame.leaveWith_of_fits h
  -- these opcodes look at the shape of their operand
  | bipush | sipush | iinc =>
    cases hoperand : i.operand <;> simp only [hopcode, hoperand] at h ⊢ <;> exact h
  | ldc =>
    cases hoperand : i.operand with
    | constant c =>
      simp only [hopcode, hoperand] at h ⊢
      cases c <;> exact h
    | none | immediate _ | slot _ | pool _ | increment _ _ | label _ =>
      simp only [hopcode, hoperand] at h ⊢
      exact h

end Unjump
