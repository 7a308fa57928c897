import Unjump.Condition.OfBlock
import Unjump.Proofs.Execution.Replay

/-!
# What the test of a jump says

A conditional jump takes its operands from the stack, and is taken or not (`Opcode.jump?`). So a
state and an empty stack decide whether the jump at the end of a block is taken, if control comes
there (`Context.jumps?`). The test that a replay of the block finds for the jump has this as its
truth value in that state, as long as the replay emits no statement (`Context.outcome_of_jumpTest`).

A block may hold conditional jumps in front of its last one. If such a jump is not taken, the run
has taken its operands, while a replay leaves them on its stack. From there on the run has fewer
operands than the replay (`Frame.MatchesOrLags`), too few for the jump at the end.
-/

namespace Unjump

/-! ## Conditional jumps -/

namespace Frame

/-- Takes a number and asks a question of it. -/
def askNumber (f : Frame) (p : Int32 → Bool) : Option (Bool × Frame) :=
  match f.stack with
  | .int n :: stack => some (p n, { f with stack })
  | _ => none

/-- Takes two numbers and asks a question of them. -/
def askNumbers (f : Frame) (p : Int32 → Int32 → Bool) : Option (Bool × Frame) :=
  match f.stack with
  | .int b :: .int a :: stack => some (p a b, { f with stack })
  | _ => none

/-- Takes a reference and asks a question of it. -/
def askReference (f : Frame) (p : Value → Bool) : Option (Bool × Frame) :=
  match f.stack with
  | v :: stack => if v.isReference then some (p v, { f with stack }) else none
  | [] => none

/-- Takes two references and asks a question of them. -/
def askReferences (f : Frame) (p : Value → Value → Bool) : Option (Bool × Frame) :=
  match f.stack with
  | w :: v :: stack =>
    if v.isReference ∧ w.isReference then some (p v w, { f with stack }) else none
  | _ => none

end Frame

/-- Whether a conditional jump is taken, and the frame after it. There is no answer if operands are
missing or have the wrong types. -/
def Opcode.jump? (opcode : Opcode) (f : Frame) : Option (Bool × Frame) :=
  match opcode with
  | .ifeq => f.askNumber fun n => n = 0
  | .ifne => f.askNumber fun n => n ≠ 0
  | .iflt => f.askNumber fun n => n < 0
  | .ifge => f.askNumber fun n => n ≥ 0
  | .ifgt => f.askNumber fun n => n > 0
  | .ifle => f.askNumber fun n => n ≤ 0
  | .ifIcmpeq => f.askNumbers fun a b => a = b
  | .ifIcmpne => f.askNumbers fun a b => a ≠ b
  | .ifIcmplt => f.askNumbers fun a b => a < b
  | .ifIcmpge => f.askNumbers fun a b => a ≥ b
  | .ifIcmpgt => f.askNumbers fun a b => a > b
  | .ifIcmple => f.askNumbers fun a b => a ≤ b
  | .ifAcmpeq => f.askReferences fun v w => v = w
  | .ifAcmpne => f.askReferences fun v w => v ≠ w
  | .ifnull => f.askReference fun v => v = .null
  | .ifnonnull => f.askReference fun v => v ≠ .null
  | _ => none

/-- The frame in which control goes on to the next instruction. A conditional jump lets it go on
there if it is not taken. -/
def Instr.pass? (constants : List Constant) (i : Instr) (f : Frame) : Option Frame :=
  if i.opcode.isConditional then
    match i.opcode.jump? f with
    | some (false, f') => some f'
    | _ => none
  else
    match i.execute constants f with
    | some (.goesOn f') => some f'
    | _ => none

/-- The frame in which control comes to the end of code, from instruction to instruction. -/
def passCode (constants : List Constant) (code : List Instr) (f : Frame) : Option Frame :=
  code.foldlM (fun f i => i.pass? constants f) f

namespace Context

/-- The code that leaves operands for the test of a block. -/
def feederCode (ctx : Context) (block : Nat) : List Instr :=
  (((ctx.graph.block? block).bind (·.feeder)).map ctx.graph.code).getD []

/-- Whether the jump at the end of a block is taken, if control comes there with an empty stack in
front of the block, or in front of the one that leaves operands for it. -/
def jumps? (ctx : Context) (block : Nat) (s : State) : Option Bool := do
  let before ← passCode ctx.constants (ctx.feederCode block) ⟨s, []⟩
  let f ← passCode ctx.constants (ctx.graph.code block).dropLast before
  let last ← ctx.graph.last? block
  let (taken, _) ← last.opcode.jump? f
  return taken

end Context

/-! ## How deep the stack is -/

namespace Frame

variable {f f' : Frame} {taken : Bool}

theorem stack_of_askNumber {p : Int32 → Bool} (h : f.askNumber p = some (taken, f')) :
    ∃ n, f.stack = .int n :: f'.stack ∧ p n = taken := by
  unfold askNumber at h
  split at h <;> cases h
  exact ⟨_, by assumption, rfl⟩

theorem stack_of_askNumbers {p : Int32 → Int32 → Bool}
    (h : f.askNumbers p = some (taken, f')) :
    ∃ a b, f.stack = .int b :: .int a :: f'.stack ∧ p a b = taken := by
  unfold askNumbers at h
  split at h <;> cases h
  exact ⟨_, _, by assumption, rfl⟩

theorem stack_of_askReference {p : Value → Bool} (h : f.askReference p = some (taken, f')) :
    ∃ v, f.stack = v :: f'.stack ∧ v.isReference ∧ p v = taken := by
  unfold askReference at h
  split at h
  · obtain ⟨hv, h⟩ := Option.ite_none_right_eq_some.1 h
    cases h
    exact ⟨_, by assumption, hv, rfl⟩
  · cases h

theorem stack_of_askReferences {p : Value → Value → Bool}
    (h : f.askReferences p = some (taken, f')) :
    ∃ v w, f.stack = w :: v :: f'.stack ∧ (v.isReference ∧ w.isReference) ∧ p v w = taken := by
  unfold askReferences at h
  split at h
  · obtain ⟨hvw, h⟩ := Option.ite_none_right_eq_some.1 h
    cases h
    exact ⟨_, _, by assumption, hvw, rfl⟩
  · cases h

theorem length_of_compute {op : Int32 → Int32 → Option Int32}
    (h : f.compute op = some (.goesOn f')) : f.stack.length = f'.stack.length + 1 := by
  unfold compute at h
  split at h
  · rename_i hstack
    obtain ⟨n, -, h⟩ := Option.map_eq_some_iff.1 h
    cases h
    rw [hstack]
    rfl
  · cases h

theorem length_of_negate (h : f.negate = some (.goesOn f')) :
    f.stack.length = f'.stack.length := by
  unfold negate at h
  split at h
  · rename_i hstack
    cases h
    rw [hstack]
    rfl
  · cases h

end Frame

/-- A conditional jump takes the operands that the table of opcodes says. -/
theorem Opcode.length_of_jump? {opcode : Opcode} {f f' : Frame} {taken : Bool}
    (h : opcode.jump? f = some (taken, f')) : f.stack.length = f'.stack.length + opcode.pops := by
  cases opcode with
  | ifeq | ifne | iflt | ifge | ifgt | ifle =>
    obtain ⟨n, hstack, -⟩ := Frame.stack_of_askNumber h
    exact congrArg List.length hstack
  | ifIcmpeq | ifIcmpne | ifIcmplt | ifIcmpge | ifIcmpgt | ifIcmple =>
    obtain ⟨a, b, hstack, -⟩ := Frame.stack_of_askNumbers h
    exact congrArg List.length hstack
  | ifAcmpeq | ifAcmpne =>
    obtain ⟨v, w, hstack, -⟩ := Frame.stack_of_askReferences h
    exact congrArg List.length hstack
  | ifnull | ifnonnull =>
    obtain ⟨v, hstack, -⟩ := Frame.stack_of_askReference h
    exact congrArg List.length hstack
  | _ => cases h

/-- Running an action takes and puts as many operands as replaying it. -/
theorem Action.length_of_run {constants : List Constant} {f f' : Frame} {action : Action}
    (h : action.run constants f = some (.goesOn f')) :
    f.stack.length + action.puts = f'.stack.length + action.takes := by
  obtain ⟨state, stack⟩ := f
  cases action with
  | nothing => cases h; rfl
  | push e =>
    obtain ⟨v, -, h⟩ := Option.bind_eq_some_iff.1 h
    cases h
    rfl
  | pushConstant index =>
    rw [run] at h
    split at h
    · cases h; rfl
    · cases h
  | load slot type => cases h; rfl
  | assign slot type =>
    obtain _ | ⟨v, rest⟩ := stack
    · cases slot <;> cases h
    · cases slot with
      | none => cases h
      | some slot => cases h; rfl
  | increment slot amount =>
    rw [run, Frame.increment] at h
    split at h
    · cases h; rfl
    · cases h
  | loadElement =>
    obtain _ | ⟨index, _ | ⟨array, rest⟩⟩ := stack
    · cases h
    · cases h
    · obtain ⟨v, -, h⟩ := Option.map_eq_some_iff.1 (Option.ite_none_right_eq_some.1 h).2
      cases h
      rfl
  | storeElement =>
    obtain _ | ⟨v, _ | ⟨index, _ | ⟨array, rest⟩⟩⟩ := stack
    · cases h
    · cases h
    · cases h
    · obtain ⟨s, -, h⟩ := Option.map_eq_some_iff.1 (Option.ite_none_right_eq_some.1 h).2
      cases h
      rfl
  | arithmetic op =>
    rw [Frame.length_of_compute h]
    rfl
  | negate =>
    rw [Frame.length_of_negate h]
    rfl
  | duplicate | discard =>
    obtain _ | ⟨v, rest⟩ := stack
    · cases h
    · cases h
      rfl
  | leaveWithValue => cases stack <;> cases h
  | leave => cases h
  | malformed => cases h

/-- Running an instruction takes and puts as many operands as the table of opcodes says. -/
theorem Instr.length_of_pass? {constants : List Constant} {i : Instr} {f f' : Frame}
    (h : i.pass? constants f = some f') :
    f.stack.length + i.opcode.pushes = f'.stack.length + i.opcode.pops := by
  unfold pass? at h
  split at h
  · rename_i hcond
    split at h
    · rename_i hjump
      cases h
      rw [Opcode.length_of_jump? hjump, Opcode.pushes_of_isConditional hcond]
      omega
    · cases h
  · rename_i hcond
    split at h
    · rename_i hexecute
      cases h
      have hrun := Instr.run_of_execute hexecute
      have hshape : i.action ≠ .malformed := fun hmalformed => by
        rw [hmalformed] at hrun
        cases hrun
      obtain ⟨htakes, hputs, -⟩ := i.action_spec hshape
      have hlength := Action.length_of_run hrun
      rw [htakes, hputs, Opcode.takes, if_neg hcond] at hlength
      exact hlength
    · cases h

/-! ## A run beside a replay -/

/-- A run is in a state and has the values there of the operands of a replay, or it has fewer
operands than the replay. -/
def Frame.MatchesOrLags (f : Frame) (s : State) (stack : List Expr) : Prop :=
  f.state = s ∧ Denotes s stack f.stack ∨ f.stack.length < stack.length

namespace Context

variable {ctx : Context} {block : Nat} {s : State}

/-- A run goes on beside a replay that emits no statement for an instruction. -/
theorem matchesOrLags_of_pass? {i : Instr} {stack stack' : List Expr} {f f' : Frame}
    (hreplay : ctx.replayInstr block ⟨[], stack⟩ i = .ok ⟨[], stack'⟩)
    (hpass : i.pass? ctx.constants f = some f') (hbefore : f.MatchesOrLags s stack) :
    f'.MatchesOrLags s stack' := by
  obtain ⟨htakes, ⟨top, htop, hstack⟩, -⟩ := follows_of_replayInstr hreplay
  have hlength := Instr.length_of_pass? hpass
  have hlength' : stack'.length = i.opcode.pushes + (stack.length - i.opcode.takes) := by
    rw [show stack' = _ from hstack, List.length_append, htop, List.length_drop]
  dsimp only at htakes
  cases hcond : i.opcode.isConditional with
  | true =>
    -- the run has taken the operands of the jump, and the replay leaves them on its stack
    have hpops : 0 < i.opcode.pops := Opcode.pops_pos_of_isConditional hcond
    have hle : f.stack.length ≤ stack.length := by
      obtain ⟨-, hdenotes⟩ | hlags := hbefore
      · exact Nat.le_of_eq hdenotes.length_eq.symm
      · exact Nat.le_of_lt hlags
    rw [Opcode.takes, if_pos hcond] at hlength'
    exact .inr (by omega)
  | false =>
    rw [Opcode.takes, if_neg (by simp [hcond])] at htakes hlength'
    obtain ⟨hstate, hdenotes⟩ | hlags := hbefore
    · simp only [Instr.pass?, hcond, Bool.false_eq_true, if_false] at hpass
      split at hpass
      · rename_i hexecute
        cases hpass
        obtain ⟨state, values⟩ := f
        obtain rfl : state = s := hstate
        obtain ⟨hgoes, hdenotes'⟩ :=
          Action.step_of_perform hreplay (Instr.run_of_execute hexecute) hdenotes
        -- without statements the state stays what it was
        cases hgoes
        exact .inl ⟨rfl, hdenotes'⟩
      · cases hpass
    · exact .inr (by omega)

/-- A run goes on beside a replay of code that emits no statement. -/
theorem matchesOrLags_of_passCode {code : List Instr} {stack stack' : List Expr} {f f' : Frame}
    (hreplay : code.foldlM (ctx.replayInstr block) ⟨[], stack⟩ = .ok ⟨[], stack'⟩)
    (hpass : passCode ctx.constants code f = some f') (hbefore : f.MatchesOrLags s stack) :
    f'.MatchesOrLags s stack' := by
  induction code generalizing stack f with
  | nil =>
    cases hreplay
    cases hpass
    exact hbefore
  | cons i rest ih =>
    obtain ⟨first, more, hfirst, hmore, heq⟩ := foldlM_replayInstr_cons.1 hreplay
    obtain ⟨emitted, middle⟩ := first
    obtain ⟨emitted', last⟩ := more
    obtain ⟨⟨rfl, rfl⟩, rfl⟩ : (emitted = [] ∧ emitted' = []) ∧ stack' = last := by
      simpa using heq
    obtain ⟨next, hnext, hrest⟩ := Option.bind_eq_some_iff.1 hpass
    exact ih hmore hrest (matchesOrLags_of_pass? hfirst hnext hbefore)

end Context

/-! ## The test of a jump -/

/-- References are compared by what they refer to. -/
theorem Comparison.outcome_of_isReference {v w : Value} (hv : v.isReference) (hw : w.isReference) :
    Comparison.eq.outcome v w = some (decide (v = w)) ∧
      Comparison.ne.outcome v w = some (decide (v ≠ w)) := by
  cases v with
  | int n => cases hv
  | null | text _ | object _ => exact ⟨if_pos ⟨hv, hw⟩, if_pos ⟨hv, hw⟩⟩

/-- Numbers are compared by size. -/
theorem Comparison.outcome_of_int (a b : Int32) (op : Comparison) :
    op.outcome (.int a) (.int b) = some (match op with
      | .eq => a = b
      | .ne => a ≠ b
      | .lt => a < b
      | .le => a ≤ b
      | .gt => a > b
      | .ge => a ≥ b) := by
  cases op <;> simp [outcome, holds, bne, beq_eq_decide, Int32.toInt_inj, Int32.lt_iff_toInt_lt,
    Int32.le_iff_toInt_le]

namespace Opcode

variable {opcode : Opcode} {op : Comparison} {stack : List Expr} {test : Test}

theorem eq_of_testOn?_of_one (hpops : opcode.pops = 1)
    (h : opcode.testOn? op stack = some test) :
    ∃ value, stack = [value] ∧ test = opcode.testOf op value := by
  unfold testOn? at h
  split at h
  · cases h
    exact ⟨_, rfl, rfl⟩
  · simp [hpops] at *
  · cases h

theorem eq_of_testOn?_of_two (hpops : opcode.pops = 2)
    (h : opcode.testOn? op stack = some test) :
    ∃ left right, stack = [right, left] ∧ test = .compare op left right := by
  unfold testOn? at h
  split at h
  · simp [hpops] at *
  · cases h
    exact ⟨_, _, rfl, rfl⟩
  · cases h

/-- A replay that finds a test has as many operands as the jump takes. -/
theorem length_of_testOn? (h : opcode.testOn? op stack = some test) :
    stack.length = opcode.pops := by
  unfold testOn? at h
  split at h
  · simp [*]
  · simp [*]
  · cases h

/-- The truth value of the test of a jump says whether the jump is taken on the values of the
operands. -/
theorem outcome_of_jump? (hop : opcode.comparison? = some op)
    (htest : opcode.testOn? op stack = some test) {f f' : Frame} {taken : Bool}
    (hjump : opcode.jump? f = some (taken, f')) {s : State} (hdenotes : Denotes s stack f.stack) :
    test.outcome s = some taken := by
  cases opcode with
  | ifeq | ifne | iflt | ifge | ifgt | ifle =>
    cases hop
    obtain ⟨value, rfl, rfl⟩ := eq_of_testOn?_of_one rfl htest
    obtain ⟨n, hstack, rfl⟩ := Frame.stack_of_askNumber hjump
    rw [hstack] at hdenotes
    obtain _ | ⟨hvalue, -⟩ := hdenotes
    simp [testOf, Test.outcome, hvalue, Expr.value?, Comparison.outcome_of_int, bne, beq_eq_decide]
  | ifIcmpeq | ifIcmpne | ifIcmplt | ifIcmpge | ifIcmpgt | ifIcmple =>
    cases hop
    obtain ⟨left, right, rfl, rfl⟩ := eq_of_testOn?_of_two rfl htest
    obtain ⟨a, b, hstack, rfl⟩ := Frame.stack_of_askNumbers hjump
    rw [hstack] at hdenotes
    obtain _ | ⟨hright, _ | ⟨hleft, -⟩⟩ := hdenotes
    simp [Test.outcome, hleft, hright, Comparison.outcome_of_int]
  | ifAcmpeq | ifAcmpne =>
    cases hop
    obtain ⟨left, right, rfl, rfl⟩ := eq_of_testOn?_of_two rfl htest
    obtain ⟨v, w, hstack, ⟨hv, hw⟩, rfl⟩ := Frame.stack_of_askReferences hjump
    rw [hstack] at hdenotes
    obtain _ | ⟨hright, _ | ⟨hleft, -⟩⟩ := hdenotes
    simp [Test.outcome, hleft, hright, Comparison.outcome_of_isReference hv hw]
  | ifnull | ifnonnull =>
    cases hop
    obtain ⟨value, rfl, rfl⟩ := eq_of_testOn?_of_one rfl htest
    obtain ⟨v, hstack, hv, rfl⟩ := Frame.stack_of_askReference hjump
    rw [hstack] at hdenotes
    obtain _ | ⟨hvalue, -⟩ := hdenotes
    have hnull : Value.null.isReference := rfl
    simp [testOf, Test.outcome, hvalue, Expr.value?, Comparison.outcome_of_isReference hv hnull]
  | _ => cases hop

/-- Only a conditional jump makes a comparison, and a replay does nothing for it. -/
theorem action_of_comparison? {i : Instr} (h : i.opcode.comparison? = some op) :
    i.action = .nothing := by
  obtain ⟨offset, opcode, operand⟩ := i
  cases opcode <;> first | rfl | cases h

end Opcode

namespace Context

variable {ctx : Context} {block : Nat}

/-- A replay for the test of a block that emits no statement replays the code that leaves operands
for the block, and then the code of the block. -/
theorem exists_replay_of_testStack {t : Trail} (h : ctx.testStack block = .ok t)
    (hquiet : t.emitted = []) :
    ∃ feeder operands,
      (ctx.feederCode block).foldlM (ctx.replayInstr feeder) ⟨[], []⟩ = .ok ⟨[], operands⟩ ∧
      (ctx.graph.code block).foldlM (ctx.replayInstr block) ⟨[], operands⟩ = .ok ⟨[], t.stack⟩ := by
  obtain ⟨emitted, stack⟩ := t
  obtain rfl : emitted = [] := hquiet
  unfold testStack at h
  unfold feederCode
  split at h
  · rename_i feeder hfeeder
    obtain ⟨first, hfirst, hsecond⟩ := bind_eq_ok.1 h
    obtain ⟨second, hsecond, heq⟩ := (foldlM_eq_ok_after replayInstr_after).1 hsecond
    obtain ⟨emitted, operands⟩ := first
    obtain ⟨emitted', stack'⟩ := second
    obtain ⟨⟨rfl, rfl⟩, rfl⟩ : (emitted = [] ∧ emitted' = []) ∧ stack = stack' := by
      simpa [Trail.after] using heq
    rw [hfeeder]
    exact ⟨feeder, operands, hfirst, hsecond⟩
  · rename_i hfeeder
    rw [hfeeder]
    exact ⟨block, [], rfl, h⟩

/-- The test of a jump is found on the stack that a replay leaves. -/
theorem exists_testOn?_of_jumpTest {test : Test} (h : ctx.jumpTest block = .ok test) :
    ∃ last op t, ctx.graph.last? block = some last ∧ last.opcode.comparison? = some op ∧
      ctx.testStack block = .ok t ∧ last.opcode.testOn? op t.stack = some test := by
  unfold jumpTest at h
  split at h
  · cases h
  · rename_i last hlast
    split at h
    · cases h
    · rename_i op hop
      split at h
      · cases h
      · rename_i t hstack
        split at h
        · rename_i htest
          cases h
          exact ⟨last, op, t, hlast, hop, hstack, htest⟩
        · cases h

/-- If a replay for the test of a jump emits no statement, the test says whether the jump is taken:
from every state in which control comes to the jump, the test has a truth value, and it is true
exactly if the jump is taken. -/
theorem outcome_of_jumpTest {test : Test} (htest : ctx.jumpTest block = .ok test)
    (hquiet : ∀ t, ctx.testStack block = .ok t → t.emitted = []) {s : State} {taken : Bool}
    (hjumps : ctx.jumps? block s = some taken) : test.outcome s = some taken := by
  obtain ⟨before, hbefore, hjumps⟩ := Option.bind_eq_some_iff.1 hjumps
  obtain ⟨f, hf, hjumps⟩ := Option.bind_eq_some_iff.1 hjumps
  obtain ⟨last, hlast, hjumps⟩ := Option.bind_eq_some_iff.1 hjumps
  obtain ⟨⟨taken, f'⟩, hjump, hjumps⟩ := Option.bind_eq_some_iff.1 hjumps
  cases hjumps
  obtain ⟨last', op, t, hlast', hop, hstack, htestOn⟩ := exists_testOn?_of_jumpTest htest
  obtain rfl := Option.some.inj (hlast'.symm.trans hlast)
  obtain ⟨feeder, operands, hfeeder, hblock⟩ := exists_replay_of_testStack hstack (hquiet t hstack)
  have hcode : (ctx.graph.code block).dropLast ++ [last'] = ctx.graph.code block :=
    List.dropLast_append_getLast? last' hlast
  rw [← hcode, List.foldlM_append, bind_eq_ok] at hblock
  obtain ⟨u, hu, hlastReplay⟩ := hblock
  obtain rfl : u = ⟨[], t.stack⟩ := by
    simpa [replayInstr, Opcode.action_of_comparison? hop, Action.perform] using hlastReplay
  -- the run goes beside the replay up to the jump
  have hstart : (Frame.mk s []).MatchesOrLags s [] := .inl ⟨rfl, .nil⟩
  have hmiddle := matchesOrLags_of_passCode hfeeder hbefore hstart
  obtain ⟨-, hdenotes⟩ | hlags := matchesOrLags_of_passCode hu hf hmiddle
  · exact Opcode.outcome_of_jump? hop htestOn hjump hdenotes
  · -- a run that has fewer operands cannot make the jump
    have hneeds := Opcode.length_of_jump? hjump
    have hfinds := Opcode.length_of_testOn? htestOn
    omega

end Context

/-- A jump that asks whether `a[0] * a[0] < -b`. The block in front of it leaves the square. -/
def Context.squaredElement : Context where
  graph := ⟨[
    ⟨0, 0, 0, [⟨0, .aload0, .none⟩, ⟨1, .iconst0, .none⟩, ⟨2, .iaload, .none⟩, ⟨3, .dup, .none⟩,
      ⟨4, .imul, .none⟩], some 1, none, none, [1]⟩,
    ⟨1, 5, 5, [⟨5, .iload1, .none⟩, ⟨6, .ineg, .none⟩, ⟨7, .ifIcmplt, .label 0⟩],
      some 0, some 2, some 0, [0]⟩]⟩
  locals := .empty
  constants := []

/-- The variable of the first slot is an array with the given number, all others are one. -/
def State.ofElement (n : Int32) : State where
  locals slot := if slot = 0 then .object 0 else .int 1
  arrays id := if id = 0 then some ⟨.int, [.int n]⟩ else none

/-- The square wraps around, so it is less than a negative number and the jump is taken. -/
theorem Context.outcome_of_jumpTest_squaredElement :
    ∃ test, squaredElement.jumpTest 1 = .ok test ∧
      (∀ t, squaredElement.testStack 1 = .ok t → t.emitted = []) ∧
      squaredElement.jumps? 1 (.ofElement 46341) = some true ∧
      test.outcome (.ofElement 46341) = some true := by
  have hquiet : ∀ t, squaredElement.testStack 1 = .ok t → t.emitted = [] := by
    rintro t ⟨⟩
    rfl
  have hjumps : squaredElement.jumps? 1 (.ofElement 46341) = some true := by decide +kernel
  exact ⟨_, rfl, hquiet, hjumps, outcome_of_jumpTest rfl hquiet hjumps⟩

end Unjump
