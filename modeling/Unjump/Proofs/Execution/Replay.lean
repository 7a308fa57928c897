import Mathlib.Data.List.Forall2
import Unjump.BlockGraph.Build
import Unjump.Proofs.Execution.Machine
import Unjump.Proofs.Replay.Emitted
import Unjump.Proofs.Replay.Instr

/-!
# What the statements of a replay do

A replay keeps expressions on its stack where running the code keeps values. What a replay emits
for an instruction does what the instruction does, and the operands that the replay then has are
worth, before that, what the run then has on its stack (`Action.step_of_perform`). So the replay of
a block ends as the run of the block does, if no instruction changes what an operand is worth that
waits on the stack (`Context.endsAs_of_replayBlock`). A block whose replay is right after every
instruction is steady in this sense (`Context.steady_iff_endsAs`).

An operand that waits is evaluated late: if a variable that it reads is assigned in the meantime,
it is worth something else (`Context.not_endsAs_waitingInPlace`). Often the code alone shows that
this cannot happen (`Context.steady_of_sparing`).
-/

namespace Unjump

/-- Each of the expressions is worth the value at its place. -/
def Denotes (s : State) (stack : List Expr) (values : List Value) : Prop :=
  List.Forall₂ (fun e v => e.value? s = some v) stack values

/-- Expressions denote the same values in another state exactly if each is worth the same there. -/
theorem Denotes.iff_forall {s s' : State} {stack : List Expr} {values : List Value}
    (h : Denotes s stack values) :
    Denotes s' stack values ↔ ∀ e ∈ stack, e.value? s' = e.value? s := by
  unfold Denotes at h ⊢
  induction h with
  | nil => simp
  | cons hv _ ih => rw [List.forall₂_cons, ih, List.forall_mem_cons, hv]

/-- Executing the statements of a replay in a state ends as a run does, and the operands that are
left are worth the values that the run leaves. A run that leaves the method leaves no operands. -/
def Trail.EndsAs (t : Trail) (s : State) : Ending Frame → Prop
  | .goesOn f => Statement.executeAll s t.emitted = some (.goesOn f.state) ∧
      Denotes f.state t.stack f.stack
  | .leaves v s' => Statement.executeAll s t.emitted = some (.leaves v s')

/-! ## One instruction -/

/-- What a single action of a replay does, beside what it does to values: the operands that it
leaves are worth their values in the state before it. -/
def Trail.Steps (t : Trail) (s : State) : Ending Frame → Prop
  | .goesOn f => Statement.executeAll s t.emitted = some (.goesOn f.state) ∧
      Denotes s t.stack f.stack
  | .leaves v s' => Statement.executeAll s t.emitted = some (.leaves v s')

/-- The expression of a constant is worth the constant. -/
@[simp] theorem Constant.value?_expr (s : State) (c : Constant) :
    c.expr.value? s = some c.value := by
  cases c <;> rfl

/-- An action does with expressions what it does with the values that they are worth. -/
theorem Action.step_of_perform {ctx : Context} {block : Nat} {i : Instr} {action : Action}
    {stack : List Expr} {t : Trail} {s : State} {values : List Value} {ending : Ending Frame}
    (hperform : action.perform ctx block i ⟨[], stack⟩ = .ok t)
    (hrun : action.run ctx.constants ⟨s, values⟩ = some ending)
    (hstack : Denotes s stack values) : t.Steps s ending := by
  cases action with
  | nothing => cases hperform; cases hrun; exact ⟨rfl, hstack⟩
  | push e =>
    cases hperform
    obtain ⟨v, hv, hpush⟩ := Option.bind_eq_some_iff.1 hrun
    cases hpush
    exact ⟨rfl, .cons hv hstack⟩
  | pushConstant index =>
    simp only [perform] at hperform
    simp only [run] at hrun
    cases hget : ctx.constants[index.toNat]? with
    | none => rw [hget] at hrun; cases hrun
    | some c =>
      rw [hget] at hperform hrun
      cases hperform
      cases hrun
      exact ⟨rfl, .cons (c.value?_expr s) hstack⟩
  | load slot type =>
    cases hperform
    cases hrun
    exact ⟨rfl, .cons (by simp [Expr.value?]) hstack⟩
  | increment slot amount =>
    cases hperform
    simp only [run, Frame.increment] at hrun
    split at hrun
    · rename_i n hn
      cases hrun
      exact ⟨by simp [Trail.emit, Statement.execute, hn], hstack⟩
    · cases hrun
  -- from here on, the operands that the action takes are there, and each is worth its value
  | assign slot type =>
    rcases hstack with _ | ⟨hv, hrest⟩
    · cases hperform
    cases slot with
    | none => cases hperform
    | some slot =>
      cases hperform
      cases hrun
      exact ⟨by simp [Trail.emit, Statement.execute, hv], hrest⟩
  | loadElement =>
    rcases hstack with _ | ⟨hindex, _ | ⟨harray, hrest⟩⟩
    · cases hperform
    · cases hperform
    cases hperform
    simp only [run, Frame.loadElement, Option.ite_none_right_eq_some] at hrun
    obtain ⟨v, hv, hgoes⟩ := Option.map_eq_some_iff.1 hrun.2
    cases hgoes
    exact ⟨rfl, .cons (by simpa [Expr.value?, harray, hindex] using hv) hrest⟩
  | storeElement =>
    rcases hstack with _ | ⟨hvalue, _ | ⟨hindex, _ | ⟨harray, hrest⟩⟩⟩
    · cases hperform
    · cases hperform
    · cases hperform
    cases hperform
    simp only [run, Frame.storeElement, Option.ite_none_right_eq_some] at hrun
    obtain ⟨s', hs', hgoes⟩ := Option.map_eq_some_iff.1 hrun.2
    cases hgoes
    exact ⟨by simp [Trail.emit, Statement.execute, harray, hindex, hvalue, hs'], hrest⟩
  | arithmetic op =>
    rcases hstack with _ | ⟨hright, _ | ⟨hleft, hrest⟩⟩
    · cases hperform
    · cases hperform
    cases hperform
    simp only [run, Frame.compute] at hrun
    split at hrun
    · rename_i heq
      cases heq
      obtain ⟨n, hn, hgoes⟩ := Option.map_eq_some_iff.1 hrun
      cases hgoes
      exact ⟨rfl, .cons (by simp [Expr.value?, hleft, hright, hn]) hrest⟩
    · cases hrun
  | negate =>
    rcases hstack with _ | ⟨hv, hrest⟩
    · cases hperform
    cases hperform
    simp only [run, Frame.negate] at hrun
    split at hrun
    · rename_i heq
      cases heq
      cases hrun
      exact ⟨rfl, .cons (by simp [Expr.value?, hv]) hrest⟩
    · cases hrun
  | duplicate =>
    rcases hstack with _ | ⟨hv, hrest⟩
    · cases hperform
    cases hperform
    cases hrun
    exact ⟨rfl, .cons hv (.cons hv hrest)⟩
  | discard =>
    rcases hstack with _ | ⟨-, hrest⟩
    · cases hperform
    cases hperform
    cases hrun
    exact ⟨rfl, hrest⟩
  | leaveWithValue =>
    rcases hstack with _ | ⟨hv, -⟩
    · cases hperform
    cases hperform
    cases hrun
    simp [Trail.Steps, Trail.emit, Statement.execute, hv]
  | leave =>
    cases hperform
    cases hrun
    simp [Trail.Steps, Trail.emit, Statement.execute]
  | malformed => cases hperform

/-! ## Steady code -/

namespace Context

variable {ctx : Context} {block : Nat}

/-- What the statements for an instruction change is never what an operand is worth that waits on
the stack, wherever the code of a block goes on from a state and a stack. -/
def Steady (ctx : Context) (block : Nat) : State → List Expr → List Instr → Prop
  | _, _, [] => True
  | s, stack, i :: rest => ∀ t s', ctx.replayInstr block ⟨[], stack⟩ i = .ok t →
      Statement.executeAll s t.emitted = some (.goesOn s') →
      (∀ e ∈ t.stack, e.value? s' = e.value? s) ∧ Steady ctx block s' t.stack rest

/-- Every beginning of steady code is steady. -/
theorem Steady.beginning {first code : List Instr} {s : State} {stack : List Expr}
    (h : ctx.Steady block s stack code) (hbegins : first <+: code) :
    ctx.Steady block s stack first := by
  induction first generalizing code s stack with
  | nil => trivial
  | cons i first ih =>
    obtain ⟨rest, rfl, hrest'⟩ := List.cons_prefix_iff.1 hbegins
    intro t s' hreplay hexecute
    obtain ⟨hsame, hrest⟩ := h t s' hreplay hexecute
    exact ⟨hsame, ih hrest hrest'⟩

/-- Replaying code emits no statement that writes what an operand reads that waits on the stack. -/
def sparing (ctx : Context) (block : Nat) : List Expr → List Instr → Bool
  | _, [] => true
  | stack, i :: rest =>
    match ctx.replayInstr block ⟨[], stack⟩ i with
    | .ok t => t.stack.all (fun e => t.emitted.all (·.spares e)) && sparing ctx block t.stack rest
    | .error _ => true

/-- Sparing code is steady, whatever the state. -/
theorem steady_of_sparing {stack : List Expr} {code : List Instr}
    (h : ctx.sparing block stack code = true) (s : State) : ctx.Steady block s stack code := by
  induction code generalizing stack s with
  | nil => trivial
  | cons i rest ih =>
    intro t s' hreplay hexecute
    rw [sparing, hreplay, Bool.and_eq_true] at h
    refine ⟨fun e he => Statement.value?_of_sparesAll (fun statement hmem => ?_) hexecute, ih h.2 s'⟩
    exact List.all_eq_true.1 (List.all_eq_true.1 h.1 e he) statement hmem

end Context

/-! ## Blocks -/

/-- If the first statements go on to another state, the rest decides from there how a replay ends. -/
theorem Trail.endsAs_append {s s' : State} {first : List Statement} {t : Trail}
    (hfirst : Statement.executeAll s first = some (.goesOn s')) (ending : Ending Frame) :
    (Trail.mk (first ++ t.emitted) t.stack).EndsAs s ending ↔ t.EndsAs s' ending := by
  cases ending <;> simp [EndsAs, Statement.executeAll_append, hfirst]

namespace Context

variable {ctx : Context} {block : Nat}

/-- A replay ends as a run does that starts with the values that its operands are worth. -/
theorem endsAs_of_foldlM {code : List Instr} {stack : List Expr} {t : Trail} {s : State}
    {values : List Value} {ending : Ending Frame}
    (hreplay : code.foldlM (ctx.replayInstr block) ⟨[], stack⟩ = .ok t)
    (hrun : runCode ctx.constants code ⟨s, values⟩ = some ending)
    (hstack : Denotes s stack values) (hsteady : ctx.Steady block s stack code) :
    t.EndsAs s ending := by
  induction code generalizing t stack s values with
  | nil =>
    cases hreplay
    cases hrun
    exact ⟨rfl, hstack⟩
  | cons i rest ih =>
    obtain ⟨first, more, hfirst, hmore, rfl⟩ := foldlM_replayInstr_cons.1 hreplay
    obtain ⟨middle, hmiddle, hrun⟩ := Option.bind_eq_some_iff.1 hrun
    have hstep := Action.step_of_perform hfirst (Instr.run_of_execute hmiddle) hstack
    cases middle with
    | goesOn f =>
      obtain ⟨hexecute, hbefore⟩ := hstep
      -- what waits on the stack is still worth the same, so the rest starts from equal stacks
      obtain ⟨hsame, hsteady⟩ := hsteady first f.state hfirst hexecute
      rw [Trail.endsAs_append hexecute]
      exact ih hmore hrun (hbefore.iff_forall.2 hsame) hsteady
    | leaves v s' =>
      -- the statements of what follows are never executed
      cases hrun
      simp only [Trail.EndsAs, Statement.executeAll_append]
      rw [show Statement.executeAll s first.emitted = _ from hstep]
      rfl

/-- Code is steady if the replay of every beginning of it ends as the run of that beginning does. -/
theorem steady_of_endsAs {code : List Instr} {stack : List Expr} {s : State} {values : List Value}
    {ending : Ending Frame} (hrun : runCode ctx.constants code ⟨s, values⟩ = some ending)
    (hstack : Denotes s stack values)
    (hends : ∀ first, first <+: code → ∀ t ending,
      first.foldlM (ctx.replayInstr block) ⟨[], stack⟩ = .ok t →
      runCode ctx.constants first ⟨s, values⟩ = some ending → t.EndsAs s ending) :
    ctx.Steady block s stack code := by
  induction code generalizing stack s values with
  | nil => trivial
  | cons i rest ih =>
    intro t s' hreplay hexecute
    obtain ⟨middle, hmiddle, hrun⟩ := Option.bind_eq_some_iff.1 hrun
    have hstep := Action.step_of_perform hreplay (Instr.run_of_execute hmiddle) hstack
    cases middle with
    | leaves v s'' =>
      have hleaves : Statement.executeAll s t.emitted = some (.leaves v s'') := hstep
      cases hleaves.symm.trans hexecute
    | goesOn f =>
      obtain ⟨hgoes, hbefore⟩ := hstep
      cases hgoes.symm.trans hexecute
      have hfirst : runCode ctx.constants [i] ⟨s, values⟩ = some (.goesOn f) := by
        rw [runCode, hmiddle]
        rfl
      have hsingle : [i].foldlM (ctx.replayInstr block) ⟨[], stack⟩ = .ok t := by
        simpa using hreplay
      -- the beginning of one instruction says that what waits is worth the same
      have hafter := (hends [i] (by simp) t _ hsingle hfirst).2
      refine ⟨hbefore.iff_forall.1 hafter, ih hrun hafter fun first hbegins t' ending' ht' hrun' => ?_⟩
      have hmore := hends (i :: first) (List.cons_prefix_cons.2 ⟨rfl, hbegins⟩) _ ending'
        (foldlM_replayInstr_cons.2 ⟨t, t', hreplay, ht', rfl⟩) (by rw [runCode, hmiddle]; exact hrun')
      exact (Trail.endsAs_append hexecute ending').1 hmore

/-- Code that a run gets through is steady exactly if the replay of every beginning of it ends as the
run of that beginning does. -/
theorem steady_iff_endsAs {code : List Instr} {stack : List Expr} {s : State} {values : List Value}
    {ending : Ending Frame} (hrun : runCode ctx.constants code ⟨s, values⟩ = some ending)
    (hstack : Denotes s stack values) :
    ctx.Steady block s stack code ↔ ∀ first, first <+: code → ∀ t ending,
      first.foldlM (ctx.replayInstr block) ⟨[], stack⟩ = .ok t →
      runCode ctx.constants first ⟨s, values⟩ = some ending → t.EndsAs s ending :=
  ⟨fun h _ hbegins _ _ hreplay hfirst =>
    endsAs_of_foldlM hreplay hfirst hstack (h.beginning hbegins), steady_of_endsAs hrun hstack⟩

/-- If running the instructions of a block comes to an end, so does executing what a replay of the
block emits, and with the same state: the operands that the replay leaves are worth the values that
the run leaves, or the method is left with the same value. This takes a block that is steady. -/
theorem endsAs_of_replayBlock {t : Trail} {s : State} {ending : Ending Frame}
    (hreplay : ctx.replayBlock block .empty = .ok t)
    (hrun : runCode ctx.constants (ctx.graph.code block) ⟨s, []⟩ = some ending)
    (hsteady : ctx.Steady block s [] (ctx.graph.code block)) : t.EndsAs s ending :=
  endsAs_of_foldlM hreplay hrun .nil hsteady

/-- A variable waits on the stack while another one is counted up. -/
def waitingApart : Context where
  graph := .build [⟨0, .iload0, .none⟩, ⟨1, .iinc, .increment 1 1⟩, ⟨4, .iload1, .none⟩,
    ⟨5, .iadd, .none⟩, ⟨6, .istore2, .none⟩, ⟨7, .returnVoid, .none⟩]
  locals := .empty
  constants := []

/-- A variable waits on the stack while it is counted up itself. -/
def waitingInPlace : Context where
  graph := .build [⟨0, .iload0, .none⟩, ⟨1, .iinc, .increment 0 1⟩, ⟨4, .istore1, .none⟩,
    ⟨5, .returnVoid, .none⟩]
  locals := .empty
  constants := []

theorem endsAs_of_replayBlock_waitingApart :
    ∃ t ending, waitingApart.replayBlock 0 .empty = .ok t ∧
      runCode [] (waitingApart.graph.code 0) ⟨.filled (.int 1), []⟩ = some ending ∧
      waitingApart.Steady 0 (.filled (.int 1)) [] (waitingApart.graph.code 0) ∧
      t.EndsAs (.filled (.int 1)) ending :=
  have hsteady : waitingApart.Steady 0 (.filled (.int 1)) [] (waitingApart.graph.code 0) :=
    steady_of_sparing (by decide +kernel) _
  ⟨_, _, rfl, rfl, hsteady, endsAs_of_replayBlock rfl rfl hsteady⟩

/-- The run assigns the number that was loaded, the statements of the replay the one after it. -/
theorem not_endsAs_waitingInPlace :
    ∃ t ending, waitingInPlace.replayBlock 0 .empty = .ok t ∧
      runCode [] (waitingInPlace.graph.code 0) ⟨.filled (.int 1), []⟩ = some ending ∧
      ¬ t.EndsAs (.filled (.int 1)) ending := by
  refine ⟨_, _, rfl, rfl, fun hends => ?_⟩
  obtain ⟨-, hstate⟩ := Ending.leaves.inj (Option.some.inj hends)
  have hlocal := congrArg (·.locals 1) hstate
  revert hlocal
  decide

end Context

end Unjump
