import Mathlib.Data.List.Chain
import Unjump.BlockGraph.Build

/-!
# How code is cut

The runs of `BlockGraph.runs` stand one after the other, none of them is empty, and together they
hold the code (`tiles_runs`). An instruction that ends a block is the last of its run
(`closed_of_mem_runs`). Where two runs meet, the first one ends a block, or a label names the second
one, or the first one leaves no operands (`isChain_runs`).
-/

namespace Unjump

namespace Run

/-- Runs that are not empty stand one after the other from a position on and hold code. -/
inductive Tiles : Nat → List Run → List Instr → Prop where
  | nil {position : Nat} : Tiles position [] []
  | cons {position : Nat} {run : Run} {runs : List Run} {rest : List Instr}
      (hfirst : run.first = position) (hne : run.code ≠ []) (hrest : Tiles run.stop runs rest) :
      Tiles position (run :: runs) (run.code ++ rest)

/-- An instruction that ends a block is the last one of the run. -/
def Closed (run : Run) : Prop :=
  ∀ i ∈ run.code.dropLast, i.opcode.endsBlock = false

/-- The last instruction of the run ends a block. -/
def ends (run : Run) : Bool :=
  run.code.getLast?.any (·.opcode.endsBlock)

/-- Code is cut between two runs. -/
def CutBetween (targets : List Nat) (a b : Run) : Prop :=
  a.ends = true ∨ b.first ∈ targets

/-- Code is cut between two runs, or the first one leaves no operands. -/
def Meets (targets : List Nat) (a b : Run) : Prop :=
  CutBetween targets a b ∨ stackEffect a.code ≤ 0

/-! ## Tilings -/

theorem Tiles.flatMap_code {position : Nat} {runs : List Run} {code : List Instr}
    (h : Tiles position runs code) : runs.flatMap (·.code) = code := by
  induction h with
  | nil => rfl
  | cons _ _ _ ih => rw [List.flatMap_cons, ih]

theorem Tiles.ne_nil {position : Nat} {runs : List Run} {code : List Instr}
    (h : Tiles position runs code) : ∀ run ∈ runs, run.code ≠ [] := by
  induction h with
  | nil => simp
  | cons _ hne _ ih => exact List.forall_mem_cons.2 ⟨hne, ih⟩

theorem Tiles.le_first {position : Nat} {runs : List Run} {code : List Instr}
    (h : Tiles position runs code) : ∀ run ∈ runs, position ≤ run.first := by
  induction h with
  | nil => simp
  | @cons position run runs rest hfirst hne hrest ih =>
    refine List.forall_mem_cons.2 ⟨Nat.le_of_eq hfirst.symm, fun r hr => ?_⟩
    have hstop := ih r hr
    unfold stop at hstop
    omega

/-- A run holds the position at which it starts. -/
theorem Tiles.runOf_first {position : Nat} {runs : List Run} {code : List Instr}
    (h : Tiles position runs code) {id : Nat} {run : Run} (hrun : runs[id]? = some run) :
    BlockGraph.runOf runs run.first = id := by
  induction h generalizing id with
  | nil => simp at hrun
  | @cons position head runs rest hfirst hne hrest ih =>
    cases id with
    | zero =>
      -- the first run ends behind its own start
      obtain rfl : head = run := by simpa using hrun
      have hlen := List.length_pos_iff.2 hne
      have hstop : ¬ head.stop ≤ head.first := by
        unfold stop
        omega
      simp [BlockGraph.runOf, hstop]
    | succ id =>
      -- the first run ends in front of all the others
      have hrun : runs[id]? = some run := by simpa using hrun
      have hstop := hrest.le_first run (List.mem_of_getElem? hrun)
      have hid := ih hrun
      unfold BlockGraph.runOf at hid ⊢
      simp [hstop, hid]

/-! ## Cutting -/

variable (targets : List Nat)

theorem tiles_cut (position : Nat) (code : List Instr) :
    Tiles position (cut targets position code) code := by
  induction code generalizing position with
  | nil => exact .nil
  | cons i rest ih =>
    have hrest := ih (position + 1)
    unfold cut
    cases hcut : cut targets (position + 1) rest with
    | nil =>
      rw [hcut] at hrest
      cases hrest
      exact .cons rfl (by simp) .nil
    | cons run runs =>
      rw [hcut] at hrest
      simp only
      split
      · exact .cons rfl (by simp) hrest
      · cases hrest with
        | cons hfirst hne hrest =>
          -- the longer run ends where the shorter one does
          have hstop : stop ⟨position, i :: run.code⟩ = run.stop := by
            simp only [stop, List.length_cons, hfirst]
            omega
          exact .cons rfl (List.cons_ne_nil i run.code) (hstop ▸ hrest)

theorem closed_of_mem_cut (position : Nat) (code : List Instr) :
    ∀ run ∈ cut targets position code, run.Closed := by
  induction code generalizing position with
  | nil => simp [cut]
  | cons i rest ih =>
    have hrest := ih (position + 1)
    have htiles := tiles_cut targets (position + 1) rest
    unfold cut
    cases hcut : cut targets (position + 1) rest with
    | nil => simp [Closed]
    | cons run runs =>
      rw [hcut] at hrest htiles
      obtain ⟨hrun, hruns⟩ := List.forall_mem_cons.1 hrest
      simp only
      split
      · exact List.forall_mem_cons.2 ⟨by simp [Closed], hrest⟩
      · -- an instruction that joins the next run does not end a block
        rename_i hcond
        refine List.forall_mem_cons.2 ⟨?_, hruns⟩
        have hne := htiles.ne_nil run List.mem_cons_self
        have hi : i.opcode.endsBlock = false := by simp_all
        unfold Closed
        rw [List.dropLast_cons_of_ne_nil hne]
        exact List.forall_mem_cons.2 ⟨hi, hrun⟩

theorem isChain_cut (position : Nat) (code : List Instr) :
    (cut targets position code).IsChain (CutBetween targets) := by
  induction code generalizing position with
  | nil => exact .nil
  | cons i rest ih =>
    have hrest := ih (position + 1)
    have htiles := tiles_cut targets (position + 1) rest
    unfold cut
    cases hcut : cut targets (position + 1) rest with
    | nil => exact .singleton _
    | cons run runs =>
      rw [hcut] at hrest htiles
      cases htiles with
      | cons hfirst hne _ =>
        simp only
        split
        · rename_i hcond
          refine List.isChain_cons_cons.2 ⟨?_, hrest⟩
          rw [Bool.or_eq_true, List.contains_iff_mem] at hcond
          obtain hends | htarget := hcond
          · exact .inl hends
          · exact .inr (hfirst ▸ htarget)
        · cases runs with
          | nil => exact .singleton _
          | cons next runs =>
            -- the longer run ends as the shorter one does
            obtain ⟨hcutBetween, hruns⟩ := List.isChain_cons_cons.1 hrest
            refine List.isChain_cons_cons.2 ⟨?_, hruns⟩
            have hlast : (i :: run.code).getLast? = run.code.getLast? := by
              rw [List.getLast?_cons, List.getLast?_eq_some_getLast hne, Option.getD_some]
            unfold CutBetween ends at hcutBetween ⊢
            rwa [hlast]

/-! ## Parting tests -/

/-- What is found is the answer so far, or a position inside the code in front of which the stack is
empty. -/
theorem testStartFrom_spec (depth : Int) (found position : Nat) (code : List Instr) :
    testStartFrom depth found position code = found ∨
      ∃ k < code.length, testStartFrom depth found position code = position + k ∧
        depth + stackEffect (code.take k) ≤ 0 := by
  induction code generalizing depth found position with
  | nil => exact .inl rfl
  | cons i rest ih =>
    unfold testStartFrom
    obtain h | ⟨k, hk, h, hdepth⟩ := ih (depth + i.opcode.stackEffect)
      (if depth ≤ 0 then position else found) (position + 1)
    · -- nothing is found behind the instruction: it is the answer itself, or the answer so far is
      rw [h]
      split
      · exact .inr ⟨0, by simp, rfl, by simpa using ‹depth ≤ 0›⟩
      · exact .inl rfl
    · refine .inr ⟨k + 1, by simpa using hk, by omega, ?_⟩
      rw [List.take_succ_cons, stackEffect_cons]
      omega

/-- The instructions in front of the start of a test leave no operands, and the test is not
empty. -/
theorem testStart_spec {code : List Instr} (h : testStart code ≠ 0) :
    testStart code < code.length ∧ stackEffect (code.take (testStart code)) ≤ 0 := by
  -- the answer so far is the start of the code, which the hypothesis excludes
  obtain hzero | ⟨k, hk, heq, hdepth⟩ := testStartFrom_spec 0 0 0 code
  · exact absurd hzero h
  · have heq : testStart code = k := by simpa [testStart] using heq
    rw [heq]
    exact ⟨hk, by simpa using hdepth⟩

/-- Either a run stays as it is, or it falls into two parts of which the first one leaves no
operands. -/
theorem splitTest_cases (run : Run) :
    run.splitTest = [run] ∨
      ∃ k, 0 < k ∧ k < run.code.length ∧ stackEffect (run.code.take k) ≤ 0 ∧
        run.splitTest = [⟨run.first, run.code.take k⟩, ⟨run.first + k, run.code.drop k⟩] := by
  unfold splitTest
  simp only
  split
  · rename_i h
    obtain ⟨hlt, heffect⟩ := testStart_spec h.2
    exact .inr ⟨_, Nat.pos_of_ne_zero h.2, hlt, heffect, rfl⟩
  · exact .inl rfl

theorem splitTest_ne_nil (run : Run) : run.splitTest ≠ [] := by
  obtain h | ⟨k, -, -, -, h⟩ := run.splitTest_cases <;> simp [h]

theorem tiles_flatMap_splitTest {position : Nat} {runs : List Run} {code : List Instr}
    (h : Tiles position runs code) : Tiles position (runs.flatMap splitTest) code := by
  induction h with
  | nil => exact .nil
  | @cons position run runs rest hfirst hne hrest ih =>
    rw [List.flatMap_cons]
    obtain hsplit | ⟨k, hpos, hlt, -, hsplit⟩ := run.splitTest_cases <;> rw [hsplit]
    · exact .cons hfirst hne ih
    · have hstop : stop ⟨run.first + k, run.code.drop k⟩ = run.stop := by
        simp only [stop, List.length_drop]
        omega
      -- the two parts stand one after the other where the whole run stood
      have htake : (run.code.take k).length = k := List.length_take_of_le (Nat.le_of_lt hlt)
      have hdrop : Tiles (run.first + k)
          (⟨run.first + k, run.code.drop k⟩ :: runs.flatMap splitTest)
          (run.code.drop k ++ rest) :=
        .cons rfl (by simpa using hlt) (hstop ▸ ih)
      have hboth : Tiles position (⟨run.first, run.code.take k⟩ ::
          ⟨run.first + k, run.code.drop k⟩ :: runs.flatMap splitTest)
          (run.code.take k ++ (run.code.drop k ++ rest)) := by
        have hne' : run.code.take k ≠ [] := by
          rwa [← List.length_pos_iff, htake]
        refine .cons hfirst hne' ?_
        rwa [stop, htake]
      rwa [← List.append_assoc, List.take_append_drop] at hboth

theorem closed_of_mem_splitTest {run part : Run} (h : run.Closed) (hpart : part ∈ run.splitTest) :
    part.Closed := by
  obtain hsplit | ⟨k, -, hlt, -, hsplit⟩ := run.splitTest_cases
  · rw [hsplit, List.mem_singleton] at hpart
    rwa [hpart]
  · -- the first part stops before the last instruction of the run
    have htake : ∀ i ∈ run.code.take k, i ∈ run.code.dropLast := by
      intro i hi
      rw [List.dropLast_eq_take]
      exact List.take_subset_take_left _ (by omega) hi
    rw [hsplit, List.mem_cons, List.mem_singleton] at hpart
    obtain rfl | rfl := hpart
    · exact fun i hi => h i (htake i (List.dropLast_subset _ hi))
    · have hne : run.code.drop k ≠ [] := by simpa using hlt
      intro i hi
      refine h i ?_
      rw [← List.take_append_drop k run.code, List.dropLast_append_of_ne_nil hne]
      exact List.mem_append_right _ hi

theorem isChain_splitTest (run : Run) : run.splitTest.IsChain (Meets targets) := by
  obtain h | ⟨k, -, -, heffect, h⟩ := run.splitTest_cases <;> rw [h]
  · exact .singleton _
  · exact List.isChain_pair.2 (.inr heffect)

theorem ends_of_getLast?_splitTest {run part : Run} (h : run.splitTest.getLast? = some part) :
    part.ends = run.ends := by
  obtain hsplit | ⟨k, -, hlt, -, hsplit⟩ := run.splitTest_cases
  · rw [hsplit] at h
    cases h
    rfl
  · rw [hsplit] at h
    cases h
    simp [ends, List.getLast?_drop, Nat.not_le.2 hlt]

theorem first_of_head?_splitTest {run part : Run} (h : run.splitTest.head? = some part) :
    part.first = run.first := by
  obtain hsplit | ⟨k, -, -, -, hsplit⟩ := run.splitTest_cases <;>
  · rw [hsplit] at h
    cases h
    rfl

theorem isChain_flatMap_splitTest {runs : List Run} (h : runs.IsChain (CutBetween targets)) :
    (runs.flatMap splitTest).IsChain (Meets targets) := by
  rw [List.flatMap_def, List.isChain_flatten (by simp [splitTest_ne_nil])]
  refine ⟨?_, ?_⟩
  · rw [List.forall_mem_map]
    exact fun run _ => isChain_splitTest targets run
  · rw [List.isChain_map]
    -- the last part of a run ends as the run does, and the first part starts where it does
    refine h.imp fun a b hcut x hx y hy => .inl ?_
    unfold CutBetween at hcut ⊢
    rwa [ends_of_getLast?_splitTest (Option.mem_def.1 hx),
      first_of_head?_splitTest (Option.mem_def.1 hy)]

end Run

/-! ## The runs of a method -/

namespace BlockGraph

theorem tiles_runs (code : List Instr) : Run.Tiles 0 (runs code) code :=
  Run.tiles_flatMap_splitTest (Run.tiles_cut _ 0 code)

theorem closed_of_mem_runs {code : List Instr} {run : Run} (h : run ∈ runs code) : run.Closed := by
  obtain ⟨whole, hwhole, hrun⟩ := List.mem_flatMap.1 h
  exact Run.closed_of_mem_splitTest (Run.closed_of_mem_cut _ 0 code whole hwhole) hrun

theorem isChain_runs (code : List Instr) :
    (runs code).IsChain (Run.Meets (labelTargets code)) :=
  Run.isChain_flatMap_splitTest _ (Run.isChain_cut _ 0 code)

end BlockGraph

end Unjump
