import Unjump.Proofs.BlockGraph.Partition

/-!
# Positions in cut code

Every position of the code belongs to one of the runs into which it is cut, in order
(`Run.Tiles.flatMap_range'`), and a run holds the instructions that stand at its positions
(`Run.Tiles.exists_append`). Each run starts where the one before it stops
(`Run.Tiles.first_succ`), and a position that a label names is the start of a run
(`BlockGraph.exists_run_of_label`).
-/

namespace Unjump

namespace Run

variable {position : Nat} {runs : List Run} {code : List Instr}

/-- The positions of the runs, one after the other, are those of the code. -/
theorem Tiles.flatMap_range' (h : Tiles position runs code) :
    runs.flatMap (fun run => List.range' run.first run.code.length) =
      List.range' position code.length := by
  induction h with
  | nil => rfl
  | @cons position run runs rest hfirst _ _ ih =>
    rw [List.flatMap_cons, ih, stop, hfirst, List.length_append, List.range'_append_1]

/-- The code of a run is the part of the code that begins at its first position. -/
theorem Tiles.exists_append (h : Tiles position runs code) {run : Run} (hrun : run ∈ runs) :
    ∃ before after, code = before ++ run.code ++ after ∧
      run.first = position + before.length := by
  induction h with
  | nil => simp at hrun
  | @cons position head runs rest hfirst _ _ ih =>
    obtain rfl | hrun := List.mem_cons.1 hrun
    · exact ⟨[], rest, rfl, hfirst⟩
    · obtain ⟨before, after, hcode, hrunFirst⟩ := ih hrun
      refine ⟨head.code ++ before, after, by rw [hcode]; simp, ?_⟩
      rw [hrunFirst, stop, hfirst, List.length_append, Nat.add_assoc]

/-- A run has a first instruction, and a last one that the code has as well. -/
theorem Tiles.stop_le (h : Tiles position runs code) {run : Run} (hrun : run ∈ runs) :
    run.first < run.stop ∧ run.stop ≤ position + code.length := by
  obtain ⟨before, after, hcode, hfirst⟩ := h.exists_append hrun
  have hpos := List.length_pos_iff.2 (h.ne_nil run hrun)
  rw [hcode, List.length_append, List.length_append, stop, hfirst]
  omega

/-- A run starts where the one before it stops. -/
theorem Tiles.first_succ (h : Tiles position runs code) {id : Nat} {run next : Run}
    (hrun : runs[id]? = some run) (hnext : runs[id + 1]? = some next) : next.first = run.stop := by
  induction h generalizing id with
  | nil => simp at hrun
  | @cons position head runs rest _ _ hrest ih =>
    cases id with
    | zero =>
      obtain rfl : head = run := by simpa using hrun
      cases hrest with
      | nil => simp at hnext
      | @cons _ second runs rest hfirst _ _ =>
        obtain rfl : second = next := by simpa using hnext
        exact hfirst
    | succ id => exact ih (by simpa using hrun) (by simpa using hnext)

/-- The last run stops where the code does. -/
theorem Tiles.stop_last (h : Tiles position runs code) {id : Nat} {run : Run}
    (hrun : runs[id]? = some run) (hlast : runs[id + 1]? = none) :
    run.stop = position + code.length := by
  induction h generalizing id with
  | nil => simp at hrun
  | @cons position head runs rest hfirst _ hrest ih =>
    cases id with
    | zero =>
      obtain rfl : head = run := by simpa using hrun
      cases hrest with
      | nil => simp [stop, hfirst]
      | cons => simp at hlast
    | succ id =>
      rw [ih (by simpa using hrun) (by simpa using hlast), stop, hfirst, List.length_append]
      omega

/-! ## Labels -/

/-- Code is cut in front of every target. -/
theorem exists_first_eq_of_cut {targets : List Nat} {target : Nat} (htarget : target ∈ targets)
    (code : List Instr) (position : Nat) (hle : position ≤ target)
    (hlt : target < position + code.length) :
    ∃ run ∈ cut targets position code, run.first = target := by
  induction code generalizing position with
  | nil => simp at hlt; omega
  | cons i rest ih =>
    have htiles := tiles_cut targets (position + 1) rest
    rw [List.length_cons] at hlt
    unfold cut
    cases hcut : cut targets (position + 1) rest with
    | nil =>
      rw [hcut] at htiles
      cases htiles
      have heq : position = target := by simp at hlt; omega
      exact ⟨⟨position, [i]⟩, List.mem_singleton_self _, heq⟩
    | cons run runs =>
      -- the first of the runs starts at the position itself
      by_cases heq : target = position
      · simp only
        split <;> exact ⟨_, List.mem_cons_self, heq.symm⟩
      · obtain ⟨found, hfound, hfirst⟩ := ih (position + 1) (by omega) (by omega)
        rw [hcut] at hfound htiles
        simp only
        split
        · exact ⟨found, List.mem_cons_of_mem _ hfound, hfirst⟩
        · rename_i hcond
          obtain rfl | hfound := List.mem_cons.1 hfound
          · -- the instruction would not have joined a run that starts at a target
            cases htiles with
            | cons hrunFirst =>
              rw [Bool.or_eq_true, not_or, List.contains_iff_mem] at hcond
              exact absurd (hfirst ▸ htarget) (hrunFirst ▸ hcond.2)
          · exact ⟨found, List.mem_cons_of_mem _ hfound, hfirst⟩

end Run

/-- A position that a label names is the start of a run. -/
theorem BlockGraph.exists_run_of_label {code : List Instr} {target : Nat}
    (htarget : target ∈ labelTargets code) (hlt : target < code.length) :
    ∃ (id : Nat) (run : Run), (runs code)[id]? = some run ∧ run.first = target := by
  obtain ⟨whole, hwhole, hfirst⟩ :=
    Run.exists_first_eq_of_cut htarget code 0 (Nat.zero_le _) (by omega)
  -- the first part of a run starts where the run does
  cases hsplit : whole.splitTest with
  | nil => exact absurd hsplit whole.splitTest_ne_nil
  | cons part parts =>
    have hpart : part.first = whole.first := Run.first_of_head?_splitTest (by rw [hsplit]; rfl)
    have hmem : part ∈ runs code :=
      List.mem_flatMap.2 ⟨whole, hwhole, by rw [hsplit]; exact List.mem_cons_self⟩
    obtain ⟨id, hid⟩ := List.getElem?_of_mem hmem
    exact ⟨id, part, hid, hpart.trans hfirst⟩

end Unjump
