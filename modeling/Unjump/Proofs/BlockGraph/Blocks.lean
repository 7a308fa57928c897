import Unjump.Proofs.BlockGraph.Partition
import Unjump.Proofs.BlockGraph.Predecessors
import Unjump.Proofs.Instr.Shape

/-!
# The blocks of a method

The blocks of a graph that is built hold the code of the method in order (`flatMap_code_build`).
They are named by their positions (`numbered_build`) and have noted the blocks that lead to them
(`linked_build`). If only jumps name targets, no block leaves operands for the test of another
(`isFeeder_build`): code is cut in front of a test where the stack is empty, where control comes
from elsewhere, or behind an instruction from which control does not simply go on.
-/

namespace Unjump.BlockGraph

/-- A block with a test is a block of the graph. -/
theorem lt_size_of_isConditional {g : BlockGraph} {id : Nat} (h : g.isConditional id = true) :
    id < g.size := by
  obtain ⟨b, hb, -⟩ := (Option.any_eq_true _ _).1 h
  exact (List.getElem?_eq_some_iff.1 hb).1

/-- The runs of a method with their edges. -/
def connected (code : List Instr) : List Block :=
  (runs code).mapIdx (connect (runs code))

/-- Before the feeders are found, the blocks of a method are its runs with their edges and
predecessors. -/
def unfed (code : List Instr) : BlockGraph :=
  ⟨linkPredecessors (connected code)⟩

theorem block?_unfed (code : List Instr) (id : Nat) :
    (unfed code).block? id = (runs code)[id]?.map fun run =>
      { connect (runs code) id run with
        predecessors := (List.range (runs code).length).filter (leads (connected code) id) } := by
  rw [unfed, block?, getElem?_linkPredecessors, connected, List.getElem?_mapIdx, Option.map_map,
    List.length_mapIdx]
  rfl

theorem block?_build (code : List Instr) (id : Nat) :
    (build code).block? id = ((unfed code).block? id).map
      fun b => { b with feeder := (unfed code).feeder? id } := by
  simp [build, unfed, connected, block?]

theorem size_build (code : List Instr) : (build code).size = (runs code).length := by
  simp [build, size, linkPredecessors_eq_mapIdx]

variable {code : List Instr} {rs : List Run} {id : Nat} {run : Run} {b : Block}

@[simp] theorem connect_id : (connect rs id run).id = id := by
  unfold connect
  simp only
  split
  · rfl
  · split <;> rfl

@[simp] theorem connect_first : (connect rs id run).first = run.first := by
  unfold connect
  simp only
  split
  · rfl
  · split <;> rfl

@[simp] theorem connect_code : (connect rs id run).code = run.code := by
  unfold connect
  simp only
  split
  · rfl
  · split <;> rfl

/-- Before the feeders are found, a block is a run of the code with its name and its edges. -/
theorem exists_run_of_unfed (hb : (unfed code).block? id = some b) :
    ∃ run : Run, (runs code)[id]? = some run ∧ b.id = id ∧ b.first = run.first ∧
      b.code = run.code ∧ b.target = (connect (runs code) id run).target ∧
      b.otherwise = (connect (runs code) id run).otherwise := by
  rw [block?_unfed] at hb
  obtain ⟨run, hrun, rfl⟩ := Option.map_eq_some_iff.1 hb
  exact ⟨run, hrun, connect_id, connect_first, connect_code, rfl, rfl⟩

/-- A block of the graph is a run of the code with its name and its edges. -/
theorem exists_run_of_block? (hb : (build code).block? id = some b) :
    ∃ run : Run, (runs code)[id]? = some run ∧ b.id = id ∧ b.first = run.first ∧
      b.code = run.code ∧ b.target = (connect (runs code) id run).target ∧
      b.otherwise = (connect (runs code) id run).otherwise := by
  rw [block?_build] at hb
  obtain ⟨c, hc, rfl⟩ := Option.map_eq_some_iff.1 hb
  obtain ⟨run, h⟩ := exists_run_of_unfed hc
  exact ⟨run, h⟩

/-- A run of the code is a block before the feeders are found. -/
theorem exists_unfed_of_run (hrun : (runs code)[id]? = some run) :
    ∃ b, (unfed code).block? id = some b ∧ b.first = run.first ∧ b.code = run.code ∧
      b.target = (connect (runs code) id run).target := by
  rw [block?_unfed, hrun]
  exact ⟨_, rfl, connect_first, connect_code, rfl⟩

/-- A run of the code is a block of the graph. -/
theorem exists_block?_of_run (hrun : (runs code)[id]? = some run) :
    ∃ b, (build code).block? id = some b ∧ b.first = run.first ∧ b.code = run.code := by
  obtain ⟨b, hb, hfirst, hcode, -⟩ := exists_unfed_of_run hrun
  rw [block?_build, hb]
  exact ⟨_, rfl, hfirst, hcode⟩

/-- Blocks are named by their positions. -/
def Numbered (g : BlockGraph) : Prop :=
  ∀ id b, g.block? id = some b → b.id = id

theorem numbered_build (code : List Instr) : (build code).Numbered := by
  intro id b hb
  obtain ⟨-, -, hid, -⟩ := exists_run_of_block? hb
  exact hid

/-- The blocks of the graph have noted the blocks that lead to them. -/
theorem linked_build (code : List Instr) : (build code).Linked := by
  have hleads : leads (build code).blocks = leads (unfed code).blocks := by
    refine leads_congr fun before => ?_
    show ((build code).block? before).map _ = _
    rw [block?_build, Option.map_map]
    rfl
  have hsize : (build code).size = (unfed code).size := by
    simp [build, unfed, connected, size]
  intro id b hb
  rw [block?_build] at hb
  obtain ⟨c, hc, rfl⟩ := Option.map_eq_some_iff.1 hb
  rw [hsize, hleads]
  exact linked_linkPredecessors (connected code) id c hc

/-! ## Edges -/

/-- A block that ends with a jump leads to the run that holds the target. -/
theorem connect_of_isJump {i : Instr} (hlast : run.code.getLast? = some i)
    (hjump : i.opcode.isJump = true) :
    (connect rs id run).target = i.label?.map (runOf rs) := by
  have hflow : i.opcode.flow = .jump ∨ i.opcode.flow = .branch := by
    simpa [Opcode.isJump] using hjump
  obtain hflow | hflow := hflow <;> simp [connect, hlast, hflow]

/-- Only a block that ends with a conditional jump has a second edge. -/
theorem otherwise_connect (h : (connect rs id run).isConditional = false) :
    (connect rs id run).otherwise = none := by
  rw [Block.isConditional, Block.last?, connect_code] at h
  cases hlast : run.code.getLast? with
  | none => simp [connect, hlast]
  | some i =>
    rw [hlast] at h
    cases hflow : i.opcode.flow with
    | next | jump | exit => simp [connect, hlast, hflow]
    | branch => simp [Opcode.isConditional, hflow] at h

/-- A block leads to the next one without a jump only if control simply goes on from it. -/
theorem ends_of_target {next : Nat} (htarget : (connect rs id run).target = some next)
    (hjump : (connect rs id run).last?.any (·.opcode.isJump) = false) : run.ends = false := by
  rw [Block.last?, connect_code] at hjump
  unfold Run.ends
  cases hlast : run.code.getLast? with
  | none => rfl
  | some i =>
    rw [hlast] at hjump
    cases hflow : i.opcode.flow with
    | next => simp [Opcode.endsBlock, hflow]
    | jump | branch => simp [Opcode.isJump, hflow] at hjump
    | exit => simp [connect, hlast, hflow] at htarget

/-! ## The code of the blocks -/

theorem code_build : (build code).code id = ((runs code)[id]?.map (·.code)).getD [] := by
  simp only [BlockGraph.code, block?_build, block?_unfed, Option.map_map]
  cases (runs code)[id]? <;> simp

/-- The blocks hold the code in order. -/
theorem flatMap_code_build (code : List Instr) :
    (List.range (build code).size).flatMap (build code).code = code := by
  -- block by block, the code is that of the run
  have hruns : (List.range (runs code).length).map (build code).code =
      (runs code).map (·.code) := by
    apply List.ext_getElem
    · simp
    · intro i hi _
      have hlt : i < (runs code).length := by simpa using hi
      simp [code_build, List.getElem?_eq_getElem hlt]
  rw [size_build, List.flatMap_def, hruns, ← List.flatMap_def, (tiles_runs code).flatMap_code]

/-! ## Feeders -/

/-- The block that ends with a jump to the start of a run can come before the block of the run. -/
theorem exists_predecessor_of_label (hjumps : ∀ i ∈ code, ∀ t, i.label? = some t → i.opcode.isJump)
    (hrun : (runs code)[id]? = some run) (hlabel : run.first ∈ labelTargets code) :
    ∃ before b, (unfed code).block? before = some b ∧ id ∈ b.successors ∧
      b.last?.any (·.opcode.isJump) = true := by
  obtain ⟨i, hi, htarget⟩ := List.mem_filterMap.1 hlabel
  have hjump := hjumps i hi _ htarget
  rw [← (tiles_runs code).flatMap_code] at hi
  obtain ⟨source, hsource, hi⟩ := List.mem_flatMap.1 hi
  obtain ⟨before, hbefore⟩ := List.getElem?_of_mem hsource
  -- the jump is the last instruction of its run
  have hlast : source.code.getLast? = some i := by
    have hne := List.ne_nil_of_mem hi
    rw [← List.dropLast_append_getLast hne, List.mem_append, List.mem_singleton] at hi
    obtain hi | rfl := hi
    · have hends := closed_of_mem_runs hsource i hi
      have : i.opcode.flow = .jump ∨ i.opcode.flow = .branch := by
        simpa [Opcode.isJump] using hjump
      simp_all [Opcode.endsBlock]
    · exact List.getLast?_eq_some_getLast hne
  obtain ⟨b, hb, -, hcode, htargetOf⟩ := exists_unfed_of_run hbefore
  refine ⟨before, b, hb, ?_, ?_⟩
  · have hrunOf := (tiles_runs code).runOf_first hrun
    simp [Block.successors, htargetOf, connect_of_isJump hlast hjump, htarget, hrunOf]
  · simp [Block.last?, hcode, hlast, hjump]

/-- If only jumps name targets, no block leaves operands for the test of another. -/
theorem feeder?_unfed (hjumps : ∀ i ∈ code, ∀ t, i.label? = some t → i.opcode.isJump) (id : Nat) :
    (unfed code).feeder? id = none := by
  cases id with
  | zero => rfl
  | succ before =>
    unfold feeder?
    simp only
    split
    · rename_i h
      obtain ⟨hfalls, hpreds, heffect, hcond⟩ := h
      exfalso
      -- the block in front and the block with the test are neighbouring runs
      obtain ⟨b, hblock, hfalls⟩ := (Option.any_eq_true _ _).1 hfalls
      obtain ⟨htarget, hjump⟩ : b.target = some (before + 1) ∧
          ¬ b.last?.any (·.opcode.isJump) = true := by simpa using hfalls
      obtain ⟨a, ha, -, -, hcode, htargetOf, -⟩ := exists_run_of_unfed hblock
      obtain ⟨b', hblock', -⟩ := (Option.any_eq_true _ _).1 hcond
      obtain ⟨run, hrun, -⟩ := exists_run_of_unfed hblock'
      have hends : a.ends = false := by
        refine ends_of_target (htargetOf.symm.trans htarget) ?_
        rw [Block.last?, connect_code, ← hcode]
        exact Bool.eq_false_iff.2 hjump
      have hmeets : Run.Meets (labelTargets code) a run := by
        obtain ⟨hlt, rfl⟩ := List.getElem?_eq_some_iff.1 hrun
        obtain ⟨hlt', rfl⟩ := List.getElem?_eq_some_iff.1 ha
        exact List.isChain_iff_getElem.1 (isChain_runs code) before (by omega)
      obtain (hcut | hlabel) | hempty := hmeets
      · simp [hends] at hcut
      · -- the jump to the label would be a second way to the test
        obtain ⟨source, b, hsource, hmem, hb⟩ := exists_predecessor_of_label hjumps hrun hlabel
        have hpred : source ∈ (unfed code).predecessors (before + 1) :=
          ((linked_linkPredecessors (connected code)).mem_predecessors_iff
            (lt_size_of_isConditional hcond)).2 ⟨b, hsource, hmem⟩
        rw [hpreds, List.mem_singleton] at hpred
        subst hpred
        obtain rfl := Option.some.inj (hsource.symm.trans hblock)
        exact hjump hb
      · -- a run that is parted from its test leaves no operands
        have heffectOf : (unfed code).effect before = stackEffect a.code := by
          simp [effect, BlockGraph.code, hblock, hcode]
        omega
    · rfl

/-- If only jumps name targets, no block of the graph has a feeder. -/
theorem feeder_of_mem_build (hjumps : ∀ i ∈ code, ∀ t, i.label? = some t → i.opcode.isJump)
    {b : Block} (hb : b ∈ (build code).blocks) : b.feeder = none := by
  obtain ⟨id, hid⟩ := List.getElem?_of_mem hb
  have hbuild : (build code).block? id = some b := hid
  rw [block?_build, feeder?_unfed hjumps] at hbuild
  obtain ⟨b', -, rfl⟩ := Option.map_eq_some_iff.1 hbuild
  rfl

/-- No block is a feeder if no block has one. -/
theorem isFeeder_eq_false {g : BlockGraph} (h : ∀ b ∈ g.blocks, b.feeder = none) (id : Nat) :
    g.isFeeder id = false := by
  rw [isFeeder, List.any_eq_false]
  intro b hb
  simp [h b hb]

theorem isFeeder_build (hfits : ∀ i ∈ code, i.operand.fits i.opcode.format = true) (id : Nat) :
    (build code).isFeeder id = false :=
  have hjumps : ∀ i ∈ code, ∀ t, i.label? = some t → i.opcode.isJump :=
    fun i hi _ => Instr.isJump_of_label? (hfits i hi)
  isFeeder_eq_false (fun _ => feeder_of_mem_build hjumps) id

/-- Of a block that does not end with a conditional jump, only one block can follow. -/
theorem otherwise_build (hb : (build code).block? id = some b)
    (h : b.isConditional = false) : b.otherwise = none := by
  obtain ⟨run, -, -, -, hcode, -, hotherwise⟩ := exists_run_of_block? hb
  rw [hotherwise]
  refine otherwise_connect ?_
  rwa [Block.isConditional, Block.last?, connect_code, ← hcode]

/-- The block that follows when a jump is not taken is the next one. -/
theorem eq_succ_of_otherwise (hb : (build code).block? id = some b) {next : Nat}
    (h : b.otherwise = some next) : next = id + 1 := by
  obtain ⟨run, -, -, -, -, -, hotherwise⟩ := exists_run_of_block? hb
  rw [hotherwise] at h
  unfold connect at h
  simp only at h
  split at h
  · cases h
  · split at h
    · cases h
    · split at h
      · exact (Option.some.inj h).symm
      · cases h
    · cases h
    · cases h

end Unjump.BlockGraph
