import Unjump.Proofs.BlockGraph.Blocks
import Unjump.Proofs.BlockGraph.Position
import Unjump.Proofs.Instr.Label

/-!
# Blocks and the flow of control

Control goes from instruction to instruction: on to the next one, or to the target of a jump
(`Steps`). The graph that is built of code shows exactly these ways, inside its blocks and along
the edges between them (`BlockGraph.moves_iff_steps`). So the graph stands for the code
(`BlockGraph.represents_build`).
-/

namespace Unjump

/-- Control can go from one position of code to another, by a jump or without one. -/
inductive Steps (code : List Instr) : (jumps : Bool) → Nat → Nat → Prop where
  | on {position : Nat} {i : Instr} (hi : code[position]? = some i)
      (hgoto : i.opcode.flow ≠ .jump) (hreturn : i.opcode.flow ≠ .exit)
      (hlt : position + 1 < code.length) : Steps code false position (position + 1)
  | jump {position target : Nat} {i : Instr} (hi : code[position]? = some i)
      (hlabel : i.label? = some target) : Steps code true position target

namespace BlockGraph

/-- A graph shows that control can go from one position to another, by a jump or without one. -/
inductive Moves (g : BlockGraph) : (jumps : Bool) → Nat → Nat → Prop where
  /-- Inside a block, on to the next position. -/
  | inside {id position : Nat} {b : Block} (hb : g.block? id = some b)
      (hfirst : b.first ≤ position) (hstop : position + 1 < b.stop) :
      Moves g false position (position + 1)
  /-- By the jump at the end of a block to the start of another. -/
  | jump {id next : Nat} {b c : Block} (hb : g.block? id = some b)
      (hjump : b.last?.any (·.opcode.isJump) = true) (htarget : b.target = some next)
      (hc : g.block? next = some c) : Moves g true (b.stop - 1) c.first
  /-- Past the conditional jump at the end of a block, which is not taken. -/
  | otherwise {id next : Nat} {b c : Block} (hb : g.block? id = some b)
      (hotherwise : b.otherwise = some next) (hc : g.block? next = some c) :
      Moves g false (b.stop - 1) c.first
  /-- From a block that does not end with a jump to the only one that can follow. -/
  | on {id next : Nat} {b c : Block} (hb : g.block? id = some b)
      (hjump : b.last?.any (·.opcode.isJump) = false) (htarget : b.target = some next)
      (hc : g.block? next = some c) : Moves g false (b.stop - 1) c.first

/-- The blocks of a graph hold code, and its edges are the ways that control can go. -/
structure Represents (g : BlockGraph) (code : List Instr) : Prop where
  code_ne_nil : ∀ b ∈ g.blocks, b.code ≠ []
  /-- The positions of the blocks, one block after the other, are those of the code. -/
  positions : g.blocks.flatMap (fun b => List.range' b.first b.code.length) =
    List.range code.length
  /-- A block holds the instructions that stand at its positions. -/
  getElem?_code : ∀ b ∈ g.blocks, ∀ k < b.code.length, b.code[k]? = code[b.first + k]?
  /-- A jump or a return is the last instruction of its block. -/
  last_of_endsBlock : ∀ b ∈ g.blocks, ∀ k i, b.code[k]? = some i → i.opcode.endsBlock = true →
    k + 1 = b.code.length
  /-- A target is the first position of a block. -/
  first_of_label : ∀ i ∈ code, ∀ target ∈ i.label?, ∃ b ∈ g.blocks, b.first = target
  /-- A block is named by its position. -/
  numbered : g.Numbered
  /-- Every edge leads to a block. -/
  lt_size : ∀ b ∈ g.blocks, ∀ next ∈ b.successors, next < g.size
  moves_iff : ∀ jumps position goal, g.Moves jumps position goal ↔ Steps code jumps position goal
  nodup_predecessors : ∀ id, (g.predecessors id).Nodup
  mem_predecessors_iff : ∀ id before, before ∈ g.predecessors id ↔
    ∃ b, g.block? before = some b ∧ id ∈ b.successors

/-! ## The blocks of code -/

variable {code : List Instr} {id : Nat} {b : Block}

/-- The blocks, as far as their places and their code go, are the runs. -/
theorem flatMap_blocks_build {α : Type} (f : Nat → List Instr → List α) :
    (build code).blocks.flatMap (fun b => f b.first b.code) =
      (runs code).flatMap (fun run => f run.first run.code) := by
  have hmap : (build code).blocks.map (fun b => f b.first b.code) =
      (runs code).map (fun run => f run.first run.code) := by
    apply List.ext_getElem
    · simp [build, linkPredecessors_eq_mapIdx]
    · simp [build, linkPredecessors_eq_mapIdx]
  rw [List.flatMap_def, hmap, ← List.flatMap_def]

/-- The code of a block is the part of the code that begins at its first position. -/
theorem exists_append_of_block? (hb : (build code).block? id = some b) :
    b.code ≠ [] ∧ ∃ before after, code = before ++ b.code ++ after ∧ b.first = before.length := by
  obtain ⟨run, hrun, -, hfirst, hcode, -⟩ := exists_run_of_block? hb
  have hmem := List.mem_of_getElem? hrun
  obtain ⟨before, after, happend, hlength⟩ := (tiles_runs code).exists_append hmem
  refine ⟨hcode ▸ (tiles_runs code).ne_nil run hmem, before, after, hcode ▸ happend, ?_⟩
  rw [hfirst, hlength, Nat.zero_add]

/-- The instructions of a block are instructions of the code. -/
theorem mem_of_mem_code {i : Instr} (hi : i ∈ (build code).code id) : i ∈ code := by
  unfold BlockGraph.code at hi
  cases hb : (build code).block? id with
  | none => simp [hb] at hi
  | some b =>
    obtain ⟨-, before, after, hcode, -⟩ := exists_append_of_block? hb
    have hmem : i ∈ b.code := by simpa [hb] using hi
    rw [hcode]
    simp [hmem]

theorem stop_le_length (hb : (build code).block? id = some b) : b.stop ≤ code.length := by
  obtain ⟨-, before, after, hcode, hfirst⟩ := exists_append_of_block? hb
  rw [hcode, Block.stop, hfirst]
  simp

theorem getElem?_block (hb : (build code).block? id = some b) {k : Nat} (hk : k < b.code.length) :
    code[b.first + k]? = b.code[k]? := by
  obtain ⟨-, before, after, hcode, hfirst⟩ := exists_append_of_block? hb
  rw [hcode, hfirst, List.append_assoc, List.getElem?_append_right (by omega),
    Nat.add_sub_cancel_left, List.getElem?_append_left hk]

/-- The last instruction of a block stands in front of the position at which the block stops. -/
theorem getElem?_stop (hb : (build code).block? id = some b) :
    b.first < b.stop ∧ code[b.stop - 1]? = b.last? := by
  have hpos := List.length_pos_iff.2 (exists_append_of_block? hb).1
  have hlast := getElem?_block hb (k := b.code.length - 1) (by omega)
  rw [Block.stop, Block.last?, List.getLast?_eq_getElem?, ← hlast]
  exact ⟨by omega, by congr 1; omega⟩

/-- An instruction that ends a block is the last one of its block. -/
theorem last_of_endsBlock (hb : (build code).block? id = some b) {k : Nat} {i : Instr}
    (hi : b.code[k]? = some i) (hends : i.opcode.endsBlock = true) : k + 1 = b.code.length := by
  obtain ⟨run, hrun, -, -, hcode, -⟩ := exists_run_of_block? hb
  have hclosed := closed_of_mem_runs (List.mem_of_getElem? hrun)
  obtain ⟨hlt, -⟩ := List.getElem?_eq_some_iff.1 hi
  by_contra hne
  have hmem : i ∈ run.code.dropLast := by
    rw [← hcode]
    refine List.mem_of_getElem? (i := k) ?_
    rw [List.getElem?_dropLast, if_pos (by omega), hi]
  simp [hclosed i hmem] at hends

/-- Every position of the code belongs to a block. -/
theorem exists_block?_of_lt {position : Nat} (h : position < code.length) :
    ∃ id b, (build code).block? id = some b ∧ b.first ≤ position ∧ position < b.stop := by
  have hmem : position ∈ List.range' 0 code.length := List.mem_range'_1.2 (by omega)
  rw [← (tiles_runs code).flatMap_range', List.mem_flatMap] at hmem
  obtain ⟨run, hrun, hmem⟩ := hmem
  obtain ⟨id, hid⟩ := List.getElem?_of_mem hrun
  obtain ⟨b, hb, hfirst, hcode⟩ := exists_block?_of_run hid
  obtain ⟨hle, hlt⟩ := List.mem_range'_1.1 hmem
  exact ⟨id, b, hb, by omega, by rw [Block.stop, hfirst, hcode]; exact hlt⟩

/-- A block starts where the one in front of it stops. -/
theorem first_of_succ {c : Block} (hb : (build code).block? id = some b)
    (hc : (build code).block? (id + 1) = some c) : c.first = b.stop := by
  obtain ⟨run, hrun, -, hfirst, hcode, -⟩ := exists_run_of_block? hb
  obtain ⟨next, hnext, -, hfirst', -⟩ := exists_run_of_block? hc
  rw [hfirst', (tiles_runs code).first_succ hrun hnext, Run.stop, Block.stop, hfirst, hcode]

/-- Where the code goes on, a block follows. -/
theorem exists_succ_of_lt (hb : (build code).block? id = some b) (hlt : b.stop < code.length) :
    ∃ c, (build code).block? (id + 1) = some c := by
  obtain ⟨run, hrun, -, hfirst, hcode, -⟩ := exists_run_of_block? hb
  cases hnext : (runs code)[id + 1]? with
  | some next =>
    obtain ⟨c, hc, -, -⟩ := exists_block?_of_run hnext
    exact ⟨c, hc⟩
  | none =>
    have hlast := (tiles_runs code).stop_last hrun hnext
    rw [Block.stop, hfirst, hcode, ← Run.stop] at hlt
    omega

/-! ## The edges between blocks -/

/-- The block behind another, if there is one. -/
def after? (g : BlockGraph) (id : Nat) : Option Nat :=
  if id + 1 < g.size then some (id + 1) else none

theorem after?_eq_some {g : BlockGraph} {next : Nat} :
    g.after? id = some next ↔ next = id + 1 ∧ ∃ c, g.block? next = some c := by
  have hlt : (∃ c, g.block? next = some c) ↔ next < g.size := by
    rw [block?, size, ← Option.isSome_iff_exists]
    simp
  rw [hlt, after?]
  split
  · rw [Option.some.injEq]
    omega
  · simp
    omega

/-- From a block without a jump or a return at its end, control goes on to the block behind it. -/
theorem target_of_next (hb : (build code).block? id = some b) {i : Instr}
    (hlast : b.last? = some i) (hflow : i.opcode.flow = .next) :
    b.target = (build code).after? id := by
  obtain ⟨run, -, -, -, hcode, htarget, -⟩ := exists_run_of_block? hb
  rw [Block.last?, hcode] at hlast
  simp [htarget, connect, hlast, hflow, after?, size_build]

/-- If the conditional jump at the end of a block is not taken, control goes on to the block behind
it. -/
theorem otherwise_of_branch (hb : (build code).block? id = some b) {i : Instr}
    (hlast : b.last? = some i) (hflow : i.opcode.flow = .branch) :
    b.otherwise = (build code).after? id := by
  obtain ⟨run, -, -, -, hcode, -, hotherwise⟩ := exists_run_of_block? hb
  rw [Block.last?, hcode] at hlast
  simp [hotherwise, connect, hlast, hflow, after?, size_build]

/-- Control goes nowhere from a return. -/
theorem target_of_exit (hb : (build code).block? id = some b) {i : Instr}
    (hlast : b.last? = some i) (hflow : i.opcode.flow = .exit) : b.target = none := by
  obtain ⟨run, -, -, -, hcode, htarget, -⟩ := exists_run_of_block? hb
  rw [Block.last?, hcode] at hlast
  simp [htarget, connect, hlast, hflow]

/-- A jump at the end of a block leads to the block that starts at its target. -/
theorem exists_target_of_label (hlabels : Labelled code) (hb : (build code).block? id = some b)
    {i : Instr} (hlast : b.last? = some i) {target : Nat} (hlabel : i.label? = some target) :
    ∃ next c, b.target = some next ∧ (build code).block? next = some c ∧ c.first = target := by
  obtain ⟨run, -, -, -, hcode, htarget, -⟩ := exists_run_of_block? hb
  have hi : i ∈ code := List.mem_of_getElem? ((getElem?_stop hb).2.trans hlast)
  obtain ⟨hsome, hlt⟩ := hlabels i hi
  have hjump : i.opcode.isJump = true := by rw [← hsome, hlabel]; rfl
  obtain ⟨next, goal, hgoal, hfirst⟩ :=
    exists_run_of_label (List.mem_filterMap.2 ⟨i, hi, hlabel⟩) (hlt target hlabel)
  obtain ⟨c, hc, hcfirst, -⟩ := exists_block?_of_run hgoal
  refine ⟨next, c, ?_, hc, hcfirst.trans hfirst⟩
  rw [Block.last?, hcode] at hlast
  rw [htarget, connect_of_isJump hlast hjump, hlabel, Option.map_some, ← hfirst,
    (tiles_runs code).runOf_first hgoal]

/-- A block has a last instruction, and it stands in front of the position at which the block
stops. -/
theorem exists_last_of_block? (hb : (build code).block? id = some b) :
    ∃ i, b.last? = some i ∧ code[b.stop - 1]? = some i := by
  obtain ⟨hne, -⟩ := exists_append_of_block? hb
  have hlast : b.last? = some (b.code.getLast hne) := List.getLast?_eq_some_getLast hne
  exact ⟨_, hlast, (getElem?_stop hb).2.trans hlast⟩

/-- A jump at the end of a block has a label, and leads to the block that starts there. -/
theorem exists_label_of_isJump (hlabels : Labelled code) (hb : (build code).block? id = some b)
    {i : Instr} (hlast : b.last? = some i) (hjump : i.opcode.isJump = true) :
    ∃ target next c, i.label? = some target ∧ b.target = some next ∧
      (build code).block? next = some c ∧ c.first = target := by
  have hi : i ∈ code := List.mem_of_getElem? ((getElem?_stop hb).2.trans hlast)
  obtain ⟨target, hlabel⟩ := Option.isSome_iff_exists.1 ((hlabels i hi).1.trans hjump)
  obtain ⟨next, c, h⟩ := exists_target_of_label hlabels hb hlast hlabel
  exact ⟨target, next, c, hlabel, h⟩

theorem lt_size_of_after? {g : BlockGraph} {next : Nat} (h : g.after? id = some next) :
    next < g.size := by
  obtain ⟨-, c, hc⟩ := after?_eq_some.1 h
  exact (List.getElem?_eq_some_iff.1 hc).1

/-- If the last instruction of a block is a conditional jump, its flow is a branch. -/
theorem flow_of_isConditional (hcond : b.isConditional = true) :
    ∃ i, b.last? = some i ∧ i.opcode.flow = .branch := by
  obtain ⟨i, hlast, hflow⟩ := (Option.any_eq_true _ _).1 hcond
  exact ⟨i, hlast, by simpa [Opcode.isConditional] using hflow⟩

/-- A block that another follows past a jump that is not taken ends with a conditional jump. -/
theorem isConditional_of_otherwise (hb : (build code).block? id = some b) {next : Nat}
    (h : b.otherwise = some next) : b.isConditional = true := by
  by_contra hcond
  simp [otherwise_build hb (by simpa using hcond)] at h

/-- Every edge leads to a block. -/
theorem lt_size_of_mem_successors (hlabels : Labelled code)
    (hb : (build code).block? id = some b) {next : Nat} (hnext : next ∈ b.successors) :
    next < (build code).size := by
  obtain htarget | hotherwise : b.target = some next ∨ b.otherwise = some next := by
    simpa [Block.successors] using hnext
  · obtain ⟨i, hlast, hi⟩ := exists_last_of_block? hb
    cases hflow : i.opcode.flow with
    | next => exact lt_size_of_after? (target_of_next hb hlast hflow ▸ htarget)
    | exit => simp [target_of_exit hb hlast hflow] at htarget
    | jump | branch =>
      have hjump : i.opcode.isJump = true := by simp [Opcode.isJump, hflow]
      obtain ⟨-, next', c, -, htarget', hc, -⟩ := exists_label_of_isJump hlabels hb hlast hjump
      cases htarget.symm.trans htarget'
      exact (List.getElem?_eq_some_iff.1 hc).1
  · obtain ⟨i, hlast, hflow⟩ := flow_of_isConditional (isConditional_of_otherwise hb hotherwise)
    exact lt_size_of_after? (otherwise_of_branch hb hlast hflow ▸ hotherwise)

/-- The blocks that a block can follow are those with an edge to it. -/
theorem mem_predecessors_build (hlabels : Labelled code) {before : Nat} :
    before ∈ (build code).predecessors id ↔
      ∃ b, (build code).block? before = some b ∧ id ∈ b.successors := by
  by_cases hid : id < (build code).size
  · exact (linked_build code).mem_predecessors_iff hid
  · -- a block that is not there is not noted, and no edge leads to it
    rw [predecessors, block?, List.getElem?_eq_none (Nat.not_lt.1 hid)]
    refine iff_of_false List.not_mem_nil ?_
    rintro ⟨b, hb, hmem⟩
    exact hid (lt_size_of_mem_successors hlabels hb hmem)

/-! ## The flow of control -/

/-- From the end of a block whose last instruction is no goto and no return, control goes on to the
block behind it. -/
theorem steps_first {c : Block} (hb : (build code).block? id = some b)
    (hc : (build code).block? (id + 1) = some c) {i : Instr} (hi : code[b.stop - 1]? = some i)
    (hgoto : i.opcode.flow ≠ .jump) (hreturn : i.opcode.flow ≠ .exit) :
    Steps code false (b.stop - 1) c.first := by
  obtain ⟨hlt, -⟩ := getElem?_stop hb
  obtain ⟨hltc, -⟩ := getElem?_stop hc
  have hstop := stop_le_length hc
  have hfirst : c.first = b.stop - 1 + 1 := by rw [first_of_succ hb hc]; omega
  rw [hfirst]
  exact .on hi hgoto hreturn (by omega)

/-- What the graph shows, control does. -/
theorem steps_of_moves (hlabels : Labelled code) {jumps : Bool} {position goal : Nat}
    (h : (build code).Moves jumps position goal) : Steps code jumps position goal := by
  cases h with
  | @inside id position b hb hfirst hstop =>
    -- only the last instruction of a block is a jump or a return
    have hlt : position - b.first < b.code.length := by rw [Block.stop] at hstop; omega
    have hi := List.getElem?_eq_getElem hlt
    have hends : b.code[position - b.first].opcode.endsBlock = false := by
      by_contra hne
      have := last_of_endsBlock hb hi (by simpa using hne)
      rw [Block.stop] at hstop
      omega
    have hflow : b.code[position - b.first].opcode.flow = .next := by
      simpa [Opcode.endsBlock] using hends
    have hcode := getElem?_block hb hlt
    rw [Nat.add_sub_cancel' hfirst, hi] at hcode
    have := stop_le_length hb
    exact .on hcode (by simp [hflow]) (by simp [hflow]) (by omega)
  | @jump id next b c hb hjump htarget hc =>
    obtain ⟨i, hlast, hi⟩ := exists_last_of_block? hb
    obtain ⟨target, next', c', hlabel, htarget', hc', hfirst⟩ :=
      exists_label_of_isJump hlabels hb hlast (by simpa [hlast] using hjump)
    cases htarget.symm.trans htarget'
    cases hc.symm.trans hc'
    exact hfirst ▸ .jump hi hlabel
  | @otherwise id next b c hb hotherwise hc =>
    obtain ⟨i, hlast, hflow⟩ := flow_of_isConditional (isConditional_of_otherwise hb hotherwise)
    have hi := (getElem?_stop hb).2.trans hlast
    rw [otherwise_of_branch hb hlast hflow, after?_eq_some] at hotherwise
    obtain ⟨rfl, -⟩ := hotherwise
    exact steps_first hb hc hi (by simp [hflow]) (by simp [hflow])
  | @on id next b c hb hjump htarget hc =>
    obtain ⟨i, hlast, hi⟩ := exists_last_of_block? hb
    have hflow : i.opcode.flow = .next := by
      cases hflow : i.opcode.flow with
      | next => rfl
      | exit => simp [target_of_exit hb hlast hflow] at htarget
      | jump | branch => simp [hlast, Opcode.isJump, hflow] at hjump
    rw [target_of_next hb hlast hflow, after?_eq_some] at htarget
    obtain ⟨rfl, -⟩ := htarget
    exact steps_first hb hc hi (by simp [hflow]) (by simp [hflow])

/-- What control does, the graph shows. -/
theorem moves_of_steps (hlabels : Labelled code) {jumps : Bool} {position goal : Nat}
    (h : Steps code jumps position goal) : (build code).Moves jumps position goal := by
  cases h with
  | @on _ i hi hgoto hreturn hlt =>
    obtain ⟨id, b, hb, hfirst, hstop⟩ := exists_block?_of_lt (by omega : position < code.length)
    obtain hinside | hend : position + 1 < b.stop ∨ position + 1 = b.stop := by omega
    · exact .inside hb hfirst hinside
    · have hposition : position = b.stop - 1 := by omega
      obtain ⟨c, hc⟩ := exists_succ_of_lt hb (by omega)
      have hafter : (build code).after? id = some (id + 1) := after?_eq_some.2 ⟨rfl, c, hc⟩
      have hlast : b.last? = some i := (getElem?_stop hb).2.symm.trans (hposition ▸ hi)
      rw [hend, ← first_of_succ hb hc, hposition]
      cases hflow : i.opcode.flow with
      | next =>
        refine .on hb ?_ ((target_of_next hb hlast hflow).trans hafter) hc
        simp [hlast, Opcode.isJump, hflow]
      | branch => exact .otherwise hb ((otherwise_of_branch hb hlast hflow).trans hafter) hc
      | jump => exact absurd hflow hgoto
      | exit => exact absurd hflow hreturn
  | @jump _ _ i hi hlabel =>
    obtain ⟨hlt, -⟩ := List.getElem?_eq_some_iff.1 hi
    obtain ⟨id, b, hb, hfirst, hstop⟩ := exists_block?_of_lt hlt
    have hjump : i.opcode.isJump = true := by
      rw [← (hlabels i (List.mem_of_getElem? hi)).1, hlabel]; rfl
    -- a jump is the last instruction of its block
    have hk : position - b.first < b.code.length := by rw [Block.stop] at hstop; omega
    have hib : b.code[position - b.first]? = some i := by
      rw [← getElem?_block hb hk, Nat.add_sub_cancel' hfirst, hi]
    have hends : i.opcode.endsBlock = true := by
      have : i.opcode.flow = .jump ∨ i.opcode.flow = .branch := by
        simpa [Opcode.isJump] using hjump
      obtain hflow | hflow := this <;> simp [Opcode.endsBlock, hflow]
    have hend := last_of_endsBlock hb hib hends
    obtain rfl : position = b.stop - 1 := by rw [Block.stop]; omega
    have hlast : b.last? = some i := (getElem?_stop hb).2.symm.trans hi
    obtain ⟨next, c, htarget, hc, hcfirst⟩ := exists_target_of_label hlabels hb hlast hlabel
    rw [← hcfirst]
    exact .jump hb (by simpa [hlast] using hjump) htarget hc

/-- The ways that the graph of code shows are those that control can go. -/
theorem moves_iff_steps (hlabels : Labelled code) {jumps : Bool} {position goal : Nat} :
    (build code).Moves jumps position goal ↔ Steps code jumps position goal :=
  ⟨steps_of_moves hlabels, moves_of_steps hlabels⟩

/-- The graph that is built of code stands for it: its blocks hold the code, one after the other,
and its edges are the ways that control can go. -/
theorem represents_build (hlabels : Labelled code) : (build code).Represents code where
  code_ne_nil := by
    intro b hmem
    obtain ⟨id, hb⟩ := List.getElem?_of_mem hmem
    exact (exists_append_of_block? hb).1
  positions := by
    rw [flatMap_blocks_build fun first code => List.range' first code.length,
      (tiles_runs code).flatMap_range', List.range_eq_range']
  getElem?_code := by
    intro b hmem k hk
    obtain ⟨id, hb⟩ := List.getElem?_of_mem hmem
    exact (getElem?_block hb hk).symm
  last_of_endsBlock := by
    intro b hmem k i hi hends
    obtain ⟨id, hb⟩ := List.getElem?_of_mem hmem
    exact last_of_endsBlock hb hi hends
  first_of_label := by
    intro i hi target htarget
    obtain ⟨id, run, hrun, hfirst⟩ := exists_run_of_label
      (List.mem_filterMap.2 ⟨i, hi, htarget⟩) ((hlabels i hi).2 target htarget)
    obtain ⟨b, hb, hbfirst, -⟩ := exists_block?_of_run hrun
    exact ⟨b, List.mem_of_getElem? hb, hbfirst.trans hfirst⟩
  numbered := numbered_build code
  lt_size := by
    intro b hmem next hnext
    obtain ⟨id, hb⟩ := List.getElem?_of_mem hmem
    exact lt_size_of_mem_successors hlabels hb hnext
  moves_iff := fun _ _ _ => moves_iff_steps hlabels
  nodup_predecessors := (linked_build code).nodup_predecessors
  mem_predecessors_iff := fun _ _ => mem_predecessors_build hlabels

/-- A choice between an increment and a return. -/
def choosing : List Instr :=
  [⟨0, .iload0, .none⟩, ⟨1, .ifeq, .label 4⟩, ⟨4, .iinc, .increment 1 1⟩, ⟨7, .goto, .label 5⟩,
    ⟨10, .returnVoid, .none⟩, ⟨11, .returnVoid, .none⟩]

theorem represents_build_choosing :
    Labelled choosing ∧ (build choosing).blocks.map (·.code.length) = [2, 2, 1, 1] ∧
      (build choosing).Represents choosing :=
  have h : Labelled choosing := by decide
  ⟨h, by decide, represents_build h⟩

end BlockGraph

end Unjump
