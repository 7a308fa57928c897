import Unjump.BlockGraph

/-!
# Cutting code into blocks

A block starts at the first instruction, at every instruction that a label names, and after every
jump and every instruction that leaves the method. A block that ends with a conditional jump is cut
once more, at the last instruction before which the stack is empty: what is left of it does nothing
but compute the operands of the jump.

Once the blocks have their edges, `linkPredecessors` goes through them in order and notes each block
at the blocks that it leads to.
-/

namespace Unjump

/-- A run of instructions and the position of the first one. -/
structure Run where
  first : Nat
  code : List Instr

namespace Run

/-- The position after the last instruction. -/
def stop (run : Run) : Nat :=
  run.first + run.code.length

/-- Cuts code that begins at a position: in front of every target, and after every instruction that
ends a block. -/
def cut (targets : List Nat) (position : Nat) : List Instr → List Run
  | [] => []
  | i :: rest =>
    match cut targets (position + 1) rest with
    | [] => [⟨position, [i]⟩]
    | run :: runs =>
      if i.opcode.endsBlock || targets.contains (position + 1) then
        ⟨position, [i]⟩ :: run :: runs
      else ⟨position, i :: run.code⟩ :: runs

/-- Finds the last instruction before which the stack is empty, given the depth of the stack and
the answer so far. -/
def testStartFrom (depth : Int) (found position : Nat) : List Instr → Nat
  | [] => found
  | i :: rest =>
    testStartFrom (depth + i.opcode.stackEffect) (if depth ≤ 0 then position else found)
      (position + 1) rest

/-- How many instructions stand in front of the last one before which the stack is empty. -/
def testStart (code : List Instr) : Nat :=
  testStartFrom 0 0 0 code

/-- Parts the test of a conditional jump from the instructions in front of it. -/
def splitTest (run : Run) : List Run :=
  let k := testStart run.code
  if run.code.getLast?.any (·.opcode.isConditional) ∧ k ≠ 0 then
    [⟨run.first, run.code.take k⟩, ⟨run.first + k, run.code.drop k⟩]
  else [run]

end Run

namespace BlockGraph

/-- The positions that labels name. -/
def labelTargets (code : List Instr) : List Nat :=
  code.filterMap (·.label?)

/-- The runs of instructions that become blocks. -/
def runs (code : List Instr) : List Run :=
  (Run.cut (labelTargets code) 0 code).flatMap Run.splitTest

/-- The run that holds a position. -/
def runOf (runs : List Run) (position : Nat) : Nat :=
  (runs.takeWhile fun run => run.stop ≤ position).length

/-- The block of a run, with its edges. -/
def connect (runs : List Run) (id : Nat) (run : Run) : Block :=
  let next := if id + 1 < runs.length then some (id + 1) else none
  let start := (run.code.head?.map (·.offset)).getD 0
  let block : Block := ⟨id, run.first, start, run.code, none, none, none, []⟩
  match run.code.getLast? with
  | none => block
  | some last =>
    let jump := last.label?.map (runOf runs)
    match last.opcode.flow with
    | .exit => block
    | .branch => { block with target := jump, otherwise := next }
    | .jump => { block with target := jump }
    | .next => { block with target := next }

/-- Notes that a block can follow another, unless this is noted already. -/
def notePredecessor (before : Nat) (b : Block) : Block :=
  if b.predecessors.contains before then b
  else { b with predecessors := b.predecessors ++ [before] }

/-- Notes a block at every block that it leads to. An edge that leads to no block is passed over. -/
def noteEdges (blocks : List Block) (before : Nat) : List Block :=
  ((blocks[before]?.map (·.successors)).getD []).foldl
    (fun blocks id => blocks.modify id (notePredecessor before)) blocks

/-- Finds the predecessors of all blocks anew. -/
def linkPredecessors (blocks : List Block) : List Block :=
  (List.range blocks.length).foldl noteEdges (blocks.map ({ · with predecessors := [] }))

/-- The block that leaves operands for the test of a block: the one in front of it, if control
reaches the test from there alone, without a jump, and with operands on the stack. -/
def feeder? (g : BlockGraph) (id : Nat) : Option Nat :=
  match id with
  | 0 => none
  | before + 1 =>
    let fallsThrough := (g.block? before).any fun b =>
      b.target = some id ∧ ¬ b.last?.any (·.opcode.isJump)
    if fallsThrough ∧ g.predecessors id = [before] ∧ 0 < g.effect before ∧ g.isConditional id then
      some before
    else none

/-- The block graph of a method's code. -/
def build (code : List Instr) : BlockGraph :=
  let runs := runs code
  let g : BlockGraph := ⟨linkPredecessors (runs.mapIdx (connect runs))⟩
  ⟨g.blocks.mapIdx fun id b => { b with feeder := g.feeder? id }⟩

/-- A block that is given with its edges. -/
structure Part where
  code : List (Opcode × Operand)
  target : Option Nat
  otherwise : Option Nat
  feeder : Option Nat

/-- Instructions one after the other, from an offset on. -/
def layOut (offset : Nat) : List (Opcode × Operand) → List Instr
  | [] => []
  | (opcode, operand) :: rest =>
    ⟨offset, opcode, operand⟩ :: layOut (offset + opcode.format.size) rest

/-- The encoded size of instructions. -/
def encodedSize : List (Opcode × Operand) → Nat
  | [] => 0
  | (opcode, _) :: rest => opcode.format.size + encodedSize rest

/-- The blocks of parts that stand one after the other, from a name, a position and an offset on. An
empty block starts where the next instruction stands, and at zero if there is none. -/
def ofPartsFrom (id position offset : Nat) : List Part → List Block
  | [] => []
  | part :: rest =>
    let start := if (part :: rest).all (·.code.isEmpty) then 0 else offset
    ⟨id, position, start, layOut offset part.code, part.target, part.otherwise, part.feeder, []⟩ ::
      ofPartsFrom (id + 1) (position + part.code.length) (offset + encodedSize part.code) rest

/-- The graph of blocks that are given with their edges. -/
def ofParts (parts : List Part) : BlockGraph :=
  ⟨linkPredecessors (ofPartsFrom 0 0 0 parts)⟩

end BlockGraph

end Unjump
