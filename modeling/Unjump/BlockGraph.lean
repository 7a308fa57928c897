import Unjump.Instr

/-!
# Block graphs

A block is a run of a method's instructions with edges to the blocks that can follow it. Blocks are
named by their position in the graph, which is also their order in the code. Every block knows its
name and the blocks that it can follow.
-/

namespace Unjump

/-- A run of instructions. -/
structure Block where
  /-- The name of the block. -/
  id : Nat
  /-- The position of the first instruction in the method. -/
  first : Nat
  /-- The offset at which the block starts. -/
  start : Nat
  code : List Instr
  /-- The block that follows when a conditional jump is taken; of any other block, the only one
  that can follow. -/
  target : Option Nat
  /-- The block that follows when a conditional jump is not taken. -/
  otherwise : Option Nat
  /-- The block that leaves operands for the test of this one. -/
  feeder : Option Nat
  /-- The blocks that this one can follow. -/
  predecessors : List Nat

namespace Block

/-- The position after the last instruction. -/
def stop (b : Block) : Nat :=
  b.first + b.code.length

/-- The instruction that decides where control goes. -/
def last? (b : Block) : Option Instr :=
  b.code.getLast?

/-- The block ends with a conditional jump. -/
def isConditional (b : Block) : Bool :=
  b.last?.any (·.opcode.isConditional)

/-- The block ends with a jump that is always taken. -/
def isGoto (b : Block) : Bool :=
  b.last?.any (·.opcode.flow = .jump)

/-- The blocks that can follow, the target of a jump first. -/
def successors (b : Block) : List Nat :=
  b.target.toList ++ b.otherwise.toList

end Block

/-- The blocks of a method. -/
structure BlockGraph where
  blocks : List Block

namespace BlockGraph

/-- The number of blocks. -/
def size (g : BlockGraph) : Nat :=
  g.blocks.length

/-- A block by its name. -/
def block? (g : BlockGraph) (id : Nat) : Option Block :=
  g.blocks[id]?

/-- The instructions of a block. -/
def code (g : BlockGraph) (id : Nat) : List Instr :=
  ((g.block? id).map (·.code)).getD []

/-- The instruction that decides where control goes after a block. -/
def last? (g : BlockGraph) (id : Nat) : Option Instr :=
  (g.code id).getLast?

/-- The block ends with a conditional jump. -/
def isConditional (g : BlockGraph) (id : Nat) : Bool :=
  (g.block? id).any (·.isConditional)

/-- The block ends with a jump that is always taken. -/
def isGoto (g : BlockGraph) (id : Nat) : Bool :=
  (g.block? id).any (·.isGoto)

/-- The blocks that can follow a block, the target of a jump first. -/
def successors (g : BlockGraph) (id : Nat) : List Nat :=
  ((g.block? id).map (·.successors)).getD []

/-- The blocks that a block can follow. -/
def predecessors (g : BlockGraph) (id : Nat) : List Nat :=
  ((g.block? id).map (·.predecessors)).getD []

/-- How many operands a block leaves on the stack; negative when it takes operands that were there
before it. -/
def effect (g : BlockGraph) (id : Nat) : Int :=
  stackEffect (g.code id)

/-- Some block takes the operands of this one. -/
def isFeeder (g : BlockGraph) (id : Nat) : Bool :=
  g.blocks.any (·.feeder = some id)

end BlockGraph

end Unjump
