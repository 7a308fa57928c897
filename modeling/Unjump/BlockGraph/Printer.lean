import Unjump.BlockGraph

/-!
# Printing block graphs

Every block has a line with its name, its offset and its edges, and a deeper line for every
instruction.
-/

namespace Unjump

open Text

/-- The line of an instruction inside a block. -/
def Instr.blockLine (i : Instr) : String :=
  "    " ++ Hex.number 4 i.offset ++ "  " ++ i.text ++ "\n"

/-- The edges of a block. -/
def Block.edgeText (b : Block) : String :=
  let feeder :=
    match b.feeder with
    | some id => s!" prefix={id}"
    | none => ""
  let edges :=
    match b.target, b.otherwise with
    | some target, some other => s!" target={target} else={other}"
    | some target, none => s!" next={target}"
    | none, _ => ""
  feeder ++ edges

/-- The lines of a block. -/
def Block.text (b : Block) : String :=
  s!"block {b.id} @" ++ Hex.number 4 b.start ++ b.edgeText ++ "\n" ++
    String.join (b.code.map Instr.blockLine)

/-- The lines of all blocks. -/
def BlockGraph.text (g : BlockGraph) : String :=
  String.join (g.blocks.map Block.text)

end Unjump
