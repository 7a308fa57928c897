import Unjump.BlockGraph.Build
import Unjump.Region

/-!
# Decompiling methods

The body of a method is found by arranging its blocks in sections and replaying them. The stack
must be empty at the end.
-/

namespace Unjump

/-- The statements that the blocks of a method amount to. -/
def Context.decompile (ctx : Context) : Except Failure (List Statement) :=
  match ctx.sections with
  | .error failure => .error failure
  | .ok sections =>
    match Section.replayAll ctx sections .empty with
    | .error stuck => .error stuck.failure
    | .ok t =>
      if t.stack.isEmpty then .ok t.emitted
      else .error (.unbalancedStack (ctx.graph.size - 1) 0 t.stack.length)

/-- A method with its code. -/
structure Method where
  name : String
  descriptor : Option String
  locals : LocalTable
  constants : List Constant
  code : List Instr

namespace Method

/-- What is known of a method while it is decompiled. -/
def context (m : Method) : Context :=
  ⟨.build m.code, m.locals, m.constants⟩

/-- The statements of a method's body. -/
def decompile (m : Method) : Except Failure (List Statement) :=
  m.context.decompile

end Method

end Unjump
