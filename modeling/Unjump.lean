import Unjump.BlockGraph
import Unjump.BlockGraph.Build
import Unjump.BlockGraph.Printer
import Unjump.ClassDescription
import Unjump.ClassDescription.Methods
import Unjump.ClassDescription.OfYaml
import Unjump.Command
import Unjump.Command.Arguments
import Unjump.Command.Run
import Unjump.Comparison
import Unjump.Condition
import Unjump.Condition.OfBlock
import Unjump.Condition.Printer
import Unjump.Condition.Simplify
import Unjump.DecisionGraph
import Unjump.Expr
import Unjump.Expr.ElementAccess
import Unjump.Expr.Printer
import Unjump.Failure
import Unjump.InputPath
import Unjump.Instr
import Unjump.Instr.Bytecode
import Unjump.Instr.Listing
import Unjump.JavaType
import Unjump.JavaType.Descriptor
import Unjump.Local
import Unjump.Main
import Unjump.Method
import Unjump.Method.Printer
import Unjump.Node
import Unjump.Node.Memo
import Unjump.Node.Visitor
import Unjump.Opcode
import Unjump.OutputPath
import Unjump.Proofs.BlockGraph.Alike
import Unjump.Proofs.BlockGraph.Blocks
import Unjump.Proofs.BlockGraph.Partition
import Unjump.Proofs.BlockGraph.Position
import Unjump.Proofs.BlockGraph.Predecessors
import Unjump.Proofs.BlockGraph.Simulation
import Unjump.Proofs.BlockGraph.Walk
import Unjump.Proofs.Condition.Clause
import Unjump.Proofs.Condition.Duality
import Unjump.Proofs.Condition.Fixpoint
import Unjump.Proofs.Condition.Leaves
import Unjump.Proofs.Condition.Negation
import Unjump.Proofs.Condition.NormalForm
import Unjump.Proofs.Condition.Outcome
import Unjump.Proofs.Condition.Source
import Unjump.Proofs.Condition.Truth
import Unjump.Proofs.DecisionGraph.Chain
import Unjump.Proofs.DecisionGraph.Course
import Unjump.Proofs.DecisionGraph.Enumeration
import Unjump.Proofs.DecisionGraph.Exchange
import Unjump.Proofs.DecisionGraph.Forward
import Unjump.Proofs.DecisionGraph.Orderly
import Unjump.Proofs.DecisionGraph.Paths
import Unjump.Proofs.DecisionGraph.ShortCircuit
import Unjump.Proofs.DecisionGraph.Tree
import Unjump.Proofs.DecisionGraph.Unfolding
import Unjump.Proofs.Except
import Unjump.Proofs.Execution.Jump
import Unjump.Proofs.Execution.Machine
import Unjump.Proofs.Execution.Replay
import Unjump.Proofs.Execution.State
import Unjump.Proofs.Expr.ElementAccess
import Unjump.Proofs.Expr.Source
import Unjump.Proofs.Instr.Alike
import Unjump.Proofs.Instr.Assembly
import Unjump.Proofs.Instr.Encoding
import Unjump.Proofs.Instr.Label
import Unjump.Proofs.Instr.Layout
import Unjump.Proofs.Instr.Line
import Unjump.Proofs.Instr.Resolution
import Unjump.Proofs.Instr.Shape
import Unjump.Proofs.Instr.TextConstant
import Unjump.Proofs.Instr.Written
import Unjump.Proofs.Java.Grammar
import Unjump.Proofs.Java.Token
import Unjump.Proofs.Java.Writing
import Unjump.Proofs.JavaType.Descriptor
import Unjump.Proofs.JavaType.Refusal
import Unjump.Proofs.JavaType.Text
import Unjump.Proofs.List
import Unjump.Proofs.Method.Decompile
import Unjump.Proofs.Method.Failure
import Unjump.Proofs.Method.Forms
import Unjump.Proofs.Method.Member
import Unjump.Proofs.Method.Parameters
import Unjump.Proofs.Method.Sections
import Unjump.Proofs.Node.Visitor
import Unjump.Proofs.OutputPath
import Unjump.Proofs.Record.Ids
import Unjump.Proofs.Record.Memo
import Unjump.Proofs.Record.Same
import Unjump.Proofs.Record.Syntax
import Unjump.Proofs.Region.Alike
import Unjump.Proofs.Region.Arrangement
import Unjump.Proofs.Region.Course
import Unjump.Proofs.Region.Exits
import Unjump.Proofs.Region.Failure
import Unjump.Proofs.Region.Feeders
import Unjump.Proofs.Region.Group
import Unjump.Proofs.Region.LookUps
import Unjump.Proofs.Region.Search
import Unjump.Proofs.Replay.Alike
import Unjump.Proofs.Replay.Depth
import Unjump.Proofs.Replay.Emitted
import Unjump.Proofs.Replay.Failure
import Unjump.Proofs.Replay.Frame
import Unjump.Proofs.Replay.Instr
import Unjump.Proofs.Section.Emitted
import Unjump.Proofs.Section.Frame
import Unjump.Proofs.Section.Linear
import Unjump.Proofs.Section.Replay
import Unjump.Proofs.Text.Blank
import Unjump.Proofs.Text.Hex
import Unjump.Proofs.Text.Visible
import Unjump.Record
import Unjump.Record.Memo
import Unjump.Record.Printer
import Unjump.Record.Syntax
import Unjump.Region
import Unjump.Replay
import Unjump.Section
import Unjump.Statement
import Unjump.Statement.Printer
import Unjump.Text.Blank
import Unjump.Text.Decimal
import Unjump.Text.Hex
import Unjump.Text.Lines
import Unjump.Text.Parentheses
import Unjump.Text.Visible
import Unjump.Text.Visible.Extending
import Unjump.Text.Visible.Unprintable
import Unjump.Yaml.Node
import Unjump.Yaml.Node.OfTokens
import Unjump.Yaml.Node.Reader
import Unjump.Yaml.Place
import Unjump.Yaml.Scalar
import Unjump.Yaml.Scalar.Block
import Unjump.Yaml.Scalar.Gap
import Unjump.Yaml.Scalar.Meaning
import Unjump.Yaml.Scalar.Plain
import Unjump.Yaml.Scalar.Quoted
import Unjump.Yaml.Token
import Unjump.Yaml.Token.Mark
import Unjump.Yaml.Token.OfText
