import JvmTaint.Analyzer
import JvmTaint.Calls.CallGraph
import JvmTaint.Calls.Ledger
import JvmTaint.Calls.Resolution
import JvmTaint.ClassFile.AccessFlags
import JvmTaint.ClassFile.ClassTable
import JvmTaint.ClassFile.Decode
import JvmTaint.ClassFile.Encode
import JvmTaint.ClassFile.FieldType
import JvmTaint.ClassFile.FileFormat
import JvmTaint.ClassFile.Hierarchy
import JvmTaint.ClassFile.Instruction
import JvmTaint.ClassFile.MethodRef
import JvmTaint.ClassFile.Opcode
import JvmTaint.ClassFile.Pack
import JvmTaint.ClassFile.Program
import JvmTaint.ClassFile.ProgramFile
import JvmTaint.Collections
import JvmTaint.CommandLine.Command
import JvmTaint.CommandLine.Flags
import JvmTaint.CommandLine.Hint
import JvmTaint.CommandLine.Host
import JvmTaint.CommandLine.Numeral
import JvmTaint.CommandLine.Run
import JvmTaint.CommandLine.Workspace
import JvmTaint.Document.Basic
import JvmTaint.Document.Block
import JvmTaint.Document.BlockReader
import JvmTaint.Document.BlockScalar
import JvmTaint.Document.Cursor
import JvmTaint.Document.Decoder
import JvmTaint.Document.Reader
import JvmTaint.Document.Scalar
import JvmTaint.Document.Writer
import JvmTaint.Flow.Graph
import JvmTaint.Flow.Statement
import JvmTaint.Flow.Value
import JvmTaint.Graph.Closure
import JvmTaint.Graph.Components
import JvmTaint.Graph.Cycles
import JvmTaint.Graph.Digraph
import JvmTaint.Graph.NodeSet
import JvmTaint.Lowering.Blocks
import JvmTaint.Lowering.Build
import JvmTaint.Lowering.CodeBase
import JvmTaint.Lowering.Flaw
import JvmTaint.Lowering.Operation
import JvmTaint.Lowering.Scopes
import JvmTaint.Lowering.Shapes
import JvmTaint.Lowering.Stack
import JvmTaint.Main
import JvmTaint.Memo.CallGraph
import JvmTaint.Memo.Graphs
import JvmTaint.Memo.Resolution
import JvmTaint.Memo.Types
import JvmTaint.Metrics.Basic
import JvmTaint.Metrics.Decimal
import JvmTaint.Metrics.Exposition
import JvmTaint.Packed.Reader
import JvmTaint.Packed.Writer
import JvmTaint.Pattern.Basic
import JvmTaint.Pattern.CharClass
import JvmTaint.Pattern.Part
import JvmTaint.Pattern.Reader
import JvmTaint.Proofs.Lowering.Frames
import JvmTaint.Proofs.Lowering.Machines
import JvmTaint.Proofs.Lowering.Moves
import JvmTaint.Proofs.Lowering.Operations
import JvmTaint.Proofs.Lowering.Preservation
import JvmTaint.Proofs.Tabulation.Covering
import JvmTaint.Proofs.Tabulation.Exactness
import JvmTaint.Proofs.Tabulation.Invariant
import JvmTaint.Proofs.Tabulation.Provenance
import JvmTaint.Proofs.Tabulation.RealizablePaths
import JvmTaint.Proofs.Tabulation.Rules
import JvmTaint.Proofs.Tabulation.Termination
import JvmTaint.Proofs.Taint.AccessPaths
import JvmTaint.Proofs.Taint.FlowFunctions
import JvmTaint.Queue
import JvmTaint.Session
import JvmTaint.SortedList
import JvmTaint.Settings.Basic
import JvmTaint.Settings.CodeIdentifier
import JvmTaint.Settings.Location
import JvmTaint.Settings.Log
import JvmTaint.Settings.Spec
import JvmTaint.Sum
import JvmTaint.Tabulation.Basic
import JvmTaint.Tabulation.Trace
import JvmTaint.Tabulation.Worklist
import JvmTaint.Taint.AccessPath
import JvmTaint.Taint.Analysis
import JvmTaint.Taint.Fact
import JvmTaint.Taint.Position
import JvmTaint.Taint.Problem
import JvmTaint.Taint.Report
import JvmTaint.Taint.Rule
import JvmTaint.Taint.RuleSet
import JvmTaint.Text.Blank
import JvmTaint.Text.CaseFold
import JvmTaint.Text.Category
import JvmTaint.Text.Digits
import JvmTaint.Text.Graphic
import JvmTaint.Text.Quoted
import JvmTaint.Text.Script
import JvmTaint.Text.Shown
import JvmTaint.Text.Split
import JvmTaint.Text.Utf8
import JvmTaint.Proofs.Taint.Termination
import JvmTaint.Proofs.Lowering.Assignments
import JvmTaint.Proofs.Taint.Reports
import JvmTaint.Proofs.Taint.WellFormed
import JvmTaint.Proofs.Taint.Sanitizers
import JvmTaint.Proofs.Taint.DepthBound
import JvmTaint.Proofs.Lowering.Layout
import JvmTaint.Proofs.Lowering.StackShapes
import JvmTaint.Proofs.Lowering.Passes
import JvmTaint.Proofs.Lowering.Connecting
import JvmTaint.Proofs.Lowering.BuiltGraphs
import JvmTaint.Proofs.Lowering.Positions
import JvmTaint.Proofs.Lowering.ScopeExits
import JvmTaint.Proofs.Lowering.ReachedBlocks
import JvmTaint.Proofs.Lowering.UnreachableCode
import JvmTaint.Proofs.Lowering.HandlerEntries
import JvmTaint.Proofs.ClassFile.Hierarchy
import JvmTaint.Proofs.Lowering.ExceptionDispatch
import JvmTaint.Proofs.Calls.CallGraph
import JvmTaint.Proofs.Calls.Selection
import JvmTaint.Proofs.Taint.ReachableCode
import JvmTaint.Proofs.Tabulation.TracePaths
import JvmTaint.Proofs.Taint.Traces
import JvmTaint.Proofs.Taint.HeapTaint
import JvmTaint.Proofs.Lists
import JvmTaint.Proofs.Taint.AddedRules
import JvmTaint.Proofs.Taint.ReportedFlows
import JvmTaint.Proofs.Taint.SinkRules
import JvmTaint.Proofs.Tabulation.Retention
import JvmTaint.Proofs.Taint.Retention
import JvmTaint.Proofs.ClassFile.DeclarationOrder
import JvmTaint.Proofs.Taint.Interchange
import JvmTaint.Proofs.Taint.DeclarationOrder
import JvmTaint.Proofs.Tabulation.Restriction
import JvmTaint.Proofs.Taint.NullFacts
import JvmTaint.Proofs.Taint.NullDereferences
import JvmTaint.Proofs.Memo.Answers
import JvmTaint.Proofs.Memo.Soundness
import JvmTaint.Proofs.Memo.CallGraph
import JvmTaint.Proofs.Taint.Analyzer
import JvmTaint.Proofs.Taint.Locations
import JvmTaint.Proofs.Taint.PathComparison
import JvmTaint.Proofs.Taint.LocationFlow
import JvmTaint.Proofs.Text.Utf8
import JvmTaint.Proofs.Packed.RoundTrip
import JvmTaint.Proofs.ClassFile.PackedLayout
import JvmTaint.Proofs.ClassFile.PackedPrograms
import JvmTaint.Proofs.Tabulation.Budget
import JvmTaint.Proofs.Taint.PartialResults
import JvmTaint.Proofs.Lowering.ShapeConsistency
import JvmTaint.Proofs.Lowering.Receivers
import JvmTaint.Proofs.Taint.HandOver
import JvmTaint.Proofs.Taint.NullReceivers
import JvmTaint.Proofs.Graph.LowLinks
import JvmTaint.Proofs.Graph.Components
import JvmTaint.Proofs.Graph.Digraphs
import JvmTaint.Proofs.Graph.StrongComponents
import JvmTaint.Proofs.Graph.CycleSearch
import JvmTaint.Proofs.Graph.ElementaryCycles
import JvmTaint.Proofs.Flow.BackEdges
import JvmTaint.Proofs.Flow.Loops
import JvmTaint.Proofs.Calls.LeastCallGraph
import JvmTaint.Proofs.Outcomes
import JvmTaint.Proofs.Text.Split
import JvmTaint.Proofs.ClassFile.Descriptors
import JvmTaint.Proofs.ClassFile.MethodRefs
import JvmTaint.Proofs.ClassFile.TypeQueries
import JvmTaint.Proofs.ClassFile.WrittenFlags
import JvmTaint.Proofs.Document.Blocks
import JvmTaint.Proofs.Packed.Ranges
import JvmTaint.Proofs.ClassFile.PackedWords
import JvmTaint.Proofs.ClassFile.WrittenPrograms
import JvmTaint.Proofs.Queues
import JvmTaint.Proofs.Taint.PathBounds
import JvmTaint.Proofs.Graph.Nodes
import JvmTaint.Proofs.Graph.Edges
import JvmTaint.Proofs.Tabulation.Worklist
import JvmTaint.Proofs.Tabulation.Accounting
