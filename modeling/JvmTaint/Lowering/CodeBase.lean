import JvmTaint.Lowering.Build

set_option autoImplicit false
set_option relaxedAutoImplicit false

/-!
# Code bases

A class table together with the flow graphs of its methods.

## Main definitions

* `JvmTaint.CodeBase`: the table and the graphs, made by `CodeBase.ofTable`.
* `JvmTaint.GraphError`: why a method has no flow graph.
* `JvmTaint.CodeBase.graph`: the flow graph of a method.
-/

namespace JvmTaint

/-- Why a method has no flow graph. -/
inductive GraphError where
  | lookup (e : LookupError)
  | build (e : BuildError)
  deriving DecidableEq, Repr

namespace GraphError

/-- The message of an error. -/
def message : GraphError → String
  | lookup e => e.message
  | build e => e.message

/-- Whether the method is declared without code. -/
def isNoCode : GraphError → Bool
  | build (.noCode _) => true
  | _ => false

end GraphError

/-- A class table with the flow graphs of its methods. -/
structure CodeBase where
  table : ClassTable
  graphs : Std.HashMap MethodRef (Except BuildError FlowGraph)

namespace CodeBase

/-- Builds the flow graphs of all methods of a table. -/
def ofTable (t : ClassTable) : CodeBase where
  table := t
  graphs := t.bodies.map fun _ body => FlowGraph.build (some t) body

/-- The flow graph of the method that a class itself declares. -/
def graph (c : CodeBase) (ref : MethodRef) : Except GraphError FlowGraph :=
  match c.table.body ref with
  | .error e => .error (.lookup e)
  | .ok body =>
    let outcome := match c.graphs[ref]? with
      | some outcome => outcome
      | none => FlowGraph.build (some c.table) body
    match outcome with
    | .error e => .error (.build e)
    | .ok g => .ok g

end CodeBase

end JvmTaint
