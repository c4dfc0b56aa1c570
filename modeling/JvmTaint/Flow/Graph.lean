import JvmTaint.ClassFile.AccessFlags
import JvmTaint.Flow.Statement
import JvmTaint.Graph.Closure
import JvmTaint.Graph.Components
import JvmTaint.Sum

set_option autoImplicit false
set_option relaxedAutoImplicit false

/-!
# Flow graphs

The control flow graph of a method: its statements, the edges between them, and its exits. The first
statement is the entry; the last one is the exit of uncaught exceptions.

## Main definitions

* `JvmTaint.EdgeKind`, `JvmTaint.Edge`: a control flow edge.
* `JvmTaint.FlowGraph`: a flow graph.
* `JvmTaint.markBackEdges`: marks the edges that close a cycle in depth-first order.
* `JvmTaint.FlowGraph.reachable`, `JvmTaint.FlowGraph.loops`: reachable statements and cycles.
* `JvmTaint.FlowGraph.render`, `JvmTaint.FlowGraph.renderDot`: listings.
-/

namespace JvmTaint

/-- The kind of a control flow edge. -/
inductive EdgeKind where
  | normal
  /-- Taken when the condition of a branch holds. -/
  | onTrue
  /-- Taken when the condition of a branch does not hold. -/
  | onFalse
  | exception
  deriving DecidableEq, Repr, Inhabited

/-- The name of a kind of edge. -/
def EdgeKind.name : EdgeKind → String
  | normal => "normal"
  | onTrue => "true"
  | onFalse => "false"
  | exception => "exception"

/-- A control flow edge between two statements of a method. -/
structure Edge where
  source : Nat
  target : Nat
  kind : EdgeKind
  /-- The type that the handler of an exception edge catches; empty if it catches all, and for edges
  to the exit. -/
  catchType : String := ""
  /-- Whether the edge closes a cycle in the depth-first order from the entry. -/
  back : Bool := false
  deriving DecidableEq, Repr, Inhabited

/-- The text of an edge. -/
def Edge.render (e : Edge) : String :=
  toString e.source ++ " -> " ++ toString e.target ++ " " ++ e.kind.name ++
    (if e.kind = .exception then
      "(" ++ (if e.catchType = "" then "any" else e.catchType) ++ ")" else "") ++
    (if e.back then " back" else "")

/-- The outgoing edges of every statement. -/
abbrev Successors := Array (List Edge)

/-! ## Back edges -/

/-- How far a depth-first search has come with a node. -/
inductive Progress where
  | unseen
  /-- The node is on the path from the start. -/
  | «open»
  | closed
  deriving DecidableEq, Repr, Inhabited

/-- Collects the edges to nodes on the search path. `path` holds the nodes of the path, the last one
first, with the edges that are still to be followed. The fuel bounds the number of nodes and edges
to be followed. -/
def backEdgesFrom (succs : Successors) :
    Nat → Array Progress → List (Nat × List Edge) → List Edge → List Edge
  | 0, _, _, found => found
  | _ + 1, _, [], found => found
  | fuel + 1, progress, (node, []) :: path, found =>
    backEdgesFrom succs fuel (progress.setIfInBounds node .closed) path found
  | fuel + 1, progress, (node, e :: es) :: path, found =>
    match progress[e.target]? with
    | some .unseen =>
      backEdgesFrom succs fuel (progress.setIfInBounds e.target .open)
        ((e.target, succs.getD e.target []) :: (node, es) :: path) found
    | some .open => backEdgesFrom succs fuel progress ((node, es) :: path) (e :: found)
    | _ => backEdgesFrom succs fuel progress ((node, es) :: path) found

/-- The edges that close a cycle in the depth-first order from the first statement. -/
def backEdges (succs : Successors) : List Edge :=
  let edgeCount := sumOf (succs.toList.map List.length)
  let progress := (Array.replicate succs.size Progress.unseen).setIfInBounds 0 .open
  backEdgesFrom succs (succs.size + edgeCount + 1) progress [(0, succs.getD 0 [])] []

/-- Marks the edges that close a cycle. -/
def markBackEdges (succs : Successors) : Successors :=
  let back := backEdges succs
  succs.map fun es => es.map fun e => { e with back := back.contains e }

/-! ## Flow graphs -/

/-- The control flow graph of a method. -/
structure FlowGraph where
  ref : MethodRef
  modifiers : AccessFlags
  /-- The variables that hold the receiver, if any, and the parameters on entry. -/
  params : List Value
  statements : Array Statement
  succs : Successors
  /-- The statements that leave the method, in increasing order. -/
  exits : List Nat
  deriving Inhabited

namespace FlowGraph

/-- The position of the first statement. -/
def entry (_ : FlowGraph) : Nat := 0

/-- The position of the exit of uncaught exceptions. -/
def unhandledExit (g : FlowGraph) : Nat := g.statements.size - 1

/-- The outgoing edges of a statement. -/
def successors (g : FlowGraph) (i : Nat) : List Edge := g.succs.getD i []

/-- All edges, in the order of their sources. -/
def edges (g : FlowGraph) : List Edge := g.succs.toList.flatten

/-- The incoming edges of a statement. -/
def predecessors (g : FlowGraph) (i : Nat) : List Edge := g.edges.filter (·.target == i)

/-- Whether a statement is an exit. -/
def isExit (g : FlowGraph) (i : Nat) : Bool := g.exits.contains i

/-- The statements reached from the entry. -/
def reachable (g : FlowGraph) : List Nat :=
  closure (fun i => (g.successors i).map (·.target)) (g.statements.size + 1) 0 [g.entry]

/-- The position of the parameter with a name. -/
def paramIndex? (g : FlowGraph) (name : String) : Option Nat :=
  g.params.findIdx? (·.render == name)

/-- The sets of reachable statements that lie on common cycles, each sorted, in the order of their
first statements. -/
def loops (g : FlowGraph) : List (List Nat) :=
  let nodes := g.reachable.mergeSort (· ≤ ·)
  ((cyclicComponents (g.statements.size + 1) nodes
      fun i => (g.successors i).map (·.target)).map (·.mergeSort (· ≤ ·))).mergeSort
    fun a b => decide (a.headD 0 ≤ b.headD 0)

/-- Pads a number to three columns. -/
def padNumber (n : Nat) : String :=
  let s := toString n
  "".pushn ' ' (3 - s.length) ++ s

/-- The line of a statement in a listing: its text, the offset it comes from, and the handlers of
the exceptions it may raise. -/
def renderLine (g : FlowGraph) (i : Nat) (s : Statement) : String :=
  "  " ++ padNumber i ++ ": " ++ s.render ++
    (if s.offset ≥ 0 then "  @" ++ toString s.offset else "") ++
    String.join (((g.successors i).filter (·.kind == .exception)).map
      fun e => "  !" ++ toString e.target) ++ "\n"

/-- The listing of a flow graph. -/
def render (g : FlowGraph) : String :=
  g.ref.render ++ "\n" ++
    String.join (g.statements.toList.zipIdx.map fun (s, i) => g.renderLine i s)

/-- The attributes of an edge in a drawing. -/
def dotAttributes (e : Edge) : String :=
  (match e.kind with
    | .normal => ""
    | .onTrue => " [label=\"T\"]"
    | .onFalse => " [label=\"F\"]"
    | .exception => " [style=dashed, label=" ++ Text.quote e.catchType ++ "]") ++
    (if e.back then " [color=red]" else "")

/-- The description of a flow graph for a graph drawing program. -/
def renderDot (g : FlowGraph) : String :=
  "digraph " ++ Text.quote g.ref.render ++ " \x7b\n  node [shape=box];\n" ++
    String.join (g.statements.toList.zipIdx.map fun (s, i) =>
      "  n" ++ toString i ++ " [label=" ++ Text.quote (toString i ++ ": " ++ s.render) ++ "];\n") ++
    String.join (g.edges.map fun e =>
      "  n" ++ toString e.source ++ " -> n" ++ toString e.target ++ dotAttributes e ++ ";\n") ++
    "\x7d\n"

end FlowGraph

end JvmTaint
