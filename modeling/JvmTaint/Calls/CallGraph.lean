import JvmTaint.Calls.Resolution
import JvmTaint.Graph.Cycles

set_option autoImplicit false
set_option relaxedAutoImplicit false

/-!
# Call graphs

The methods reached from entry methods through the targets of their calls, with the call edges.

## Main definitions

* `JvmTaint.CallEdge`: a call statement with one of its targets.
* `JvmTaint.CallGraph`: a call graph, made by `CallGraph.build`.
* `JvmTaint.CallGraph.digraph`: the graph over the positions of the methods.
* `JvmTaint.CallGraph.recursiveComponents`, `JvmTaint.CallGraph.cycles`.
-/

namespace JvmTaint

/-- A call statement with one of its targets. -/
structure CallEdge where
  caller : MethodRef
  site : Nat
  callee : MethodRef
  dispatch : Dispatch
  deriving DecidableEq, Repr, Inhabited

/-- The text of a call edge. -/
def CallEdge.render (e : CallEdge) : String :=
  e.caller.render ++ "#" ++ toString e.site ++ " -> " ++ e.callee.render ++
    " (" ++ e.dispatch.name ++ ")"

/-- The calls of a flow graph, with their positions. -/
def FlowGraph.calls (g : FlowGraph) : List (Call × Nat) :=
  g.statements.toList.zipIdx.filterMap fun (s, i) => s.action.call?.map (·, i)

namespace CodeBase

/-- The call edges of a flow graph, in the order of the statements. -/
def edgesOf (c : CodeBase) (g : FlowGraph) : List CallEdge :=
  g.calls.flatMap fun (call, i) =>
    match c.table.resolve call.key with
    | .ok r => r.callees.map fun callee => ⟨g.ref, i, callee, r.dispatch⟩
    | .error _ => []

/-- The calls of a flow graph without a target. -/
def unresolvedOf (c : CodeBase) (g : FlowGraph) : List Nat :=
  g.calls.filterMap fun (call, i) =>
    match c.table.resolve call.key with
    | .ok _ => none
    | .error _ => some i

/-- The targets of the calls of a method. -/
def calleesOf (c : CodeBase) (ref : MethodRef) : List MethodRef :=
  match c.graph ref with
  | .ok g => (c.edgesOf g).map (·.callee)
  | .error _ => []

end CodeBase

/-- A call graph. -/
structure CallGraph where
  entries : List MethodRef
  /-- The methods reached from the entries, sorted. -/
  methods : List MethodRef
  /-- The edges of the methods with edges. -/
  out : List (MethodRef × List CallEdge)
  /-- The call statements without a target, in the order in which the methods were reached. -/
  unresolved : List (FlowGraph × Nat)
  /-- The methods without a flow graph although they may have code, and why. -/
  failures : List (MethodRef × GraphError)

namespace CallGraph

/-- The methods reached from entry methods, in breadth-first order. -/
def reached (c : CodeBase) (entries : List MethodRef) : List MethodRef :=
  closure c.calleesOf (entries.length + c.table.bodies.size + 1) 0 (appendNew [] entries)

/-- The call graph of entry methods. -/
def build (c : CodeBase) (entries : List MethodRef) : CallGraph :=
  let found := reached c entries
  let graphs := found.map fun ref => (ref, c.graph ref)
  {
    entries
    methods := found.mergeSort MethodRef.le
    out := graphs.filterMap fun
      | (ref, .ok g) => match c.edgesOf g with
        | [] => none
        | es => some (ref, es)
      | _ => none
    unresolved := graphs.flatMap fun
      | (_, .ok g) => (c.unresolvedOf g).map (g, ·)
      | _ => []
    failures := graphs.filterMap fun
      | (ref, .error e) => if e.isNoCode then none else some (ref, e)
      | _ => none }

/-- The edges of a method, in the order of the statements. -/
def edgesFrom (g : CallGraph) (ref : MethodRef) : List CallEdge := (g.out.lookup ref).getD []

/-- The targets of the calls of a method, sorted. -/
def callees (g : CallGraph) (ref : MethodRef) : List MethodRef :=
  ((g.edgesFrom ref).map (·.callee)).eraseDups.mergeSort MethodRef.le

/-- The position of a method. -/
def idOf? (g : CallGraph) (ref : MethodRef) : Option Nat := g.methods.findIdx? (· == ref)

/-- The graph over the positions of the methods. -/
def digraph (g : CallGraph) : Digraph :=
  let nodes := g.methods.zipIdx.foldl (fun d (m, i) => d.addNode i m.render)
    (Digraph.empty g.methods.length)
  g.out.foldl
    (fun d (caller, es) => es.foldl
      (fun d e => match g.idOf? caller, g.idOf? e.callee with
        | some i, some j => d.addEdge i j
        | _, _ => d) d) nodes

/-- The methods at some positions. -/
def methodsAt (g : CallGraph) (ids : List Int) : List MethodRef :=
  ids.filterMap fun i => g.methods[i.toNat]?

/-- The sets of methods that call each other, and the methods that call themselves. -/
def recursiveComponents (g : CallGraph) : List (List MethodRef) :=
  (g.digraph.strongComponents?.getD []).map g.methodsAt

/-- The elementary cycles of calls. -/
def cycles (g : CallGraph) : List (List MethodRef) :=
  (g.digraph.elementaryCycles?.getD []).map g.methodsAt

/-- The listing of the edges by caller. -/
def render (g : CallGraph) : String :=
  String.join <| g.methods.map fun m =>
    match g.edgesFrom m with
    | [] => ""
    | es => m.render ++ "\n" ++ String.join (es.map fun e =>
      "  #" ++ toString e.site ++ " -> " ++ e.callee.render ++ " (" ++ e.dispatch.name ++ ")\n")

end CallGraph

end JvmTaint
