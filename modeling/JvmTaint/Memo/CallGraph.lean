import JvmTaint.Memo.Graphs
import JvmTaint.Memo.Resolution

set_option autoImplicit false
set_option relaxedAutoImplicit false

/-!
# Call graphs from memos

A call graph is built by exploring one method after the other. To explore a method is to ask for its
flow graph and for the targets of its calls.

## Main definitions

* `JvmTaint.Explored`: a method that has been explored.
* `JvmTaint.Memo.explore`, `JvmTaint.Memo.exploreFrom`: exploring methods.
* `JvmTaint.Memo.callGraph`: the call graph of some entry methods.
-/

namespace JvmTaint

/-- A method with its flow graph and the targets of its calls. -/
structure Explored where
  ref : MethodRef
  graph : Except GraphError FlowGraph
  /-- The positions of the calls, with their targets. -/
  calls : List (Nat × Except UnresolvedCall Resolution) := []

namespace Explored

/-- The call edges of the method. -/
def edges (x : Explored) : List CallEdge :=
  match x.graph with
  | .error _ => []
  | .ok g => x.calls.flatMap fun (i, targets) =>
    match targets with
    | .ok r => r.callees.map fun callee => ⟨g.ref, i, callee, r.dispatch⟩
    | .error _ => []

/-- The calls of the method without a target. -/
def unresolved (x : Explored) : List (FlowGraph × Nat) :=
  match x.graph with
  | .error _ => []
  | .ok g => (x.calls.filterMap fun (i, targets) =>
    match targets with
    | .ok _ => none
    | .error _ => some i).map (g, ·)

/-- Why the method has no flow graph although it may have code. -/
def failure? (x : Explored) : Option (MethodRef × GraphError) :=
  match x.graph with
  | .error e => if e.isNoCode then none else some (x.ref, e)
  | .ok _ => none

end Explored

/-- The call graph of the methods that have been explored. -/
def CallGraph.ofExplored (entries : List MethodRef) (found : List Explored) : CallGraph where
  entries := entries
  methods := (found.map (·.ref)).mergeSort MethodRef.le
  out := found.filterMap fun x =>
    match x.edges with
    | [] => none
    | es => some (x.ref, es)
  unresolved := found.flatMap (·.unresolved)
  failures := found.filterMap (·.failure?)

namespace Memo

variable (t : ClassTable)

/-- Explores a method. -/
def explore (ref : MethodRef) : StateM Memo Explored := do
  match ← graph t ref with
  | .error e => return { ref, graph := .error e }
  | .ok g =>
    let calls ← g.calls.mapM fun (call, i) => return (i, ← resolve t call.key)
    return { ref, graph := .ok g, calls }

/-- Explores the methods of `seen` from the one at position `done` on, and what they call. The fuel
bounds the number of methods. -/
def exploreFrom : Nat → Nat → List MethodRef → StateM Memo (List Explored)
  | 0, _, _ => return []
  | fuel + 1, done, seen =>
    match seen[done]? with
    | none => return []
    | some ref => do
      let x ← explore t ref
      let rest ← exploreFrom fuel (done + 1) (appendNew seen (x.edges.map (·.callee)))
      return x :: rest

/-- The call graph of some entry methods. -/
def callGraph (entries : List MethodRef) : StateM Memo CallGraph := do
  let found ← exploreFrom t (entries.length + t.bodies.size + 1) 0 (appendNew [] entries)
  return CallGraph.ofExplored entries found

end Memo

end JvmTaint
