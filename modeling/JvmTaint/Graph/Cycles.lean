import JvmTaint.Graph.Components
import JvmTaint.Graph.Digraph

set_option autoImplicit false
set_option relaxedAutoImplicit false

/-!
# Components and elementary cycles of directed graphs

The strongly connected components that contain a cycle, and all elementary cycles. Cycles are
enumerated by their smallest node: from each node, a search runs through the component of that node
among the nodes that are not smaller. A node from which the start was not reached stays blocked
until one of its successors is unblocked, so that dead ends are not searched again.

## Main definitions

* `JvmTaint.Digraph.ComponentSearch`: a way to find the components of a graph.
* `JvmTaint.Digraph.components?`: the components, if every edge stays within the order.
* `JvmTaint.Digraph.strongComponentsBy?`, `JvmTaint.Digraph.strongComponents?`: the components with
  a cycle.
* `JvmTaint.Digraph.elementaryCyclesBy?`, `JvmTaint.Digraph.elementaryCycles?`: the elementary
  cycles.
-/

namespace JvmTaint

namespace Digraph

/-- A way to find the strongly connected components of the ids below the order of a graph; it may
fail. -/
abbrev ComponentSearch := Digraph → Option (List (List Int))

/-- The ids below the order. -/
def ids (g : Digraph) : List Int := (List.range g.order.toNat).map Int.ofNat

/-- Whether an id lies below the order. -/
def inOrder (g : Digraph) (id : Int) : Bool := decide (0 ≤ id ∧ id < g.order)

/-- The largest order that there is room for. -/
def maxOrder : Int := 35184372088832

/-- Whether the order makes room for the edges: it is a natural number that is not too large, and no
edge leads from an id below it to one that is not. -/
def isBounded (g : Digraph) : Bool :=
  decide (0 ≤ g.order ∧ g.order ≤ maxOrder) && g.ids.all fun i => (g.successors i).all g.inOrder

/-- The strongly connected components of the ids below the order; `none` if some edge leaves the
order. -/
def components? (g : Digraph) : Option (List (List Int)) :=
  if g.isBounded then some (stronglyConnectedComponents (g.order.toNat + 1) g.ids g.successors)
  else none

/-- The components with a cycle, among those that a search finds: the ones with at least two nodes,
and nodes with an edge to themselves. Each is sorted, and they are sorted by their smallest id. -/
def strongComponentsBy? (search : ComponentSearch) (g : Digraph) : Option (List (List Int)) :=
  (search g).map fun cs =>
    ((cs.filter fun
      | [v] => g.labels.contains v && g.hasEdge v v
      | _ => true).map (·.mergeSort (· ≤ ·))).mergeSort fun a b => decide (a.headD 0 ≤ b.headD 0)

/-- The components with a cycle. -/
def strongComponents? (g : Digraph) : Option (List (List Int)) := g.strongComponentsBy? components?

/-- The state of an enumeration of cycles. -/
structure CycleSearch where
  blocked : List Int := []
  /-- The nodes to be unblocked with a node, as pairs of the node and one of them. -/
  waiting : List (Int × Int) := []
  /-- The cycles found so far. -/
  cycles : List (List Int) := []

namespace CycleSearch

/-- Unblocks a node and, transitively, the nodes that wait for it. The fuel bounds the number of
blocked nodes. -/
def unblock : Nat → Int → CycleSearch → CycleSearch
  | 0, _, s => s
  | fuel + 1, u, s =>
    let s := { s with blocked := s.blocked.filter (· != u) }
    let waiters := (s.waiting.filter (·.1 == u)).map (·.2)
    let s := waiters.foldl (fun s w => if s.blocked.contains w then unblock fuel w s else s) s
    { s with waiting := s.waiting.filter (·.1 != u) }

/-- Searches for ways from `v` back to `start`, `path` being the way from `start` to `v` without
`v`. Tells whether some way was found. The fuel bounds the length of the path. -/
def circuit (g : Digraph) (start : Int) : Nat → List Int → Int → CycleSearch → Bool × CycleSearch
  | 0, _, _, s => (false, s)
  | fuel + 1, path, v, s =>
    let path := path ++ [v]
    let s := { s with blocked := v :: s.blocked }
    let (found, s) := (g.successors v).foldl
      (fun (found, s) w =>
        if w = v then (found, s)
        else if w = start then (true, { s with cycles := s.cycles ++ [path ++ [w]] })
        else if s.blocked.contains w then (found, s)
        else
          let (more, s) := circuit g start fuel path w s
          (found || more, s))
      (false, s)
    if found then (true, unblock (g.keys.length + 1) v s)
    else
      let waiting := (g.successors v).map fun w => (w, v)
      (false, { s with waiting := s.waiting ++ waiting })

end CycleSearch

/-- The elementary cycles through `start` whose other nodes are in `later`, which holds `start`. -/
def cyclesFromBy? (search : ComponentSearch) (g : Digraph) (start : Int) (later : List Int) :
    Option (List (List Int)) := do
  let selfLoop := if g.hasEdge start start then [[start, start]] else []
  let rest := g.subgraph later
  let cs ← search rest
  let own := cs.filter fun c => decide (2 ≤ c.length) && c.contains start
  let longer := own.flatMap fun c =>
    let component := rest.subgraph c
    (CycleSearch.circuit component start (component.keys.length + 1) [] start {}).2.cycles
  return selfLoop ++ longer

/-- The elementary cycles with the given smallest nodes. -/
def cyclesFromAllBy? (search : ComponentSearch) (g : Digraph) :
    List Int → Option (List (List Int))
  | [] => some []
  | start :: later => do
    let here ← g.cyclesFromBy? search start (start :: later)
    let more ← g.cyclesFromAllBy? search later
    return here ++ more

/-- All elementary cycles, each from its smallest id back to it, by means of a search for components
in the restrictions of the graph. -/
def elementaryCyclesBy? (search : ComponentSearch) (g : Digraph) : Option (List (List Int)) :=
  g.cyclesFromAllBy? search g.keys

/-- All elementary cycles, each from its smallest id back to it; `none` if some edge leaves the
order. -/
def elementaryCycles? (g : Digraph) : Option (List (List Int)) :=
  g.elementaryCyclesBy? components?

end Digraph

end JvmTaint
