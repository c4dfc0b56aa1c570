import JvmTaint.SortedList
import Std.Data.HashMap

set_option autoImplicit false
set_option relaxedAutoImplicit false

/-!
# Directed graphs

Graphs over integer node ids with labels. Node lists and successor lists are kept sorted, so that
every traversal is deterministic and ids are looked up by a search that halves the list. An edge is
recorded at both of its ends. A graph has an order: algorithms that number nodes expect the ids to
lie below it.

## Main definitions

* `JvmTaint.Digraph`: a graph, with `Digraph.addNode` and `Digraph.addEdge`.
* `JvmTaint.Digraph.subgraph`: the restriction of a graph to some nodes.
* `JvmTaint.Digraph.hasEdge`, `JvmTaint.Digraph.successors`, `JvmTaint.Digraph.predecessors`.
-/

namespace JvmTaint

/-- A directed graph over integer ids. -/
structure Digraph where
  /-- The number of ids that algorithms over the graph make room for. -/
  order : Int
  labels : Std.HashMap Int String := ∅
  /-- The ids of the nodes, in increasing order. -/
  keys : List Int := []
  /-- The sorted successors of a node. -/
  succs : Std.HashMap Int (SortedList Int) := ∅
  /-- The sorted predecessors of a node. -/
  preds : Std.HashMap Int (SortedList Int) := ∅

namespace Digraph

/-- The graph without nodes. -/
def empty (order : Int) : Digraph := { order }

/-- The label of a node. -/
def label? (g : Digraph) (id : Int) : Option String := g.labels[id]?

/-- The successors of a node. -/
def successors (g : Digraph) (id : Int) : List Int := (g.succs.getD id {}).toList

/-- The predecessors of a node. -/
def predecessors (g : Digraph) (id : Int) : List Int := (g.preds.getD id {}).toList

/-- Adds a node, or gives a labelled node another label. A node without a label is added once more
even if its id is there. -/
def addNode (g : Digraph) (id : Int) (label : String) : Digraph :=
  { g with
    keys := if g.labels.contains id then g.keys else insertAmong id g.keys
    labels := g.labels.insert id label }

/-- Adds an edge between two nodes. -/
def addEdge (g : Digraph) (source target : Int) : Digraph :=
  { g with
    succs := g.succs.insert source ((g.succs.getD source {}).insert target)
    preds := g.preds.insert target ((g.preds.getD target {}).insert source) }

/-- Whether there is an edge between two nodes. -/
def hasEdge (g : Digraph) (source target : Int) : Bool := (g.succs.getD source {}).contains target

/-- The restriction of a graph to some nodes and the edges between them. Labels and order stay, so
that the ids keep their meaning. -/
def subgraph (g : Digraph) (kept : List Int) : Digraph :=
  let keys := kept.mergeSort (· ≤ ·)
  let start : Digraph := { order := g.order, labels := g.labels, keys }
  kept.foldl
    (fun sub i =>
      (g.successors i).foldl (fun sub e => if binarySearch keys e then sub.addEdge i e else sub) sub)
    start

end Digraph

end JvmTaint
