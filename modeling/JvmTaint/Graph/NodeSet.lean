import JvmTaint.Graph.Digraph

set_option autoImplicit false
set_option relaxedAutoImplicit false

/-!
# Going through the nodes of a graph

An iterator over nodes stands in front of the first node, and moves from each node to the next one.

## Main definitions

* `JvmTaint.NodeSet`: an iterator, with `NodeSet.next?`, `NodeSet.node?` and `NodeSet.length`.
* `JvmTaint.NodeSet.drain`: the nodes that an iterator moves to until it ends.
* `JvmTaint.Digraph.nodes`, `JvmTaint.Digraph.nodesAfter`, `JvmTaint.Digraph.nodesBefore`: the nodes
  of a graph, and those at the other end of an edge.
-/

namespace JvmTaint

/-- An iterator over nodes. -/
structure NodeSet where
  labels : Std.HashMap Int String
  ids : List Int
  /-- The number of nodes that the iterator has moved to. It is at the last one of them. -/
  passed : Nat := 0

namespace NodeSet

/-- The number of nodes that the iterator has not moved to. -/
def length (s : NodeSet) : Nat := s.ids.length - s.passed

/-- Moves to the next node, if there is one. -/
def next? (s : NodeSet) : Option NodeSet :=
  if s.passed < s.ids.length then some { s with passed := s.passed + 1 } else none

/-- The node that the iterator is at, with its label; a node without a label has an empty one. -/
def node? (s : NodeSet) : Option (Int × String) :=
  match s.passed with
  | 0 => none
  | n + 1 => s.ids[n]?.map fun id => (id, s.labels.getD id "")

/-- Moving to the next node leaves one node less. -/
theorem length_of_next? {s t : NodeSet} (h : s.next? = some t) : t.length < s.length := by
  unfold next? at h
  split at h
  · cases h
    simp only [length]
    omega
  · cases h

/-- The nodes that the iterator moves to until it ends, and where it is then. -/
def drain (s : NodeSet) : List (Int × String) × NodeSet :=
  match _h : s.next? with
  | none => ([], s)
  | some t =>
    let (nodes, last) := t.drain
    (t.node?.toList ++ nodes, last)
termination_by s.length
decreasing_by exact length_of_next? ‹_›

end NodeSet

namespace Digraph

/-- The nodes of a graph. -/
def nodes (g : Digraph) : NodeSet := { labels := g.labels, ids := g.keys }

/-- The nodes that edges lead to from a node. -/
def nodesAfter (g : Digraph) (id : Int) : NodeSet := { labels := g.labels, ids := g.successors id }

/-- The nodes that edges lead from to a node. -/
def nodesBefore (g : Digraph) (id : Int) : NodeSet :=
  { labels := g.labels, ids := g.predecessors id }

end Digraph

end JvmTaint
