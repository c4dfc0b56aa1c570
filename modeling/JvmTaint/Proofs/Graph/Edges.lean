import JvmTaint.Proofs.Graph.Nodes
import Mathlib.Data.List.Induction

set_option autoImplicit false
set_option relaxedAutoImplicit false

/-!
# The edges of a graph

An edge is recorded at both of its ends, in two sorted lists. The lists are changed one at a time,
by insertions in any order, and a restriction makes both anew. Here any changes are made to a graph:
edges may join ids of no node, and a restriction may be to ids of no node, given in any order and
more than once.

## Main definitions

* `JvmTaint.Digraph.ofChanges`: the graph that any changes make.
* `JvmTaint.Digraph.Mirrored`: every edge is recorded at both ends.
* `JvmTaint.Digraph.Joined`: an edge was added and has not been taken away.

## Main results

* `JvmTaint.Digraph.mirrored_ofChanges`: no change leaves an edge at one end only.
* `JvmTaint.Digraph.hasEdge_ofChanges_iff`: the edges in terms of the changes.
* `JvmTaint.Digraph.edges_of_changes`: how the lists, the search for an edge and the changes agree.
-/

namespace JvmTaint

namespace Digraph

variable {g : Digraph} {order a b v w : Int} {label : String} {kept : List Int}
variable {cs : List Change} {c : Change}

/-- The graph that some changes make, one after the other. -/
def ofChanges (order : Int) (cs : List Change) : Digraph := cs.foldl change (empty order)

/-! ## Both ends of an edge -/

/-- Every edge is recorded at both of its ends. -/
def Mirrored (g : Digraph) : Prop := ∀ v w, v ∈ g.predecessors w ↔ w ∈ g.successors v

lemma Mirrored.addEdge (h : g.Mirrored) : (g.addEdge a b).Mirrored := by
  intro v w
  rw [mem_predecessors_addEdge, mem_successors_addEdge, h v w, and_comm]

/-- A restriction records its edges at both ends, whatever the graph does: it adds each of them. -/
lemma mirrored_subgraph : (g.subgraph kept).Mirrored := by
  refine List.foldlRecOn kept _ (fun v w => ?_) fun sub hsub i _ =>
    List.foldlRecOn (g.successors i) _ hsub fun sub hsub e _ => ?_
  · simp [predecessors, successors]
  · split
    · exact hsub.addEdge
    · exact hsub

lemma Mirrored.change (h : g.Mirrored) (c : Change) : (g.change c).Mirrored := by
  cases c with
  | node id label => exact h
  | edge source target => exact h.addEdge
  | restrict kept => exact mirrored_subgraph
  | elsewhere id label => exact h

/-- No change leaves an edge at one of its ends only. -/
lemma mirrored_ofChanges (order : Int) (cs : List Change) : (ofChanges order cs).Mirrored := by
  refine List.foldlRecOn cs change (fun v w => ?_) fun g hg c _ => hg.change c
  simp [predecessors, successors, Digraph.empty]

/-! ## What a change does to the edges -/

lemma hasEdge_addEdge :
    (g.addEdge a b).hasEdge v w = true ↔ (v = a ∧ w = b) ∨ g.hasEdge v w = true := by
  rw [hasEdge_iff, mem_successors_addEdge, hasEdge_iff]

lemma hasEdge_subgraph :
    (g.subgraph kept).hasEdge v w = true ↔ g.hasEdge v w = true ∧ v ∈ kept ∧ w ∈ kept := by
  rw [hasEdge_iff, mem_successors_subgraph, hasEdge_iff]
  tauto

/-- The change leaves an edge where it is: a restriction does so if both ends are kept. -/
def Change.Spares (source target : Int) : Change → Prop
  | .restrict kept => source ∈ kept ∧ target ∈ kept
  | .node _ _ | .edge _ _ | .elsewhere _ _ => True

/-- An edge is there after a change if the change adds it, or if it was there and is spared. -/
lemma hasEdge_change_iff : (g.change c).hasEdge v w = true ↔
    c = .edge v w ∨ (g.hasEdge v w = true ∧ c.Spares v w) := by
  cases c with
  | node id label => simp [change, addNode, hasEdge, Change.Spares]
  | edge source target =>
    simp only [change, hasEdge_addEdge, Change.Spares, Change.edge.injEq, and_true,
      eq_comm (a := v), eq_comm (a := w)]
  | restrict kept => simp [change, hasEdge_subgraph, Change.Spares]
  | elsewhere id label => simp [change, hasEdge, Change.Spares]

/-! ## The edges in terms of the changes -/

/-- An edge was added, and no later change has taken it away. -/
def Joined (cs : List Change) (source target : Int) : Prop :=
  ∃ before after, cs = before ++ .edge source target :: after ∧
    ∀ c ∈ after, c.Spares source target

/-- An edge is in effect after one more change if that change adds it, or if it was in effect and is
spared. -/
lemma joined_concat : Joined (cs ++ [c]) v w ↔
    c = .edge v w ∨ (Joined cs v w ∧ c.Spares v w) := by
  have hplace : ∀ cs, Joined cs v w ↔ ∃ before c after, cs = before ++ c :: after ∧
      c = .edge v w ∧ ∀ c ∈ after, c.Spares v w := by
    simp [Joined]
  rw [hplace, exists_place_concat_iff, or_comm]
  simp only [List.forall_mem_append, List.forall_mem_singleton]
  simp [Joined, ← and_assoc]

/-- **Edges and changes.** An edge is found exactly if it was added and no later restriction has left
out one of its ends.

**Proof sketch.** Induction on the changes, from the last one back. -/
lemma hasEdge_ofChanges_iff (order : Int) (cs : List Change) :
    (ofChanges order cs).hasEdge v w = true ↔ Joined cs v w := by
  induction cs using List.reverseRecOn with
  | nil => simp [ofChanges, hasEdge_iff, Digraph.empty, successors, Joined]
  | append_singleton cs c ih =>
    rw [ofChanges, List.foldl_concat, hasEdge_change_iff, joined_concat, ← ih, ofChanges]

/-- **The edges of a graph.** Whatever changes have been made to a graph, the successors and the
predecessors of every id are listed in strictly increasing order, and those are the nodes that are
gone through. The search finds an edge if and only if it is listed at its source, if and only if it
is listed at its target, and exactly if it was added and no later restriction has left out one of
its ends. An edge that is added is there afterwards and no other one is new, a node that is added
makes no difference to the edges, and a restriction has exactly the edges whose two ends it keeps. -/
theorem edges_of_changes (order : Int) (cs : List Change) :
    let g := ofChanges order cs
    (∀ v, (g.successors v).Pairwise (· < ·) ∧ (g.predecessors v).Pairwise (· < ·)) ∧
    (∀ v, (g.nodesAfter v).drain.1.map Prod.fst = g.successors v ∧
      (g.nodesBefore v).drain.1.map Prod.fst = g.predecessors v) ∧
    (∀ v w, (g.hasEdge v w = true ↔ w ∈ g.successors v) ∧
      (g.hasEdge v w = true ↔ v ∈ g.predecessors w) ∧
      (g.hasEdge v w = true ↔ Joined cs v w)) ∧
    (∀ a b v w, (g.addEdge a b).hasEdge v w = true ↔
      (v = a ∧ w = b) ∨ g.hasEdge v w = true) ∧
    (∀ id label v w, (g.addNode id label).hasEdge v w = g.hasEdge v w) ∧
    ∀ kept v w, (g.subgraph kept).hasEdge v w = true ↔
      g.hasEdge v w = true ∧ v ∈ kept ∧ w ∈ kept := by
  intro g
  refine ⟨fun v => ⟨pairwise_successors g v, pairwise_predecessors g v⟩,
    fun v => ⟨NodeSet.map_fst_drain rfl, NodeSet.map_fst_drain rfl⟩,
    fun v w => ⟨hasEdge_iff, ?_, hasEdge_ofChanges_iff order cs⟩,
    fun a b v w => hasEdge_addEdge, fun id label v w => rfl, fun kept v w => hasEdge_subgraph⟩
  rw [hasEdge_iff]
  exact (mirrored_ofChanges order cs v w).symm

end Digraph

end JvmTaint
