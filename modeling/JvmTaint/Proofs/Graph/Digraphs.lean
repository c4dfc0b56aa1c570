import JvmTaint.Graph.Digraph
import JvmTaint.Proofs.Lists
import Mathlib.Data.List.Sort
import Mathlib.Data.Int.Order.Basic
import Mathlib.Tactic.Tauto

set_option autoImplicit false
set_option relaxedAutoImplicit false

/-!
# Graphs that are made by adding nodes and edges

Nodes and successors are kept sorted and without repetitions by every operation, and every node has
a label. Successors and predecessors are sorted in every graph, so that the search for an edge finds
the edges. The edges of a restriction are the edges between the nodes that are kept.

## Main definitions

* `JvmTaint.Digraph.Made`: graphs made by adding nodes and edges, and by restriction.
* `JvmTaint.Digraph.twoLoops`: an example.

## Main results

* `JvmTaint.Digraph.hasEdge_iff`: the edges are those that the successors tell.
* `JvmTaint.Digraph.Made.pairwise_keys`: nodes are strictly increasing.
* `JvmTaint.Digraph.Made.labelled`: nodes have labels.
* `JvmTaint.Digraph.mem_successors_subgraph`: the edges of a restriction.
-/

namespace JvmTaint

namespace Digraph

variable {g : Digraph} {a b v w : Int} {kept : List Int}

/-! ## Edges -/

/-- Successors are listed in increasing order. -/
lemma pairwise_successors (g : Digraph) (v : Int) : (g.successors v).Pairwise (· < ·) :=
  (g.succs.getD v {}).sorted

/-- Predecessors are listed in increasing order. -/
lemma pairwise_predecessors (g : Digraph) (v : Int) : (g.predecessors v).Pairwise (· < ·) :=
  (g.preds.getD v {}).sorted

/-- The search for an edge finds the successors. -/
lemma hasEdge_iff : g.hasEdge a b = true ↔ b ∈ g.successors a := SortedList.contains_iff

/-- What is recorded for the nodes after an id has been added for one of them. -/
lemma mem_toList_getD_insert {m : Std.HashMap Int (SortedList Int)} :
    w ∈ ((m.insert a ((m.getD a {}).insert b)).getD v {}).toList ↔
      (v = a ∧ w = b) ∨ w ∈ (m.getD v {}).toList := by
  rw [Std.HashMap.getD_insert]
  split
  · rename_i heq
    obtain rfl := eq_of_beq heq
    rw [SortedList.mem_toList_insert]
    simp
  · rename_i hne
    simp [Ne.symm (by simpa using hne : a ≠ v)]

/-- The successors after an edge has been added. -/
lemma mem_successors_addEdge :
    w ∈ (g.addEdge a b).successors v ↔ (v = a ∧ w = b) ∨ w ∈ g.successors v :=
  mem_toList_getD_insert

/-- The predecessors after an edge has been added. -/
lemma mem_predecessors_addEdge :
    w ∈ (g.addEdge a b).predecessors v ↔ (v = b ∧ w = a) ∨ w ∈ g.predecessors v :=
  mem_toList_getD_insert

/-! ## Restrictions -/

/-- What adding some edges of a restriction keeps and adds. -/
lemma foldl_addEdge_kept (i : Int) (p : Int → Bool) (es : List Int) (sub : Digraph) :
    let r := es.foldl (fun sub e => if p e then sub.addEdge i e else sub) sub
    r.keys = sub.keys ∧ r.order = sub.order ∧ r.labels = sub.labels ∧
      ∀ v w, w ∈ r.successors v ↔ w ∈ sub.successors v ∨ (v = i ∧ w ∈ es ∧ p w = true) := by
  induction es generalizing sub with
  | nil => exact ⟨rfl, rfl, rfl, by simp⟩
  | cons e es ih =>
    rw [List.foldl_cons]
    split
    · rename_i he
      obtain ⟨hkeys, horder, hlabels, hmem⟩ := ih (sub.addEdge i e)
      refine ⟨hkeys, horder, hlabels, fun v w => ?_⟩
      rw [hmem, mem_successors_addEdge]
      constructor
      · rintro ((⟨rfl, rfl⟩ | h) | ⟨rfl, hw, hk⟩)
        · exact .inr ⟨rfl, List.mem_cons_self, he⟩
        · exact .inl h
        · exact .inr ⟨rfl, List.mem_cons_of_mem _ hw, hk⟩
      · rintro (h | ⟨rfl, hw, hk⟩)
        · exact .inl (.inr h)
        · rcases List.mem_cons.mp hw with rfl | hw
          · exact .inl (.inl ⟨rfl, rfl⟩)
          · exact .inr ⟨rfl, hw, hk⟩
    · rename_i he
      obtain ⟨hkeys, horder, hlabels, hmem⟩ := ih sub
      refine ⟨hkeys, horder, hlabels, fun v w => ?_⟩
      rw [hmem]
      refine or_congr_right (and_congr_right fun _ => ⟨fun h => ⟨List.mem_cons_of_mem _ h.1, h.2⟩,
        fun h => ⟨?_, h.2⟩⟩)
      rcases List.mem_cons.mp h.1 with rfl | hw
      · exact absurd h.2 he
      · exact hw

/-- The search among the sorted nodes of a restriction finds the nodes that are kept. -/
lemma binarySearch_mergeSort : binarySearch (kept.mergeSort (· ≤ ·)) v = true ↔ v ∈ kept :=
  (binarySearch_iff (List.pairwise_mergeSort' (· ≤ ·) kept)).trans List.mem_mergeSort

/-- What the restriction of a graph keeps. -/
lemma subgraph_spec (g : Digraph) (kept : List Int) :
    (g.subgraph kept).keys = kept.mergeSort (· ≤ ·) ∧ (g.subgraph kept).order = g.order ∧
      (g.subgraph kept).labels = g.labels ∧
      ∀ v w, w ∈ (g.subgraph kept).successors v ↔ v ∈ kept ∧ w ∈ kept ∧ w ∈ g.successors v := by
  have hall : ∀ (is : List Int) (sub : Digraph),
      let r := is.foldl (fun sub i => (g.successors i).foldl (fun sub e =>
        if binarySearch (kept.mergeSort (· ≤ ·)) e then sub.addEdge i e else sub) sub) sub
      r.keys = sub.keys ∧ r.order = sub.order ∧ r.labels = sub.labels ∧
        ∀ v w, w ∈ r.successors v ↔
          w ∈ sub.successors v ∨ (v ∈ is ∧ w ∈ kept ∧ w ∈ g.successors v) := by
    intro is
    induction is with
    | nil => exact fun sub => ⟨rfl, rfl, rfl, by simp⟩
    | cons i is ih =>
      intro sub
      rw [List.foldl_cons]
      obtain ⟨hkeys, horder, hlabels, hmem⟩ :=
        foldl_addEdge_kept i (binarySearch (kept.mergeSort (· ≤ ·))) (g.successors i) sub
      obtain ⟨hkeys', horder', hlabels', hmem'⟩ := ih _
      refine ⟨hkeys'.trans hkeys, horder'.trans horder, hlabels'.trans hlabels, fun v w => ?_⟩
      rw [hmem', hmem, binarySearch_mergeSort, List.mem_cons]
      constructor
      · rintro ((h | ⟨rfl, hw, hk⟩) | ⟨hv, h⟩)
        · exact .inl h
        · exact .inr ⟨.inl rfl, hk, hw⟩
        · exact .inr ⟨.inr hv, h⟩
      · rintro (h | ⟨rfl | hv, hk, hw⟩)
        · exact .inl (.inl h)
        · exact .inl (.inr ⟨rfl, hw, hk⟩)
        · exact .inr ⟨hv, hk, hw⟩
  obtain ⟨hkeys, horder, hlabels, hmem⟩ := hall kept
    { order := g.order, labels := g.labels, keys := kept.mergeSort (· ≤ ·) }
  refine ⟨hkeys, horder, hlabels, fun v w => (hmem v w).trans ?_⟩
  simp [successors]

lemma keys_subgraph : (g.subgraph kept).keys = kept.mergeSort (· ≤ ·) := (subgraph_spec g kept).1

lemma order_subgraph : (g.subgraph kept).order = g.order := (subgraph_spec g kept).2.1

/-- The edges of a restriction are those between the nodes that are kept. -/
lemma mem_successors_subgraph :
    w ∈ (g.subgraph kept).successors v ↔ v ∈ kept ∧ w ∈ kept ∧ w ∈ g.successors v :=
  (subgraph_spec g kept).2.2.2 v w

/-! ## Graphs that are made -/

/-- The graphs that are made from graphs without nodes by adding nodes and edges, and by restriction
to some of the nodes. -/
inductive Made : Digraph → Prop
  | empty (order : Int) : Made (empty order)
  | addNode {g : Digraph} (h : Made g) (id : Int) (label : String) : Made (g.addNode id label)
  | addEdge {g : Digraph} (h : Made g) (source target : Int) : Made (g.addEdge source target)
  | subgraph {g : Digraph} (h : Made g) {kept : List Int} (hnodup : kept.Nodup)
      (hkept : ∀ id ∈ kept, id ∈ g.keys) : Made (g.subgraph kept)

namespace Made

/-- Nodes have labels. -/
lemma labelled (h : g.Made) : ∀ id ∈ g.keys, g.labels.contains id = true := by
  induction h with
  | empty order => simp [Digraph.empty]
  | addNode h id label ih =>
    rename_i g
    intro x hx
    simp only [Digraph.addNode, Std.HashMap.contains_insert, Bool.or_eq_true, beq_iff_eq] at hx ⊢
    split at hx
    · exact .inr (ih x hx)
    · exact (mem_insertAmong.mp hx).imp Eq.symm (ih x)
  | addEdge h source target ih => exact ih
  | subgraph h hnodup hkept ih =>
    intro x hx
    rw [keys_subgraph, List.mem_mergeSort] at hx
    rw [(subgraph_spec _ _).2.2.1]
    exact ih x (hkept x hx)

/-- Nodes are listed in increasing order. -/
lemma pairwise_keys (h : g.Made) : g.keys.Pairwise (· < ·) := by
  induction h with
  | empty order => simp [Digraph.empty]
  | addNode h id label ih =>
    rename_i g
    show (if g.labels.contains id then g.keys else insertAmong id g.keys).Pairwise (· < ·)
    split
    · exact ih
    · rename_i hid
      exact pairwise_insertAmong ih fun hmem => hid (h.labelled id hmem)
  | addEdge h source target ih => exact ih
  | subgraph h hnodup hkept ih =>
    rw [keys_subgraph]
    exact pairwise_lt_mergeSort_self hnodup

end Made

/-! ## An example -/

/-- A graph with two nodes on a cycle, a node with an edge to itself, and a node without edges out
of it. -/
def twoLoops : Digraph :=
  let nodes := ((((empty 4).addNode 0 "a").addNode 1 "b").addNode 2 "c").addNode 3 "d"
  ((((nodes.addEdge 0 1).addEdge 1 0).addEdge 1 2).addEdge 2 2).addEdge 2 3

lemma made_twoLoops : twoLoops.Made := by
  unfold twoLoops
  repeat constructor

lemma keys_twoLoops : twoLoops.keys = [0, 1, 2, 3] := by
  simp [twoLoops, addNode, addEdge, empty, insertAmong, insertionPoint, lowerBound]

lemma mem_successors_twoLoops :
    w ∈ twoLoops.successors v ↔ (v, w) ∈ [(0, 1), (1, 0), (1, 2), (2, 2), (2, 3)] := by
  have hnodes : (((((empty 4).addNode 0 "a").addNode 1 "b").addNode 2 "c").addNode 3
      "d").successors v = [] := by
    simp [successors, addNode, empty]
  simp only [twoLoops, mem_successors_addEdge, hnodes, List.mem_cons, Prod.mk.injEq,
    List.not_mem_nil]
  tauto

end Digraph

end JvmTaint
