import JvmTaint.Graph.Cycles
import JvmTaint.Proofs.Graph.Components
import JvmTaint.Proofs.Graph.Digraphs

set_option autoImplicit false
set_option relaxedAutoImplicit false

/-!
# Two ways to the strongly connected components

A search for components sees a graph as the ids below its order, among which there may be ids of no
node. The depth-first search with low links starts from the nodes. Both find the same components
with a cycle, because the ids of a cycle are those of nodes if every edge joins nodes.

## Main definitions

* `JvmTaint.Digraph.FindsComponents`: what is expected of a search for components.
* `JvmTaint.Digraph.JoinsNodes`: every edge joins two nodes with ids below the order.

## Main results

* `JvmTaint.Digraph.findsComponents_components?`: the search of this library is one.
* `JvmTaint.Digraph.strongComponents_by_low_links`: components are found, by both searches.
-/

namespace JvmTaint

namespace Digraph

variable {g : Digraph} {order : Int}

/-! ## Searches for components -/

/-- A search finds the strongly connected components of the ids below an order, in all graphs of
that order without an edge to or from another id. -/
def FindsComponents (search : ComponentSearch) (order : Int) : Prop :=
  ∀ g : Digraph, g.order = order →
    (∀ a b, g.hasEdge a b = true → g.inOrder a = true ∧ g.inOrder b = true) →
    ∃ cs, search g = some cs ∧ AreComponents g.successors {id | g.inOrder id = true} cs

lemma mem_ids_iff {id : Int} : id ∈ g.ids ↔ g.inOrder id = true := by
  simp only [ids, inOrder, List.mem_map, List.mem_range, decide_eq_true_eq]
  constructor
  · rintro ⟨n, hn, rfl⟩
    have : ((n : Nat) : Int) = Int.ofNat n := rfl
    omega
  · rintro ⟨hpos, hlt⟩
    exact ⟨id.toNat, by omega, Int.toNat_of_nonneg hpos⟩

/-- Depth-first search with low links finds components, if there is room for the ids. -/
lemma findsComponents_components? (hpos : 0 ≤ order) (hmax : order ≤ maxOrder) :
    FindsComponents components? order := by
  rintro g rfl hedges
  have hsucc : ∀ x ∈ g.ids, ∀ y ∈ g.successors x, y ∈ g.ids := fun x _ y hy =>
    mem_ids_iff.mpr (hedges x y (hasEdge_iff.mpr hy)).2
  have hbounded : g.isBounded = true := by
    simp only [isBounded, Bool.and_eq_true, decide_eq_true_eq, List.all_eq_true]
    exact ⟨⟨hpos, hmax⟩, fun x hx y hy => mem_ids_iff.mp (hsucc x hx y hy)⟩
  obtain ⟨hfin, hcard⟩ := finite_reachedFrom hsucc fun _ hv => hv
  have hlength : g.ids.length = g.order.toNat := by simp [ids]
  refine ⟨_, if_pos hbounded, ?_⟩
  have hreached : {id | g.inOrder id = true} = reachedFrom g.successors g.ids := by
    ext id
    rw [Set.mem_ofPred_eq, ← mem_ids_iff]
    refine ⟨fun hid => ⟨id, hid, .refl⟩, ?_⟩
    rintro ⟨r, hr, hreach⟩
    exact hreach.mem_of_closed hsucc hr
  rw [hreached]
  exact areComponents_stronglyConnectedComponents hfin (by omega)

/-! ## Components of nodes and of ids -/

/-- Every edge joins two nodes, with ids below the order. -/
def JoinsNodes (g : Digraph) : Prop :=
  ∀ a b, g.hasEdge a b = true →
    (a ∈ g.keys ∧ b ∈ g.keys) ∧ g.inOrder a = true ∧ g.inOrder b = true

/-- No edge leads out of the nodes. -/
lemma JoinsNodes.closed (h : g.JoinsNodes) : ∀ x ∈ g.keys, ∀ y ∈ g.successors x, y ∈ g.keys :=
  fun x _ y hy => (h x y (hasEdge_iff.mpr hy)).1.2

/-- A node on a cycle has an edge. -/
lemma JoinsNodes.of_cyclic (h : g.JoinsNodes) {x : Int} (hx : Cyclic g.successors x) :
    x ∈ g.keys ∧ g.inOrder x = true := by
  obtain ⟨y, hedge, -⟩ := Relation.TransGen.head'_iff.mp hx
  obtain ⟨hkeys, horder⟩ := h x y (hasEdge_iff.mpr hedge)
  exact ⟨hkeys.1, horder.1⟩

/-- A search for components tells which ones have a cycle by the number of nodes, or by the label
and the edge of a single one. -/
lemma testsCyclic_inOrder (hmade : g.Made) (hjoins : g.JoinsNodes) :
    TestsCyclic g.successors {id | g.inOrder id = true} fun
      | [v] => g.labels.contains v && g.hasEdge v v
      | _ => true where
  singleton_iff v _ := by
    rw [Bool.and_eq_true, hasEdge_iff, and_iff_right_iff_imp]
    exact fun hedge => hmade.labelled v (hjoins v v (hasEdge_iff.mpr hedge)).1.1
  cons_cons _ _ _ := rfl
  closed x hx _ y hxy := by
    refine hxy.1.mem_of_closed (p := (· ∈ {id | g.inOrder id = true})) (fun a _ b hb => ?_) hx
    exact (hjoins a b (hasEdge_iff.mpr hb)).2.2

/-- The components with a cycle that a search for components finds are those that depth-first search
finds from the nodes. -/
lemma strongComponentsBy?_eq {search : ComponentSearch} (hmade : g.Made) (hjoins : g.JoinsNodes)
    (hsearch : FindsComponents search g.order) {bound : Nat} (hbound : g.keys.length ≤ bound) :
    g.strongComponentsBy? search =
      some (sortComponents 0 (cyclicComponents bound g.keys g.successors)) := by
  obtain ⟨cs, hcs, hcomponents⟩ := hsearch g rfl fun a b hedge => (hjoins a b hedge).2
  obtain ⟨hfin, hcard⟩ := finite_reachedFrom hjoins.closed fun _ hv => hv
  obtain ⟨p, hp, hcyclic⟩ := exists_cyclicComponents_eq (N := reachedFrom g.successors g.keys)
    bound g.keys g.successors fun x ⟨r, hr, hreach⟩ y hy => ⟨r, hr, hreach.tail hy⟩
  have heq := hcomponents.sortComponents_eq (testsCyclic_inOrder hmade hjoins)
    (areComponents_stronglyConnectedComponents hfin (hcard.trans hbound)) hp
    (fun x hx => iff_of_true (hjoins.of_cyclic hx).2 ⟨x, (hjoins.of_cyclic hx).1, .refl⟩) 0
  rw [hcyclic, ← heq, strongComponentsBy?, hcs]
  rfl

/-- **Components.** From the nodes of a list, with any successors by which finitely many nodes can
be reached, depth-first search with low links comes to an end. It finds every node that can be
reached in exactly one component, together with the nodes that it reaches and that reach it, and no
component reaches a later one. Sorted, the components with a cycle that it finds from the nodes of a
graph are those of any search for components, if every edge joins nodes with ids below the order. -/
theorem strongComponents_by_low_links :
    (∀ {α : Type} [BEq α] [LawfulBEq α] [Hashable α] (nodes : List α) (next : α → List α),
      (reachedFrom next nodes).Finite → ∃ cs,
        (∀ bound, (reachedFrom next nodes).ncard ≤ bound →
          stronglyConnectedComponents bound nodes next = cs) ∧
        AreComponents next (reachedFrom next nodes) cs ∧
        cs.Pairwise fun c d => ∀ x ∈ c, ∀ y ∈ d, ¬ Reaches next x y) ∧
    ∀ (search : ComponentSearch) (g : Digraph), g.Made → g.JoinsNodes →
      FindsComponents search g.order → ∀ bound, g.keys.length ≤ bound →
        g.strongComponentsBy? search =
          some (sortComponents 0 (cyclicComponents bound g.keys g.successors)) := by
  constructor
  · intro α _ _ _ nodes next hfin
    exact ⟨_, fun bound hbound => stronglyConnectedComponents_eq hfin hbound,
      areComponents_stronglyConnectedComponents hfin le_rfl,
      pairwise_stronglyConnectedComponents hfin le_rfl⟩
  · intro search g hmade hjoins hsearch bound hbound
    exact strongComponentsBy?_eq hmade hjoins hsearch hbound

lemma joinsNodes_twoLoops : twoLoops.JoinsNodes := by
  intro a b hedge
  have horder : twoLoops.order = 4 := rfl
  simp only [keys_twoLoops, inOrder, horder]
  rw [hasEdge_iff, mem_successors_twoLoops] at hedge
  simp only [List.mem_cons, Prod.mk.injEq, List.not_mem_nil, or_false] at hedge
  rcases hedge with ⟨rfl, rfl⟩ | ⟨rfl, rfl⟩ | ⟨rfl, rfl⟩ | ⟨rfl, rfl⟩ | ⟨rfl, rfl⟩ <;> decide

/-- The components of the example, which the search of this library finds as well. -/
theorem strongComponents_twoLoops :
    ((reachedFrom twoLoops.successors [0]).Finite ∧
      ∃ cs, AreComponents twoLoops.successors (reachedFrom twoLoops.successors [0]) cs) ∧
    (twoLoops.Made ∧ twoLoops.JoinsNodes ∧ FindsComponents components? twoLoops.order) ∧
    twoLoops.strongComponents? =
      some (sortComponents 0 (cyclicComponents 4 twoLoops.keys twoLoops.successors)) := by
  have hfin : (reachedFrom twoLoops.successors [0]).Finite :=
    (finite_reachedFrom joinsNodes_twoLoops.closed (by simp [keys_twoLoops])).1
  have hsearch : FindsComponents components? twoLoops.order :=
    findsComponents_components? (by decide) (by decide)
  obtain ⟨cs, -, hcs, -⟩ := strongComponents_by_low_links.1 [0] twoLoops.successors hfin
  exact ⟨⟨hfin, cs, hcs⟩, ⟨made_twoLoops, joinsNodes_twoLoops, hsearch⟩,
    strongComponents_by_low_links.2 components? twoLoops made_twoLoops joinsNodes_twoLoops hsearch 4
      (by simp [keys_twoLoops])⟩

end Digraph

end JvmTaint
