import JvmTaint.Proofs.Graph.LowLinks
import JvmTaint.Proofs.Lists
import Mathlib.Data.Set.Card

set_option autoImplicit false
set_option relaxedAutoImplicit false

/-!
# Strongly connected components are found

The depth-first search with low links finds exactly the strongly connected components of the nodes
that can be reached from a list, successors first. The components with a cycle are those of the
nodes that reach themselves along at least one edge; sorted, they only depend on the successors.

## Main definitions

* `JvmTaint.sortComponents`: components sorted, in the order of their smallest nodes.
* `JvmTaint.Cyclic`: a node reaches itself along at least one edge.

## Main results

* `JvmTaint.areComponents_stronglyConnectedComponents`: the components of the nodes reached.
* `JvmTaint.pairwise_stronglyConnectedComponents`: no component reaches a later one.
* `JvmTaint.AreComponents.mem_sortComponents_iff`: the components with a cycle, sorted.
* `JvmTaint.AreComponents.sortComponents_eq`: sorted, they only depend on the successors.
-/

namespace JvmTaint

section

variable {α : Type} [BEq α] [LawfulBEq α] [Hashable α] {next : α → List α}
  {all nodes : List α}

open Components

/-! ## The components of the nodes reached -/

/-- A search from all nodes of a list finds them, and its path is empty again.

**Proof sketch.** Induction on the list: a node that has not been found is visited. -/
lemma sound_foldl_visit (hnext : ∀ x ∈ all, ∀ y ∈ next x, y ∈ all) {bound : Nat}
    (hbound : all.length ≤ bound) (hnodes : ∀ v ∈ nodes, v ∈ all) {s : Search α}
    (hs : s.Sound next all []) :
    let t := nodes.foldl (fun s v => if s.index.contains v then s else visit next bound v s) s
    t.Sound next all [] ∧ (∀ v ∈ s.index, v ∈ t.index) ∧ ∀ v ∈ nodes, v ∈ t.index := by
  induction nodes generalizing s with
  | nil => exact ⟨hs, fun _ hv => hv, by simp⟩
  | cons v vs ih =>
    have hvs : ∀ x ∈ vs, x ∈ all := fun x hx => hnodes x (List.mem_cons_of_mem _ hx)
    obtain ⟨s', hs', hstep, hmem, hv⟩ : ∃ s' : Search α, s'.Sound next all [] ∧
        s' = (if s.index.contains v then s else visit next bound v s) ∧
        (∀ x ∈ s.index, x ∈ s'.index) ∧ v ∈ s'.index := by
      by_cases hfound : v ∈ s.index
      · exact ⟨s, hs, by simp [hfound], fun _ hx => hx, hfound⟩
      · have hvisited := visit_visited hnext bound hs hfound (hnodes v List.mem_cons_self)
          (by simp) (by omega)
        exact ⟨_, hvisited.sound, by simp [hfound], hvisited.extended.mem, hvisited.mem⟩
    obtain ⟨ht, hkeep, hfind⟩ := ih hvs hs'
    rw [List.foldl_cons, ← hstep]
    refine ⟨ht, fun x hx => hkeep x (hmem x hx), fun x hx => ?_⟩
    rcases List.mem_cons.mp hx with rfl | hx
    · exact hkeep x hv
    · exact hfind x hx

omit [LawfulBEq α] in
/-- A search with an empty path has closed all nodes that it has found. -/
lemma Components.Search.Sound.stack_eq_nil {s : Search α} (h : s.Sound next all []) :
    s.stack = [] := by
  rw [List.eq_nil_iff_forall_not_mem]
  intro x hx
  obtain ⟨y, hy, -⟩ := h.reaches_path x hx
  cases hy

/-- The search finds the strongly connected components of the nodes that can be reached, if there
are no more of them than the bound. -/
lemma areComponents_of_length_le {bound : Nat}
    (hall : ∀ v, v ∈ all ↔ v ∈ reachedFrom next nodes) (hbound : all.length ≤ bound) :
    AreComponents next (reachedFrom next nodes) (stronglyConnectedComponents bound nodes next) ∧
      (stronglyConnectedComponents bound nodes next).Pairwise
        fun c d => ∀ x ∈ c, ∀ y ∈ d, ¬ Reaches next x y := by
  have hnext : ∀ x ∈ all, ∀ y ∈ next x, y ∈ all := by
    intro x hx y hy
    obtain ⟨r, hr, hreach⟩ := (hall x).mp hx
    exact (hall y).mpr ⟨r, hr, hreach.tail hy⟩
  obtain ⟨ht, -, hfind⟩ := sound_foldl_visit hnext hbound
    (fun v hv => (hall v).mpr ⟨v, hv, .refl⟩) .start
  unfold stronglyConnectedComponents
  generalize nodes.foldl _ _ = t at ht hfind ⊢
  have hindex : ∀ v, v ∈ t.index ↔ v ∈ t.closed.flatten := by
    intro v
    rw [ht.mem_index_iff, ht.stack_eq_nil]
    simp
  have hperm : t.closed.reverse.flatten.Perm t.closed.flatten :=
    (List.reverse_perm t.closed).flatten
  refine ⟨⟨fun c hc => ht.closed_ne_nil c (List.mem_reverse.mp hc), ?_, fun v => ?_, ?_⟩, ?_⟩
  · exact hperm.nodup_iff.mpr (List.nodup_append.mp ht.nodup).2.1
  · rw [hperm.mem_iff, ← hindex]
    refine ⟨fun hv => (hall v).mp (ht.within v hv), ?_⟩
    rintro ⟨r, hr, hreach⟩
    exact hreach.mem_of_closed (fun x hx => ht.followed x hx (by simp)) (hfind r hr)
  · exact fun c hc x hx y _ => ht.closed_iff c (List.mem_reverse.mp hc) x hx y
  · exact List.pairwise_reverse.mpr ht.ordered

/-- The search does not depend on the bound.

**Proof sketch.** Induction on the nodes from which the search starts. -/
lemma stronglyConnectedComponents_eq_of_length_le {bound bound' : Nat}
    (hall : ∀ v, v ∈ all ↔ v ∈ reachedFrom next nodes) (hbound : all.length ≤ bound)
    (hbound' : all.length ≤ bound') :
    stronglyConnectedComponents bound nodes next =
      stronglyConnectedComponents bound' nodes next := by
  have hnext : ∀ x ∈ all, ∀ y ∈ next x, y ∈ all := by
    intro x hx y hy
    obtain ⟨r, hr, hreach⟩ := (hall x).mp hx
    exact (hall y).mpr ⟨r, hr, hreach.tail hy⟩
  have hnodes : ∀ v ∈ nodes, v ∈ all := fun v hv => (hall v).mpr ⟨v, hv, .refl⟩
  have hfold : ∀ (vs : List α) (s : Search α), (∀ v ∈ vs, v ∈ all) → s.Sound next all [] →
      vs.foldl (fun s v => if s.index.contains v then s else visit next bound v s) s =
        vs.foldl (fun s v => if s.index.contains v then s else visit next bound' v s) s := by
    intro vs
    induction vs with
    | nil => exact fun _ _ _ => rfl
    | cons v vs ih =>
      intro s hvs hs
      have hv : v ∈ all := hvs v List.mem_cons_self
      rw [List.foldl_cons, List.foldl_cons]
      by_cases hfound : v ∈ s.index
      · rw [if_pos (by simpa using hfound), if_pos (by simpa using hfound)]
        exact ih s (fun x hx => hvs x (List.mem_cons_of_mem _ hx)) hs
      · rw [if_neg (by simpa using hfound), if_neg (by simpa using hfound),
          ← visit_eq hnext bound bound' hs hfound hv (by simp) (by omega) (by omega)]
        exact ih _ (fun x hx => hvs x (List.mem_cons_of_mem _ hx))
          (visit_visited hnext bound hs hfound hv (by simp) (by omega)).sound
  unfold stronglyConnectedComponents
  rw [hfold nodes {} hnodes .start]

omit [BEq α] [LawfulBEq α] [Hashable α] in
/-- Finitely many nodes can be listed. -/
lemma exists_list_of_ncard_le {N : Set α} (hfin : N.Finite) :
    ∃ all : List α, (∀ v, v ∈ all ↔ v ∈ N) ∧ all.length = N.ncard :=
  ⟨hfin.toFinset.toList, by simp, by rw [Finset.length_toList, Set.ncard_eq_toFinset_card _ hfin]⟩

omit [BEq α] [LawfulBEq α] [Hashable α] in
/-- What can be reached stays within a list that is closed under successors. -/
lemma finite_reachedFrom (hnext : ∀ x ∈ all, ∀ y ∈ next x, y ∈ all)
    (hnodes : ∀ v ∈ nodes, v ∈ all) :
    (reachedFrom next nodes).Finite ∧ (reachedFrom next nodes).ncard ≤ all.length := by
  classical
  have hsub : reachedFrom next nodes ⊆ (all.toFinset : Set α) := by
    rintro v ⟨r, hr, hreach⟩
    simpa using hreach.mem_of_closed hnext (hnodes r hr)
  refine ⟨all.toFinset.finite_toSet.subset hsub, ?_⟩
  have hle := Set.ncard_le_ncard hsub all.toFinset.finite_toSet
  rw [Set.ncard_coe_finset] at hle
  exact hle.trans all.toFinset_card_le

section

variable {bound : Nat} (hfin : (reachedFrom next nodes).Finite)
  (hbound : (reachedFrom next nodes).ncard ≤ bound)

include hfin hbound

/-- **Components.** The search finds the strongly connected components of the nodes that can be
reached from a list. -/
lemma areComponents_stronglyConnectedComponents :
    AreComponents next (reachedFrom next nodes) (stronglyConnectedComponents bound nodes next) := by
  obtain ⟨all, hall, hlength⟩ := exists_list_of_ncard_le hfin
  exact (areComponents_of_length_le hall (hlength ▸ hbound)).1

/-- No component reaches a later one. -/
lemma pairwise_stronglyConnectedComponents :
    (stronglyConnectedComponents bound nodes next).Pairwise
      fun c d => ∀ x ∈ c, ∀ y ∈ d, ¬ Reaches next x y := by
  obtain ⟨all, hall, hlength⟩ := exists_list_of_ncard_le hfin
  exact (areComponents_of_length_le hall (hlength ▸ hbound)).2

end

/-- With a bound that is large enough, the search does not depend on it. -/
lemma stronglyConnectedComponents_eq {bound : Nat} (hfin : (reachedFrom next nodes).Finite)
    (hbound : (reachedFrom next nodes).ncard ≤ bound) :
    stronglyConnectedComponents bound nodes next =
      stronglyConnectedComponents (reachedFrom next nodes).ncard nodes next := by
  obtain ⟨all, hall, hlength⟩ := exists_list_of_ncard_le hfin
  exact stronglyConnectedComponents_eq_of_length_le hall (hlength ▸ hbound) (le_of_eq hlength)

end

/-! ## Components with a cycle -/

section

variable {α : Type} {next : α → List α} {nodes nodes' : Set α} {cs cs' : List (List α)}
  {p p' : List α → Bool}

/-- A node reaches itself along at least one edge. -/
def Cyclic (next : α → List α) (x : α) : Prop := Relation.TransGen (fun a b => b ∈ next a) x x

/-- A test tells whether a component of some nodes has a cycle: a node alone needs an edge to
itself. No cycle leads out of the nodes. -/
structure TestsCyclic (next : α → List α) (nodes : Set α) (p : List α → Bool) : Prop where
  singleton_iff : ∀ v ∈ nodes, p [v] = true ↔ v ∈ next v
  cons_cons : ∀ x y c, p (x :: y :: c) = true
  closed : ∀ x ∈ nodes, Cyclic next x → ∀ y, StronglyConnected next x y → y ∈ nodes

lemma StronglyConnected.cyclic {x y : α} (h : StronglyConnected next x y) (hne : x ≠ y) :
    Cyclic next x :=
  ((Relation.reflTransGen_iff_eq_or_transGen.mp h.1).resolve_left hne.symm).trans_left h.2

namespace AreComponents

lemma mem_nodes (h : AreComponents next nodes cs) {c : List α} (hc : c ∈ cs) {x : α} (hx : x ∈ c) :
    x ∈ nodes :=
  (h.mem_flatten_iff x).mp (List.mem_flatten.mpr ⟨c, hc, hx⟩)

lemma exists_mem (h : AreComponents next nodes cs) {x : α} (hx : x ∈ nodes) : ∃ c ∈ cs, x ∈ c :=
  List.mem_flatten.mp ((h.mem_flatten_iff x).mpr hx)

lemma nodup_of_mem (h : AreComponents next nodes cs) {c : List α} (hc : c ∈ cs) : c.Nodup :=
  (List.nodup_flatten.mp h.nodup).1 c hc

/-- A component has a cycle if each of its nodes reaches itself. -/
lemma cyclic_iff (h : AreComponents next nodes cs) (hp : TestsCyclic next nodes p) {c : List α}
    (hc : c ∈ cs) {x : α} (hx : x ∈ c) : p c = true ↔ Cyclic next x := by
  match c, hc, hx with
  | [v], hc, hx =>
    obtain rfl := List.mem_singleton.mp hx
    have hxn := h.mem_nodes hc hx
    rw [hp.singleton_iff x hxn]
    refine ⟨fun hedge => .single hedge, fun hcyclic => ?_⟩
    obtain ⟨y, hedge, hback⟩ := Relation.TransGen.head'_iff.mp hcyclic
    have hxy : StronglyConnected next x y := ⟨.single hedge, hback⟩
    have hy := (h.mem_iff _ hc x hx y (hp.closed x hxn hcyclic y hxy)).mpr hxy
    rwa [List.mem_singleton.mp hy] at hedge
  | a :: b :: c, hc, hx =>
    refine iff_of_true (hp.cons_cons a b c) ?_
    have hab : a ≠ b := fun heq =>
      (List.nodup_cons.mp (h.nodup_of_mem hc)).1 (heq ▸ List.mem_cons_self)
    have hconnected : ∀ y ∈ a :: b :: c, StronglyConnected next x y := fun y hy =>
      (h.mem_iff _ hc x hx y (h.mem_nodes hc hy)).mp hy
    by_cases hxa : x = a
    · exact (hconnected b (by simp)).cyclic (hxa ▸ hab)
    · exact (hconnected a (by simp)).cyclic hxa

end AreComponents

/-! ## Sorting -/

variable [LinearOrder α]

/-- Components, each sorted, in the order of their smallest nodes; `d` stands for the smallest node
of a component without nodes. -/
def sortComponents (d : α) (cs : List (List α)) : List (List α) :=
  (cs.map (·.mergeSort fun a b => decide (a ≤ b))).mergeSort
    fun a b => decide (a.headD d ≤ b.headD d)

lemma mem_sortComponents {d : α} {l : List α} : l ∈ sortComponents d cs ↔
    ∃ c ∈ cs, c.mergeSort (fun a b => decide (a ≤ b)) = l := by
  rw [sortComponents, List.mem_mergeSort, List.mem_map]

omit [LinearOrder α] in
/-- Lists with strictly increasing keys are equal if they have the same elements. -/
lemma eq_of_mem_iff_of_pairwise_lt {β : Type} [LinearOrder β] (key : α → β) {xs ys : List α}
    (hxs : xs.Pairwise fun a b => key a < key b) (hys : ys.Pairwise fun a b => key a < key b)
    (h : ∀ x, x ∈ xs ↔ x ∈ ys) : xs = ys := by
  have hnodup : ∀ {zs : List α}, zs.Pairwise (fun a b => key a < key b) → zs.Nodup := by
    intro zs hzs
    refine hzs.imp ?_
    rintro a _ hlt rfl
    exact lt_irrefl _ hlt
  refine ((List.perm_ext_iff_of_nodup (hnodup hxs) (hnodup hys)).mpr h).eq_of_pairwise ?_ hxs hys
  exact fun a b _ _ hab hba => absurd hab (lt_asymm hba)

namespace AreComponents

lemma sorted_of_mem (h : AreComponents next nodes cs) {c : List α} (hc : c ∈ cs) :
    (c.mergeSort fun a b => decide (a ≤ b)).Pairwise (· < ·) :=
  pairwise_lt_mergeSort_self (h.nodup_of_mem hc)

/-- The smallest nodes of components with a cycle are strictly increasing. -/
lemma pairwise_sortComponents (h : AreComponents next nodes cs) (d : α) (p : List α → Bool) :
    (sortComponents d (cs.filter p)).Pairwise fun a b => a.headD d < b.headD d := by
  have hle : ∀ a b : List α, decide (a.headD d ≤ b.headD d) =
      decide ((fun l : List α => l.headD d) a ≤ (fun l : List α => l.headD d) b) := fun _ _ => rfl
  refine pairwise_lt_mergeSort hle ?_
  have hhead : ∀ c ∈ cs, (c.mergeSort fun a b => decide (a ≤ b)).headD d ∈ c := by
    intro c hc
    have hne : c.mergeSort (fun a b => decide (a ≤ b)) ≠ [] := fun hnil => h.ne_nil c hc
      (List.length_eq_zero_iff.mp (by rw [← List.length_mergeSort, hnil, List.length_nil]))
    obtain ⟨a, l, hl⟩ := List.exists_cons_of_ne_nil hne
    rw [hl, List.headD_cons, ← c.mem_mergeSort, hl]
    exact List.mem_cons_self
  rw [List.map_map]
  refine List.pairwise_map.mpr (List.Pairwise.imp_of_mem ?_
    ((List.nodup_flatten.mp h.nodup).2.sublist List.filter_sublist))
  intro a b ha hb hdisjoint heq
  have heq : (a.mergeSort fun x y => decide (x ≤ y)).headD d =
      (b.mergeSort fun x y => decide (x ≤ y)).headD d := heq
  have hhere := hhead a (List.mem_of_mem_filter ha)
  rw [heq] at hhere
  exact hdisjoint hhere (hhead b (List.mem_of_mem_filter hb))

/-- **Components with a cycle.** Sorted, they are the increasing lists of the nodes that are
strongly connected with a node that reaches itself. -/
lemma mem_sortComponents_iff (h : AreComponents next nodes cs) (hp : TestsCyclic next nodes p)
    {d : α} {l : List α} : l ∈ sortComponents d (cs.filter p) ↔
      l.Pairwise (· < ·) ∧
        ∃ x ∈ nodes, Cyclic next x ∧ ∀ y, y ∈ l ↔ StronglyConnected next x y := by
  have hmem : ∀ c ∈ cs, ∀ x ∈ c, p c = true → ∀ y, y ∈ c ↔ StronglyConnected next x y := by
    intro c hc x hx hpc y
    refine ⟨fun hy => (h.mem_iff c hc x hx y (h.mem_nodes hc hy)).mp hy, fun hxy => ?_⟩
    refine (h.mem_iff c hc x hx y ?_).mpr hxy
    exact hp.closed x (h.mem_nodes hc hx) ((h.cyclic_iff hp hc hx).mp hpc) y hxy
  rw [mem_sortComponents]
  constructor
  · rintro ⟨c, hc, rfl⟩
    obtain ⟨hc, hpc⟩ := List.mem_filter.mp hc
    obtain ⟨x, hx⟩ := List.exists_mem_of_ne_nil c (h.ne_nil c hc)
    refine ⟨h.sorted_of_mem hc, x, h.mem_nodes hc hx, (h.cyclic_iff hp hc hx).mp hpc, fun y => ?_⟩
    rw [List.mem_mergeSort, hmem c hc x hx hpc]
  · rintro ⟨hl, x, hx, hcyclic, hlx⟩
    obtain ⟨c, hc, hxc⟩ := h.exists_mem hx
    have hpc := (h.cyclic_iff hp hc hxc).mpr hcyclic
    refine ⟨c, List.mem_filter.mpr ⟨hc, hpc⟩, ?_⟩
    refine eq_of_mem_iff_of_pairwise_lt id (h.sorted_of_mem hc) hl fun y => ?_
    rw [List.mem_mergeSort, hmem c hc x hxc hpc, hlx]

/-- Sorted, the components with a cycle only depend on the successors, and on the nodes that reach
themselves. -/
lemma sortComponents_eq (h : AreComponents next nodes cs) (hp : TestsCyclic next nodes p)
    (h' : AreComponents next nodes' cs') (hp' : TestsCyclic next nodes' p')
    (hnodes : ∀ x, Cyclic next x → (x ∈ nodes ↔ x ∈ nodes')) (d : α) :
    sortComponents d (cs.filter p) = sortComponents d (cs'.filter p') := by
  refine eq_of_mem_iff_of_pairwise_lt (fun l : List α => l.headD d)
    (h.pairwise_sortComponents d p) (h'.pairwise_sortComponents d p') fun l => ?_
  rw [h.mem_sortComponents_iff hp, h'.mem_sortComponents_iff hp']
  refine and_congr_right fun _ => exists_congr fun x => ?_
  constructor
  · exact fun ⟨hx, hcyclic, hl⟩ => ⟨(hnodes x hcyclic).mp hx, hcyclic, hl⟩
  · exact fun ⟨hx, hcyclic, hl⟩ => ⟨(hnodes x hcyclic).mpr hx, hcyclic, hl⟩

end AreComponents

end

/-- The components with a cycle are those that pass a test. -/
lemma exists_cyclicComponents_eq {α : Type} [BEq α] [LawfulBEq α] [Hashable α] (bound : Nat)
    (nodes : List α) (next : α → List α) {N : Set α}
    (hN : ∀ x ∈ N, ∀ y ∈ next x, y ∈ N) : ∃ p, TestsCyclic next N p ∧
      cyclicComponents bound nodes next =
        (stronglyConnectedComponents bound nodes next).filter p := by
  refine ⟨_, ⟨fun v _ => List.contains_iff_mem, fun _ _ _ => rfl, fun x hx _ y hxy => ?_⟩, rfl⟩
  exact hxy.1.mem_of_closed (p := (· ∈ N)) hN hx

end JvmTaint
