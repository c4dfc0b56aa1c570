import JvmTaint.Proofs.Graph.CycleSearch
import JvmTaint.Proofs.Graph.StrongComponents
import Mathlib.Data.Finset.Max
import Mathlib.Data.List.Cycle

set_option autoImplicit false
set_option relaxedAutoImplicit false

/-!
# All elementary cycles

The enumeration finds every elementary cycle once. A cycle of at least two nodes stays within the
component of its smallest node among the nodes that are not smaller, so the search from that node
through the component finds it, and the search from another node does not.

## Main definitions

* `JvmTaint.Digraph.IsElementaryCycle`: a cycle through different nodes, along edges.
* `JvmTaint.Digraph.Writes`: a list writes a cycle from its smallest node back to it.

## Main results

* `JvmTaint.Digraph.exists_cyclesFromBy?_eq`: the cycles from a node through later ones.
* `JvmTaint.Digraph.existsUnique_writes`: a cycle is written in one way.
* `JvmTaint.Digraph.elementaryCycles_exact`: every elementary cycle is found once.
-/

namespace JvmTaint

namespace Digraph

variable {g : Digraph} {start : Int} {way rest later kept : List Int}

/-! ## Ways around -/

/-- Every node on a way has an edge. -/
lemma IsRound.exists_successor (h : g.IsRound start way) : ∀ x ∈ way, ∃ y, y ∈ g.successors x := by
  obtain ⟨-, hchain⟩ := h
  induction way with
  | nil => simp
  | cons a l ih =>
    obtain ⟨b, m, hm⟩ := List.exists_cons_of_ne_nil (show l ++ [start] ≠ [] by simp)
    rw [List.cons_append, hm, List.isChain_cons_cons] at hchain
    intro x hx
    rcases List.mem_cons.mp hx with rfl | hx
    · exact ⟨b, hchain.1⟩
    · exact ih (hm ▸ hchain.2) x hx

/-- The nodes on a way around reach each other. -/
lemma IsRound.stronglyConnected (h : g.IsRound start (start :: rest)) {x : Int}
    (hx : x ∈ start :: rest) : StronglyConnected g.successors start x := by
  constructor
  · exact h.chain.induction (Reaches g.successors start) _
      (fun _ _ hedge hreach => hreach.tail hedge) (fun _ => .refl) x (List.mem_append_left _ hx)
  · exact h.chain.backwards_concat_induction (Reaches g.successors · start) _
      (fun _ _ hedge hreach => hreach.head hedge) .refl x hx

/-- The ways around in a restriction are those through the nodes that are kept. -/
lemma isRound_subgraph_iff (hstart : start ∈ way) :
    (g.subgraph kept).IsRound start way ↔ g.IsRound start way ∧ ∀ x ∈ way, x ∈ kept := by
  constructor
  · intro h
    refine ⟨⟨h.nodup, h.chain.imp fun a b hedge => (mem_successors_subgraph.mp hedge).2.2⟩, ?_⟩
    intro x hx
    obtain ⟨y, hy⟩ := h.exists_successor x hx
    exact (mem_successors_subgraph.mp hy).1
  · rintro ⟨h, hkept⟩
    have hkept' : ∀ x ∈ way ++ [start], x ∈ kept := by
      intro x hx
      rcases List.mem_append.mp hx with hx | hx
      · exact hkept x hx
      · exact hkept x (List.mem_singleton.mp hx ▸ hstart)
    refine ⟨h.nodup, h.chain.imp_of_mem_imp fun a b ha hb hedge => ?_⟩
    exact mem_successors_subgraph.mpr ⟨hkept' a ha, hkept' b hb, hedge⟩

/-- A search in a component finds the ways of at least two nodes around from the start. -/
lemma exists_circuit_cycles_eq (hstart : start ∈ kept) :
    let component := g.subgraph kept
    ∃ ways : List (List Int),
      (CycleSearch.circuit component start (component.keys.length + 1) [] start {}).2.cycles =
        ways.map (· ++ [start]) ∧ ways.Nodup ∧
      ∀ way, way ∈ ways ↔ ∃ rest, way = start :: rest ∧ rest ≠ [] ∧ g.IsRound start way ∧
        ∀ x ∈ way, x ∈ kept := by
  intro component
  have hkeys : ∀ x, x ∈ component.keys ↔ x ∈ kept := fun x => by
    rw [keys_subgraph, List.mem_mergeSort]
  have hready : CycleSearch.Ready component start [] start {} := {
    sound := ⟨List.nodup_nil, by simp, by simp, by simp, by simp⟩
    not_mem := by simp
    mem_keys := (hkeys start).mpr hstart
    nodup := List.nodup_nil
    chain := by simp
    head := rfl }
  obtain ⟨ways, hcycles, hnodup, hmem⟩ := (CycleSearch.circuit_searched
    (fun v w hedge => (hkeys w).mpr (mem_successors_subgraph.mp hedge).2.1)
    (fun v => (component.pairwise_successors v).imp ne_of_lt) (component.keys.length + 1) hready
    (by simp)).finds
  refine ⟨ways, by simpa using hcycles, hnodup, fun way => (hmem way).trans ?_⟩
  constructor
  · rintro ⟨⟨rest, rfl⟩, hlength, hround⟩
    refine ⟨rest, rfl, ?_, (isRound_subgraph_iff (by simp)).mp hround⟩
    rintro rfl
    simp at hlength
  · rintro ⟨rest, rfl, hrest, hround⟩
    have := List.length_pos_iff.mpr hrest
    refine ⟨⟨rest, rfl⟩, ?_, (isRound_subgraph_iff (by simp)).mpr hround⟩
    rw [List.length_cons]
    omega

/-! ## The cycles from a node -/

/-- Only one of several disjoint lists holds an element. -/
lemma filter_contains_eq {cs : List (List Int)} (hnodup : cs.flatten.Nodup) {c : List Int}
    (hc : c ∈ cs) {x : Int} (hx : x ∈ c) (q : List Int → Bool) :
    cs.filter (fun c => q c && c.contains x) = [c].filter q := by
  obtain ⟨before, after, rfl⟩ := List.append_of_mem hc
  have hdisjoint := (List.nodup_flatten.mp hnodup).2
  obtain ⟨-, hafter, hbefore⟩ := List.pairwise_append.mp hdisjoint
  have hnone : ∀ d ∈ before ++ after, d.contains x = false := by
    intro d hd
    rw [Bool.eq_false_iff, ne_eq, List.contains_iff_mem]
    intro hxd
    rcases List.mem_append.mp hd with hd | hd
    · exact hbefore d hd c List.mem_cons_self hxd hx
    · exact (List.pairwise_cons.mp hafter).1 d hd hx hxd
  have hfilter : ∀ ds : List (List Int), (∀ d ∈ ds, d.contains x = false) →
      ds.filter (fun c => q c && c.contains x) = [] := by
    intro ds hds
    refine List.filter_eq_nil_iff.mpr fun d hd => ?_
    rw [hds d hd, Bool.and_false]
    exact Bool.false_ne_true
  have hcx : c.contains x = true := List.contains_iff_mem.mpr hx
  rw [List.filter_append, hfilter before fun d hd => hnone d (List.mem_append_left _ hd),
    List.filter_cons, hfilter after fun d hd => hnone d (List.mem_append_right _ hd), hcx,
    Bool.and_true, List.nil_append, List.filter_cons, List.filter_nil]

/-- The ways of at least two nodes around from a start are found by a search in the component of the
start, which is the only one that is searched.

**Proof sketch.** The nodes of a way reach each other, so they are in one component. -/
lemma exists_longer_cycles_eq (start : Int) {cs : List (List Int)}
    (hcomponents : AreComponents g.successors {id | g.inOrder id = true} cs)
    (horder : ∀ a b, b ∈ g.successors a → g.inOrder a = true) :
    ∃ ways : List (List Int),
      ((cs.filter fun c => decide (2 ≤ c.length) && c.contains start).flatMap fun c =>
        (CycleSearch.circuit (g.subgraph c) start ((g.subgraph c).keys.length + 1) []
          start {}).2.cycles) = ways.map (· ++ [start]) ∧ ways.Nodup ∧
      ∀ way, way ∈ ways ↔ ∃ rest, way = start :: rest ∧ rest ≠ [] ∧ g.IsRound start way := by
  have hin : ∀ {rest}, g.IsRound start (start :: rest) → ∀ x ∈ start :: rest,
      g.inOrder x = true := by
    intro rest hround x hx
    obtain ⟨y, hy⟩ := hround.exists_successor x hx
    exact horder x y hy
  have hwithin : ∀ {rest c}, g.IsRound start (start :: rest) → c ∈ cs → start ∈ c →
      ∀ x ∈ start :: rest, x ∈ c := by
    intro rest c hround hc hstart x hx
    exact (hcomponents.mem_iff c hc start hstart x (hin hround x hx)).mpr
      (hround.stronglyConnected hx)
  by_cases hown : ∃ c ∈ cs, start ∈ c ∧ 2 ≤ c.length
  · obtain ⟨c, hc, hstart, hlength⟩ := hown
    obtain ⟨ways, hcycles, hnodup, hmem⟩ := exists_circuit_cycles_eq (g := g) hstart
    refine ⟨ways, ?_, hnodup, fun way => (hmem way).trans ?_⟩
    · rw [filter_contains_eq hcomponents.nodup hc hstart, List.filter_cons,
        if_pos (decide_eq_true hlength), List.filter_nil, List.flatMap_singleton, hcycles]
    · refine exists_congr fun rest => and_congr_right fun hway => and_congr_right fun _ => ?_
      subst hway
      exact ⟨And.left, fun hround => ⟨hround, hwithin hround hc hstart⟩⟩
  · refine ⟨[], ?_, List.nodup_nil, fun way => iff_of_false List.not_mem_nil ?_⟩
    · rw [List.filter_eq_nil_iff.mpr, List.flatMap_nil, List.map_nil]
      intro c hc hboth
      rw [Bool.and_eq_true, decide_eq_true_eq, List.contains_iff_mem] at hboth
      exact hown ⟨c, hc, hboth.2, hboth.1⟩
    · rintro ⟨rest, rfl, hrest, hround⟩
      obtain ⟨c, hc, hstart⟩ := hcomponents.exists_mem (hin hround start List.mem_cons_self)
      have hle := (List.subperm_of_subset hround.nodup (hwithin hround hc hstart)).length_le
      have := List.length_pos_iff.mpr hrest
      rw [List.length_cons] at hle
      exact hown ⟨c, hc, hstart, by omega⟩

lemma isRound_singleton_iff : g.IsRound start [start] ↔ g.hasEdge start start = true := by
  rw [hasEdge_iff]
  constructor
  · exact fun h => (List.isChain_cons_cons.mp h.chain).1
  · exact fun h => ⟨by simp, List.isChain_cons_cons.mpr ⟨h, by simp⟩⟩

/-- **Cycles from a node.** The enumeration finds the ways around from the start through later
nodes, each once: an edge from the start to itself, and the ways of at least two nodes. -/
lemma exists_cyclesFromBy?_eq {search : ComponentSearch} (hjoins : g.JoinsNodes)
    (hsearch : FindsComponents search g.order) (hstart : start ∈ later) :
    ∃ ways : List (List Int),
      g.cyclesFromBy? search start later = some (ways.map (· ++ [start])) ∧ ways.Nodup ∧
      ∀ way, way ∈ ways ↔ ∃ rest, way = start :: rest ∧ g.IsRound start way ∧
        ∀ x ∈ way, x ∈ later := by
  have horder : ∀ x, (g.subgraph later).inOrder x = g.inOrder x := fun x => by
    rw [inOrder, order_subgraph, inOrder]
  have hinOrder : ∀ a b, b ∈ (g.subgraph later).successors a →
      (g.subgraph later).inOrder a = true ∧ (g.subgraph later).inOrder b = true := by
    intro a b hedge
    rw [horder, horder]
    exact (hjoins a b (hasEdge_iff.mpr (mem_successors_subgraph.mp hedge).2.2)).2
  obtain ⟨cs, hcs, hcomponents⟩ := hsearch (g.subgraph later) order_subgraph
    fun a b hedge => hinOrder a b (hasEdge_iff.mp hedge)
  obtain ⟨ways, hlonger, hnodup, hmem⟩ :=
    exists_longer_cycles_eq start hcomponents fun a b hedge => (hinOrder a b hedge).1
  refine ⟨(if g.hasEdge start start then [[start]] else []) ++ ways, ?_, ?_, fun way => ?_⟩
  · rw [List.map_append, ← hlonger, cyclesFromBy?]
    simp only [hcs, Option.bind_eq_bind, Option.bind_some, Option.pure_def]
    split <;> rfl
  · refine List.nodup_append.mpr ⟨by split <;> simp, hnodup, ?_⟩
    rintro way hway _ hway' rfl
    obtain ⟨rest, rfl, hrest, -⟩ := (hmem way).mp hway'
    split at hway <;> simp_all
  · rw [List.mem_append, hmem]
    constructor
    · rintro (hway | ⟨rest, rfl, -, hround⟩)
      · split at hway
        · rename_i hedge
          obtain rfl := List.mem_singleton.mp hway
          exact ⟨[], rfl, isRound_singleton_iff.mpr hedge, by simpa using hstart⟩
        · cases hway
      · exact ⟨rest, rfl, (isRound_subgraph_iff List.mem_cons_self).mp hround⟩
    · rintro ⟨rest, rfl, hround⟩
      by_cases hrest : rest = []
      · subst hrest
        rw [if_pos (isRound_singleton_iff.mp hround.1)]
        exact .inl List.mem_cons_self
      · exact .inr ⟨rest, rfl, hrest, (isRound_subgraph_iff List.mem_cons_self).mpr hround⟩

/-! ## The cycles from all nodes -/

/-- An entry of the enumeration leads from the smallest node of a way around back to it. -/
def IsEntry (g : Digraph) (starts entry : List Int) : Prop :=
  ∃ start rest, entry = start :: rest ++ [start] ∧ g.IsRound start (start :: rest) ∧
    (∀ x ∈ start :: rest, x ∈ starts) ∧ ∀ x ∈ rest, start ≤ x

/-- The ways around through some nodes are those from the smallest node, and those through the later
ones. -/
lemma isEntry_cons_iff {entry : List Int} (hlater : ∀ x ∈ later, start < x) :
    g.IsEntry (start :: later) entry ↔
      (∃ rest, entry = start :: rest ++ [start] ∧ g.IsRound start (start :: rest) ∧
        ∀ x ∈ start :: rest, x ∈ start :: later) ∨ g.IsEntry later entry := by
  constructor
  · rintro ⟨first, rest, rfl, hround, hmem, hle⟩
    rcases List.mem_cons.mp (hmem first List.mem_cons_self) with rfl | hfirst
    · exact .inl ⟨rest, rfl, hround, hmem⟩
    · refine .inr ⟨first, rest, rfl, hround, fun x hx => ?_, hle⟩
      have hlt := hlater first hfirst
      have hge : first ≤ x := by
        rcases List.mem_cons.mp hx with rfl | hx
        · exact le_rfl
        · exact hle x hx
      exact (List.mem_cons.mp (hmem x hx)).resolve_left (by omega)
  · rintro (⟨rest, rfl, hround, hmem⟩ | ⟨first, rest, rfl, hround, hmem, hle⟩)
    · refine ⟨start, rest, rfl, hround, hmem, fun x hx => ?_⟩
      rcases List.mem_cons.mp (hmem x (List.mem_cons_of_mem _ hx)) with rfl | hx
      · exact le_rfl
      · exact (hlater x hx).le
    · exact ⟨first, rest, rfl, hround, fun x hx => List.mem_cons_of_mem _ (hmem x hx), hle⟩

/-- The enumeration finds the ways around, each once and from its smallest node.

**Proof sketch.** Induction on the nodes. The ways from the smallest node do not start like those
through later nodes. -/
lemma exists_cyclesFromAllBy?_eq {search : ComponentSearch} (hjoins : g.JoinsNodes)
    (hsearch : FindsComponents search g.order) {starts : List Int}
    (hsorted : starts.Pairwise (· < ·)) :
    ∃ cycles, g.cyclesFromAllBy? search starts = some cycles ∧ cycles.Nodup ∧
      ∀ entry, entry ∈ cycles ↔ g.IsEntry starts entry := by
  induction starts with
  | nil =>
    refine ⟨[], rfl, List.nodup_nil, fun entry => iff_of_false List.not_mem_nil ?_⟩
    rintro ⟨start, rest, -, -, hmem, -⟩
    exact List.not_mem_nil (hmem start List.mem_cons_self)
  | cons start later ih =>
    obtain ⟨hlater, hsorted⟩ := List.pairwise_cons.mp hsorted
    obtain ⟨ways, hhere, hways, hmemways⟩ :=
      exists_cyclesFromBy?_eq hjoins hsearch (List.mem_cons_self (a := start) (l := later))
    obtain ⟨more, hmore, hnodup, hmem⟩ := ih hsorted
    have hmemhere : ∀ entry, entry ∈ ways.map (· ++ [start]) ↔
        ∃ rest, entry = start :: rest ++ [start] ∧ g.IsRound start (start :: rest) ∧
          ∀ x ∈ start :: rest, x ∈ start :: later := by
      intro entry
      rw [List.mem_map]
      constructor
      · rintro ⟨way, hway, rfl⟩
        obtain ⟨rest, rfl, hround⟩ := (hmemways way).mp hway
        exact ⟨rest, rfl, hround⟩
      · rintro ⟨rest, rfl, hround⟩
        exact ⟨start :: rest, (hmemways _).mpr ⟨rest, rfl, hround⟩, rfl⟩
    refine ⟨ways.map (· ++ [start]) ++ more, ?_, ?_, fun entry => ?_⟩
    · rw [cyclesFromAllBy?, hhere, hmore]
      rfl
    · refine List.nodup_append.mpr ⟨hways.map (List.append_left_injective [start]), hnodup, ?_⟩
      rintro entry hentry _ hentry' rfl
      obtain ⟨rest, rfl, -⟩ := (hmemhere entry).mp hentry
      obtain ⟨first, rest', heq, -, hmem', -⟩ := (hmem _).mp hentry'
      obtain rfl : start = first := (List.cons.inj heq).1
      exact lt_irrefl _ (hlater start (hmem' start List.mem_cons_self))
    · rw [List.mem_append, hmemhere, hmem, isEntry_cons_iff hlater]

/-! ## Elementary cycles -/

/-- A cycle through different nodes, along edges of the graph. -/
structure IsElementaryCycle (g : Digraph) (c : Cycle Int) : Prop where
  ne_nil : c ≠ Cycle.nil
  nodup : c.Nodup
  chain : c.Chain fun a b => g.hasEdge a b = true

/-- A list writes a cycle from its smallest node back to it. -/
def Writes (entry : List Int) (c : Cycle Int) : Prop :=
  ∃ start rest, entry = start :: rest ++ [start] ∧ c = ((start :: rest : List Int) : Cycle Int) ∧
    ∀ x ∈ rest, start ≤ x

/-- A cycle is elementary if a way around that writes it is. -/
lemma isElementaryCycle_coe_iff :
    g.IsElementaryCycle ((start :: rest : List Int) : Cycle Int) ↔
      g.IsRound start (start :: rest) := by
  constructor
  · rintro ⟨-, hnodup, hchain⟩
    rw [Cycle.chain_coe_cons] at hchain
    exact ⟨Cycle.nodup_coe_iff.mp hnodup, hchain.imp fun a b => hasEdge_iff.mp⟩
  · rintro ⟨hnodup, hchain⟩
    refine ⟨by simp, Cycle.nodup_coe_iff.mpr hnodup, ?_⟩
    rw [Cycle.chain_coe_cons]
    exact hchain.imp fun a b => hasEdge_iff.mpr

/-- The entries of the enumeration are the lists that write an elementary cycle. -/
lemma isEntry_keys_iff (hjoins : g.JoinsNodes) {entry : List Int} :
    g.IsEntry g.keys entry ↔ ∃ c, g.IsElementaryCycle c ∧ Writes entry c := by
  constructor
  · rintro ⟨start, rest, rfl, hround, -, hle⟩
    exact ⟨_, isElementaryCycle_coe_iff.mpr hround, start, rest, rfl, rfl, hle⟩
  · rintro ⟨_, hcycle, start, rest, rfl, rfl, hle⟩
    have hround := isElementaryCycle_coe_iff.mp hcycle
    refine ⟨start, rest, rfl, hround, fun x hx => ?_, hle⟩
    obtain ⟨y, hy⟩ := hround.exists_successor x hx
    exact (hjoins x y (hasEdge_iff.mpr hy)).1.1

/-- Lists without repetitions that are rotations of each other are equal if they start alike. -/
lemma eq_of_isRotated_of_head {a : Int} {l m : List Int} (hnodup : (a :: l).Nodup)
    (h : (a :: l) ~r (a :: m)) : l = m := by
  obtain ⟨n, hn, hrotate⟩ := List.isRotated_iff_mod.mp h
  rcases hn.eq_or_lt with rfl | hlt
  · rw [List.rotate_length] at hrotate
    exact (List.cons.inj hrotate).2
  · have hhead := List.head?_rotate hlt
    rw [hrotate, List.head?_cons, eq_comm, List.getElem?_eq_some_iff] at hhead
    obtain ⟨hlt', hget⟩ := hhead
    have hzero : n = 0 := (List.Nodup.getElem_inj_iff hnodup).mp (hget.trans rfl : _ = (a :: l)[0])
    subst hzero
    rw [List.rotate_zero] at hrotate
    exact (List.cons.inj hrotate).2

/-- **Written cycles.** A cycle without repetitions is written in one way.

**Proof sketch.** It is rotated until its smallest node comes first. -/
lemma existsUnique_writes {c : Cycle Int} (hne : c ≠ Cycle.nil) (hnodup : c.Nodup) :
    ∃! entry, Writes entry c := by
  induction c using Cycle.induction_on with
  | nil => exact absurd rfl hne
  | cons a l _ =>
    obtain ⟨start, hstart, hmin⟩ := (a :: l).toFinset.exists_min_image id ⟨a, by simp⟩
    simp only [List.mem_toFinset, id_eq] at hstart hmin
    obtain ⟨before, rest, hsplit⟩ := List.append_of_mem hstart
    have hrotated : (a :: l) ~r (start :: (rest ++ before)) := by
      rw [hsplit]
      exact List.isRotated_append
    refine ⟨start :: (rest ++ before) ++ [start], ⟨start, rest ++ before, rfl, ?_, ?_⟩, ?_⟩
    · exact Cycle.coe_eq_coe.mpr hrotated
    · exact fun x hx => hmin x (hrotated.mem_iff.mpr (List.mem_cons_of_mem _ hx))
    · rintro _ ⟨first, rest', rfl, heq, hle⟩
      have hrotated' := Cycle.coe_eq_coe.mp heq
      obtain rfl : start = first := by
        have hge : first ≤ start := by
          rcases List.mem_cons.mp (hrotated'.mem_iff.mp hstart) with rfl | hx
          · exact le_rfl
          · exact hle start hx
        exact le_antisymm (hmin first (hrotated'.mem_iff.mpr List.mem_cons_self)) hge
      have hnodup' := hrotated.nodup_iff.mp (Cycle.nodup_coe_iff.mp hnodup)
      rw [eq_of_isRotated_of_head hnodup' (hrotated.symm.trans hrotated')]

/-- **Elementary cycles.** If every edge joins nodes with ids below the order, then the enumeration
by means of any search for components comes to an end, lists nothing twice, and lists exactly the
elementary cycles, each written in one way, from its smallest node back to it. -/
theorem elementaryCycles_exact (search : ComponentSearch) (g : Digraph) (hmade : g.Made)
    (hjoins : g.JoinsNodes) (hsearch : FindsComponents search g.order) :
    ∃ cycles, g.elementaryCyclesBy? search = some cycles ∧ cycles.Nodup ∧
      (∀ entry, entry ∈ cycles ↔ ∃ c, g.IsElementaryCycle c ∧ Writes entry c) ∧
      ∀ c, g.IsElementaryCycle c → ∃! entry, entry ∈ cycles ∧ Writes entry c := by
  obtain ⟨cycles, hcycles, hnodup, hmem⟩ :=
    exists_cyclesFromAllBy?_eq hjoins hsearch hmade.pairwise_keys
  have hentries : ∀ entry, entry ∈ cycles ↔ ∃ c, g.IsElementaryCycle c ∧ Writes entry c :=
    fun entry => (hmem entry).trans (isEntry_keys_iff hjoins)
  refine ⟨cycles, hcycles, hnodup, hentries, fun c hc => ?_⟩
  obtain ⟨entry, hwrites, hunique⟩ := existsUnique_writes hc.ne_nil hc.nodup
  exact ⟨entry, ⟨(hentries entry).mpr ⟨c, hc, hwrites⟩, hwrites⟩, fun e he => hunique e he.2⟩

/-- The example has the cycles of its two loops. -/
theorem elementaryCycles_twoLoops :
    (twoLoops.Made ∧ twoLoops.JoinsNodes ∧ FindsComponents components? twoLoops.order) ∧
    ∃ cycles, twoLoops.elementaryCycles? = some cycles ∧ [0, 1, 0] ∈ cycles ∧
      [2, 2] ∈ cycles ∧ [1, 0, 1] ∉ cycles := by
  have hsearch : FindsComponents components? twoLoops.order :=
    findsComponents_components? (by decide) (by decide)
  refine ⟨⟨made_twoLoops, joinsNodes_twoLoops, hsearch⟩, ?_⟩
  obtain ⟨cycles, hcycles, -, hmem, -⟩ :=
    elementaryCycles_exact components? twoLoops made_twoLoops joinsNodes_twoLoops hsearch
  refine ⟨cycles, hcycles, (hmem _).mpr ?_, (hmem _).mpr ?_, fun h => ?_⟩
  · refine ⟨([0, 1] : List Int), isElementaryCycle_coe_iff.mpr ⟨by simp, ?_⟩, 0, [1], rfl, rfl, ?_⟩
    · simp [mem_successors_twoLoops]
    · simp
  · refine ⟨([2] : List Int), isElementaryCycle_coe_iff.mpr ⟨by simp, ?_⟩, 2, [], rfl, rfl, ?_⟩
    · simp [mem_successors_twoLoops]
    · simp
  · obtain ⟨_, -, start, rest, heq, -, hle⟩ := (hmem _).mp h
    match rest with
    | [] => simp at heq
    | [x] =>
      have hstart : 1 = start := (List.cons.inj heq).1
      have hx : 0 = x := (List.cons.inj (List.cons.inj heq).2).1
      have := hle x List.mem_cons_self
      omega
    | _ :: _ :: _ => simp at heq

end Digraph

end JvmTaint
