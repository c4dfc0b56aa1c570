import JvmTaint.Proofs.Flow.BackEdges
import JvmTaint.Proofs.Graph.Closure
import JvmTaint.Proofs.Graph.Components
import JvmTaint.Proofs.Lowering.BuiltGraphs

set_option autoImplicit false
set_option relaxedAutoImplicit false

/-!
# Loops

The loops of a flow graph are the strongly connected components with a cycle of the statements that
control can reach. Three traversals agree on them: the search for what can be reached, the search
for back edges, and the search for components. Every way round has a back edge, and a back edge
stays within the loop of its ends.

## Main definitions

* `JvmTaint.FlowGraph.targets`: the statements to which the edges out of a statement lead.
* `JvmTaint.FlowGraph.IsLoop`: a maximal set of statements that lead to each other.
* `JvmTaint.FlowGraph.LoopStructure`: what back edges, reachable statements and loops have to do
  with each other.

## Main results

* `JvmTaint.FlowGraph.exists_settled`: an order in which only back edges lead on.
* `JvmTaint.FlowGraph.mem_loops_iff`: the loops that are listed.
* `JvmTaint.FlowGraph.isLoop_iff`: the maximal sets.
* `JvmTaint.FlowGraph.loopStructure_of_build`: every graph that is built has this structure.
-/

namespace JvmTaint

namespace FlowGraph

/-- The statements to which the edges out of a statement lead. -/
def targets (g : FlowGraph) (i : Nat) : List Nat := (g.successors i).map (·.target)

/-- A maximal set of statements that control can reach, of which each one leads to all of them along
at least one edge. -/
def IsLoop (g : FlowGraph) : Set Nat → Prop :=
  Maximal fun S => S.Nonempty ∧ ∀ i ∈ S, Reaches g.targets g.entry i ∧
    ∀ j ∈ S, Relation.TransGen (fun i j => j ∈ g.targets i) i j

/-- An edge that is not a back edge leads from one statement to another. -/
def Forward (g : FlowGraph) (i j : Nat) : Prop :=
  ∃ e ∈ g.successors i, e.back = false ∧ e.target = j

/-- What back edges, reachable statements and loops have to do with each other. -/
structure LoopStructure (g : FlowGraph) : Prop where
  mem_reachable_iff : ∀ i, i ∈ g.reachable ↔ Reaches g.targets g.entry i
  back_edges : ∀ e ∈ g.edges, e.back = true →
    Reaches g.targets g.entry e.source ∧ Reaches g.targets e.target e.source
  acyclic : ∀ i, Reaches g.targets g.entry i → ¬ Relation.TransGen g.Forward i i
  sorted : ∀ l ∈ g.loops, l.Pairwise (· < ·)
  ordered : g.loops.Pairwise fun l m => l.headD 0 < m.headD 0
  isLoop_iff : ∀ S, g.IsLoop S ↔ ∃ l ∈ g.loops, {i | i ∈ l} = S
  exists_back : ∀ l ∈ g.loops, ∃ e ∈ g.edges, e.back = true ∧ e.source ∈ l ∧ e.target ∈ l
  /-- The ends of a back edge are in one loop, and in no other. -/
  back_within : ∀ e ∈ g.edges, e.back = true → ∃ l ∈ g.loops, e.source ∈ l ∧ e.target ∈ l ∧
    ∀ m ∈ g.loops, e.source ∈ m ∨ e.target ∈ m → m = l

variable {types : Option ClassTable} {b : MethodBody} {g : FlowGraph} {i j : Nat} {e : Edge}

/-! ## Back edges -/

/-- A built graph has marked edges. -/
lemma exists_marked (h : FlowGraph.build types b = .ok g) :
    ∃ succs : Successors, succs.Fits ∧ succs.size = g.statements.size ∧
      ∀ i, g.successors i =
        (succs.getD i []).map (Edge.marked fun e => (backEdges succs).contains e) := by
  obtain ⟨succs, hsuccs⟩ : ∃ succs, g.succs = markBackEdges succs := by
    rcases build_cases h with ⟨-, -, hsuccs⟩ | ⟨d, p, -, hconnects⟩
    · exact ⟨#[[]], by simpa [markBackEdges] using hsuccs⟩
    · exact ⟨_, hconnects.succs_eq⟩
  obtain ⟨hpos, hsize, -⟩ := build_connected h
  have hsize : succs.size = g.statements.size := by
    rw [← hsize, hsuccs, markBackEdges, Array.size_map]
  have hmarked : ∀ i, g.successors i =
      (succs.getD i []).map (Edge.marked fun e => (backEdges succs).contains e) := fun i => by
    rw [successors, hsuccs, getD_markBackEdges]
  have hedge : ∀ i, ∀ e ∈ succs.getD i [], e.source = i ∧ e.target < succs.size := by
    intro i e he
    obtain ⟨-, hsource, htarget⟩ := source_of_mem_successors h
      ((hmarked i).symm ▸ List.mem_map_of_mem he)
    exact ⟨hsource, hsize ▸ htarget⟩
  exact ⟨succs, ⟨by omega, fun i e he => (hedge i e he).1, fun i e he => (hedge i e he).2⟩, hsize,
    hmarked⟩

/-- **Back edges of built graphs.** They lead back along ways from the entry, and no way of other
edges comes round. -/
lemma back_edges_of_build (h : FlowGraph.build types b = .ok g) :
    (∀ e ∈ g.edges, e.back = true →
      Reaches g.targets g.entry e.source ∧ Reaches g.targets e.target e.source) ∧
    ∀ i, Reaches g.targets g.entry i → ¬ Relation.TransGen g.Forward i i := by
  obtain ⟨succs, hfits, -, hmarked⟩ := exists_marked h
  have htargets : succs.targets = g.targets := by
    funext i
    rw [targets, hmarked, List.map_map]
    rfl
  obtain ⟨hback, closed, hnodup, hclosed, hsettled⟩ := exists_settled_backEdges hfits
  rw [htargets] at hback hclosed
  constructor
  · intro e he hmark
    obtain ⟨i, -, he⟩ := mem_edges_iff.mp he
    rw [hmarked] at he
    obtain ⟨e, he, rfl⟩ := List.mem_map.mp he
    exact hback e (List.contains_iff_mem.mp hmark)
  · intro i hi htrans
    refine hsettled.not_transGen hnodup (hclosed i hi) (htrans.lift id ?_)
    rintro j _ ⟨e, he, hmark, rfl⟩
    rw [hmarked] at he
    obtain ⟨a, ha, rfl⟩ := List.mem_map.mp he
    refine ⟨a, ha, fun hfound => ?_, rfl⟩
    rw [Edge.marked, List.contains_iff_mem.mpr hfound] at hmark
    cases hmark

/-! ## Loops -/

/-- A way round goes through statements that lead to each other. -/
lemma transGen_within (hij : Relation.TransGen (fun i j => j ∈ g.targets i) i j)
    (hji : Reaches g.targets j i) :
    Relation.TransGen (fun a c => c ∈ g.targets a ∧ StronglyConnected g.targets i a ∧
      StronglyConnected g.targets i c) i j := by
  induction hij with
  | single hstep => exact .single ⟨hstep, ⟨.refl, .refl⟩, .single hstep, hji⟩
  | tail hrest hstep ih =>
    have hback := hji.head hstep
    exact (ih hback).tail ⟨hstep, ⟨hrest.to_reflTransGen, hback⟩,
      hrest.to_reflTransGen.tail hstep, hji⟩

section

variable (h : FlowGraph.build types b = .ok g)

include h

/-- Edges lead to statements. -/
lemma targets_lt (hj : j ∈ g.targets i) : j < g.statements.size := by
  obtain ⟨e, he, rfl⟩ := List.mem_map.mp hj
  exact (source_of_mem_successors h he).2.2

/-- The search from the entry finds the statements to which a way of edges leads. -/
lemma mem_reachable_iff : i ∈ g.reachable ↔ Reaches g.targets g.entry i := by
  refine mem_closure_iff (List.range g.statements.size) (fun x y hy => ?_) ?_ (by simp)
  · exact List.mem_range.mpr (targets_lt h hy)
  · exact List.mem_range.mpr (build_connected h).1

/-- Statements that control reaches are statements. -/
lemma lt_of_reaches (hi : Reaches g.targets g.entry i) : i < g.statements.size := by
  rcases Relation.ReflTransGen.cases_tail hi with rfl | ⟨j, -, hstep⟩
  · exact (build_connected h).1
  · exact targets_lt h hstep

/-- The loops are listed as the components with a cycle of the reachable statements. -/
lemma exists_loops_eq : ∃ (cs : List (List Nat)) (p : List Nat → Bool),
    AreComponents g.targets {i | Reaches g.targets g.entry i} cs ∧
      TestsCyclic g.targets {i | Reaches g.targets g.entry i} p ∧
      g.loops = sortComponents 0 (cs.filter p) := by
  have hnodes : reachedFrom g.targets (g.reachable.mergeSort (· ≤ ·)) =
      {i | Reaches g.targets g.entry i} := by
    ext i
    constructor
    · rintro ⟨r, hr, hreach⟩
      exact ((mem_reachable_iff h).mp (List.mem_mergeSort.mp hr)).trans hreach
    · intro hi
      exact ⟨i, List.mem_mergeSort.mpr ((mem_reachable_iff h).mpr hi), .refl⟩
  have hnext : ∀ i ∈ List.range g.statements.size, ∀ j ∈ g.targets i,
      j ∈ List.range g.statements.size := fun i _ j hj => List.mem_range.mpr (targets_lt h hj)
  have hsize : ∀ i ∈ g.reachable.mergeSort (· ≤ ·), i ∈ List.range g.statements.size :=
    fun i hi => List.mem_range.mpr
      (lt_of_reaches h ((mem_reachable_iff h).mp (List.mem_mergeSort.mp hi)))
  obtain ⟨hfin, hcard⟩ := finite_reachedFrom hnext hsize
  rw [List.length_range] at hcard
  obtain ⟨p, hp, hcyclic⟩ := exists_cyclicComponents_eq (g.statements.size + 1)
    (g.reachable.mergeSort (· ≤ ·)) g.targets (N := {i | Reaches g.targets g.entry i})
    fun x hx y hy => hx.tail hy
  refine ⟨_, p, hnodes ▸ areComponents_stronglyConnectedComponents hfin
    (hcard.trans (Nat.le_succ _)), hp, ?_⟩
  rw [← hcyclic]
  rfl

/-- **Listed loops.** A loop lists the statements that lead to a reachable one and to which it
leads, if it leads to itself. -/
lemma mem_loops_iff {l : List Nat} : l ∈ g.loops ↔ l.Pairwise (· < ·) ∧
    ∃ i, Reaches g.targets g.entry i ∧ Cyclic g.targets i ∧
      ∀ j, j ∈ l ↔ StronglyConnected g.targets i j := by
  obtain ⟨cs, p, hcs, hp, hloops⟩ := exists_loops_eq h
  rw [hloops, hcs.mem_sortComponents_iff hp]
  rfl

lemma pairwise_loops : g.loops.Pairwise fun l m => l.headD 0 < m.headD 0 := by
  obtain ⟨cs, p, hcs, -, hloops⟩ := exists_loops_eq h
  rw [hloops]
  exact hcs.pairwise_sortComponents 0 p

/-- Loops with a common statement are equal. -/
lemma eq_of_mem_loops {l m : List Nat} (hl : l ∈ g.loops) (hm : m ∈ g.loops) (hil : i ∈ l)
    (him : i ∈ m) : l = m := by
  obtain ⟨hl, x, -, -, hlx⟩ := (mem_loops_iff h).mp hl
  obtain ⟨hm, y, -, -, hmy⟩ := (mem_loops_iff h).mp hm
  refine eq_of_mem_iff_of_pairwise_lt id hl hm fun k => ?_
  have hxi := (hlx i).mp hil
  have hyi := (hmy i).mp him
  rw [hlx, hmy]
  exact ⟨fun hk => hyi.trans (hxi.symm.trans hk), fun hk => hxi.trans (hyi.symm.trans hk)⟩

end

/-- **Maximal sets.** The maximal sets of reachable statements that lead to each other are the sets
of what is strongly connected with a reachable statement that leads to itself. -/
lemma isLoop_iff {S : Set Nat} : g.IsLoop S ↔
    ∃ i, Reaches g.targets g.entry i ∧ Cyclic g.targets i ∧
      S = {j | StronglyConnected g.targets i j} := by
  have hconnected : ∀ i, Reaches g.targets g.entry i → Cyclic g.targets i →
      ({j | StronglyConnected g.targets i j}.Nonempty ∧
        ∀ j, StronglyConnected g.targets i j → Reaches g.targets g.entry j ∧
          ∀ k, StronglyConnected g.targets i k →
            Relation.TransGen (fun i j => j ∈ g.targets i) j k) := by
    intro i hi hcyclic
    refine ⟨⟨i, .refl, .refl⟩, fun j hij => ⟨hi.trans hij.1, fun k hik => ?_⟩⟩
    exact (hcyclic.trans_right hij.2).trans_left hik.1
  constructor
  · rintro ⟨⟨⟨i, hi⟩, hS⟩, hmax⟩
    obtain ⟨hreach, hall⟩ := hS i hi
    refine ⟨i, hreach, hall i hi, Set.Subset.antisymm (fun j hj => ?_) ?_⟩
    · exact ⟨(hall j hj).to_reflTransGen, ((hS j hj).2 i hi).to_reflTransGen⟩
    · refine hmax (hconnected i hreach (hall i hi)) fun j hj => ?_
      exact ⟨(hall j hj).to_reflTransGen, ((hS j hj).2 i hi).to_reflTransGen⟩
  · rintro ⟨i, hi, hcyclic, rfl⟩
    refine ⟨hconnected i hi hcyclic, ?_⟩
    rintro U ⟨-, hU⟩ hsub j hj
    have hiU : i ∈ U := hsub ⟨.refl, .refl⟩
    exact ⟨((hU i hiU).2 j hj).to_reflTransGen, ((hU j hj).2 i hiU).to_reflTransGen⟩

/-- The maximal sets are the loops that are listed. -/
lemma isLoop_iff_exists_mem_loops (h : FlowGraph.build types b = .ok g) {S : Set Nat} :
    g.IsLoop S ↔ ∃ l ∈ g.loops, {i | i ∈ l} = S := by
  classical
  have hlist : ∀ i, Reaches g.targets g.entry i → ∀ j,
      j ∈ (List.range g.statements.size).filter (fun j => StronglyConnected g.targets i j) ↔
        StronglyConnected g.targets i j := by
    intro i hi j
    rw [List.mem_filter, List.mem_range, decide_eq_true_eq, and_iff_right_iff_imp]
    exact fun hij => lt_of_reaches h (hi.trans hij.1)
  rw [isLoop_iff]
  constructor
  · rintro ⟨i, hi, hcyclic, rfl⟩
    refine ⟨(List.range g.statements.size).filter fun j => StronglyConnected g.targets i j,
      (mem_loops_iff h).mpr ⟨?_, i, hi, hcyclic, hlist i hi⟩, Set.ext (hlist i hi)⟩
    exact List.pairwise_lt_range.filter _
  · rintro ⟨l, hl, rfl⟩
    obtain ⟨-, i, hi, hcyclic, hmem⟩ := (mem_loops_iff h).mp hl
    exact ⟨i, hi, hcyclic, Set.ext hmem⟩

/-- **Back edges in loops.** In every loop there is a back edge, because a way round without back
edges would not come round. -/
lemma exists_back_of_mem_loops (h : FlowGraph.build types b = .ok g) {l : List Nat}
    (hl : l ∈ g.loops) : ∃ e ∈ g.edges, e.back = true ∧ e.source ∈ l ∧ e.target ∈ l := by
  obtain ⟨-, i, hi, hcyclic, hmem⟩ := (mem_loops_iff h).mp hl
  by_contra hnone
  refine (back_edges_of_build h).2 i hi ((transGen_within hcyclic .refl).lift id ?_)
  rintro j k ⟨hstep, hj, hk⟩
  obtain ⟨e, he, rfl⟩ := List.mem_map.mp hstep
  obtain ⟨hedge, rfl⟩ := (mem_successors_iff h).mp he
  refine ⟨e, he, ?_, rfl⟩
  rw [Bool.eq_false_iff]
  exact fun hback => hnone ⟨e, hedge, hback, (hmem _).mpr hj, (hmem _).mpr hk⟩

/-- The ends of a back edge are in a loop. -/
lemma exists_loop_of_back (h : FlowGraph.build types b = .ok g) (he : e ∈ g.edges)
    (hback : e.back = true) : ∃ l ∈ g.loops, e.source ∈ l ∧ e.target ∈ l := by
  obtain ⟨hreach, hreturn⟩ := (back_edges_of_build h).1 e he hback
  have hstep : e.target ∈ g.targets e.source :=
    List.mem_map.mpr ⟨e, (mem_successors_iff h).mpr ⟨he, rfl⟩, rfl⟩
  obtain ⟨l, hl, hset⟩ := (isLoop_iff_exists_mem_loops h).mp
    (isLoop_iff.mpr ⟨e.source, hreach, .head' hstep hreturn, rfl⟩)
  have hmem : ∀ j, j ∈ l ↔ StronglyConnected g.targets e.source j := fun j => Set.ext_iff.mp hset j
  exact ⟨l, hl, (hmem _).mpr ⟨.refl, .refl⟩, (hmem _).mpr ⟨.single hstep, hreturn⟩⟩

/-- **Loops.** In every flow graph that is built, the statements that are listed as reachable are
those to which a way of edges leads from the entry. A back edge leaves such a statement, and its
target leads back to its source; no way of other edges comes round. The loops that are listed, each
in increasing order and in the order of their first statements, are the maximal sets of reachable
statements that lead to each other along at least one edge. Each has both ends of a back edge, and
no back edge joins two of them. -/
theorem loopStructure_of_build (types : Option ClassTable) (b : MethodBody) (g : FlowGraph)
    (h : FlowGraph.build types b = .ok g) : g.LoopStructure := by
  constructor
  case mem_reachable_iff => exact fun i => mem_reachable_iff h
  case back_edges => exact (back_edges_of_build h).1
  case acyclic => exact (back_edges_of_build h).2
  case sorted => exact fun l hl => ((mem_loops_iff h).mp hl).1
  case ordered => exact pairwise_loops h
  case isLoop_iff => exact fun S => isLoop_iff_exists_mem_loops h
  case exists_back => exact fun l hl => exists_back_of_mem_loops h hl
  case back_within =>
    intro e he hback
    obtain ⟨l, hl, hsource, htarget⟩ := exists_loop_of_back h he hback
    refine ⟨l, hl, hsource, htarget, fun m hm hend => ?_⟩
    rcases hend with hend | hend
    · exact eq_of_mem_loops h hm hl hend hsource
    · exact eq_of_mem_loops h hm hl hend htarget

end FlowGraph

/-- A method that waits: `iload_0`, `ifle` to the return, `goto` back, and `return`. -/
def waiting : MethodBody where
  ref := ⟨"Desk", "wait", "(I)V"⟩
  modifiers := AccessFlags.empty.insert .static
  maxLocals := 1
  code := [
    { pc := 0, op := ⟨21⟩, slot := 0 },
    { pc := 1, op := ⟨158⟩, target := 7 },
    { pc := 4, op := ⟨167⟩, target := 0 },
    { pc := 7, op := ⟨177⟩ }]
  handlers := []
  resources := []

/-- The branch and the jump back to it are a loop of this method. -/
theorem waiting_loopStructure : ∃ g, FlowGraph.build none waiting = .ok g ∧
    g.LoopStructure ∧ ∃ l ∈ g.loops, 0 ∈ l ∧ 1 ∈ l := by
  have hbuild : (FlowGraph.build none waiting).map
      (fun g => g.edges.map fun e => (e.source, e.target, e.back)) =
        .ok [(0, 2, false), (0, 1, false), (1, 0, true)] := by decide +kernel
  obtain ⟨g, hg, hedges⟩ := exists_of_map_eq_ok hbuild
  have hloops := FlowGraph.loopStructure_of_build none waiting g hg
  obtain ⟨e, he, heq⟩ : ∃ e ∈ g.edges, (e.source, e.target, e.back) = (1, 0, true) :=
    List.mem_map.mp (by simp [hedges])
  simp only [Prod.mk.injEq] at heq
  obtain ⟨l, hl, hsource, htarget, -⟩ := hloops.back_within e he heq.2.2
  rw [heq.1] at hsource
  rw [heq.2.1] at htarget
  exact ⟨g, hg, hloops, l, hl, htarget, hsource⟩

end JvmTaint
