import JvmTaint.Proofs.Tabulation.Covering
import Mathlib.Data.Set.Finite.Lattice
import Mathlib.Data.Set.Finite.List

set_option autoImplicit false
set_option relaxedAutoImplicit false

/-!
# Termination of the tabulation

A tabulation processes each path edge once. So it comes to its end if its problem has finitely many
path edges, and a budget that is larger than their number is never used up. A problem has finitely
many path edges if it enters finitely many methods and a finite set of facts is closed under its
flow functions.

## Main definitions

* `JvmTaint.FlowProblem.FactsClosed`: a set of facts that the flow functions do not leave.

## Main results

* `JvmTaint.Tabulation.Invariant.run_pending`: a run either ends or processes as many path edges as
  it may.
* `JvmTaint.FlowProblem.FactsClosed.finite_pathEdges`: finitely many facts and methods give finitely
  many path edges.
* `JvmTaint.FlowProblem.exists_complete_of_finite`: a problem with finitely many path edges is
  tabulated within every large budget.
-/

namespace JvmTaint

variable {δ : Type}

namespace Tabulation

variable [DecidableEq δ] [Hashable δ] {P : FlowProblem δ} {retain : Bool}
  {entries : List MethodRef} {s : Tabulation δ}

/-- A step processes one path edge, if one waits. -/
lemma Invariant.processed_step (h : Invariant P retain entries s) (hpending : s.pending ≠ 0) :
    (P.step retain s).processed = s.processed + 1 := by
  have hlt : s.processed < s.edges.size := by unfold pending at hpending; omega
  have hnext : s.next? = some s.edges[s.processed] := Array.getElem?_eq_getElem hlt
  have hc : Consistent P retain entries { s with processed := s.processed + 1 } :=
    ⟨⟨h.nodup, h.reached_iff, h.justified, h.entered, h.left⟩, h.returned⟩
  unfold FlowProblem.step
  rw [hnext]
  exact (hc.process (Array.getElem_mem hlt)).2.1.processed

/-- A run ends or processes as many path edges as it may. -/
lemma Invariant.run_pending (n : Nat) (h : Invariant P retain entries s) :
    (P.run retain n s).pending = 0 ∨ (P.run retain n s).processed = s.processed + n := by
  induction n generalizing s with
  | zero => exact Or.inr rfl
  | succ n ih =>
    rw [FlowProblem.run]
    split
    · exact Or.inl ‹_›
    · rename_i hpending
      rcases ih h.step with hdone | hmore
      · exact Or.inl hdone
      · right
        rw [hmore, h.processed_step hpending]
        omega

/-- There are at most as many path edges as a finite set has that holds them all. -/
lemma Grounded.size_le (h : Grounded P retain entries s) {F : Finset (PathEdge δ)}
    (hF : s.found ⊆ F) : s.edges.size ≤ F.card := by
  rw [← Array.length_toList, ← List.toFinset_card_of_nodup h.nodup]
  refine Finset.card_le_card ?_
  intro e he
  exact hF (Array.mem_toList_iff.mp (List.mem_toFinset.mp he))

/-- When no path edge waits, each one has been processed. -/
lemma Invariant.processed_eq (h : Invariant P retain entries s) (hpending : s.pending = 0) :
    s.processed = s.edges.size := by
  have := h.processed_le
  unfold pending at hpending
  omega

end Tabulation

namespace FlowProblem

/-- A problem with finitely many path edges is tabulated within every large budget.

**Proof sketch.** Take a budget that is larger than the number of path edges. A run that does not
end within it has processed more path edges than there are. -/
lemma exists_complete_of_finite [DecidableEq δ] [Hashable δ] {P : FlowProblem δ}
    {entries : List MethodRef} (hfinite : (P.pathEdges entries).Finite) :
    ∃ N : Nat, ∀ (retain : Bool) (budget : Int), (N : Int) ≤ budget →
      ∃ t, P.solve retain budget false entries = (t, .complete) := by
  refine ⟨hfinite.toFinset.card + 1, ?_⟩
  intro retain budget hbudget
  have hstart := Tabulation.Invariant.start P retain entries
  have hrun := hstart.run budget.toNat
  have hprocessed : (P.start retain entries).processed ≤ (P.start retain entries).edges.size :=
    hstart.processed_le
  unfold solve
  dsimp only
  split
  · exact ⟨_, rfl⟩
  · rw [if_neg (by simp), if_pos (show budget > 0 by omega)]
    have hdone : (P.run retain budget.toNat (P.start retain entries)).pending = 0 := by
      have hfound : (P.run retain budget.toNat (P.start retain entries)).found ⊆
          hfinite.toFinset := by
        rw [Set.Finite.coe_toFinset]
        exact hrun.toGrounded.found_subset closed_pathEdges
      have hsize := hrun.toGrounded.size_le hfound
      have hle := hrun.processed_le
      rcases hstart.run_pending budget.toNat with hdone | hmore
      · exact hdone
      · omega
    rw [if_pos hdone]
    exact ⟨_, rfl⟩

/-! ## Finitely many facts -/

/-- The flow functions lead from facts in `F` to facts in `F`. -/
structure FactsClosed (P : FlowProblem δ) (F : Set δ) : Prop where
  zero : P.zero ∈ F
  initial : ∀ m, ∀ d ∈ P.initial (P.graph m), d ∈ F
  normal : ∀ m i edge, ∀ d ∈ F, ∀ d' ∈ P.normal (P.graph m) i edge d, d' ∈ F
  callToReturn : ∀ m i edge callees, ∀ d ∈ F,
    ∀ d' ∈ P.callToReturn (P.graph m) i edge callees d, d' ∈ F
  enter : ∀ m i callee, ∀ d ∈ F, ∀ d' ∈ P.enter (P.graph m) i (P.graph callee) d, d' ∈ F
  leave : ∀ m i edge callee exit, ∀ d ∈ F,
    ∀ d' ∈ P.leave (P.graph m) i edge (P.graph callee) exit d, d' ∈ F

/-- The statements of a method that control can go to: its entry and the targets of its edges. -/
def nodes (P : FlowProblem δ) (m : MethodRef) : Set Nat :=
  {i | i = (P.graph m).entry ∨ ∃ n, ∃ edge ∈ P.outgoing ⟨m, n⟩, edge.target = i}

/-- Control can go to finitely many statements of a method. -/
lemma finite_nodes (P : FlowProblem δ) (m : MethodRef) : (P.nodes m).Finite := by
  refine (List.finite_toSet
    ((P.graph m).entry :: (P.graph m).succs.toList.flatten.map (·.target))).subset ?_
  rintro i (rfl | ⟨n, edge, hedge, rfl⟩)
  · simp
  · simp only [outgoing, FlowGraph.successors, Array.getD_eq_getD_getElem?] at hedge
    cases hget : (P.graph m).succs[n]? with
    | none => simp [hget] at hedge
    | some es =>
      have hes : es ∈ (P.graph m).succs.toList :=
        Array.mem_toList_iff.mpr (Array.mem_of_getElem? hget)
      have hmem : edge ∈ (P.graph m).succs.toList.flatten :=
        List.mem_flatten.mpr ⟨es, hes, by simpa [hget] using hedge⟩
      exact List.mem_cons_of_mem _ (List.mem_map_of_mem hmem)

/-- The path edges of some methods between some facts. -/
def edgesWithin (P : FlowProblem δ) (M : Set MethodRef) (F : Set δ) : Set (PathEdge δ) :=
  {e | e.method ∈ M ∧ e.startFact ∈ F ∧ e.node ∈ P.nodes e.method ∧ e.fact ∈ F}

/-- Finitely many methods have finitely many path edges between finitely many facts. -/
lemma finite_edgesWithin (P : FlowProblem δ) {M : Set MethodRef} {F : Set δ} (hM : M.Finite)
    (hF : F.Finite) : (P.edgesWithin M F).Finite := by
  refine Set.Finite.subset (s := ⋃ m ∈ M, ⋃ d ∈ F, ⋃ i ∈ P.nodes m, ⋃ d' ∈ F,
    {(⟨m, d, i, d'⟩ : PathEdge δ)}) ?_ ?_
  · exact hM.biUnion fun m _ => hF.biUnion fun d _ => (P.finite_nodes m).biUnion fun i _ =>
      hF.biUnion fun d' _ => Set.finite_singleton _
  · rintro e ⟨hm, hd, hi, hd'⟩
    simp only [Set.mem_iUnion, Set.mem_singleton_iff]
    exact ⟨e.method, hm, e.startFact, hd, e.node, hi, e.fact, hd', rfl⟩

/-- The path edges between facts that the flow functions do not leave are closed under the rules. -/
lemma FactsClosed.closed_edgesWithin {P : FlowProblem δ} {entries : List MethodRef}
    {M : Set MethodRef} {F : Set δ} (h : P.FactsClosed F) (hentries : ∀ m ∈ entries, m ∈ M)
    (htargets : ∀ n, ∀ m ∈ P.targets n, m ∈ M) : P.Closed entries (P.edgesWithin M F) := by
  have hentry : ∀ m ∈ M, ∀ d ∈ F, P.entryEdge m d ∈ P.edgesWithin M F :=
    fun m hm d hd => ⟨hm, hd, Or.inl rfl, hd⟩
  have halong : ∀ e ∈ P.edgesWithin M F, ∀ edge ∈ P.outgoing e.site, ∀ d ∈ F,
      e.along edge d ∈ P.edgesWithin M F :=
    fun e he edge hedge d hd => ⟨he.1, he.2.1, Or.inr ⟨e.node, edge, hedge, rfl⟩, hd⟩
  intro e l hf
  cases hf with
  | @seed m d hm hd =>
    refine hentry m (hentries m hm) d ?_
    rcases List.mem_cons.mp hd with rfl | hd
    · exact h.zero
    · exact h.initial m d hd
  | @intra e edge d he hedge hkind hd =>
    exact halong e he edge hedge d (h.normal _ _ _ _ he.2.2.2 _ hd)
  | @callToReturn c edge d hc hcall hedge hkind hd =>
    exact halong c hc edge hedge d (h.callToReturn _ _ _ _ _ hc.2.2.2 _ hd)
  | @call c m d hc henters =>
    exact hentry m (htargets _ m henters.2.1) d (h.enter _ _ _ _ hc.2.2.2 _ henters.2.2)
  | @ret c x edge d hc hx henters hexit hedge hkind hd =>
    exact halong c hc edge hedge d (h.leave _ _ _ _ _ _ hx.2.2.2 _ hd)

/-- A problem has finitely many path edges if it enters finitely many methods and finitely many
facts are closed under its flow functions. -/
lemma FactsClosed.finite_pathEdges {P : FlowProblem δ} {entries : List MethodRef}
    {M : Set MethodRef} {F : Set δ} (h : P.FactsClosed F) (hF : F.Finite) (hM : M.Finite)
    (hentries : ∀ m ∈ entries, m ∈ M) (htargets : ∀ n, ∀ m ∈ P.targets n, m ∈ M) :
    (P.pathEdges entries).Finite :=
  (P.finite_edgesWithin hM hF).subset (pathEdges_subset (h.closed_edgesWithin hentries htargets))

end FlowProblem

end JvmTaint
