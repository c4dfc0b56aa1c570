import JvmTaint.Proofs.Tabulation.Restriction
import JvmTaint.Proofs.Tabulation.Termination
import Mathlib.Data.Set.Card

set_option autoImplicit false
set_option relaxedAutoImplicit false

/-!
# Tabulations with a budget

A tabulation without a budget processes path edges as long as one waits, perhaps forever. The path
edges that it finds form a sequence, in which each path edge of the problem occurs once. Step `i`
processes the `i`-th of them, so a tabulation with a budget is a beginning of this one run: it comes
to its end exactly if the problem has no more path edges than the budget allows, and otherwise it
has found a beginning of the sequence.

## Main definitions

* `JvmTaint.FlowProblem.sequence`: the path edges of a problem in the order in which they are found.

## Main results

* `JvmTaint.FlowProblem.sequence_eq_some_iff`: the sequence holds what any number of steps finds.
* `JvmTaint.FlowProblem.mem_pathEdges_iff_sequence`: every path edge of a problem is found after
  some steps.
* `JvmTaint.FlowProblem.pending_run_start_iff`: when nothing waits after some steps.
* `JvmTaint.FlowProblem.solve_of_budget`: a tabulation with a budget is a run of that many steps.
-/

namespace JvmTaint

variable {δ : Type} [DecidableEq δ] [Hashable δ]

namespace Tabulation

variable {P : FlowProblem δ} {retain : Bool} {entries : List MethodRef} {s : Tabulation δ}

/-- The path edges that were found are distinct, so they are as many as there are positions. -/
lemma Grounded.encard_found (h : Grounded P retain entries s) :
    s.found.encard = s.edges.size := by
  have hset : s.found = (s.edges.toList.toFinset : Set (PathEdge δ)) := by
    ext e
    simp [found]
  rw [hset, Set.encard_coe_eq_coe_finsetCard, List.toFinset_card_of_nodup h.nodup,
    Array.length_toList]

/-- A step adds path edges behind those that were found. -/
lemma Invariant.edges_step (h : Invariant P retain entries s) :
    s.edges.toList <+: (P.step retain s).edges.toList := by
  unfold FlowProblem.step
  split
  · exact List.prefix_rfl
  · rename_i e hnext
    have hc : Consistent P retain entries { s with processed := s.processed + 1 } :=
      ⟨⟨h.nodup, h.reached_iff, h.justified, h.entered, h.left⟩, h.returned⟩
    exact (hc.process (Array.mem_of_getElem? hnext)).2.1.edges

/-- A run adds path edges behind those that were found. -/
lemma Invariant.edges_run (n : Nat) (h : Invariant P retain entries s) :
    s.edges.toList <+: (P.run retain n s).edges.toList := by
  induction n generalizing s with
  | zero => exact List.prefix_rfl
  | succ n ih =>
    rw [FlowProblem.run]
    split
    · exact List.prefix_rfl
    · exact h.edges_step.trans (ih h.step)

/-- A run processes at most as many path edges as it may. -/
lemma Invariant.processed_run_le (n : Nat) (h : Invariant P retain entries s) :
    (P.run retain n s).processed ≤ s.processed + n := by
  induction n generalizing s with
  | zero => exact Nat.le_refl _
  | succ n ih =>
    rw [FlowProblem.run]
    split
    · omega
    · rename_i hpending
      have := ih h.step
      rw [h.processed_step hpending] at this
      omega

/-- Path edges that are added wait. -/
lemma processed_propagateAll (items : List (PathEdge δ × Link δ)) :
    (s.propagateAll retain items).processed = s.processed := by
  induction items generalizing s with
  | nil => rfl
  | cons item items ih => exact ih.trans (extends_propagate retain s item.1 item.2).processed

end Tabulation

namespace FlowProblem

variable {P : FlowProblem δ} {retain : Bool} {entries : List MethodRef} {e : PathEdge δ}

/-- A run goes on from where a shorter one stopped. -/
lemma run_add (m n : Nat) (s : Tabulation δ) :
    P.run retain (m + n) s = P.run retain n (P.run retain m s) := by
  induction m generalizing s with
  | zero => rw [Nat.zero_add, run]
  | succ m ih =>
    rw [Nat.succ_add, run, run]
    split
    · exact (run_of_pending retain ‹_› n).symm
    · exact ih _

/-! ## The sequence of path edges -/

/-- The path edges of a problem in the order in which a tabulation without a budget finds them.
After `i` steps the `i`-th one is found, unless nothing waits. -/
def sequence (P : FlowProblem δ) (retain : Bool) (entries : List MethodRef) (i : Nat) :
    Option (PathEdge δ) :=
  (P.run retain i (P.start retain entries)).edges[i]?

/-- The loop invariant holds after any number of steps. -/
lemma invariant_run (P : FlowProblem δ) (retain : Bool) (entries : List MethodRef) (n : Nat) :
    Tabulation.Invariant P retain entries (P.run retain n (P.start retain entries)) :=
  (Tabulation.Invariant.start P retain entries).run n

/-- No path edge is processed before the first step. -/
lemma processed_start (P : FlowProblem δ) (retain : Bool) (entries : List MethodRef) :
    (P.start retain entries).processed = 0 :=
  Tabulation.processed_propagateAll (P.seeds entries)

/-- A longer run finds path edges behind those that a shorter one found. -/
lemma edges_run_of_le (P : FlowProblem δ) (retain : Bool) (entries : List MethodRef) {m n : Nat}
    (hle : m ≤ n) :
    (P.run retain m (P.start retain entries)).edges.toList <+:
      (P.run retain n (P.start retain entries)).edges.toList := by
  obtain ⟨k, rfl⟩ := Nat.exists_eq_add_of_le hle
  rw [run_add]
  exact (P.invariant_run retain entries m).edges_run k

/-- What a run finds at a position is there in each longer one. -/
lemma getElem?_run_of_le {m n i : Nat} (hle : m ≤ n)
    (h : (P.run retain m (P.start retain entries)).edges[i]? = some e) :
    (P.run retain n (P.start retain entries)).edges[i]? = some e := by
  obtain ⟨rest, hrest⟩ := P.edges_run_of_le retain entries hle
  rw [← Array.getElem?_toList] at h ⊢
  obtain ⟨hlt, -⟩ := List.getElem?_eq_some_iff.mp h
  rw [← hrest, List.getElem?_append_left hlt, h]

/-- After `n` steps nothing waits, or `n` path edges have been processed. -/
lemma pending_run_or_processed (P : FlowProblem δ) (retain : Bool) (entries : List MethodRef)
    (n : Nat) : (P.run retain n (P.start retain entries)).pending = 0 ∨
      (P.run retain n (P.start retain entries)).processed = n := by
  simpa [P.processed_start] using (Tabulation.Invariant.start P retain entries).run_pending n

/-- The sequence holds what any number of steps finds.

**Proof sketch.** A run of `i` steps that has not come to its end has processed `i` path edges and
found more than that, so it agrees with each longer one at position `i`. -/
lemma sequence_eq_some_iff {i : Nat} : P.sequence retain entries i = some e ↔
    ∃ n, (P.run retain n (P.start retain entries)).edges[i]? = some e := by
  constructor
  · exact fun h => ⟨i, h⟩
  rintro ⟨n, h⟩
  unfold sequence
  rcases Nat.le_total n i with hle | hle
  · exact getElem?_run_of_le hle h
  by_cases hpending : (P.run retain i (P.start retain entries)).pending = 0
  · rwa [run_eq_of_le retain hle hpending] at h
  · have hprocessed := (P.pending_run_or_processed retain entries i).resolve_left hpending
    have hlt : i < (P.run retain i (P.start retain entries)).edges.size := by
      unfold Tabulation.pending at hpending
      omega
    have hthere := Array.getElem?_eq_getElem hlt
    rw [getElem?_run_of_le hle hthere] at h
    rw [hthere, h]

/-- What a run has found is a beginning of the sequence. -/
lemma getElem?_run_eq_sequence {n i : Nat}
    (hi : i < (P.run retain n (P.start retain entries)).edges.size) :
    (P.run retain n (P.start retain entries)).edges[i]? = P.sequence retain entries i := by
  have hget := Array.getElem?_eq_getElem hi
  rw [hget, sequence_eq_some_iff.mpr ⟨n, hget⟩]

/-- A run that has come to its end has found the whole sequence. -/
lemma getElem?_run_of_pending {n : Nat}
    (hpending : (P.run retain n (P.start retain entries)).pending = 0) (i : Nat) :
    (P.run retain n (P.start retain entries)).edges[i]? = P.sequence retain entries i := by
  refine Option.ext fun e => ?_
  rw [sequence_eq_some_iff]
  refine ⟨fun h => ⟨n, h⟩, fun ⟨m, hm⟩ => ?_⟩
  have hlonger := getElem?_run_of_le (Nat.le_max_left m n) hm
  rwa [run_eq_of_le retain (Nat.le_max_right m n) hpending] at hlonger

/-- No path edge occurs twice in the sequence. -/
lemma sequence_injective {i j : Nat} (hi : P.sequence retain entries i = some e)
    (hj : P.sequence retain entries j = some e) : i = j := by
  have hi' := getElem?_run_of_le (Nat.le_max_left i j) hi
  have hj' := getElem?_run_of_le (Nat.le_max_right i j) hj
  have hnodup := (P.invariant_run retain entries (max i j)).nodup
  rw [← Array.getElem?_toList] at hi' hj'
  obtain ⟨hlt, -⟩ := List.getElem?_eq_some_iff.mp hi'
  exact (List.getElem?_inj hlt hnodup).mp (hi'.trans hj'.symm)

/-- After enough steps a path edge of the sequence has been processed. -/
lemma exists_processed_of_sequence {i : Nat} (h : P.sequence retain entries i = some e) :
    ∀ n, i < n → e ∈ (P.run retain n (P.start retain entries)).foundBefore
      (P.run retain n (P.start retain entries)).processed := by
  intro n hlt
  have hget := getElem?_run_of_le hlt.le h
  have hinv := P.invariant_run retain entries n
  obtain ⟨hsize, hat⟩ := Array.getElem?_eq_some_iff.mp hget
  have hbound : i < (P.run retain n (P.start retain entries)).processed := by
    rcases P.pending_run_or_processed retain entries n with hpending | hprocessed
    · rwa [hinv.processed_eq hpending]
    · rwa [hprocessed]
  exact List.mem_take_iff_getElem.mpr ⟨i, by simp; omega, by simpa using hat⟩

/-- The path edges of the sequence are closed under the rules.

**Proof sketch.** The premises of a rule are processed after enough steps, and what follows from
path edges that are processed is found. -/
lemma closed_sequence (P : FlowProblem δ) (retain : Bool) (entries : List MethodRef) :
    P.Closed entries {e | ∃ i, P.sequence retain entries i = some e} := by
  have hfound : ∀ (n : Nat) (e : PathEdge δ),
      e ∈ (P.run retain n (P.start retain entries)).found →
        ∃ i, P.sequence retain entries i = some e := by
    intro n e he
    obtain ⟨i, hi, hget⟩ := Array.getElem_of_mem he
    exact ⟨i, sequence_eq_some_iff.mpr ⟨n, by rw [Array.getElem?_eq_getElem hi, hget]⟩⟩
  have hhandled : ∀ e : PathEdge δ, (∃ i, P.sequence retain entries i = some e) →
      ∃ m, ∀ n, m < n → Tabulation.Handled P (P.run retain n (P.start retain entries)) e := by
    rintro e ⟨i, hi⟩
    exact ⟨i, fun n hn => (P.invariant_run retain entries n).handled e
      (exists_processed_of_sequence hi n hn)⟩
  intro e l hf
  cases hf with
  | seed hm hd => exact hfound 0 _ ((P.invariant_run retain entries 0).seeded _ hm _ hd)
  | intra he hedge hkind hd =>
    obtain ⟨m, hm⟩ := hhandled _ he
    exact hfound _ _ ((hm _ (Nat.lt_succ_self m)).intra _ hedge hkind _ hd)
  | callToReturn hc hcall hedge hkind hd =>
    obtain ⟨m, hm⟩ := hhandled _ hc
    exact hfound _ _ ((hm _ (Nat.lt_succ_self m)).callToReturn hcall _ hedge hkind _ hd)
  | call hc henters =>
    obtain ⟨m, hm⟩ := hhandled _ hc
    exact hfound _ _ ((hm _ (Nat.lt_succ_self m)).entered _ _ henters).1
  | @ret c x edge d hc hx henters hexit hedge hkind hd =>
    -- the caller and the exit are both processed after enough steps, so they have been combined
    obtain ⟨m, hm⟩ := hhandled _ hc
    obtain ⟨m', hm'⟩ := hhandled _ hx
    have hcaller := ((hm (max m m' + 1) (by omega)).entered _ _ henters).2
    have hsummary := (hm' (max m m' + 1) (by omega)).summarized hexit
    exact hfound _ _ ((P.invariant_run retain entries (max m m' + 1)).returned _ c hcaller x
      hsummary (c.along edge d, .ret c x)
      (mem_returnItems.mpr ⟨edge, hedge, hkind, d, hd, rfl, rfl⟩))

/-- Every path edge of a problem is found after some steps, and nothing else is. -/
lemma mem_pathEdges_iff_sequence (P : FlowProblem δ) (retain : Bool) (entries : List MethodRef) :
    e ∈ P.pathEdges entries ↔ ∃ i, P.sequence retain entries i = some e := by
  constructor
  · exact fun he => pathEdges_subset (P.closed_sequence retain entries) he
  · rintro ⟨i, hi⟩
    exact (P.invariant_run retain entries i).toGrounded.found_subset closed_pathEdges
      (Array.mem_of_getElem? hi)

/-! ## Runs of a bounded number of steps -/

/-- When nothing waits after some steps, the path edges that have been processed are as many as the
problem has. -/
lemma processed_run_eq_encard {n : Nat}
    (hpending : (P.run retain n (P.start retain entries)).pending = 0) :
    ((P.run retain n (P.start retain entries)).processed : ℕ∞) =
      (P.pathEdges entries).encard := by
  have hinv := P.invariant_run retain entries n
  have hfound : (P.run retain n (P.start retain entries)).found = P.pathEdges entries :=
    (hinv.toGrounded.found_subset closed_pathEdges).antisymm
      (pathEdges_subset (hinv.closed hpending))
  rw [← hfound, hinv.toGrounded.encard_found, hinv.processed_eq hpending]

/-- After `n` steps nothing waits exactly if the problem has at most `n` path edges.

**Proof sketch.** If nothing waits then all path edges of the problem have been processed, at most
one in each step. If one waits then `n` path edges have been processed, and there is one more. -/
lemma pending_run_start_iff (P : FlowProblem δ) (retain : Bool) (entries : List MethodRef)
    (n : Nat) :
    (P.run retain n (P.start retain entries)).pending = 0 ↔ (P.pathEdges entries).encard ≤ n := by
  constructor
  · intro hpending
    have hprocessed := (Tabulation.Invariant.start P retain entries).processed_run_le n
    rw [P.processed_start, Nat.zero_add] at hprocessed
    rw [← processed_run_eq_encard hpending]
    exact_mod_cast hprocessed
  · intro hle
    by_contra hpending
    have hinv := P.invariant_run retain entries n
    have hprocessed := (P.pending_run_or_processed retain entries n).resolve_left hpending
    have hcard := (Set.encard_le_encard (hinv.toGrounded.found_subset closed_pathEdges)).trans hle
    rw [hinv.toGrounded.encard_found] at hcard
    have hsize := Nat.cast_le.mp hcard
    unfold Tabulation.pending at hpending
    omega

/-- A tabulation with a budget is a run of that many steps: it ends as complete if nothing waits
afterwards, and as over budget if something does. -/
lemma solve_of_budget {budget : Int} (hbudget : 0 < budget) :
    P.solve retain budget false entries =
      let s := P.run retain budget.toNat (P.start retain entries)
      (s, if s.pending = 0 then .complete else .overBudget budget.toNat s.pending) := by
  unfold solve
  dsimp only
  split
  · rename_i hpending
    rw [run_of_pending retain hpending, if_pos hpending]
  · simp

/-- A tabulation without a budget is a run of more steps than a machine can make. -/
lemma solve_of_nonpos {budget : Int} (hbudget : budget ≤ 0) :
    P.solve retain budget false entries =
      let s := P.run retain unlimited (P.start retain entries)
      (s, if s.pending = 0 then .complete else .overBudget unlimited s.pending) := by
  unfold solve
  dsimp only
  split
  · rename_i hpending
    rw [run_of_pending retain hpending, if_pos hpending]
  · simp [hbudget.not_gt]

end FlowProblem

end JvmTaint
