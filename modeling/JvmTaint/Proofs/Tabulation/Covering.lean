import JvmTaint.Proofs.Tabulation.Exactness

set_option autoImplicit false
set_option relaxedAutoImplicit false

/-!
# Comparing the path edges of two problems

A complete tabulation holds the path edges of its problem, which is the least set that is closed
under the rules. Two problems on the same flow graphs are compared by a relation between their
facts. If each thing that the second problem does with a fact is answered by the first one with a
related fact, then the first problem has a path edge with a related fact wherever the second one
has a path edge.

## Main definitions

* `JvmTaint.FlowProblem.pathEdges`: the path edges of a problem.
* `JvmTaint.FlowProblem.Answers`: what one problem does is answered by the path edges of another.
* `JvmTaint.FlowProblem.CoveredBy`: a path edge is covered in every context.

## Main results

* `JvmTaint.FlowProblem.found_eq_pathEdges`: a complete tabulation holds the path edges of its
  problem.
* `JvmTaint.FlowProblem.Answers.exists_pathEdge`: every path edge of a problem is covered by one of
  the problem that answers it.

## Design

A summary is used by every caller that enters a method with the same fact. Hence it is not enough
that each path edge is covered by some path edge: the start facts of the two have to be the ones
that the callers hand over. So a path edge counts as covered if it is covered for every start fact
that the first problem enters the method with and that is related to its own.
-/

namespace JvmTaint

variable {δ : Type}

namespace FlowProblem

/-! ## The path edges of a problem -/

/-- The path edges of a problem: the least set that is closed under the rules. -/
def pathEdges (P : FlowProblem δ) (entries : List MethodRef) : Set (PathEdge δ) :=
  {e | ∀ S, P.Closed entries S → e ∈ S}

section

variable {P : FlowProblem δ} {entries : List MethodRef}

/-- The path edges of a problem are in every closed set. -/
lemma pathEdges_subset {S : Set (PathEdge δ)} (hS : P.Closed entries S) :
    P.pathEdges entries ⊆ S :=
  fun _ he => he S hS

/-- The path edges of a problem are closed under the rules. -/
lemma closed_pathEdges : P.Closed entries (P.pathEdges entries) := by
  intro e l hf S hS
  exact hS e l (hf.mono (pathEdges_subset hS))

/-- A complete tabulation holds the path edges of its problem. -/
lemma found_eq_pathEdges [DecidableEq δ] [Hashable δ] {retain cancelled : Bool} {budget : Int}
    {s : Tabulation δ} (h : P.solve retain budget cancelled entries = (s, .complete)) :
    s.found = P.pathEdges entries := by
  obtain ⟨hclosed, hleast⟩ := Tabulation.isLeast_found_of_solve h
  exact Set.Subset.antisymm (hleast closed_pathEdges) (pathEdges_subset hclosed)

end

/-! ## Answers -/

/-- What the problem `Q` does is answered by the path edges `S` of the problem `P`, up to the
relation `R` between a fact of `P` and a fact of `Q`. The calls of `Q` have no other targets than
those of `P`. -/
structure Answers (P Q : FlowProblem δ) (entries : List MethodRef) (R : δ → δ → Prop)
    (S : Set (PathEdge δ)) : Prop where
  graph : P.graph = Q.graph
  seed : ∀ m ∈ entries, ∀ d' ∈ Q.zero :: Q.initial (P.graph m),
    ∃ d ∈ P.zero :: P.initial (P.graph m), R d d'
  intra : ∀ e ∈ S, ∀ edge ∈ P.outgoing e.site, P.FollowedNormally e.site edge →
    ∀ d, R e.fact d → ∀ d' ∈ Q.normal (P.graph e.method) e.node edge d,
      ∃ r, R r d' ∧ e.along edge r ∈ S
  callToReturn : ∀ c ∈ S, P.AtCall c.site → ∀ edge ∈ P.outgoing c.site, edge.kind ≠ .exception →
    ∀ d, R c.fact d →
      ∀ d' ∈ Q.callToReturn (P.graph c.method) c.node edge (Q.targets c.site) d,
        ∃ r, R r d' ∧ c.along edge r ∈ S
  call : ∀ c ∈ S, ∀ d, R c.fact d → ∀ m d', Q.Enters c.site d m d' →
    ∃ r, R r d' ∧ P.Enters c.site c.fact m r
  ret : ∀ c ∈ S, ∀ x ∈ S, ∀ edge d, R x.fact d →
    ∀ d' ∈ Q.leave (P.graph c.method) c.node edge (P.graph x.method) x.node d,
      ∃ r ∈ P.leave (P.graph c.method) c.node edge (P.graph x.method) x.node x.fact, R r d'

/-- The path edge is covered by `S`: its method is entered with some related start fact, and for
each of them a path edge with a related fact leads to its statement. -/
def CoveredBy (P : FlowProblem δ) (R : δ → δ → Prop) (S : Set (PathEdge δ)) (e : PathEdge δ) :
    Prop :=
  (∃ r, R r e.startFact ∧ P.entryEdge e.method r ∈ S) ∧
    ∀ r, R r e.startFact → P.entryEdge e.method r ∈ S →
      ∃ d, R d e.fact ∧ ⟨e.method, r, e.node, d⟩ ∈ S

namespace Answers

variable {P Q : FlowProblem δ} {entries : List MethodRef} {R : δ → δ → Prop}
  {S : Set (PathEdge δ)}

/-- The path edge at the entry of a method is covered if the method is entered with a related
fact. -/
lemma coveredBy_entryEdge {m : MethodRef} {r d : δ} (hr : R r d) (hmem : P.entryEdge m r ∈ S) :
    P.CoveredBy R S (P.entryEdge m d) :=
  ⟨⟨r, hr, hmem⟩, fun r' hr' hmem' => ⟨r', hr', hmem'⟩⟩

/-- The path edges that are covered by a closed set are closed under the rules of a problem that
the set answers.

**Proof sketch.** By cases on the rules. A start fact stays the same inside a method, so the answer
to a step there is the answer in each context. For a return, the caller is covered in each of its
contexts by a path edge that enters the method with some related fact. In the context of this fact
the path edge at the exit is covered too, and the two are the premises of the return rule. -/
lemma closed_coveredBy (h : Answers P Q entries R S) (hS : P.Closed entries S) :
    Q.Closed entries {e | P.CoveredBy R S e} := by
  have hcall : ∀ n, Q.AtCall n ↔ P.AtCall n := by intro n; simp only [AtCall, h.graph]
  have hexit : ∀ n, Q.AtExit n ↔ P.AtExit n := by intro n; simp only [AtExit, hcall, h.graph]
  have hout : ∀ n, Q.outgoing n = P.outgoing n := by intro n; simp only [outgoing, h.graph]
  have hentry : ∀ m d, Q.entryEdge m d = P.entryEdge m d := by
    intro m d; simp only [entryEdge, h.graph]
  intro e l hf
  cases hf with
  | seed hm hd =>
    rw [← h.graph] at hd
    obtain ⟨r, hr, hrel⟩ := h.seed _ hm _ hd
    rw [hentry]
    exact coveredBy_entryEdge hrel (hS _ _ (.seed hm hr))
  | @intra e edge d he hedge hkind hd =>
    rw [FollowedNormally, hcall, hexit] at hkind
    rw [hout] at hedge
    rw [← h.graph] at hd
    refine ⟨he.1, fun r hr hmem => ?_⟩
    obtain ⟨d₀, hd₀, hin⟩ := he.2 r hr hmem
    exact h.intra _ hin edge hedge hkind _ hd₀ _ hd
  | @callToReturn c edge d hc hat hedge hkind hd =>
    rw [hout] at hedge
    rw [← h.graph] at hd
    refine ⟨hc.1, fun r hr hmem => ?_⟩
    obtain ⟨d₀, hd₀, hin⟩ := hc.2 r hr hmem
    exact h.callToReturn _ hin ((hcall _).mp hat) edge hedge hkind _ hd₀ _ hd
  | @call c m d hc henters =>
    obtain ⟨r, hr, hmem⟩ := hc.1
    obtain ⟨d₀, hd₀, hin⟩ := hc.2 r hr hmem
    obtain ⟨r', hr', henters'⟩ := h.call _ hin _ hd₀ _ _ henters
    rw [hentry]
    exact coveredBy_entryEdge hr' (hS _ _ (.call hin henters'))
  | @ret c x edge d hc hx henters hat hedge hkind hd =>
    rw [AtUncaught, ← h.graph] at hkind
    rw [hout] at hedge
    rw [← h.graph] at hd
    refine ⟨hc.1, fun r hr hmem => ?_⟩
    obtain ⟨d₀, hd₀, hin⟩ := hc.2 r hr hmem
    obtain ⟨r', hr', henters'⟩ := h.call _ hin _ hd₀ _ _ henters
    -- the exit is covered in the context that this caller enters
    obtain ⟨d₁, hd₁, hinx⟩ := hx.2 r' hr' (hS _ _ (.call hin henters'))
    obtain ⟨d₂, hd₂, hrel⟩ := h.ret _ hin _ hinx edge _ hd₁ _ hd
    exact ⟨d₂, hrel, hS _ _ (.ret hin hinx henters' ((hexit _).mp hat) hedge hkind hd₂)⟩

/-- Every path edge of a problem is covered by one with a related fact at the same statement, if
the problem is answered by a closed set. -/
lemma exists_pathEdge (h : Answers P Q entries R S) (hS : P.Closed entries S) {e : PathEdge δ}
    (he : e ∈ Q.pathEdges entries) : ∃ r d, R d e.fact ∧ ⟨e.method, r, e.node, d⟩ ∈ S := by
  obtain ⟨⟨r, hr, hmem⟩, hcovered⟩ := pathEdges_subset (h.closed_coveredBy hS) he
  exact ⟨r, hcovered r hr hmem⟩

end Answers

end FlowProblem

end JvmTaint
