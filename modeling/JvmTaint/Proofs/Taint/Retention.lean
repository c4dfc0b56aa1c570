import JvmTaint.Proofs.Tabulation.Retention
import JvmTaint.Proofs.Taint.Reports

set_option autoImplicit false
set_option relaxedAutoImplicit false

/-!
# Analyses with and without traces

What path edges were derived from is retained for the traces of flows only. An analysis finds the
same hits with and without it, since hits are read off the path edges in the order in which they
were found, and flows are sorted by their sources and sinks. So its result is the same apart from
the traces, and from the errors that say which traces were not found.

## Main definitions

* `JvmTaint.Flow.untraced`, `JvmTaint.AnalysisResult.untraced`: a flow and a result without traces.
* `JvmTaint.Hit.flow`: the flow of a hit, without a trace.

## Main results

* `JvmTaint.TaintProblem.flows_untraced`: tabulations with the same path edges have the same flows
  up to traces.
* `JvmTaint.Session.retention_unobservable`: what is retained is seen in traces only.
-/

namespace JvmTaint

/-- The flow without its trace. -/
def Flow.untraced (f : Flow) : Flow := { f with trace := none }

/-- The flow of a hit, without a trace. -/
def Hit.flow (h : Hit) : Flow :=
  { source := h.source, sink := h.edge.site, fact := h.edge.fact, rule := h.rule }

/-- The result without its traces, and without the errors of the session, which also say which
traces were not found. -/
def AnalysisResult.untraced (r : AnalysisResult) : AnalysisResult :=
  { r with flows := r.flows.map Flow.untraced, errors := [] }

namespace TaintProblem

variable (p : TaintProblem) {t t' : Tabulation Fact}

/-- Apart from its trace, the flow of a hit is read off the hit. -/
lemma flowOf_untraced (provenance : Bool) (t : Tabulation Fact) (h : Hit) :
    (p.flowOf provenance t h).1.untraced = h.flow := by
  obtain ⟨trace, hflow⟩ := p.flowOf_fst provenance t h
  rw [hflow]
  rfl

/-- Tabulations with the same path edges have the same hits. -/
lemma hits_congr (h : t.edges = t'.edges) : p.hits t = p.hits t' := by
  unfold hits
  rw [h]

/-- Apart from their traces, the flows are those of the hits, sorted. -/
lemma flows_eq_hits (provenance : Bool) (t : Tabulation Fact) :
    (p.flows provenance t).map Flow.untraced = ((p.hits t).map Hit.flow).mergeSort Flow.le := by
  have hle : ∀ f g : Flow, f.le g = f.untraced.le g.untraced := fun _ _ => rfl
  unfold flows
  rw [List.map_mergeSort fun f _ g _ => hle f g, List.map_map]
  congr 2
  funext hit
  exact p.flowOf_untraced provenance t hit

/-- Tabulations with the same path edges have the same flows up to traces, in the same order. -/
lemma flows_untraced (provenance provenance' : Bool) (h : t.edges = t'.edges) :
    (p.flows provenance t).map Flow.untraced = (p.flows provenance' t').map Flow.untraced := by
  rw [flows_eq_hits, flows_eq_hits, p.hits_congr h]

end TaintProblem

namespace Session

variable (s : Session) (runId : String) (entries : List MethodRef) (o : RunOptions)
  (cancelled : Bool)

/-- The flows of a complete tabulation are the same up to traces, whatever the limit of alarms. -/
lemma finish_untraced (s s' : Session) (p : TaintProblem) {t t' : Tabulation Fact}
    (h : t.Alike t') (provenance : Bool) :
    (s.finish p { o with provenance } t runId).2.untraced =
      (s'.finish p o t' runId).2.untraced := by
  have hflows := p.flows_untraced provenance o.provenance h.edges
  have hreported : (s.finish p { o with provenance } t runId).2.flows.map Flow.untraced =
      (s'.finish p o t' runId).2.flows.map Flow.untraced := by
    rw [finish_flows, finish_flows]
    dsimp only
    split
    · rw [List.map_take, List.map_take, hflows]
    · exact hflows
  unfold AnalysisResult.untraced
  rw [hreported]
  simp only [finish, h.statistics_eq]

/-- How an analysis ends does not depend on what its tabulation retains. -/
lemma conclusion_untraced (s s' : Session) (p : TaintProblem) (provenance : Bool)
    {r r' : Tabulation Fact × SolveOutcome} (h : r.1.Alike r'.1) (houtcome : r.2 = r'.2) :
    (s.conclusion p { o with provenance } runId r).2 = (s'.conclusion p o runId r').2 ∧
      (s.conclusion p { o with provenance } runId r).1.map AnalysisResult.untraced =
        (s'.conclusion p o runId r').1.map AnalysisResult.untraced := by
  obtain ⟨t, outcome⟩ := r
  obtain ⟨t', outcome'⟩ := r'
  cases houtcome
  cases outcome with
  | complete => exact ⟨rfl, congrArg some (finish_untraced runId o s s' p h provenance)⟩
  | overBudget budget pending =>
    refine ⟨rfl, ?_⟩
    simp only [conclusion, AnalysisResult.untraced, Option.map_some, h.statistics_eq]
  | cancelled => exact ⟨rfl, rfl⟩

/-- An analysis ends in the same way whether or not it retains what path edges were derived from. -/
lemma analyze_untraced (rules : Option RuleSet) (provenance : Bool) :
    (s.analyze runId entries rules { o with provenance } cancelled).2.2 =
        (s.analyze runId entries rules o cancelled).2.2 ∧
      (s.analyze runId entries rules { o with provenance } cancelled).2.1.map
          AnalysisResult.untraced =
        (s.analyze runId entries rules o cancelled).2.1.map AnalysisResult.untraced := by
  cases rules with
  | none =>
    unfold analyze
    dsimp only
    split <;> exact ⟨rfl, rfl⟩
  | some rules =>
    obtain ⟨s₁, hanalyze₁⟩ := s.analyze_eq runId entries rules { o with provenance } cancelled
    obtain ⟨s₂, hanalyze₂⟩ := s.analyze_eq runId entries rules o cancelled
    rw [hanalyze₁, hanalyze₂, show ({ o with provenance } : RunOptions).bound = o.bound from rfl]
    obtain ⟨halike, houtcome⟩ := (s.problem rules o).flowProblem.solve_alike provenance
      o.provenance o.budget cancelled (s.roots entries)
    by_cases hdepth : checkDepth o.bound = true
    · by_cases hrules : rules.isEmpty = true
      · simp [hdepth, hrules]
      · by_cases hgraph : (s.callGraph entries cancelled).2.isNone = true
        · simp [hdepth, hrules, hgraph]
        · simp only [hdepth, hrules, hgraph, Bool.not_true, Bool.false_eq_true, ↓reduceIte]
          exact conclusion_untraced runId o s₁ s₂ (s.problem rules o) provenance halike houtcome
    · simp [hdepth]

/-- **What is retained is seen in traces only.** A problem is tabulated with and without retaining
what path edges were derived from: the same path edges are found in the same order, which is the
order in which they are numbered and shown to the problem, with the same outcome and the same
statistics, and so the same facts hold before each statement. An analysis ends with the same error,
and with the same result up to the traces of its flows. -/
theorem retention_unobservable :
    (∀ (δ : Type) [DecidableEq δ] [Hashable δ] (P : FlowProblem δ) (budget : Int) (cancelled : Bool)
        (entries : List MethodRef),
      let (retained, outcome) := P.solve true budget cancelled entries
      let (dropped, outcome') := P.solve false budget cancelled entries
      retained.edges = dropped.edges ∧ (∀ e, retained.reached e = dropped.reached e) ∧
        outcome = outcome' ∧ P.statistics retained = P.statistics dropped ∧
        ∀ n, retained.factsAt n = dropped.factsAt n) ∧
    ∀ (s : Session) (runId : String) (entries : List MethodRef) (rules : Option RuleSet)
        (o : RunOptions) (cancelled : Bool),
      let (_, result, error) :=
        s.analyze runId entries rules { o with provenance := true } cancelled
      let (_, result', error') :=
        s.analyze runId entries rules { o with provenance := false } cancelled
      error = error' ∧
        result.map AnalysisResult.untraced = result'.map AnalysisResult.untraced := by
  constructor
  · intro δ _ _ P budget cancelled entries
    obtain ⟨halike, houtcome⟩ := P.solve_alike true false budget cancelled entries
    exact ⟨halike.edges, halike.reached, houtcome, halike.statistics_eq, halike.factsAt_eq⟩
  · intro s runId entries rules o cancelled
    exact s.analyze_untraced runId entries { o with provenance := false } cancelled rules true

end Session

end JvmTaint
