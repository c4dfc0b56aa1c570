import JvmTaint.Proofs.Taint.Sanitizers

set_option autoImplicit false
set_option relaxedAutoImplicit false

/-!
# The flows of an analysis

An analysis that comes to its end reports one flow for each source and sink that a path edge shows,
sorted by the source and then by the sink. A limit of alarms keeps the first flows.

## Main definitions

* `JvmTaint.Flow.ends`: the source and the sink of a flow.
* `JvmTaint.Flow.Before`: a flow comes before another one.

## Main results

* `JvmTaint.TaintProblem.pairwise_flows`: the flows of a tabulation are strictly sorted.
* `JvmTaint.TaintProblem.exists_hit_of_mem_flows`: each flow is shown by a path edge.
* `JvmTaint.Session.flows_exact`: the flows of an analysis are the sources and sinks that its path
  edges show.
-/

namespace JvmTaint

/-! ## The order of flows -/

namespace Site

/-- What sites are ordered by. -/
def key (s : Site) : (String ×ₗ String ×ₗ String) ×ₗ ℕ := toLex (s.method.key, s.index)

lemma key_injective : Function.Injective key := by
  rintro ⟨m, i⟩ ⟨m', i'⟩ h
  obtain ⟨hmethod, rfl⟩ : m.key = m'.key ∧ i = i' := by simpa [key] using h
  rw [MethodRef.key_injective hmethod]

lemma lt_eq (s t : Site) : s.lt t = decide (s.key < t.key) := by
  simp only [lt, key, Prod.Lex.toLex_lt_toLex, MethodRef.lt_eq, Bool.decide_or, Bool.decide_and,
    MethodRef.key_injective.eq_iff, beq_eq_decide]

end Site

namespace Flow

/-- The source and the sink. -/
def ends (f : Flow) : Site × Site := (f.source, f.sink)

/-- The flow comes before the other one, by its source and then by its sink. -/
def Before (f g : Flow) : Prop :=
  f.source.lt g.source = true ∨ f.source = g.source ∧ f.sink.lt g.sink = true

/-- What flows are ordered by. -/
def key (f : Flow) : ((String ×ₗ String ×ₗ String) ×ₗ ℕ) ×ₗ (String ×ₗ String ×ₗ String) ×ₗ ℕ :=
  toLex (f.source.key, f.sink.key)

lemma le_eq (f g : Flow) : f.le g = decide (f.key ≤ g.key) := by
  simp only [key, Prod.Lex.toLex_le_toLex, Site.key_injective.eq_iff]
  unfold le
  by_cases hsource : f.source = g.source <;> simp [hsource, Site.lt_eq, ← decide_not]

lemma before_iff (f g : Flow) : f.Before g ↔ f.key < g.key := by
  simp only [Before, key, Prod.Lex.toLex_lt_toLex, Site.key_injective.eq_iff, Site.lt_eq,
    decide_eq_true_eq]

/-- Flows with different sources or sinks have different keys. -/
lemma nodup_map_key {flows : List Flow} (h : (flows.map ends).Nodup) : (flows.map key).Nodup := by
  have hinjective : Function.Injective fun ends : Site × Site =>
      toLex (ends.1.key, ends.2.key) := by
    rintro ⟨s, t⟩ ⟨s', t'⟩ heq
    obtain ⟨hsource, hsink⟩ : s.key = s'.key ∧ t.key = t'.key := by simpa using heq
    rw [Site.key_injective hsource, Site.key_injective hsink]
  have hmap := h.map hinjective
  rwa [List.map_map] at hmap

end Flow

/-! ## The flows of a tabulation -/

namespace TaintProblem

variable {p : TaintProblem} {provenance : Bool} {t : Tabulation Fact}

/-- No source and sink have two hits. -/
lemma nodup_ends_hits :
    (((p.hits t).map fun h => (p.flowOf provenance t h).1).map Flow.ends).Nodup := by
  have hends : (((p.hits t).map fun h => (p.flowOf provenance t h).1).map Flow.ends) =
      (p.hits t).map fun h => (h.source, h.edge.site) := by
    rw [List.map_map]
    refine List.map_congr_left fun h _ => ?_
    obtain ⟨trace, hflow⟩ := p.flowOf_fst provenance t h
    rw [Function.comp_apply, hflow]
    rfl
  rw [hends]
  refine List.pairwise_map.mpr ((pairwise_eraseDupsBy _ _).imp fun {h h'} hdiffer heq => ?_)
  obtain ⟨hsource, hsink⟩ := Prod.mk.inj heq
  simp [hsource, hsink] at hdiffer

/-- No source and sink have two flows. -/
lemma nodup_ends_flows : ((p.flows provenance t).map Flow.ends).Nodup :=
  ((List.mergeSort_perm _ Flow.le).map Flow.ends).nodup_iff.mpr nodup_ends_hits

/-- The flows are strictly sorted. -/
lemma pairwise_flows : (p.flows provenance t).Pairwise Flow.Before :=
  (pairwise_lt_mergeSort Flow.le_eq (Flow.nodup_map_key nodup_ends_hits)).imp fun {f g} hlt =>
    (f.before_iff g).mpr hlt

/-- There is a flow for a source and a sink exactly if a path edge shows it. -/
lemma mem_ends_flows {source sink : Site} :
    (source, sink) ∈ (p.flows provenance t).map Flow.ends ↔
      ∃ e ∈ t.found, p.Hits source sink e := by
  simp only [← reportedAt_iff_hits, ← exists_flow_iff provenance, List.mem_map, Flow.ends,
    Prod.mk.injEq]

end TaintProblem

namespace Session

variable {s : Session} {runId : String} {entries : List MethodRef} {rules : RuleSet}
  {o : RunOptions} {cancelled : Bool} {result : AnalysisResult}

/-- The flows of an analysis without a limit of alarms are those of its tabulation. -/
lemma flows_eq_of_analyze
    (h : (s.analyze runId entries (some rules) o cancelled).2 = (some result, none))
    (halarms : o.maxAlarms ≤ 0) : result.flows =
      (s.problem rules o).flows o.provenance (s.tabulate entries rules o cancelled).1 := by
  rw [flows_of_analyze h, if_neg halarms.not_gt]

/-- A path edge of a tabulation is one that it reached. -/
lemma reached_tabulate_iff {e : PathEdge Fact} :
    (s.tabulate entries rules o cancelled).1.reached e = true ↔
      e ∈ (s.tabulate entries rules o cancelled).1.found :=
  (Tabulation.Invariant.of_solve (Prod.eta _).symm).toGrounded.reached_iff e

/-- **The flows of an analysis** without a limit of alarms. There is one flow for each source and
sink that a path edge of its tabulation shows, and each flow is shown by one, with its fact. The
flows are strictly sorted. The same analysis with a limit of alarms reports the first of them. -/
theorem flows_exact
    (h : (s.analyze runId entries (some rules) o cancelled).2 = (some result, none))
    (halarms : o.maxAlarms ≤ 0) :
    let t := (s.tabulate entries rules o cancelled).1
    let p := s.problem rules o
    (∀ source sink, (∃ e, t.reached e = true ∧ p.Hits source sink e) →
        (result.flows.map Flow.ends).count (source, sink) = 1) ∧
      (∀ f ∈ result.flows, ∃ e, t.reached e = true ∧ p.Hits f.source f.sink e ∧ e.fact = f.fact) ∧
      result.flows.Pairwise Flow.Before ∧
      ∀ (runId' : String) (m : Int), 0 < m → ∃ limited : AnalysisResult,
        (s.analyze runId' entries (some rules) { o with maxAlarms := m } cancelled).2 =
          (some limited, none) ∧ limited.flows = result.flows.take m.toNat := by
  dsimp only
  rw [flows_eq_of_analyze h halarms]
  refine ⟨?_, ?_, TaintProblem.pairwise_flows, ?_⟩
  · rintro source sink ⟨e, he, hhit⟩
    exact List.count_eq_one_of_mem TaintProblem.nodup_ends_flows
      (TaintProblem.mem_ends_flows.mpr ⟨e, reached_tabulate_iff.mp he, hhit⟩)
  · intro f hf
    obtain ⟨e, he, hreported, hfact, -⟩ := TaintProblem.exists_reportedAt_of_mem_flows hf
    exact ⟨e, reached_tabulate_iff.mpr he, TaintProblem.reportedAt_iff_hits.mp hreported, hfact⟩
  · intro runId' m hm
    -- whether the analysis comes to its end does not depend on the limit
    have hends := exists_result_iff.mp ⟨result, h⟩
    obtain ⟨limited, hlimited⟩ : ∃ limited,
        (s.analyze runId' entries (some rules) { o with maxAlarms := m } cancelled).2 =
          (some limited, none) := exists_result_iff.mpr hends
    refine ⟨limited, hlimited, ?_⟩
    rw [flows_of_analyze hlimited, if_pos hm]
    rfl

/-- An analysis that is not refused comes to its end if it is computed that its tabulation is
complete. -/
lemma exists_result_of_findings {pairs : List (Site × Site)} (runId : String)
    (hdepth : checkDepth o.bound = true) (hrules : rules.isEmpty = false)
    (h : s.findings entries rules o = (.complete, pairs)) :
    ∃ result, (s.analyze runId entries (some rules) o false).2 = (some result, none) :=
  exists_result_iff.mpr ⟨hdepth, hrules, (callGraph_false s entries).2, congrArg Prod.fst h⟩

/-- The flows of an analysis are those of the pairs that are computed. -/
lemma mem_ends_iff_findings {pairs : List (Site × Site)} {source sink : Site}
    (hresult : (s.analyze runId entries (some rules) o false).2 = (some result, none))
    (halarms : o.maxAlarms ≤ 0) (h : s.findings entries rules o = (.complete, pairs)) :
    (source, sink) ∈ result.flows.map Flow.ends ↔ (source, sink) ∈ pairs := by
  rw [flows_eq_of_analyze hresult halarms, TaintProblem.mem_ends_flows,
    show pairs = (s.findings entries rules o).2 by rw [h], mem_findings_iff]
  simp only [TaintProblem.reportedAt_iff_hits]

end Session

/-- The taint of the field `g` that reaches two calls is reported at both, and only at the first one
with a limit of one alarm. -/
theorem boxProgram_flows_exact :
    ∃ t s result limited, ClassTable.ofProgram boxProgram = .ok t ∧
      s = ({ code := .ofTable t } : Session) ∧
      (s.analyze "" [boxMainRef] (some (fieldRules "g")) {} false).2 = (some result, none) ∧
      (result.flows.map Flow.ends).count (⟨boxMainRef, 0⟩, ⟨boxMainRef, 0⟩) = 1 ∧
      (result.flows.map Flow.ends).count (⟨boxMainRef, 0⟩, ⟨boxMainRef, 1⟩) = 1 ∧
      result.flows.Pairwise Flow.Before ∧
      (s.analyze "" [boxMainRef] (some (fieldRules "g")) { maxAlarms := 1 } false).2 =
        (some limited, none) ∧ limited.flows = result.flows.take 1 := by
  have hagrees : CodeBase.Agrees ({ code := .ofTable boxTable } : Session).code
      ({ code := boxCode } : Session).code := boxCode_agrees
  obtain ⟨hfound, -, -⟩ := boxCode_fieldRules
  rw [← hagrees.findings_eq] at hfound
  obtain ⟨result, hresult⟩ := Session.exists_result_of_findings "" (by decide) (by decide) hfound
  obtain ⟨hcount, -, hsorted, hlimited⟩ := Session.flows_exact hresult (by decide)
  have hhit : ∀ source sink, (source, sink) ∈
      (({ code := .ofTable boxTable } : Session).findings [boxMainRef] (fieldRules "g") {}).2 →
      (result.flows.map Flow.ends).count (source, sink) = 1 := by
    intro source sink hmem
    obtain ⟨e, he, hreported⟩ := Session.mem_findings_iff.mp hmem
    exact hcount source sink ⟨e, Session.reached_tabulate_iff.mpr he,
      TaintProblem.reportedAt_iff_hits.mp hreported⟩
  rw [hfound] at hhit
  obtain ⟨limited, hlimit, htake⟩ := hlimited "" 1 (by decide)
  exact ⟨_, _, result, limited, ofProgram_boxProgram, rfl, hresult, hhit _ _ (by decide),
    hhit _ _ (by decide), hsorted, hlimit, htake⟩

end JvmTaint
