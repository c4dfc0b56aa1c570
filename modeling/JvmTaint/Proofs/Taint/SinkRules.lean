import JvmTaint.Proofs.Taint.ReportedFlows

set_option autoImplicit false
set_option relaxedAutoImplicit false

/-!
# Adding a sink

A sink only observes. No flow function asks for sinks, and a call that a sink matches is analyzed as
it was before. So the tabulation stays the same when a sink is added to a rule set, and the analysis
reports the same sources and sinks, and those of the path edges that the new sink is about.

## Main results

* `JvmTaint.TaintProblem.withRule_flowProblem`: a sink does not change the data flow problem.
* `JvmTaint.TaintProblem.hits_withRule_iff`: the hits with a sink added.
* `JvmTaint.Session.sinks_observe`: an analysis with a sink added.
-/

namespace JvmTaint

/-- A rule set that was read has a rule, if only the one of null dereferences. -/
lemma RuleSet.isEmpty_eq_false_of_ofSpec {spec : ProblemSpec} {rs : RuleSet}
    (h : RuleSet.ofSpec spec = .ok rs) : rs.isEmpty = false := by
  suffices hread : Ensures (RuleSet.ofSpec spec) fun rs => rs.isEmpty = false from hread rs h
  unfold ofSpec
  dsimp only
  split
  · exact ensures_error
  · rename_i hguard
    cases hnull : spec.nullDereference with
    | true => exact Ensures.of_bind fun rules => ensures_ok (by simp [isEmpty])
    | false =>
      have hsinks : spec.sinks ≠ [] := by
        rintro hnil
        simp [hnull, hnil] at hguard
      have hspecs : (specsOf spec).zipIdx ≠ [] := by simp [specsOf, hsinks]
      exact (ensures_mapM_ne_nil hspecs).bind fun rules hrules =>
        ensures_ok (by simp [isEmpty, hrules])

namespace TaintProblem

variable {p : TaintProblem} {r : Rule}

/-- The rules about a call stay the same, but there is possibly one more sink. -/
lemma withRule_sinks (hr : r.kind = .sink) (c : Call) : CallRules.of (p.withRule r).rules c =
    { CallRules.of p.rules c with
      sinks := (CallRules.of p.rules c).sinks ++ if r.matchesCall c then [r] else [] } := by
  simp [withRule_callRules, addedTo, hr]

/-- A sink makes no call opaque, so the methods that a call is analyzed in stay the same. -/
lemma withRule_callees (hr : r.kind = .sink) : (p.withRule r).callees = p.callees := by
  funext g i
  unfold callees
  simp only [withRule_sinks hr]
  rfl

/-- A sink does not change what holds after a call. -/
lemma withRule_callToReturn (hr : r.kind = .sink) :
    (p.withRule r).callToReturn = p.callToReturn := by
  funext g i e callees d
  unfold callToReturn
  simp only [withRule_sinks hr]
  rfl

/-- A sink does not change the data flow problem. -/
lemma withRule_flowProblem (hr : r.kind = .sink) :
    (p.withRule r).flowProblem = p.flowProblem := by
  have hinitial : (p.withRule r).initial = p.initial := by
    funext g
    exact withRule_initial (by simp [hr])
  have hnormal : (p.withRule r).normal = p.normal := by
    funext g i e d
    exact withRule_normal (by simp [hr]) d
  unfold flowProblem
  rw [withRule_callees hr, withRule_callToReturn hr, hinitial, hnormal]
  rfl

/-- The hits with a rule added are those without it and those of the rule. -/
lemma hits_withRule_iff {source sink : Site} {e : PathEdge Fact} :
    (p.withRule r).Hits source sink e ↔ p.Hits source sink e ∨ p.SinkHit r source sink e := by
  have hrules : (∃ r' ∈ (p.withRule r).rules.rules, (p.withRule r).SinkHit r' source sink e) ↔
      (∃ r' ∈ p.rules.rules, p.SinkHit r' source sink e) ∨ p.SinkHit r source sink e := by
    simp only [withRule, List.mem_append, List.mem_singleton, or_and_right, exists_or,
      exists_eq_left]
    rfl
  unfold Hits
  rw [hrules, or_right_comm]
  rfl

end TaintProblem

namespace Session

variable (s : Session) (entries : List MethodRef) (o : RunOptions) (cancelled : Bool)
  (rs : RuleSet) {r : Rule}

/-- The problem of a rule set with another rule at its end. -/
lemma problem_append :
    s.problem { rs with rules := rs.rules ++ [r] } o = (s.problem rs o).withRule r := rfl

/-- A sink does not change the tabulation. -/
lemma tabulate_append (hr : r.kind = .sink) :
    s.tabulate entries { rs with rules := rs.rules ++ [r] } o cancelled =
      s.tabulate entries rs o cancelled := by
  rw [tabulate, problem_append, TaintProblem.withRule_flowProblem hr]
  rfl

/-- A sink does not change how an analysis ends, and its statistics. -/
lemma analyze_append (runId runId' : String) (hr : r.kind = .sink) (hrules : rs.isEmpty = false) :
    let ended := (s.analyze runId entries (some rs) o cancelled).2
    let ended' :=
      (s.analyze runId' entries (some { rs with rules := rs.rules ++ [r] }) o cancelled).2
    ended'.2 = ended.2 ∧ ended'.1.map (·.statistics) = ended.1.map (·.statistics) := by
  obtain ⟨s₁, hanalyze⟩ := s.analyze_eq runId entries rs o cancelled
  obtain ⟨s₂, hanalyze'⟩ :=
    s.analyze_eq runId' entries { rs with rules := rs.rules ++ [r] } o cancelled
  have hrules' : ({ rs with rules := rs.rules ++ [r] } : RuleSet).isEmpty = false := by
    simp [RuleSet.isEmpty]
  dsimp only
  rw [hanalyze, hanalyze', hrules, hrules', tabulate_append s entries o cancelled rs hr]
  cases checkDepth o.bound with
  | false => exact ⟨rfl, rfl⟩
  | true =>
    cases (s.callGraph entries cancelled).2.isNone with
    | true => exact ⟨rfl, rfl⟩
    | false =>
      obtain ⟨t, outcome⟩ := s.tabulate entries rs o cancelled
      rw [problem_append]
      cases outcome with
      | complete => simp [conclusion, finish, TaintProblem.withRule_flowProblem hr]
      | overBudget budget pending =>
        simp only [conclusion, TaintProblem.withRule_flowProblem hr]
        exact ⟨rfl, rfl⟩
      | cancelled => exact ⟨rfl, rfl⟩

/-- **Sinks only observe.** With a sink added to a rule set, the tabulation of an analysis stays the
same, with the order in which it finds its path edges and with its outcome, and the analysis ends in
the same way with the same statistics. If it comes to its end and has no limit of alarms, it reports
the sources and sinks that are reported without the sink, and those of the path edges that the sink
is about. -/
theorem sinks_observe (runId runId' : String) {problem : ProblemSpec} {spec : RuleSpec}
    {rs' : RuleSet} (hrs : RuleSet.ofSpec problem = .ok rs)
    (hwith : rs.with? .sink spec = .ok rs') :
    let t := (s.tabulate entries rs o cancelled).1
    let ended := (s.analyze runId entries (some rs) o cancelled).2
    let ended' := (s.analyze runId' entries (some rs') o cancelled).2
    s.tabulate entries rs' o cancelled = s.tabulate entries rs o cancelled ∧
      (s.problem rs' o).flowProblem.statistics t = (s.problem rs o).flowProblem.statistics t ∧
      ended'.2 = ended.2 ∧ ended'.1.map (·.statistics) = ended.1.map (·.statistics) ∧
      ∃ r, Rule.ofSpec .sink spec rs.rules.length = .ok r ∧
        ∀ result result', ended = (some result, none) → ended' = (some result', none) →
          o.maxAlarms ≤ 0 → ∀ source sink, (source, sink) ∈ result'.flows.map Flow.ends ↔
            (source, sink) ∈ result.flows.map Flow.ends ∨
              ∃ e, t.reached e = true ∧ (s.problem rs o).SinkHit r source sink e := by
  obtain ⟨r, hspec, rfl⟩ := RuleSet.exists_ofSpec_of_with? hwith
  have hr := Rule.ofSpec_kind hspec
  have htabulate := tabulate_append s entries o cancelled rs hr
  have hproblem := TaintProblem.withRule_flowProblem (p := s.problem rs o) hr
  obtain ⟨herror, hstatistics⟩ := analyze_append s entries o cancelled rs runId runId' hr
    (RuleSet.isEmpty_eq_false_of_ofSpec hrs)
  refine ⟨htabulate, by rw [problem_append, hproblem], herror, hstatistics, r, hspec, ?_⟩
  intro result result' hresult hresult' halarms source sink
  rw [flows_eq_of_analyze hresult halarms, flows_eq_of_analyze hresult' halarms,
    TaintProblem.mem_ends_flows, TaintProblem.mem_ends_flows, htabulate, problem_append]
  simp only [TaintProblem.hits_withRule_iff, reached_tabulate_iff, and_or_left, exists_or]

end Session

/-! ## A sink of another field -/

/-- The field `g` of the argument is tainted on entry, and taint of the field `h` is reported at
every call. -/
def otherFieldSpec : ProblemSpec where
  name := "field"
  sinks := [{ positions := ["arg0.h"] }]
  entryPoints := [{ positions := ["arg0.g"] }]

/-- The rules about the two fields. -/
def otherFieldRules : RuleSet where
  name := "field"
  rules := [
    { kind := .sink, matcher := .any, positions := [⟨.arg 0, ["h"]⟩] },
    { kind := .entryPoint, matcher := .any, positions := [⟨.arg 0, ["g"]⟩], index := 1 }]

/-- The rule that reports taint of the field `g` at every call. -/
def fieldSink : Rule :=
  { kind := .sink, matcher := .any, positions := [⟨.arg 0, ["g"]⟩], index := 2 }

lemma ofSpec_otherFieldSpec : RuleSet.ofSpec otherFieldSpec = .ok otherFieldRules := by
  simp [RuleSet.ofSpec, otherFieldSpec, RuleSet.specsOf, Rule.ofSpec, Rule.parsePositions,
    otherFieldRules, CodeIdentifier.matcher_empty, Position.parse_written, Except.mapError, bind,
    Except.bind, pure, Except.pure, List.zipIdx]

lemma with?_otherFieldRules :
    otherFieldRules.with? .sink { positions := ["arg0.g"] } =
      .ok { otherFieldRules with rules := otherFieldRules.rules ++ [fieldSink] } := by
  simp [RuleSet.with?, Rule.ofSpec, Rule.parsePositions, otherFieldRules, fieldSink,
    CodeIdentifier.matcher_empty, Position.parse_written, Except.mapError, bind, Except.bind, pure,
    Except.pure]

/-- Without a sink of the field `g` its taint is not reported. With one, the same path edges are
found, and one of them shows the taint at the second call, where it is reported. -/
theorem boxProgram_sinks_observe :
    ∃ t s rs rs' r result result', ClassTable.ofProgram boxProgram = .ok t ∧
      s = ({ code := .ofTable t } : Session) ∧ RuleSet.ofSpec otherFieldSpec = .ok rs ∧
      rs.with? .sink { positions := ["arg0.g"] } = .ok rs' ∧
      Rule.ofSpec .sink { positions := ["arg0.g"] } rs.rules.length = .ok r ∧
      s.tabulate [boxMainRef] rs' {} false = s.tabulate [boxMainRef] rs {} false ∧
      (s.analyze "" [boxMainRef] (some rs) {} false).2 = (some result, none) ∧
      (s.analyze "" [boxMainRef] (some rs') {} false).2 = (some result', none) ∧
      result.flows.map Flow.ends = [] ∧
      (⟨boxMainRef, 0⟩, ⟨boxMainRef, 1⟩) ∈ result'.flows.map Flow.ends ∧
      ∃ e, (s.tabulate [boxMainRef] rs {} false).1.reached e = true ∧
        (s.problem rs {}).SinkHit r ⟨boxMainRef, 0⟩ ⟨boxMainRef, 1⟩ e := by
  have hagrees : CodeBase.Agrees ({ code := .ofTable boxTable } : Session).code
      ({ code := boxCode } : Session).code := boxCode_agrees
  have hnothing : ({ code := boxCode } : Session).findings [boxMainRef] otherFieldRules {} =
      (.complete, []) := by
    cbv
  have hfound : ({ code := boxCode } : Session).findings [boxMainRef]
      { otherFieldRules with rules := otherFieldRules.rules ++ [fieldSink] } {} =
      (.complete, [(⟨boxMainRef, 0⟩, ⟨boxMainRef, 0⟩), (⟨boxMainRef, 0⟩, ⟨boxMainRef, 1⟩)]) := by
    cbv
  rw [← hagrees.findings_eq] at hnothing hfound
  obtain ⟨result, hresult⟩ := Session.exists_result_of_findings "" (by decide) (by decide) hnothing
  obtain ⟨result', hresult'⟩ := Session.exists_result_of_findings "" (by decide) (by decide) hfound
  obtain ⟨htabulate, -, -, -, r, hr, hends⟩ := Session.sinks_observe
    { code := .ofTable boxTable } [boxMainRef] {} false _ "" "" ofSpec_otherFieldSpec
    with?_otherFieldRules
  have hempty : result.flows.map Flow.ends = [] := by
    refine List.eq_nil_iff_forall_not_mem.mpr ?_
    rintro ⟨source, sink⟩ hmem
    rw [Session.mem_ends_iff_findings hresult (by decide) hnothing] at hmem
    simp at hmem
  have hreported : (⟨boxMainRef, 0⟩, ⟨boxMainRef, 1⟩) ∈ result'.flows.map Flow.ends := by
    rw [Session.mem_ends_iff_findings hresult' (by decide) hfound]
    decide
  refine ⟨_, _, _, _, r, result, result', ofProgram_boxProgram, rfl, ofSpec_otherFieldSpec,
    with?_otherFieldRules, hr, htabulate, hresult, hresult', hempty, hreported, ?_⟩
  simpa [hempty] using (hends result result' hresult hresult' (by decide) _ _).mp hreported

end JvmTaint
