import JvmTaint.Proofs.Taint.Interchange
import JvmTaint.Proofs.Taint.NullFacts
import JvmTaint.Proofs.Taint.SinkRules

set_option autoImplicit false
set_option relaxedAutoImplicit false

/-!
# Reporting null dereferences

A problem whose rules are not about null values can report null dereferences as well. What it
reports besides them are the flows that it reports without them, but for the flows with the source
and the sink of a null dereference.

## Main results

* `JvmTaint.Session.flows_beside_null_dereferences`: the flows of taint that an analysis reports
  beside null dereferences.
* `JvmTaint.jobProgram_loses_flow`: a flow is lost if null dereferences are reported.
-/

namespace JvmTaint

/-! ## Rule sets -/

/-- A rule has the mark that it is read with. -/
lemma Rule.ofSpec_mark {kind : RuleKind} {spec : RuleSpec} {index : Nat} {r : Rule}
    (h : Rule.ofSpec kind spec index = .ok r) : r.mark = spec.mark := by
  have hmark : Ensures (Rule.ofSpec kind spec index) fun r => r.mark = spec.mark := by
    unfold ofSpec
    dsimp only
    -- whichever way the specification is read, the last step makes a rule with this mark
    repeat' first
      | exact ensures_ok rfl
      | refine Ensures.of_bind fun _ => ?_
      | split
  exact hmark r h

namespace RuleSet

/-- The rules that a problem specifies. -/
def readRules (spec : ProblemSpec) : Except RuleSetError (List Rule) :=
  (specsOf spec).zipIdx.mapM fun ((kind, s), i) =>
    (Rule.ofSpec kind s i).mapError (.rule spec.name kind s.id)

/-- A rule set has the rules that the problem specifies, and the rule of null dereferences if they
are to be reported. -/
lemma ofSpec_eq (spec : ProblemSpec) : ofSpec spec =
    if !spec.nullDereference && (spec.sinks.isEmpty ||
        (spec.sources.isEmpty && spec.entryPoints.isEmpty)) then .error (.empty spec.name)
    else (readRules spec).bind fun rules => .ok {
      name := spec.name, rules, filters := spec.filters.map (·.matcher)
      dereference := if spec.nullDereference then some (dereferenceRule rules.length)
        else none } := by
  unfold ofSpec
  dsimp only
  split <;> rfl

/-- The rules have the roles and the marks that they are specified with. -/
lemma forall_rules_of_readRules {spec : ProblemSpec} {rules : List Rule}
    (h : readRules spec = .ok rules) :
    ∀ r ∈ rules, ∃ s ∈ specsOf spec, r.kind = s.1 ∧ r.mark = s.2.mark := by
  refine ensures_mapM_forall (fun x hx r hr => ?_) rules h
  obtain ⟨⟨kind, s⟩, i⟩ := x
  have hread : Rule.ofSpec kind s i = .ok r := by
    cases hrule : Rule.ofSpec kind s i with
    | error e => simp [hrule, Except.mapError] at hr
    | ok r' => simpa [hrule, Except.mapError] using hr
  exact ⟨(kind, s), List.fst_mem_of_mem_zipIdx hx, Rule.ofSpec_kind hread, Rule.ofSpec_mark hread⟩

/-- A rule set that reports null dereferences has their rule besides those that are specified. -/
lemma readRules_of_ofSpec {spec : ProblemSpec} {on : RuleSet}
    (hon : ofSpec { spec with nullDereference := true } = .ok on) :
    readRules spec = .ok on.rules ∧ on.dereference = some (dereferenceRule on.rules.length) := by
  rw [ofSpec_eq,
    show readRules { spec with nullDereference := true } = readRules spec from rfl] at hon
  cases hread : readRules spec with
  | error e => simp [hread, Except.bind] at hon
  | ok rules =>
    rw [hread] at hon
    cases hon
    exact ⟨rfl, rfl⟩

/-- A role that a rule is specified with has rules. -/
lemma nonempty_of_mem_specsOf {spec : ProblemSpec} {s : RuleKind × RuleSpec}
    (h : s ∈ specsOf spec) : (s.1 = .sink → spec.sinks ≠ []) ∧ (s.1 = .source → spec.sources ≠ []) ∧
      (s.1 = .entryPoint → spec.entryPoints ≠ []) := by
  simp only [specsOf, List.mem_append, List.mem_map] at h
  rcases h with (((⟨r, hr, rfl⟩ | ⟨r, hr, rfl⟩) | ⟨r, hr, rfl⟩) | ⟨r, hr, rfl⟩) | ⟨r, hr, rfl⟩ <;>
    simp [List.ne_nil_of_mem hr]

/-- Without null dereferences the rules are the same, unless there is nothing to report. -/
lemma ofSpec_withoutDereference {spec : ProblemSpec} {on : RuleSet}
    (hon : ofSpec { spec with nullDereference := true } = .ok on) :
    ofSpec { spec with nullDereference := false } =
      if spec.sinks = [] ∨ spec.sources = [] ∧ spec.entryPoints = [] then .error (.empty spec.name)
      else .ok { on with dereference := none } := by
  rw [ofSpec_eq,
    show readRules { spec with nullDereference := true } = readRules spec from rfl] at hon
  rw [ofSpec_eq, show readRules { spec with nullDereference := false } = readRules spec from rfl]
  simp only [Bool.not_false, Bool.true_and, Bool.or_eq_true, Bool.and_eq_true, List.isEmpty_iff,
    Bool.false_eq_true, ↓reduceIte]
  split
  · rfl
  · cases hread : readRules spec with
    | error e => simp [hread, Except.bind] at hon
    | ok rules =>
      rw [hread] at hon
      cases hon
      rfl

end RuleSet

namespace TaintProblem

variable {p : TaintProblem} {entries : List MethodRef}

/-- Without sources and entry points nothing is tainted, if null values are not reported. -/
lemma fact_eq_zero_of_pathEdges (hderef : p.rules.dereference = none)
    (hkinds : ∀ r ∈ p.rules.rules, r.kind ≠ .source ∧ r.kind ≠ .entryPoint) {e : PathEdge Fact}
    (he : e ∈ p.flowProblem.pathEdges entries) : e.fact = .zero := by
  have hgenerates : ∀ (a : Action Nat) (m : String), ¬ p.Generates a m := by
    intro a m h
    cases h with
    | call hr hkind => exact (hkinds _ (List.mem_of_mem_filter hr)).1 hkind
    | field hf hr hkind => exact (hkinds _ (List.mem_of_mem_filter hr)).1 hkind
    | null hon => simp [hderef] at hon
  have hyields : ∀ {kept : Fact → Prop} {locations : List AccessPath} {n : Site} {a : Action Nat}
      {d d' : Fact}, p.Yields kept locations n a d d' → d = .zero → d' = .zero := by
    intro kept locations n a d d' h hd
    cases h with
    | keep => exact hd
    | move => cases hd
    | generate _ h => exact absurd h (hgenerates _ _)
  have hclosed : p.flowProblem.Closed entries {e | e.fact = .zero} := by
    intro e l h
    cases h with
    | seed hm hd =>
      rcases List.mem_cons.mp hd with rfl | hd
      · rfl
      · obtain ⟨r, hr, -⟩ := mem_initial.mp hd
        obtain ⟨hr, hkind⟩ := List.mem_filter.mp hr
        simp [(hkinds r hr).2] at hkind
    | intra he hedge hkind hd => exact hyields (normal_yields hd) he
    | @callToReturn c edge d hc hcall hedge hkind hd =>
      exact hyields (callToReturn_yields (e := edge) hd) hc
    | call hc henters => exact hyields (enter_yields henters.2.2) hc
    | @ret c x edge d hc hx henters hexit hedge hkind hd =>
      exact hyields (leave_yields (e := edge) hd) hx
  exact FlowProblem.pathEdges_subset hclosed he

/-- A flow of the rule of null dereferences is about a null value. -/
lemma mark_of_isDereference {provenance : Bool} {t : Tabulation Fact} {f : Flow}
    (hf : f ∈ p.flows provenance t) (hnull : f.isDereference = true) : f.fact.mark = nullMark := by
  obtain ⟨e, -, ⟨-, ⟨path, mark, hfact⟩, -⟩, hfact', hrule⟩ := exists_reportedAt_of_mem_flows hf
  rcases (mem_reports_iff hfact).mp (List.mem_of_head? hrule) with ⟨-, hsink⟩ | ⟨-, hmark, -⟩
  · simp [Flow.isDereference, hsink.1] at hnull
  · rw [← hfact', hfact]
    exact hmark

/-- Without null dereferences, nothing is reported if there is no sink, or if there is neither a
source nor an entry point. -/
lemma flows_eq_nil {provenance cancelled : Bool} {budget : Int} {t : Tabulation Fact}
    (hderef : p.rules.dereference = none)
    (hkinds : (∀ r ∈ p.rules.rules, r.kind ≠ .sink) ∨
      ∀ r ∈ p.rules.rules, r.kind ≠ .source ∧ r.kind ≠ .entryPoint)
    (h : p.flowProblem.solve provenance budget cancelled entries = (t, .complete)) :
    p.flows provenance t = [] := by
  refine List.eq_nil_iff_forall_not_mem.mpr fun f hf => ?_
  obtain ⟨e, he, hreported, -⟩ := exists_reportedAt_of_mem_flows hf
  rcases reportedAt_iff_hits.mp hreported with ⟨r, hr, -, path, mark, hfact, hsink⟩ | ⟨hon, -⟩
  · rcases hkinds with hkinds | hkinds
    · exact hkinds r hr hsink.1
    · rw [FlowProblem.found_eq_pathEdges h] at he
      rw [fact_eq_zero_of_pathEdges hderef hkinds he] at hfact
      cases hfact
  · simp [hderef] at hon

end TaintProblem

namespace Session

variable {s : Session} {runId : String} {entries : List MethodRef} {o : RunOptions}
  {cancelled : Bool} {result : AnalysisResult}

/-- **Taint beside null dereferences.** An analysis without a limit of alarms reports null
dereferences of a problem whose rules are not about null values. Apart from their traces, the other
flows that it reports are those that the analysis without null dereferences reports, but for the
flows with the source and the sink of a null dereference; so they are the same if there is no such
flow. If that analysis is refused because there is nothing to report, then there are no others. -/
theorem flows_beside_null_dereferences {spec : ProblemSpec} {on : RuleSet}
    (hmarks : ∀ r ∈ RuleSet.specsOf spec, r.2.mark ≠ nullMark)
    (hon : RuleSet.ofSpec { spec with nullDereference := true } = .ok on)
    (h : (s.analyze runId entries (some on) o cancelled).2 = (some result, none))
    (halarms : o.maxAlarms ≤ 0) :
    (∀ f ∈ result.flows, f.isDereference = true → f.fact.mark = nullMark) ∧
    match RuleSet.ofSpec { spec with nullDereference := false } with
    | .error _ => ∀ f ∈ result.flows, f.isDereference = true
    | .ok off => ∀ runId', ∃ result',
        (s.analyze runId' entries (some off) o cancelled).2 = (some result', none) ∧
        (result.flows.filter (!·.isDereference)).map Flow.untraced =
          (result'.flows.filter (!·.displacedBy result.flows)).map Flow.untraced ∧
        ((∀ f ∈ result'.flows, f.displacedBy result.flows = false) →
          (result.flows.filter (!·.isDereference)).map Flow.untraced =
            result'.flows.map Flow.untraced) := by
  obtain ⟨hread, hderef⟩ := RuleSet.readRules_of_ofSpec hon
  have hrules := RuleSet.forall_rules_of_readRules hread
  have hmarks' : ∀ r ∈ on.rules, r.mark ≠ nullMark := fun r hr => by
    obtain ⟨spec', hspec, -, hmark⟩ := hrules r hr
    rw [hmark]
    exact hmarks spec' hspec
  have hkind : ∀ r, on.dereference = some r → r.kind = .dereference := fun r hr => by
    rw [hderef] at hr
    cases hr
    rfl
  obtain ⟨hdepth, -, hgraph, hcomplete⟩ := exists_result_iff.mp ⟨result, h⟩
  have hflows := flows_eq_of_analyze h halarms
  obtain ⟨t, ht⟩ : ∃ t, s.tabulate entries on o cancelled = (t, .complete) :=
    ⟨_, Prod.ext rfl hcomplete⟩
  rw [ht] at hflows
  obtain ⟨t', ht', hrestricts⟩ :=
    (TaintProblem.restricts_withoutDereference (p := s.problem on o) hmarks').solve ht
  have heq := TaintProblem.flows_withoutDereference (p := s.problem on o) hmarks' hkind
    hrestricts.edges o.provenance o.provenance
  rw [← hflows] at heq
  refine ⟨fun f hf hnull => ?_, ?_⟩
  · rw [hflows] at hf
    exact TaintProblem.mark_of_isDereference hf hnull
  rw [RuleSet.ofSpec_withoutDereference hon]
  by_cases hrefused : spec.sinks = [] ∨ spec.sources = [] ∧ spec.entryPoints = []
  · -- nothing is reported without null dereferences
    rw [if_pos hrefused]
    have hnone := TaintProblem.flows_eq_nil (p := (s.problem on o).withoutDereference) rfl ?_ ht'
    · rw [hnone, List.filter_nil, List.map_nil, List.map_eq_nil_iff, List.filter_eq_nil_iff] at heq
      exact fun f hf => by simpa using heq f hf
    · have hroles : ∀ r ∈ on.rules, (r.kind = .sink → spec.sinks ≠ []) ∧
          (r.kind = .source → spec.sources ≠ []) ∧
          (r.kind = .entryPoint → spec.entryPoints ≠ []) := fun r hr => by
        obtain ⟨spec', hspec, hkind', -⟩ := hrules r hr
        rw [hkind']
        exact RuleSet.nonempty_of_mem_specsOf hspec
      rcases hrefused with hsinks | ⟨hsources, hentries⟩
      · exact .inl fun r hr hsink => (hroles r hr).1 hsink hsinks
      · exact .inr fun r hr => ⟨fun hsource => (hroles r hr).2.1 hsource hsources,
          fun hentry => (hroles r hr).2.2 hentry hentries⟩
  · rw [if_neg hrefused]
    intro runId'
    have hoff : RuleSet.ofSpec { spec with nullDereference := false } =
        .ok { on with dereference := none } := by
      rw [RuleSet.ofSpec_withoutDereference hon, if_neg hrefused]
    have htab : s.tabulate entries { on with dereference := none } o cancelled =
        (t', .complete) := ht'
    obtain ⟨result', hresult'⟩ : ∃ result',
        (s.analyze runId' entries (some { on with dereference := none }) o cancelled).2 =
          (some result', none) :=
      exists_result_iff.mpr ⟨hdepth, RuleSet.isEmpty_eq_false_of_ofSpec hoff, hgraph,
        congrArg Prod.snd htab⟩
    have hflows' : result'.flows = (s.problem on o).withoutDereference.flows o.provenance t' := by
      rw [flows_eq_of_analyze hresult' halarms, htab]
      rfl
    rw [← hflows'] at heq
    refine ⟨result', hresult', heq, fun hkept => ?_⟩
    rw [heq, List.filter_eq_self.mpr fun f hf => by simp [hkept f hf]]

end Session

/-! ## A lost flow -/

namespace Session

variable {s : Session} {entries : List MethodRef} {rules : RuleSet} {o : RunOptions}

/-- The outcome of an analysis, with the sources and sinks of its hits and whether they are null
dereferences, computed. -/
def sightings (s : Session) (entries : List MethodRef) (rules : RuleSet) (o : RunOptions) :
    SolveOutcome × List ((Site × Site) × Bool) :=
  let (t, outcome) := s.tabulate entries rules o false
  (outcome, ((s.problem rules o).hits t).map fun h => (h.flow.ends, h.flow.isDereference))

/-- The flows of an analysis without a limit of alarms are those of the hits that are computed. -/
lemma exists_result_of_sightings {sights : List ((Site × Site) × Bool)}
    (hdepth : checkDepth o.bound = true) (hrules : rules.isEmpty = false)
    (halarms : o.maxAlarms ≤ 0) (h : s.sightings entries rules o = (.complete, sights))
    (runId : String) : ∃ result,
      (s.analyze runId entries (some rules) o false).2 = (some result, none) ∧
        (result.flows.map fun f => (f.ends, f.isDereference)).Perm sights := by
  obtain ⟨result, hresult⟩ : ∃ result,
      (s.analyze runId entries (some rules) o false).2 = (some result, none) :=
    exists_result_iff.mpr ⟨hdepth, hrules, (callGraph_false s entries).2, congrArg Prod.fst h⟩
  refine ⟨result, hresult, ?_⟩
  have hsights : ((s.problem rules o).hits (s.tabulate entries rules o false).1).map
      (fun h => (h.flow.ends, h.flow.isDereference)) = sights := congrArg Prod.snd h
  rw [flows_eq_of_analyze hresult halarms, ← hsights]
  have hflows := (List.mergeSort_perm (((s.problem rules o).hits
    (s.tabulate entries rules o false).1).map Hit.flow) Flow.le).map
      fun f => (f.ends, f.isDereference)
  rw [← TaintProblem.flows_eq_hits _ o.provenance, List.map_map, List.map_map] at hflows
  exact hflows

end Session

/-- A method that runs its argument if it is null: `aload_0`, `ifnull 5`, `return`, `aload_0`,
`invokevirtual run`, `return`. -/
def jobMain : MethodDecl where
  name := "main"
  descriptor := "(LJob;)V"
  flags := AccessFlags.empty.insert .static
  maxLocals := 1
  code := some [
    { pc := 0, op := ⟨42⟩ },
    { pc := 1, op := ⟨198⟩, target := 5 },
    { pc := 4, op := ⟨177⟩ },
    { pc := 5, op := ⟨42⟩ },
    { pc := 6, op := ⟨182⟩, owner := "Job", name := "run", desc := "()V" },
    { pc := 9, op := ⟨177⟩ }]

/-- The type of the method. -/
def jobType : ClassDecl where
  name := "Job"
  flags := AccessFlags.empty.insert .interface
  methods := [some jobMain]

/-- The program of the method. -/
def jobProgram : Program where
  classes := some [some jobType]

/-- The name of the method. -/
def jobMainRef : MethodRef := ⟨"Job", "main", "(LJob;)V"⟩

/-- The argument of the method. -/
def jobArg : Value := .var (.arg 0) "LJob;"

/-- The flow graph of the method. -/
def jobMainGraph : FlowGraph where
  ref := jobMainRef
  modifiers := AccessFlags.empty.insert .static
  params := [jobArg]
  statements := #[
    ⟨1, .branch ⟨.eq, jobArg, .const "null" ""⟩ 2, false⟩,
    ⟨4, .ret none, false⟩,
    ⟨6, .invoke none ⟨.virtual, ⟨"Job", "run", "()V"⟩, some jobArg, []⟩, false⟩,
    ⟨9, .ret none, false⟩,
    ⟨-1, .exit, true⟩]
  succs := #[
    [⟨0, 2, .onTrue, "", false⟩, ⟨0, 1, .onFalse, "", false⟩], [],
    [⟨2, 3, .normal, "", false⟩, ⟨2, 4, .exception, "", false⟩], [], []]
  exits := [1, 3, 4]

/-- The class table of the program. -/
def jobTable : ClassTable where
  classes := (∅ : Std.HashMap String ClassDecl).insert "Job" jobType
  order := ["Job"]
  bodies := (∅ : Std.HashMap MethodRef MethodBody).insert jobMainRef
    (ClassTable.bodyOf jobType jobMain)
  subtypes := ∅

/-- The class table with the flow graph of the program. -/
def jobCode : CodeBase where
  table := jobTable
  graphs := (∅ : Std.HashMap MethodRef (Except BuildError FlowGraph)).insert jobMainRef
    (.ok jobMainGraph)

lemma ofProgram_jobProgram : ClassTable.ofProgram jobProgram = .ok jobTable := by cbv

lemma build_jobMain :
    FlowGraph.build (some jobTable) (ClassTable.bodyOf jobType jobMain) = .ok jobMainGraph := by
  decide +kernel

/-- The flow graph is the one that is built. -/
lemma jobCode_interchangeable : jobCode.Interchangeable (.ofTable jobTable) :=
  (CodeBase.Records.nil.insert jobMainRef build_jobMain).agrees.interchangeable.symm

/-- The argument is tainted on entry, and taint of receivers is reported at every call. -/
def jobSpec : ProblemSpec where
  name := "job"
  sinks := [{ positions := ["this"] }]
  entryPoints := [{ positions := ["arg0"] }]

/-- The rules about the argument. -/
def jobRules (dereference : Option Rule) : RuleSet where
  name := "job"
  rules := [
    { kind := .sink, matcher := .any, positions := [⟨.this, []⟩] },
    { kind := .entryPoint, matcher := .any, positions := [⟨.arg 0, []⟩], index := 1 }]
  dereference := dereference

lemma readRules_jobSpec : RuleSet.readRules jobSpec = .ok (jobRules none).rules := by
  simp [RuleSet.readRules, jobSpec, RuleSet.specsOf, Rule.ofSpec, Rule.parsePositions, jobRules,
    CodeIdentifier.matcher_empty, Position.parse_written, Except.mapError, bind, Except.bind, pure,
    Except.pure, List.zipIdx]

/-- The rule set of the problem, with and without null dereferences. -/
lemma ofSpec_jobSpec :
    RuleSet.ofSpec { jobSpec with nullDereference := false } = .ok (jobRules none) ∧
      RuleSet.ofSpec { jobSpec with nullDereference := true } =
        .ok (jobRules (some (RuleSet.dereferenceRule 2))) := by
  have hread : ∀ null, RuleSet.readRules { jobSpec with nullDereference := null } =
      .ok (jobRules none).rules := fun _ => readRules_jobSpec
  constructor
  all_goals
    rw [RuleSet.ofSpec_eq, hread]
    rfl

/-- The taint of the argument is reported. -/
lemma sightings_jobRules :
    ({ code := jobCode } : Session).sightings [jobMainRef] (jobRules none) {} =
    (.complete, [((⟨jobMainRef, 0⟩, ⟨jobMainRef, 2⟩), false)]) := by
  cbv

/-- The null value of the argument is found first, and only it is reported. -/
lemma sightings_nullRules : ({ code := jobCode } : Session).sightings [jobMainRef]
    (jobRules (some (RuleSet.dereferenceRule 2))) {} =
      (.complete, [((⟨jobMainRef, 0⟩, ⟨jobMainRef, 2⟩), true)]) := by
  cbv

/-- What is computed with the flow graph of the method is what the analysis of the program
reports. -/
lemma exists_result_of_job {rules : RuleSet} {sights : List ((Site × Site) × Bool)}
    (hrules : rules.isEmpty = false)
    (h : ({ code := jobCode } : Session).sightings [jobMainRef] rules {} = (.complete, sights)) :
    ∃ result, (({ code := .ofTable jobTable } : Session).analyze "" [jobMainRef] (some rules) {}
        false).2 = (some result, none) ∧
      (result.flows.map fun f => (f.ends, f.isDereference)).Perm sights := by
  obtain ⟨result, hresult, hsights⟩ :=
    Session.exists_result_of_sightings (by decide) hrules (by decide) h ""
  exact ⟨result, (congrArg Prod.snd (Session.analyze_withCode (s := { code := jobCode })
    jobCode_interchangeable "" [jobMainRef] (some rules) {} false)).trans hresult, hsights⟩

/-- The flow of the argument is displaced by the null dereference. -/
theorem jobProgram_flows_beside_null_dereferences :
    ∃ t s off on result result', ClassTable.ofProgram jobProgram = .ok t ∧
      s = ({ code := .ofTable t } : Session) ∧
      (∀ r ∈ RuleSet.specsOf jobSpec, r.2.mark ≠ nullMark) ∧
      RuleSet.ofSpec { jobSpec with nullDereference := true } = .ok on ∧
      RuleSet.ofSpec { jobSpec with nullDereference := false } = .ok off ∧
      (s.analyze "" [jobMainRef] (some on) {} false).2 = (some result, none) ∧
      (s.analyze "" [jobMainRef] (some off) {} false).2 = (some result', none) ∧
      (∀ f ∈ result.flows, f.isDereference = true → f.fact.mark = nullMark) ∧
      (result.flows.filter (!·.isDereference)).map Flow.untraced =
        (result'.flows.filter (!·.displacedBy result.flows)).map Flow.untraced := by
  obtain ⟨hoff, hon⟩ := ofSpec_jobSpec
  obtain ⟨result, hresult, -⟩ := exists_result_of_job (by decide) sightings_nullRules
  obtain ⟨hnull, hflows⟩ :=
    Session.flows_beside_null_dereferences (by decide) hon hresult (by decide)
  rw [hoff] at hflows
  obtain ⟨result', hresult', heq, -⟩ := hflows ""
  exact ⟨_, _, _, _, result, result', ofProgram_jobProgram, rfl, by decide, hon, hoff, hresult,
    hresult', hnull, heq⟩

/-- **A lost flow.** The argument is tainted on entry, tested against null and used as a receiver.
Its taint is reported if null dereferences are not. If they are, then the null value, which comes
from the same statement, reaches the call first, and the taint is not reported. -/
theorem jobProgram_loses_flow :
    ∃ t s off on result result', ClassTable.ofProgram jobProgram = .ok t ∧
      s = ({ code := .ofTable t } : Session) ∧
      (∀ r ∈ RuleSet.specsOf jobSpec, r.2.mark ≠ nullMark) ∧
      RuleSet.ofSpec { jobSpec with nullDereference := true } = .ok on ∧
      RuleSet.ofSpec { jobSpec with nullDereference := false } = .ok off ∧
      (s.analyze "" [jobMainRef] (some on) {} false).2 = (some result, none) ∧
      (s.analyze "" [jobMainRef] (some off) {} false).2 = (some result', none) ∧
      result.flows.filter (!·.isDereference) = [] ∧
      result'.flows.filter (!·.isDereference) ≠ [] := by
  obtain ⟨hoff, hon⟩ := ofSpec_jobSpec
  obtain ⟨result, hresult, hsights⟩ := exists_result_of_job (by decide) sightings_nullRules
  obtain ⟨result', hresult', hsights'⟩ := exists_result_of_job (by decide) sightings_jobRules
  refine ⟨_, _, _, _, result, result', ofProgram_jobProgram, rfl, by decide, hon, hoff, hresult,
    hresult', ?_, ?_⟩
  · refine List.filter_eq_nil_iff.mpr fun f hf => ?_
    have hsight := hsights.subset (List.mem_map_of_mem hf)
    simp only [List.mem_singleton, Prod.mk.injEq] at hsight
    simp [hsight.2]
  · have hmem := hsights'.symm.subset (List.mem_singleton_self _)
    obtain ⟨f, hf, hsight⟩ := List.mem_map.mp hmem
    refine List.ne_nil_of_mem (List.mem_filter.mpr ⟨hf, ?_⟩)
    simpa using congrArg Prod.snd hsight

end JvmTaint
