import JvmTaint.Proofs.Lists
import JvmTaint.Proofs.Lowering.Assignments
import JvmTaint.Proofs.Tabulation.Covering
import JvmTaint.Session
import Mathlib.Data.List.Sort

set_option autoImplicit false
set_option relaxedAutoImplicit false

/-!
# What an analysis reports

An analysis tabulates the taint problem of its rules from the entry methods that have a flow graph,
and reports the sources and sinks of the path edges at which a rule reports taint. So the pairs of
sources and sinks that it reports are determined by the path edges of the problem.

## Main definitions

* `JvmTaint.RunOptions.bound`, `JvmTaint.Session.problem`, `JvmTaint.Session.roots`,
  `JvmTaint.Session.tabulate`: what an analysis tabulates.
* `JvmTaint.Session.conclusion`: how an analysis ends.
* `JvmTaint.Session.Reports`: an analysis reports a source and a sink.
* `JvmTaint.TaintProblem.ReportedAt`: a path edge shows that a source reaches a sink.
* `JvmTaint.Rule.SinksAt`, `JvmTaint.TaintProblem.Hits`: what sink rules and the rule of null
  dereferences report.
* `JvmTaint.Session.findings`: the outcome of an analysis and the pairs that it shows, computed.
* `JvmTaint.CodeBase.Agrees`, `JvmTaint.CodeBase.Records`: two code bases with the same flow graphs,
  and a code base in which the flow graphs of a program are recorded.

## Main results

* `JvmTaint.Session.analyze_eq`: the result of an analysis, from its tabulation.
* `JvmTaint.Session.flows_of_analyze`: the flows of an analysis that comes to its end.
* `JvmTaint.TaintProblem.reportedAt_iff_hits`: what is reported are hits.
* `JvmTaint.Session.reports_iff`: an analysis without a limit of alarms reports what the path edges
  of its problem show.
* `JvmTaint.Session.reports_iff_findings`: it reports the pairs that are computed.
-/

namespace JvmTaint

/-! ## The tabulation of an analysis -/

/-- The bound of access paths that a run uses. -/
def RunOptions.bound (o : RunOptions) : Int := if o.depth = 0 then defaultDepth else o.depth

namespace Session

variable {s : Session} {entries : List MethodRef} {rules : RuleSet} {o : RunOptions}
  {runId : String} {source sink : Site}

/-- The taint problem of an analysis. -/
def problem (s : Session) (rules : RuleSet) (o : RunOptions) : TaintProblem :=
  ⟨s.code, rules, o.bound⟩

/-- The entry methods that an analysis starts from: those with a flow graph. -/
def roots (s : Session) (entries : List MethodRef) : List MethodRef :=
  entries.filter fun ref => (s.code.graph ref).toOption.isSome

/-- The tabulation of an analysis. -/
def tabulate (s : Session) (entries : List MethodRef) (rules : RuleSet) (o : RunOptions)
    (cancelled : Bool) : Tabulation Fact × SolveOutcome :=
  (s.problem rules o).flowProblem.solve o.provenance o.budget cancelled (s.roots entries)

@[simp] lemma say_code (level : LogLevel) (text : String) : (s.say level text).code = s.code := rfl

@[simp] lemma addError_code (key text : String) : (s.addError key text).code = s.code := rfl

@[simp] lemma method_code (ref : MethodRef) : (s.method ref).1.code = s.code := by
  unfold method
  dsimp only
  split
  · rfl
  · dsimp only
    split <;> rfl

/-- The flow graph of a method is that of the program. -/
@[simp] lemma method_snd (ref : MethodRef) : (s.method ref).2 = s.code.graph ref := by
  unfold method
  dsimp only
  split <;> simp [*]

lemma foldl_code {α : Type} {step : Session → α → Session}
    (hstep : ∀ s x, (step s x).code = s.code) (xs : List α) :
    (xs.foldl step s).code = s.code := by
  induction xs generalizing s with
  | nil => rfl
  | cons x xs ih => rw [List.foldl_cons, ih, hstep]

/-- The program stays the same when a call graph is built. -/
lemma callGraph_code (s : Session) (entries : List MethodRef) (cancelled : Bool) :
    (s.callGraph entries cancelled).1.code = s.code := by
  unfold callGraph
  dsimp only
  split
  · rfl
  · split
    · rfl
    · rw [say_code, foldl_code fun s x => addError_code ..]

/-- The call graph of entry methods is found, and the program stays the same. -/
lemma callGraph_false (s : Session) (entries : List MethodRef) :
    (s.callGraph entries false).1.code = s.code ∧
      (s.callGraph entries false).2.isSome = true := by
  refine ⟨callGraph_code s entries false, ?_⟩
  unfold callGraph
  dsimp only
  split <;> rfl

/-- Looks an entry method up, and keeps it if it has a flow graph. -/
def lookUpEntry (r : Session × List MethodRef) (ref : MethodRef) : Session × List MethodRef :=
  match r.1.method ref with
  | (s, .ok _) => (s, r.2 ++ [ref])
  | (s, .error e) =>
    (s.say .warn ("Entry point " ++ ref.render ++ " is not analyzed: " ++ e.message), r.2)

lemma lookUpEntry_eq (r : Session × List MethodRef) (ref : MethodRef) :
    (lookUpEntry r ref).1.code = r.1.code ∧ (lookUpEntry r ref).2 = r.2 ++ r.1.roots [ref] := by
  have hcode := method_code (s := r.1) ref
  have hgraph := method_snd (s := r.1) ref
  unfold lookUpEntry
  split
  all_goals
    rename_i heq
    rw [heq] at hcode hgraph
    exact ⟨hcode, by simp [roots, ← hgraph, Except.toOption]⟩

/-- The entry methods with a flow graph are the roots. -/
lemma entryGraphs_eq (s : Session) (entries : List MethodRef) :
    (s.entryGraphs entries).1.code = s.code ∧ (s.entryGraphs entries).2 = s.roots entries := by
  have hfold : ∀ r : Session × List MethodRef, (entries.foldl lookUpEntry r).1.code = r.1.code ∧
      (entries.foldl lookUpEntry r).2 = r.2 ++ r.1.roots entries := by
    induction entries with
    | nil => simp [roots]
    | cons ref entries ih =>
      intro r
      obtain ⟨hcode, hfound⟩ := lookUpEntry_eq r ref
      obtain ⟨hcode', hfound'⟩ := ih (lookUpEntry r ref)
      rw [List.foldl_cons]
      refine ⟨hcode'.trans hcode, ?_⟩
      rw [hfound', hfound, roots, roots, roots, hcode, List.append_assoc, ← List.filter_append,
        List.singleton_append]
  exact hfold (s, [])

/-- The session keeps record of a tabulation, and does not change it. -/
lemma solve_snd (s : Session) (p : TaintProblem) (provenance : Bool) (budget : Int)
    (cancelled : Bool) (entries : List MethodRef) :
    (s.solve p provenance budget cancelled entries).2 =
      p.flowProblem.solve provenance budget cancelled entries := rfl

/-- The flows of a complete tabulation, at most as many as are to be reported. -/
lemma finish_flows (s : Session) (p : TaintProblem) (o : RunOptions) (t : Tabulation Fact)
    (runId : String) : (s.finish p o t runId).2.flows =
      if 0 < o.maxAlarms then (p.flows o.provenance t).take o.maxAlarms.toNat
      else p.flows o.provenance t := by
  by_cases hlimit : 0 < o.maxAlarms
  · simp only [finish, hlimit, decide_true, Bool.true_and, decide_eq_true_eq, ↓reduceIte]
    split
    · rfl
    · rw [List.take_of_length_le (by omega)]
  · simp [finish, hlimit]

/-- How an analysis ends, from the outcome of its tabulation. -/
def conclusion (s : Session) (p : TaintProblem) (o : RunOptions) (runId : String) :
    Tabulation Fact × SolveOutcome → Option AnalysisResult × Option AnalysisError
  | (t, .complete) => (some (s.finish p o t runId).2, none)
  | (t, .overBudget budget pending) =>
    (some { runId, problem := p.rules.name, statistics := p.flowProblem.statistics t,
            errors := s.errors, isPartial := true },
      some (.incomplete p.rules.name budget pending))
  | (_, .cancelled) => (none, some .cancelled)

/-- Whether an analysis has a call graph to start from does not depend on the log. -/
lemma say_callGraph (level : LogLevel) (text : String) (cancelled : Bool) :
    ((s.say level text).callGraph entries cancelled).2 = (s.callGraph entries cancelled).2 := by
  simp only [callGraph, say]
  split
  · rfl
  · split <;> rfl

/-- The result and the error of an analysis: it is refused, or it ends as its tabulation says. -/
lemma analyze_eq (s : Session) (runId : String) (entries : List MethodRef) (rules : RuleSet)
    (o : RunOptions) (cancelled : Bool) :
    ∃ s' : Session, (s.analyze runId entries (some rules) o cancelled).2 =
      if !checkDepth o.bound then (none, some (.depth o.bound))
      else if rules.isEmpty then (none, some .emptyRules)
      else if (s.callGraph entries cancelled).2.isNone then (none, some .callGraph)
      else s'.conclusion (s.problem rules o) o runId (s.tabulate entries rules o cancelled) := by
  unfold analyze
  rw [show (if o.depth = 0 then defaultDepth else o.depth) = o.bound from rfl]
  cases hdepth : checkDepth o.bound with
  | false => exact ⟨s, by simp [hdepth]⟩
  | true =>
    cases hrules : rules.isEmpty with
    | true => exact ⟨s, by simp [hdepth, hrules, Option.filter_some]⟩
    | false =>
      simp only [hdepth, hrules, Option.filter_some, Bool.not_false, Bool.not_true,
        Bool.false_eq_true, ↓reduceIte]
      generalize hlogged : s.say _ _ = s₁
      have hcode₁ : s₁.code = s.code := by rw [← hlogged, say_code]
      have hgraph : (s₁.callGraph entries cancelled).2 = (s.callGraph entries cancelled).2 := by
        rw [← hlogged, say_callGraph]
      have hcode₂ := callGraph_code s₁ entries cancelled
      rw [← hgraph]
      split
      · exact ⟨s, by simp [*]⟩
      · rename_i s₂ g heq
        rw [heq] at hcode₂
        obtain ⟨hcode₃, hroots⟩ := entryGraphs_eq s₂ entries
        have hcode : (s₂.entryGraphs entries).1.code = s.code := (hcode₃.trans hcode₂).trans hcode₁
        have hroots' : (s₂.entryGraphs entries).2 = s.roots entries := by
          rw [hroots, roots, roots, show s₂.code = s.code from hcode₂.trans hcode₁]
        have hproblem : (⟨s.code, rules, o.bound⟩ : TaintProblem) = s.problem rules o := rfl
        rw [hcode, hroots', hproblem, tabulate, ← solve_snd (s₂.entryGraphs entries).1, heq]
        generalize (s₂.entryGraphs entries).1.solve _ _ _ _ _ = r
        obtain ⟨s₄, t, outcome⟩ := r
        refine ⟨s₄, ?_⟩
        cases outcome <;> rfl

/-- An analysis comes to its end exactly if it is not refused and its tabulation is complete. -/
lemma exists_result_iff {cancelled : Bool} :
    (∃ result, (s.analyze runId entries (some rules) o cancelled).2 = (some result, none)) ↔
      checkDepth o.bound = true ∧ rules.isEmpty = false ∧
        (s.callGraph entries cancelled).2.isSome = true ∧
        (s.tabulate entries rules o cancelled).2 = .complete := by
  obtain ⟨s', hanalyze⟩ := s.analyze_eq runId entries rules o cancelled
  rw [hanalyze, ← Option.not_isNone]
  cases checkDepth o.bound with
  | false => simp
  | true =>
    cases rules.isEmpty with
    | true => simp
    | false =>
      cases (s.callGraph entries cancelled).2.isNone with
      | true => simp
      | false =>
        obtain ⟨t, outcome⟩ := s.tabulate entries rules o cancelled
        cases outcome <;> simp [conclusion]

/-- The flows of an analysis that comes to its end, at most as many as are to be reported. -/
lemma flows_of_analyze {cancelled : Bool} {result : AnalysisResult}
    (h : (s.analyze runId entries (some rules) o cancelled).2 = (some result, none)) :
    result.flows =
      let flows := (s.problem rules o).flows o.provenance (s.tabulate entries rules o cancelled).1
      if 0 < o.maxAlarms then flows.take o.maxAlarms.toNat else flows := by
  obtain ⟨hdepth, hrules, hgraph, hcomplete⟩ := exists_result_iff.mp ⟨result, h⟩
  obtain ⟨s', hanalyze⟩ := s.analyze_eq runId entries rules o cancelled
  rw [← Option.not_isNone, Bool.not_eq_true'] at hgraph
  rw [hanalyze, hdepth, hrules, hgraph] at h
  generalize htab : s.tabulate entries rules o cancelled = tab at h hcomplete ⊢
  obtain ⟨t, outcome⟩ := tab
  cases hcomplete
  simp only [conclusion, Bool.not_true, Bool.false_eq_true, ↓reduceIte, Prod.mk.injEq,
    Option.some.injEq, and_true] at h
  rw [← h, finish_flows]

/-- The flows that an analysis reports; none if it has no result. -/
def reported (s : Session) (runId : String) (entries : List MethodRef) (rules : RuleSet)
    (o : RunOptions) : List Flow :=
  ((s.analyze runId entries (some rules) o false).2.1.map (·.flows)).getD []

/-- The flows that an analysis without a limit of alarms reports are those of its tabulation, if
that is complete. -/
lemma reported_eq (s : Session) (runId : String) (entries : List MethodRef)
    (halarms : o.maxAlarms ≤ 0) :
    s.reported runId entries rules o =
      if checkDepth o.bound && !rules.isEmpty then
        match s.tabulate entries rules o false with
        | (t, .complete) => (s.problem rules o).flows o.provenance t
        | _ => []
      else [] := by
  obtain ⟨s', hanalyze⟩ := s.analyze_eq runId entries rules o false
  have hgraph := (callGraph_false s entries).2
  rw [← Option.not_isNone, Bool.not_eq_true'] at hgraph
  rw [reported, hanalyze, hgraph]
  cases hdepth : checkDepth o.bound with
  | false => rfl
  | true =>
    cases hrules : rules.isEmpty with
    | true => rfl
    | false =>
      obtain ⟨t, outcome⟩ := s.tabulate entries rules o false
      cases outcome with
      | complete => simp [conclusion, finish_flows, halarms.not_gt]
      | _ => rfl

end Session

/-! ## Hits -/

/-- The sink rule reports a tainted path before a statement with the action `a`: at a call that it
matches, if one of its positions has a path that may be an alias; at a write to a field that it
matches, if the path is one of the variable that is written. -/
def Rule.SinksAt (r : Rule) (k : Int) (a : Action Nat) (path : AccessPath) (mark : String) : Prop :=
  r.kind = .sink ∧ r.appliesTo mark = true ∧
    match a with
    | .invoke lhs c => r.matchesCall c = true ∧
      ∃ pos ∈ r.positions, ∃ q ∈ pos.paths lhs c k, path.mayAlias q = true
    | .fieldWrite _ f src | .staticWrite f src =>
      r.matchesField f = true ∧ src.isVariable = true ∧ path.rootedAt src.render = true
    | _ => False

/-- The action dereferences the variable whose path it is, and the mark says that it is null. -/
def Action.DereferencesNull (a : Action Nat) (path : AccessPath) (mark : String) : Prop :=
  mark = nullMark ∧ ∃ v, a.dereferenced? = some v ∧ v.isVariable = true ∧ path = v.path

namespace TaintProblem

variable {p : TaintProblem} {source sink : Site}

/-- The path edge shows that taint from `source` is reported at `sink`. -/
def ReportedAt (p : TaintProblem) (source sink : Site) (e : PathEdge Fact) : Prop :=
  e.site = sink ∧ (∃ path m, e.fact = .taint path source m) ∧ p.reports e ≠ []

/-- The path edge says that taint from `source` holds before `sink`, where the sink rule reports
it. -/
def SinkHit (p : TaintProblem) (r : Rule) (source sink : Site) (e : PathEdge Fact) : Prop :=
  e.site = sink ∧ ∃ path mark, e.fact = .taint path source mark ∧
    r.SinksAt p.k (actionAt (p.graph e.method) e.node) path mark

/-- The path edge says that a null value from `source` is dereferenced at `sink`, and this is to be
reported. -/
def NullHit (p : TaintProblem) (source sink : Site) (e : PathEdge Fact) : Prop :=
  p.rules.dereference.isSome = true ∧ e.site = sink ∧ ∃ path mark,
    e.fact = .taint path source mark ∧
    (actionAt (p.graph e.method) e.node).DereferencesNull path mark

/-- The path edge is a hit of a sink rule or of a null dereference. -/
def Hits (p : TaintProblem) (source sink : Site) (e : PathEdge Fact) : Prop :=
  (∃ r ∈ p.rules.rules, p.SinkHit r source sink e) ∨ p.NullHit source sink e

/-- A fact says that the dereferenced value is null if it is about the variable itself. -/
lemma dereferenced_eq_true {a : Action Nat} {path : AccessPath} {mark : String} :
    p.dereferenced a (.taint path source mark) = true ↔
      p.rules.dereference.isSome = true ∧ a.DereferencesNull path mark := by
  unfold dereferenced Action.DereferencesNull
  cases a.dereferenced? <;> simp [Fact.isNullOf, and_assoc]

/-- The rules that report a tainted path: the sink rules that are about it, and the rule of null
dereferences. -/
lemma mem_reports_iff {e : PathEdge Fact} {r : Rule} {path : AccessPath} {mark : String}
    (hfact : e.fact = .taint path source mark) : r ∈ p.reports e ↔
      (r ∈ p.rules.rules ∧ r.SinksAt p.k (actionAt (p.graph e.method) e.node) path mark) ∨
        p.rules.dereference = some r ∧
          (actionAt (p.graph e.method) e.node).DereferencesNull path mark := by
  have hderef : r ∈ (if p.dereferenced (actionAt (p.graph e.method) e.node) e.fact then
      p.rules.dereference.toList else []) ↔ p.rules.dereference = some r ∧
        (actionAt (p.graph e.method) e.node).DereferencesNull path mark := by
    rw [List.mem_ite_nil_right, Option.mem_toList, hfact, dereferenced_eq_true]
    grind
  simp only [reports, hfact] at hderef ⊢
  rw [List.mem_append, hderef, or_comm]
  refine or_congr_left ?_
  unfold Rule.SinksAt
  cases actionAt (p.graph e.method) e.node
  case invoke lhs c =>
    simp only [CallRules.of, RuleSet.matchCall, List.mem_filter]
    grind
  case fieldWrite base f src =>
    simp only [RuleSet.matchField, List.mem_filter]
    grind
  case staticWrite f src =>
    simp only [RuleSet.matchField, List.mem_filter]
    grind
  all_goals simp

/-- Without rules nothing is reported. -/
lemma isEmpty_eq_false_of_reports {e : PathEdge Fact} (h : p.reports e ≠ []) :
    p.rules.isEmpty = false := by
  obtain ⟨r, hr⟩ := List.exists_mem_of_ne_nil _ h
  cases hfact : e.fact with
  | zero => simp [reports, hfact] at hr
  | taint path source mark =>
    rcases (mem_reports_iff hfact).mp hr with ⟨hmem, -⟩ | ⟨hderef, -⟩
    · simp [RuleSet.isEmpty, List.ne_nil_of_mem hmem]
    · simp [RuleSet.isEmpty, hderef]

/-- A path edge is reported exactly if it is a hit. -/
lemma reportedAt_iff_hits {e : PathEdge Fact} :
    p.ReportedAt source sink e ↔ p.Hits source sink e := by
  constructor
  · rintro ⟨hsite, ⟨path, mark, hfact⟩, hreports⟩
    obtain ⟨r, hr⟩ := List.exists_mem_of_ne_nil _ hreports
    rcases (mem_reports_iff hfact).mp hr with ⟨hr, hsinks⟩ | ⟨hderef, hnull⟩
    · exact .inl ⟨r, hr, hsite, path, mark, hfact, hsinks⟩
    · exact .inr ⟨by simp [hderef], hsite, path, mark, hfact, hnull⟩
  · rintro (⟨r, hr, hsite, path, mark, hfact, hsinks⟩ | ⟨hderef, hsite, path, mark, hfact, hnull⟩)
    · have hmem := (mem_reports_iff hfact).mpr (.inl ⟨hr, hsinks⟩)
      exact ⟨hsite, ⟨path, mark, hfact⟩, List.ne_nil_of_mem hmem⟩
    · obtain ⟨r, hr⟩ := Option.isSome_iff_exists.mp hderef
      have hmem := (mem_reports_iff hfact).mpr (.inr ⟨hr, hnull⟩)
      exact ⟨hsite, ⟨path, mark, hfact⟩, List.ne_nil_of_mem hmem⟩

/-- A path edge has a hit if a rule reports it. -/
lemma hit?_eq_some {e : PathEdge Fact} {h : Hit} :
    p.hit? e = some h ↔ h.edge = e ∧ p.ReportedAt h.source e.site e ∧
      (p.reports e).head? = some h.rule := by
  unfold hit? ReportedAt
  split
  · rename_i path source mark rule rest hfact hreports
    simp only [hfact, hreports]
    constructor
    · rintro ⟨rfl⟩
      simp
    · rintro ⟨rfl, ⟨-, ⟨path', m', hfact'⟩, -⟩, hrule⟩
      obtain ⟨edge, source', rule'⟩ := h
      simp_all
  · rename_i hnone
    constructor
    · intro h
      cases h
    · rintro ⟨rfl, ⟨-, ⟨path, m, hfact⟩, -⟩, hrule⟩
      obtain ⟨rule, hreports⟩ := List.head?_eq_some_iff.mp hrule
      exact (hnone _ _ _ _ _ hfact hreports).elim

/-- The flow of a hit has its source, its sink, its fact and its rule. -/
lemma flowOf_fst (p : TaintProblem) (provenance : Bool) (t : Tabulation Fact) (h : Hit) :
    ∃ trace, (p.flowOf provenance t h).1 =
      { source := h.source, sink := h.edge.site, fact := h.edge.fact, rule := h.rule, trace } := by
  unfold flowOf
  dsimp only
  split
  · exact ⟨_, rfl⟩
  · split <;> exact ⟨_, rfl⟩

/-- A flow is shown by a path edge with its fact, and its rule is the first one that reports it. -/
lemma exists_reportedAt_of_mem_flows {provenance : Bool} {t : Tabulation Fact} {f : Flow}
    (h : f ∈ p.flows provenance t) :
    ∃ e ∈ t.found, p.ReportedAt f.source f.sink e ∧ e.fact = f.fact ∧
      (p.reports e).head? = some f.rule := by
  simp only [flows, List.mem_mergeSort, List.mem_map] at h
  obtain ⟨hit, hmem, rfl⟩ := h
  obtain ⟨e, he, hhit⟩ := List.mem_filterMap.mp (mem_of_mem_eraseDupsBy hmem)
  obtain ⟨rfl, hreported, hrule⟩ := hit?_eq_some.mp hhit
  obtain ⟨trace, hflow⟩ := p.flowOf_fst provenance t hit
  rw [hflow]
  exact ⟨hit.edge, Array.mem_toList_iff.mp he, hreported, rfl, hrule⟩

/-- A flow is found for a source and a sink exactly if a path edge shows it. -/
lemma exists_flow_iff (provenance : Bool) (t : Tabulation Fact) :
    (∃ f ∈ p.flows provenance t, f.source = source ∧ f.sink = sink) ↔
      ∃ e ∈ t.found, p.ReportedAt source sink e := by
  constructor
  · rintro ⟨f, hf, rfl, rfl⟩
    obtain ⟨e, he, hreported, -, -⟩ := exists_reportedAt_of_mem_flows hf
    exact ⟨e, he, hreported⟩
  · rintro ⟨e, he, hreported⟩
    obtain ⟨rule, rest, hrules⟩ := List.exists_cons_of_ne_nil hreported.2.2
    have hhit : p.hit? e = some ⟨e, source, rule⟩ := by
      refine hit?_eq_some.mpr ⟨rfl, ⟨rfl, hreported.2⟩, by simp [hrules]⟩
    have hmem : (⟨e, source, rule⟩ : Hit) ∈ t.edges.toList.filterMap p.hit? :=
      List.mem_filterMap.mpr ⟨e, Array.mem_toList_iff.mpr he, hhit⟩
    obtain ⟨h, hh, hsame⟩ := exists_mem_eraseDupsBy
      (r := fun h h' => h.source == h'.source && h.edge.site == h'.edge.site) (by simp) hmem
    simp only [Bool.and_eq_true, beq_iff_eq] at hsame
    obtain ⟨trace, hflow⟩ := p.flowOf_fst provenance t h
    refine ⟨(p.flowOf provenance t h).1, ?_, ?_⟩
    · exact List.mem_mergeSort.mpr (List.mem_map.mpr ⟨h, hh, rfl⟩)
    · rw [hflow, ← hsame.1, ← hsame.2, hreported.1]
      exact ⟨rfl, rfl⟩

end TaintProblem

/-! ## Reported pairs -/

namespace Session

variable {s : Session} {entries : List MethodRef} {rules : RuleSet} {o : RunOptions}
  {runId : String} {source sink : Site}

/-- The analysis reports a flow from `source` to `sink`. -/
def Reports (s : Session) (runId : String) (entries : List MethodRef) (rules : RuleSet)
    (o : RunOptions) (source sink : Site) : Prop :=
  ∃ f ∈ s.reported runId entries rules o, f.source = source ∧ f.sink = sink

/-- An analysis without a limit of alarms reports the pairs that the path edges of its problem
show, if it comes to its end. -/
lemma reports_iff (s : Session) (runId : String) (entries : List MethodRef)
    (halarms : o.maxAlarms ≤ 0) : s.Reports runId entries rules o source sink ↔
      (checkDepth o.bound = true ∧ rules.isEmpty = false ∧
        (s.tabulate entries rules o false).2 = .complete) ∧
      ∃ e ∈ (s.problem rules o).flowProblem.pathEdges (s.roots entries),
        (s.problem rules o).ReportedAt source sink e := by
  unfold Reports
  rw [reported_eq s runId entries halarms]
  cases hdepth : checkDepth o.bound with
  | false => simp
  | true =>
    cases hrules : rules.isEmpty with
    | true => simp
    | false =>
      cases htab : s.tabulate entries rules o false with
      | mk t outcome =>
        cases outcome with
        | complete =>
          simp only [Bool.not_false, Bool.and_self, ↓reduceIte, true_and]
          rw [TaintProblem.exists_flow_iff, FlowProblem.found_eq_pathEdges htab]
        | _ => simp

/-- The outcome of the tabulation of an analysis, with the pairs of sources and sinks that it
shows. -/
def findings (s : Session) (entries : List MethodRef) (rules : RuleSet) (o : RunOptions) :
    SolveOutcome × List (Site × Site) :=
  let (t, outcome) := s.tabulate entries rules o false
  (outcome, (t.edges.toList.filterMap (s.problem rules o).hit?).map fun h =>
    (h.source, h.edge.site))

/-- What is found is read off the tabulation. -/
lemma findings_eq_hits (s : Session) (entries : List MethodRef) (rules : RuleSet) (o : RunOptions) :
    s.findings entries rules o =
      ((s.tabulate entries rules o false).2,
        ((s.tabulate entries rules o false).1.edges.toList.filterMap (s.problem rules o).hit?).map
          fun h => (h.source, h.edge.site)) := rfl

/-- The pairs that are computed are those that the path edges of the tabulation show. -/
lemma mem_findings_iff : (source, sink) ∈ (s.findings entries rules o).2 ↔
    ∃ e ∈ (s.tabulate entries rules o false).1.found,
      (s.problem rules o).ReportedAt source sink e := by
  simp only [findings, List.mem_map, List.mem_filterMap, Prod.mk.injEq]
  constructor
  · rintro ⟨hit, ⟨e, he, hhit⟩, rfl, rfl⟩
    obtain ⟨rfl, hreported, -⟩ := TaintProblem.hit?_eq_some.mp hhit
    exact ⟨hit.edge, Array.mem_toList_iff.mp he, hreported⟩
  · rintro ⟨e, he, hreported⟩
    obtain ⟨rule, rest, hhead⟩ := List.exists_cons_of_ne_nil hreported.2.2
    refine ⟨⟨e, source, rule⟩, ⟨e, Array.mem_toList_iff.mpr he, ?_⟩, rfl, hreported.1⟩
    exact TaintProblem.hit?_eq_some.mpr ⟨rfl, ⟨rfl, hreported.2⟩, by simp [hhead]⟩

/-- An analysis without a limit of alarms reports the pairs that its tabulation shows. -/
lemma reports_iff_findings {pairs : List (Site × Site)} (halarms : o.maxAlarms ≤ 0)
    (hdepth : checkDepth o.bound = true) (hrules : rules.isEmpty = false)
    (h : s.findings entries rules o = (.complete, pairs)) :
    s.Reports runId entries rules o source sink ↔ (source, sink) ∈ pairs := by
  have hcomplete : (s.tabulate entries rules o false).2 = .complete := congrArg Prod.fst h
  have hfound : (s.tabulate entries rules o false).1.found =
      (s.problem rules o).flowProblem.pathEdges (s.roots entries) :=
    FlowProblem.found_eq_pathEdges (Prod.ext rfl hcomplete)
  rw [reports_iff s runId entries halarms, hdepth, hrules, hcomplete, ← hfound, ← mem_findings_iff,
    h]
  simp only [and_self, true_and]

end Session

/-! ## Code bases with the same flow graphs -/

/-- The code bases have the same classes, and look up the same flow graphs. -/
structure CodeBase.Agrees (c c' : CodeBase) : Prop where
  table : c.table = c'.table
  graph : ∀ ref, c.graph ref = c'.graph ref

/-- Each of the bodies has its flow graph recorded, and these are the graphs `gs`. -/
def CodeBase.Records (t : ClassTable) (gs : List FlowGraph)
    (bodies : Std.HashMap MethodRef MethodBody)
    (graphs : Std.HashMap MethodRef (Except BuildError FlowGraph)) : Prop :=
  ∀ (ref : MethodRef) body, bodies[ref]? = some body →
    ∃ g ∈ gs, graphs[ref]? = some (.ok g) ∧ FlowGraph.build (some t) body = .ok g

-- Whether a flow graph is the one that is built can be computed.
deriving instance DecidableEq for FlowGraph

namespace CodeBase.Records

variable {t : ClassTable} {gs : List FlowGraph} {bodies : Std.HashMap MethodRef MethodBody}
  {graphs : Std.HashMap MethodRef (Except BuildError FlowGraph)}

/-- Nothing is recorded for no bodies. -/
lemma nil : Records t [] ∅ ∅ := by
  intro ref body hbody
  simp at hbody

/-- A body with its flow graph is recorded. -/
lemma insert (h : Records t gs bodies graphs) (ref : MethodRef) {body : MethodBody} {g : FlowGraph}
    (hbuild : FlowGraph.build (some t) body = .ok g) :
    Records t (g :: gs) (bodies.insert ref body) (graphs.insert ref (.ok g)) := by
  intro ref' body' hbody
  rw [Std.HashMap.getElem?_insert] at hbody ⊢
  by_cases href : (ref == ref') = true
  · rw [if_pos href] at hbody ⊢
    cases hbody
    exact ⟨g, List.mem_cons_self, rfl, hbuild⟩
  · rw [if_neg href] at hbody ⊢
    obtain ⟨g', hmem, hgraph, hbuild'⟩ := h ref' body' hbody
    exact ⟨g', List.mem_cons_of_mem _ hmem, hgraph, hbuild'⟩

/-- Flow graphs that are recorded as they are built make no difference. -/
lemma agrees (h : Records t gs t.bodies graphs) : (CodeBase.ofTable t).Agrees ⟨t, graphs⟩ where
  table := rfl
  graph ref := by
    unfold CodeBase.graph
    rw [show (CodeBase.ofTable t).table = t from rfl]
    cases hbody : t.body ref with
    | error e => rfl
    | ok body =>
      have hbodies := ClassTable.getElem?_of_body hbody
      have hbuilt : (CodeBase.ofTable t).graphs[ref]? = some (FlowGraph.build (some t) body) := by
        simp [CodeBase.ofTable, hbodies]
      obtain ⟨g, -, hgraph, hbuild⟩ := h ref body hbodies
      simp only [hbuilt, hgraph, hbuild]

/-- The flow graphs of the program are those that are recorded. -/
lemma mem_of_graph (h : Records t gs t.bodies graphs) {ref : MethodRef} {g : FlowGraph}
    (hg : (CodeBase.ofTable t).graph ref = .ok g) : g ∈ gs := by
  rw [h.agrees.graph] at hg
  unfold CodeBase.graph at hg
  cases hbody : t.body ref with
  | error e => simp [hbody] at hg
  | ok body =>
    obtain ⟨g', hmem, hgraph, -⟩ := h ref body (ClassTable.getElem?_of_body hbody)
    simp only [hbody, hgraph, Except.ok.injEq] at hg
    exact hg ▸ hmem

end CodeBase.Records

namespace CodeBase.Agrees

variable {s s' : Session} {entries : List MethodRef} {rules : RuleSet} {o : RunOptions}

/-- The data flow problem depends on the classes and the flow graphs only. -/
lemma flowProblem_eq (h : s.code.Agrees s'.code) (rules : RuleSet) (o : RunOptions) :
    (s.problem rules o).flowProblem = (s'.problem rules o).flowProblem := by
  have hgraph : (s.problem rules o).graph = (s'.problem rules o).graph := by
    funext ref
    simp only [TaintProblem.graph, Session.problem, h.graph]
  have hcallees : (s.problem rules o).callees = (s'.problem rules o).callees := by
    funext g i
    simp only [TaintProblem.callees, Session.problem, h.graph, h.table]
    rfl
  unfold TaintProblem.flowProblem
  rw [hgraph, hcallees]
  rfl

/-- The tabulation depends on the classes and the flow graphs only. -/
lemma tabulate_eq (h : s.code.Agrees s'.code) (cancelled : Bool) :
    s.tabulate entries rules o cancelled = s'.tabulate entries rules o cancelled := by
  unfold Session.tabulate Session.roots
  simp only [h.flowProblem_eq, h.graph]

/-- The targets of a call depend on the classes and the flow graphs only. -/
lemma callees_eq (h : s.code.Agrees s'.code) (c : Call) : (s.callees c).2 = (s'.callees c).2 := by
  simp only [Session.callees, h.table, h.graph]
  cases s'.code.table.resolve c.key <;> rfl

/-- What is found depends on the classes and the flow graphs only. -/
lemma findings_eq (h : s.code.Agrees s'.code) :
    s.findings entries rules o = s'.findings entries rules o := by
  have hhit : (s.problem rules o).hit? = (s'.problem rules o).hit? := by
    funext e
    simp only [TaintProblem.hit?, TaintProblem.reports, TaintProblem.graph, Session.problem,
      h.graph]
    rfl
  unfold Session.findings
  rw [h.tabulate_eq, hhit]

end CodeBase.Agrees

/-! ## Rules that are read -/

/-- The matcher of all methods. -/
def CodeMatcher.any : CodeMatcher :=
  let name : Pattern := .seq (.boundary .textStart) (.seq .empty (.boundary .textEnd))
  ⟨{}, some ⟨name, name, name⟩⟩

/-- An empty code identifier selects all methods. -/
lemma CodeIdentifier.matcher_empty : CodeIdentifier.matcher {} = .any := by cbv

/-- Some positions as they are written in the documents of problems. -/
lemma Position.parse_written :
    Position.parse "this" = .ok ⟨.this, []⟩ ∧ Position.parse "result" = .ok ⟨.result, []⟩ ∧
      Position.parse "any-arg" = .ok ⟨.anyArg, []⟩ ∧ Position.parse "arg0" = .ok ⟨.arg 0, []⟩ ∧
      Position.parse "arg1" = .ok ⟨.arg 1, []⟩ ∧ Position.parse "arg0.f" = .ok ⟨.arg 0, ["f"]⟩ ∧
      Position.parse "arg0.g" = .ok ⟨.arg 0, ["g"]⟩ ∧
      Position.parse "arg0.h" = .ok ⟨.arg 0, ["h"]⟩ ∧
      Position.parse "arg0.f.g" = .ok ⟨.arg 0, ["f", "g"]⟩ := by
  decide +kernel

end JvmTaint
