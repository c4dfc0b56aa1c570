import JvmTaint.Analyzer
import JvmTaint.Metrics.Exposition
import JvmTaint.Sum

set_option autoImplicit false
set_option relaxedAutoImplicit false

/-!
# Measurements of analyses

What the runs of the analyses and the state of a session have to show. The measurements are a
function of the runs in their order and of the last look at a session.

## Main definitions

* `JvmTaint.RunRecord`: what is measured of a run.
* `JvmTaint.StateRecord`, `JvmTaint.Session.stateRecord`, `JvmTaint.Analyzer.stateRecord`: what is
  measured of a session and of an analyzer.
* `JvmTaint.Metrics`, `JvmTaint.Metrics.render?`: all measurements and their text.
-/

namespace JvmTaint

/-- How a run ended. -/
inductive RunEnd where
  | complete
  /-- The budget was used up. -/
  | partly
  | failed
  deriving DecidableEq, Repr, Inhabited

/-- The name of an end. -/
def RunEnd.name : RunEnd → String
  | complete => "complete"
  | partly => "partial"
  | failed => "failed"

/-- What is measured of a run. -/
structure RunRecord where
  problem : String
  ending : RunEnd := .complete
  pathEdges : Int := 0
  summaries : Int := 0
  methods : Int := 0
  unresolved : Int := 0
  flows : Int := 0
  /-- How long the run took, in nanoseconds. -/
  duration : Int := 0
  deriving DecidableEq, Repr, Inhabited

/-- The record of the run of a problem that ended with a result, or without one. -/
def RunRecord.of (problem : String) (duration : Int) : Option AnalysisResult → RunRecord
  | none => { problem, ending := .failed }
  | some r =>
    { problem
      ending := if r.isPartial then .partly else .complete
      pathEdges := r.statistics.pathEdges
      summaries := r.statistics.summaries
      methods := r.statistics.methods
      unresolved := r.statistics.unresolved
      flows := r.flows.length
      duration }

/-- What is measured of a session. -/
structure StateRecord where
  methods : Nat
  failures : Nat
  hits : Nat
  misses : Nat
  errors : Nat
  deriving DecidableEq, Repr, Inhabited

/-- The measurements of a session. -/
def Session.stateRecord (s : Session) : StateRecord where
  methods := s.ledger.built.size
  failures := (s.ledger.failures s.code).length
  hits := s.ledger.hits
  misses := s.ledger.misses
  errors := sumOf (s.errors.map fun (_, texts) => texts.length)

/-- The measurements of an analyzer. -/
def Analyzer.stateRecord (a : Analyzer) : StateRecord where
  methods := a.memo.graphs.size
  failures := a.memo.failures.length
  hits := a.memo.hits
  misses := a.memo.misses
  errors := sumOf (a.errors.map fun (_, texts) => texts.length)

/-- All measurements. -/
structure Metrics where
  runs : List RunRecord := []
  state : Option StateRecord := none

namespace Metrics

/-- The runs with a result. -/
def finished (m : Metrics) : List RunRecord := m.runs.filter fun r => r.ending ≠ .failed

/-- Texts in order, each once. -/
def distinct (texts : List String) : List String :=
  (texts.mergeSort fun a b => decide (a ≤ b)).eraseDups

/-- The sum of counts, each rounded to a float first, as a 64-bit word. -/
def total (counts : List Int) : Float :=
  (counts.foldl (fun (sum : UInt64) n => sum + (Float.ofInt n).toUInt64) 0).toFloat

/-- Seconds: the whole seconds and the rest are rounded apart. -/
def seconds (nanoseconds : Int) : Float :=
  Float.ofInt (nanoseconds.tdiv 1000000000) + Float.ofInt (nanoseconds.tmod 1000000000) / 1e9

/-- One sample for each problem with a finished run. -/
def byProblem (m : Metrics) (samples : List (String × String) → List RunRecord → List Sample) :
    List Sample :=
  (distinct (m.finished.map (·.problem))).flatMap fun p =>
    samples [("problem", p)] (m.finished.filter (·.problem == p))

/-- A counter of a quantity of finished runs. -/
def counter (m : Metrics) (name help : String) (count : RunRecord → Int) : MetricFamily :=
  { name, help, kind := .counter
    samples := m.byProblem fun labels rs => [{ labels, value := total (rs.map count) }] }

/-- A histogram of a quantity of finished runs. -/
def histogram (m : Metrics) (name help : String) (bounds : List Float)
    (quantity : RunRecord → Float) : MetricFamily :=
  { name, help, kind := .histogram
    samples := m.byProblem fun labels rs => histogramSamples labels bounds (rs.map quantity) }

/-- A single value. -/
def gauge (name help : String) (n : Nat) : MetricFamily :=
  { name, help, kind := .gauge, samples := [{ value := n.toFloat }] }

/-- The number of runs by their end and problem. -/
def runSamples (m : Metrics) : List Sample :=
  [RunEnd.complete, .failed, .partly].flatMap fun ending =>
    let runs := m.runs.filter (·.ending = ending)
    (distinct (runs.map (·.problem))).map fun p =>
      { labels := [("outcome", ending.name), ("problem", p)]
        value := (runs.countP (·.problem == p)).toFloat }

/-- The families of the measurements. -/
def families (m : Metrics) : List MetricFamily :=
  let state := m.state.getD default
  [{ name := "jargot_callgraph_resolutions"
     help := "Number of call resolutions, memoized or computed"
     kind := .gauge
     samples := m.state.toList.flatMap fun s =>
      [{ labels := [("result", "computed")], value := s.misses.toFloat },
        { labels := [("result", "memoized")], value := s.hits.toFloat }] },
    gauge "jargot_errors" "Number of errors recorded in the analyzer state" state.errors,
    gauge "jargot_ir_build_failures"
      "Number of methods whose control flow graph could not be built" state.failures,
    gauge "jargot_ir_methods_cached"
      "Number of methods whose control flow graph has been built or attempted" state.methods,
    m.histogram "jargot_solver_duration_seconds" "Duration of the solver runs"
      (growingBounds 2 16 0.001) (fun r => seconds r.duration),
    { name := "jargot_solver_methods_visited"
      help := "Number of methods visited by the last run"
      kind := .gauge
      samples := m.byProblem fun labels rs =>
        rs.getLast?.toList.map fun r => { labels, value := Float.ofInt r.methods } },
    m.histogram "jargot_solver_path_edges" "Number of path edges processed per run"
      (growingBounds 4 10 16) (fun r => Float.ofInt r.pathEdges),
    m.counter "jargot_solver_summary_edges_total" "Total number of summary edges computed"
      (·.summaries),
    m.counter "jargot_solver_unresolved_calls_total"
      "Total number of call statements reached without a known callee" (·.unresolved),
    m.counter "jargot_taint_flows_total" "Total number of flows reported" (·.flows),
    { name := "jargot_taint_runs_total"
      help := "Total number of taint analysis runs"
      kind := .counter
      samples := m.runSamples }]

/-- Whether no counter would fall. -/
def rising (m : Metrics) : Bool :=
  m.finished.all fun r => decide (0 ≤ r.flows ∧ 0 ≤ r.summaries ∧ 0 ≤ r.unresolved)

/-- The text of the measurements. There is none if a counter would fall. -/
def render? (m : Metrics) : Option String :=
  if m.rising then some (renderFamilies m.families) else none

end Metrics

end JvmTaint
