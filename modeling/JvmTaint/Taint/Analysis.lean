import JvmTaint.Settings.Basic
import JvmTaint.Tabulation.Trace
import JvmTaint.Taint.Problem

set_option autoImplicit false
set_option relaxedAutoImplicit false

/-!
# Flows

A flow is a tainted path that reaches a sink. There is at most one flow for a source and a sink.

## Main definitions

* `JvmTaint.RunOptions`: the options of a run.
* `JvmTaint.TaintProblem.reports`: the rules that report a path edge.
* `JvmTaint.Hit`, `JvmTaint.TaintProblem.hits`: the first report of each source and sink.
* `JvmTaint.Flow`, `JvmTaint.TaintProblem.flows`: the flows of a tabulation.
-/

namespace JvmTaint

/-- The options of a run. -/
structure RunOptions where
  /-- The bound of access paths; zero stands for the default. -/
  depth : Int := 0
  provenance : Bool := false
  budget : Int := 0
  maxAlarms : Int := 0
  deriving DecidableEq, Repr, Inhabited

/-- The options of a run that some settings ask for. -/
def RunOptions.ofOptions (o : Options) : RunOptions :=
  { depth := o.depth, provenance := o.provenance, budget := o.budget, maxAlarms := o.maxAlarms }

/-- A path edge with a rule that reports it. -/
structure Hit where
  edge : PathEdge Fact
  source : Site
  rule : Rule
  deriving Inhabited

/-- A tainted path that reaches a sink. -/
structure Flow where
  /-- The statement that generated the taint. -/
  source : Site
  /-- The statement that the taint reaches. -/
  sink : Site
  /-- The fact that holds at the sink. -/
  fact : Fact
  /-- The rule that reports the flow. -/
  rule : Rule
  /-- The way from the source to the sink, if it is known. -/
  trace : Option (Trace Fact) := none
  deriving Inhabited

namespace Flow

/-- The text of a flow. -/
def render (f : Flow) : String := f.source.render ++ " -> " ++ f.sink.render

/-- The order of flows: by source, then by sink. -/
def le (f g : Flow) : Bool :=
  if f.source = g.source then !g.sink.lt f.sink else f.source.lt g.source

/-- The lines of the trace. -/
def records (f : Flow) : List TraceRecord := (f.trace.map (Trace.records ·)).getD []

end Flow

namespace TaintProblem

/-- The rules that report a path edge. -/
def reports (p : TaintProblem) (e : PathEdge Fact) : List Rule :=
  let a := actionAt (p.graph e.method) e.node
  match e.fact with
  | .zero => []
  | .taint path _ mark =>
    (if p.dereferenced a e.fact then p.rules.dereference.toList else []) ++
      match a with
      | .invoke lhs c => (CallRules.of p.rules c).sinks.filter fun r =>
        r.appliesTo mark && r.positions.any fun pos => (pos.paths lhs c p.k).any path.mayAlias
      | .fieldWrite _ f src | .staticWrite f src => (p.rules.matchField f).filter fun r =>
        r.kind == .sink && r.appliesTo mark && src.isVariable && path.rootedAt src.render
      | _ => []

/-- The first report of a path edge. -/
def hit? (p : TaintProblem) (e : PathEdge Fact) : Option Hit :=
  match e.fact, p.reports e with
  | .taint _ source _, rule :: _ => some { edge := e, source, rule }
  | _, _ => none

/-- The first report of each source and sink, in the order in which the path edges were found. -/
def hits (p : TaintProblem) (t : Tabulation Fact) : List Hit :=
  (t.edges.toList.filterMap p.hit?).eraseDupsBy fun h h' =>
    h.source == h'.source && h.edge.site == h'.edge.site

/-- The flow of a hit. Its trace is looked for if it can be known. -/
def flowOf (p : TaintProblem) (provenance : Bool) (t : Tabulation Fact) (h : Hit) :
    Flow × Option (TraceError Fact) :=
  let flow : Flow :=
    { source := h.source, sink := h.edge.site, fact := h.edge.fact, rule := h.rule }
  if !provenance then (flow, none)
  else match p.flowProblem.trace provenance t h.edge with
    | .ok trace => ({ flow with trace := some trace }, none)
    | .error e => (flow, some e)

/-- The flows of a tabulation, sorted. -/
def flows (p : TaintProblem) (provenance : Bool) (t : Tabulation Fact) : List Flow :=
  ((p.hits t).map fun h => (p.flowOf provenance t h).1).mergeSort Flow.le

/-- The sites whose traces could not be found, with the reasons. -/
def traceErrors (p : TaintProblem) (provenance : Bool) (t : Tabulation Fact) :
    List (Site × TraceError Fact) :=
  (p.hits t).filterMap fun h =>
    (p.flowOf provenance t h).2.map fun e => (h.edge.site, e)

/-- The unresolved calls that were processed, in order, with the reasons. -/
def unresolvedCalls (p : TaintProblem) (t : Tabulation Fact) : List (Site × UnresolvedCall) :=
  ((p.flowProblem.processedCalls t).filterMap fun e =>
    match actionAt (p.graph e.method) e.node with
    | .invoke _ c =>
      if (CallRules.of p.rules c).isOpaque then none
      else match p.code.table.resolve c.key with
        | .error u => some (e.site, u)
        | .ok _ => none
    | _ => none).eraseDupsBy fun a b => a.1 == b.1

end TaintProblem

end JvmTaint
