import JvmTaint.Calls.Ledger
import JvmTaint.Settings.Log
import JvmTaint.Taint.Analysis

set_option autoImplicit false
set_option relaxedAutoImplicit false

/-!
# Sessions

What the analyses of one program share: the program and its settings, the errors found so far, the
call graphs built so far, a ledger of the work done and a log. Sharing changes no result: flow
graphs and targets of calls are functions of the program.

## Main definitions

* `JvmTaint.Session`: a session.
* `JvmTaint.Session.method`, `JvmTaint.Session.callees`: flow graphs and targets of calls.
* `JvmTaint.Session.callGraph`: the call graph of some entry methods.
* `JvmTaint.AnalysisResult`, `JvmTaint.AnalysisError`: how an analysis ends.
* `JvmTaint.Session.analyze`: the taint analysis of a rule set.
* `JvmTaint.Session.prepare`: what the analyses that the settings ask for start from.
* `JvmTaint.Session.analyzeAll`: the taint analyses that the settings ask for.
-/

namespace JvmTaint

/-- A message of a log. -/
structure LogEntry where
  level : LogLevel
  text : String
  /-- The rest of a message with a measured time after `text`. -/
  afterTime : Option String := none
  deriving DecidableEq, Repr, Inhabited

/-- The message, with `time` as the measured time. -/
def LogEntry.message (e : LogEntry) (time : String) : String :=
  match e.afterTime with
  | none => e.text
  | some rest => e.text ++ time ++ rest

/-- What the analyses of one program share. -/
structure Session where
  code : CodeBase
  settings : Settings := {}
  /-- The errors found so far, by what they are about. -/
  errors : List (String × List String) := []
  /-- The call graphs built so far, by their entry methods. -/
  callGraphs : List (String × CallGraph) := []
  ledger : Ledger := {}
  log : List LogEntry := []

namespace Session

/-- Adds a message to the log. -/
def say (s : Session) (level : LogLevel) (text : String) : Session :=
  { s with log := s.log ++ [{ level, text }] }

/-- Adds a text to those of a key, unless it is there. -/
def insertError (key text : String) : List (String × List String) → List (String × List String)
  | [] => [(key, [text])]
  | (k, texts) :: rest =>
    if k = key then (k, if texts.contains text then texts else texts ++ [text]) :: rest
    else (k, texts) :: insertError key text rest

/-- Records an error. -/
def addError (s : Session) (key text : String) : Session :=
  { s with errors := insertError key text s.errors }

/-- Whether an error was recorded. -/
def hasErrors (s : Session) : Bool := s.errors.any fun (_, texts) => !texts.isEmpty

/-- The flow graph of a method. A failure is recorded, unless the method is declared without code.
-/
def method (s : Session) (ref : MethodRef) : Session × Except GraphError FlowGraph :=
  let s := { s with ledger := s.ledger.request ref }
  match s.code.graph ref with
  | .ok g => (s, .ok g)
  | .error e => (if e.isNoCode then s else s.addError ref.render e.message, .error e)

/-- The targets of a call that have a flow graph. -/
def callees (s : Session) (c : Call) : Session × Except UnresolvedCall (List MethodRef) :=
  let s := { s with ledger := s.ledger.resolve s.code.table c.key }
  match s.code.table.resolve c.key with
  | .error u => (s, .error u)
  | .ok r =>
    (r.callees.foldl (fun s ref => (s.method ref).1) s,
      .ok (r.callees.filter fun ref => (s.code.graph ref).toOption.isSome))

/-- The methods that the settings name as entry points, sorted. -/
def entryMethods (s : Session) : List MethodRef :=
  s.code.table.methods.filter fun ref => s.settings.isEntryPoint (.ofMethod ref)

/-- What the call graph of some entry methods is kept under. -/
def callGraphKey (entries : List MethodRef) : String :=
  "\n".intercalate ((entries.map MethodRef.render).mergeSort fun a b => decide (a ≤ b))

/-- The call graph of some entry methods, which is built once. `none` if it would have to be built
in a run that was cancelled. -/
def callGraph (s : Session) (entries : List MethodRef) (cancelled : Bool) :
    Session × Option CallGraph :=
  let key := callGraphKey entries
  match s.callGraphs.lookup key with
  | some g => (s, some g)
  | none =>
    if cancelled && !entries.isEmpty then (s, none)
    else
      let g := CallGraph.build s.code entries
      let s := { s with
        ledger := s.ledger.explore s.code g
        callGraphs := s.callGraphs ++ [(key, g)] }
      let s := g.failures.foldl (fun s (ref, e) => s.addError ref.render e.message) s
      (s.say .info ("Built " ++ toString g.methods.length ++ " reachable methods (" ++
        toString g.unresolved.length ++ " call sites without callee)"), some g)

end Session

/-! ## Analyses -/

/-- The result of an analysis. -/
structure AnalysisResult where
  /-- What the run is called in logs and reports. -/
  runId : String
  problem : String
  statistics : Statistics
  flows : List Flow := []
  /-- The errors recorded in the session. -/
  errors : List (String × List String)
  /-- Whether the budget was used up; then there are no flows. -/
  isPartial : Bool := false
  deriving Inhabited

/-- Why an analysis has no result, or only a part of it. -/
inductive AnalysisError where
  | depth (k : Int)
  | emptyRules
  /-- The run was cancelled before the call graph was built. -/
  | callGraph
  | cancelled
  | incomplete (problem : String) (budget pending : Nat)
  deriving DecidableEq, Repr

/-- The message about a budget that was used up. -/
def budgetMessage (budget pending : Nat) : String :=
  "analysis incomplete: exceeded budget of " ++ toString budget ++ " path edges (" ++
    toString pending ++ " pending)"

/-- The message of an error. -/
def AnalysisError.message : AnalysisError → String
  | depth k => depthMessage k
  | emptyRules => "empty rule set"
  | callGraph => "could not build the call graph: context canceled"
  | cancelled => "context canceled"
  | incomplete problem budget pending =>
    "taint analysis " ++ Text.quote problem ++ ": " ++ budgetMessage budget pending

namespace Session

/-- Records the work that a tabulation took. -/
def account (s : Session) (p : TaintProblem) (t : Tabulation Fact) : Session :=
  (p.flowProblem.processedCalls t).foldl
    (fun s e => match TaintProblem.actionAt (p.graph e.method) e.node with
      | .invoke _ c => if (CallRules.of p.rules c).isOpaque then s else (s.callees c).1
      | _ => s) s

/-- Tabulates a taint problem from some entry methods. -/
def solve (s : Session) (p : TaintProblem) (provenance : Bool) (budget : Int) (cancelled : Bool)
    (entries : List MethodRef) : Session × Tabulation Fact × SolveOutcome :=
  let (t, outcome) := p.flowProblem.solve provenance budget cancelled entries
  let s := s.account p t
  let s := (p.unresolvedCalls t).foldl
    (fun s (site, u) => s.say .trace
      ("Unresolved call at " ++ site.render ++ ": " ++ site.render ++ ": " ++ u.message)) s
  let stats := p.flowProblem.statistics t
  let s := if outcome = .complete then
      s.say .debug ("Solver reached " ++ toString stats.reached ++ " path edges in " ++
        toString stats.methods ++ " methods (" ++ toString stats.summaries ++ " summary edges)")
    else s
  (s, t, outcome)

/-- The entry methods with a flow graph. -/
def entryGraphs (s : Session) (entries : List MethodRef) : Session × List MethodRef :=
  entries.foldl
    (fun (s, found) ref => match s.method ref with
      | (s, .ok _) => (s, found ++ [ref])
      | (s, .error e) =>
        (s.say .warn ("Entry point " ++ ref.render ++ " is not analyzed: " ++ e.message), found))
    (s, [])

/-- The flows of a complete tabulation, at most as many as are to be reported. -/
def finish (s : Session) (p : TaintProblem) (o : RunOptions) (t : Tabulation Fact)
    (runId : String) : Session × AnalysisResult :=
  let stats := p.flowProblem.statistics t
  let s := (p.traceErrors o.provenance t).foldl
    (fun s (site, e) => s.addError site.method.render (e.message Fact.render)) s
  let found := p.flows o.provenance t
  let limited := o.maxAlarms > 0 && decide ((found.length : Int) > o.maxAlarms)
  let flows := if limited then found.take o.maxAlarms.toNat else found
  let s := if limited then
      s.say .warn (toString found.length ++ " flows found, only " ++ toString o.maxAlarms ++
        " reported")
    else s
  let done : LogEntry := {
    level := .info
    text := "Taint analysis " ++ runId ++ " done in "
    afterTime := some (" s: " ++ toString flows.length ++ " flows, " ++ toString stats.pathEdges ++
      " path edges, " ++ toString stats.methods ++ " methods") }
  let result : AnalysisResult :=
    { runId, problem := p.rules.name, statistics := stats, flows, errors := s.errors }
  ({ s with log := s.log ++ [done] }, result)

/-- The taint analysis of a rule set from some entry methods. A run that uses up its budget gives a
result without flows together with the error. -/
def analyze (s : Session) (runId : String) (entries : List MethodRef) (rules : Option RuleSet)
    (o : RunOptions) (cancelled : Bool) : Session × Option AnalysisResult × Option AnalysisError :=
  let k := if o.depth = 0 then defaultDepth else o.depth
  if !checkDepth k then (s, none, some (.depth k))
  else match rules.filter (!·.isEmpty) with
    | none => (s, none, some .emptyRules)
    | some rules =>
      let s := s.say .info ("Starting taint analysis " ++ runId ++ " of " ++
        Text.quote rules.name ++ " from " ++ toString entries.length ++ " entry points (K = " ++
        toString k ++ ")")
      match s.callGraph entries cancelled with
      | (s, none) => (s, none, some .callGraph)
      | (s, some _) =>
        let (s, methods) := s.entryGraphs entries
        let p : TaintProblem := { code := s.code, rules, k }
        let (s, t, outcome) := s.solve p o.provenance o.budget cancelled methods
        match outcome with
        | .complete =>
          let (s, result) := s.finish p o t runId
          (s, some result, none)
        | .overBudget budget pending =>
          (s, some { runId, problem := rules.name, statistics := p.flowProblem.statistics t,
                     errors := s.errors, isPartial := true },
            some (.incomplete rules.name budget pending))
        | .cancelled => (s, none, some .cancelled)

end Session

/-- Why the settings ask for no analysis that could be run. -/
inductive ProblemError where
  | ruleSet (index : Nat) (e : RuleSetError)
  | noProblem
  | noEntryPoint
  | callGraph
  deriving DecidableEq, Repr

/-- The message of an error. -/
def ProblemError.message : ProblemError → String
  | ruleSet index e => "taint tracking problem " ++ toString index ++ ": " ++ e.message
  | noProblem => "no taint tracking problem: empty rule set"
  | noEntryPoint => "no entry point"
  | callGraph => AnalysisError.callGraph.message

namespace Session

/-- The rule sets and the entry methods of the analyses that the settings ask for. The call graph of
the entry methods is built. -/
def prepare (s : Session) : Session × Except ProblemError (List RuleSet × List MethodRef) :=
  let ruleSets := s.settings.problems.zipIdx.mapM fun (p, i) =>
    (RuleSet.ofSpec p).mapError (ProblemError.ruleSet i)
  match ruleSets with
  | .error e => (s, .error e)
  | .ok [] => (s, .error .noProblem)
  | .ok ruleSets =>
    match s.entryMethods with
    | [] => (s, .error .noEntryPoint)
    | entries => ((s.callGraph entries false).1, .ok (ruleSets, entries))

/-- The taint analyses that the settings ask for, in order. Each problem has a result, an error or
both. -/
def analyzeAll (s : Session) (runId : Nat → String) :
    Session × Except ProblemError (List (Option AnalysisResult × Option AnalysisError)) :=
  match s.prepare with
  | (s, .error e) => (s, .error e)
  | (s, .ok (ruleSets, entries)) =>
    let options := RunOptions.ofOptions s.settings.options
    let (s, results) := ruleSets.zipIdx.foldl
      (fun (s, results) (rules, i) =>
        let (s, result, error) := s.analyze (runId i) entries (some rules) options false
        (s, results ++ [(result, error)]))
      (s, [])
    (s, .ok results)

end Session

end JvmTaint
