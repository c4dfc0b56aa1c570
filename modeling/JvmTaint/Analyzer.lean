import JvmTaint.Memo.CallGraph
import JvmTaint.Session

set_option autoImplicit false
set_option relaxedAutoImplicit false

/-!
# Analyzers

An analyzer does the work of a session with memos: flow graphs, targets of calls and call graphs are
computed when they are first asked for, and kept for all that follows. It is used for any sequence
of analyses and questions about one program.

## Main definitions

* `JvmTaint.Analyzer`: an analyzer.
* `JvmTaint.Analyzer.method`, `JvmTaint.Analyzer.callees`, `JvmTaint.Analyzer.callGraph`: flow
  graphs, targets of calls and call graphs.
* `JvmTaint.Analyzer.solve`: tabulation with the answers of an analyzer.
* `JvmTaint.Analyzer.analyze`: the taint analysis of a rule set.
* `JvmTaint.Analyzer.Operation`: what an analyzer can be asked to do.
-/

namespace JvmTaint

/-- A program with what the analyses of it share. -/
structure Analyzer where
  table : ClassTable
  settings : Settings := {}
  memo : Memo := {}
  /-- The errors found so far, by what they are about. -/
  errors : List (String × List String) := []
  /-- The call graphs built so far, by their entry methods. -/
  callGraphs : List (String × CallGraph) := []
  log : List LogEntry := []

namespace Analyzer

/-- Asks the memo. -/
def ask {α : Type} (q : ClassTable → StateM Memo α) : StateM Analyzer α :=
  modifyGet fun a =>
    let (answer, memo) := (q a.table).run a.memo
    (answer, { a with memo })

/-- Adds an entry to the log. -/
def note (e : LogEntry) : StateM Analyzer Unit := modify fun a => { a with log := a.log ++ [e] }

/-- Adds a message to the log. -/
def say (level : LogLevel) (text : String) : StateM Analyzer Unit := note { level, text }

/-- Records an error. -/
def addError (key text : String) : StateM Analyzer Unit :=
  modify fun a => { a with errors := Session.insertError key text a.errors }

/-- The flow graph of a method. A failure is recorded, unless the method is declared without code.
-/
def method (ref : MethodRef) : StateM Analyzer (Except GraphError FlowGraph) := do
  match ← ask (Memo.graph · ref) with
  | .ok g => return .ok g
  | .error e =>
    if !e.isNoCode then addError ref.render e.message
    return .error e

/-- The targets of a call that have a flow graph. -/
def callees (c : Call) : StateM Analyzer (Except UnresolvedCall (List MethodRef)) := do
  match ← ask (Memo.resolve · c.key) with
  | .error u => return .error u
  | .ok r =>
    let found ← r.callees.filterM fun ref => return (← method ref).toOption.isSome
    return .ok found

/-- The call graph of some entry methods, which is built once. `none` if it would have to be built
in a run that was cancelled. -/
def callGraph (entries : List MethodRef) (cancelled : Bool) :
    StateM Analyzer (Option CallGraph) := do
  let key := Session.callGraphKey entries
  match (← get).callGraphs.lookup key with
  | some g => return some g
  | none =>
    if cancelled && !entries.isEmpty then return none
    else
      let g ← ask (Memo.callGraph · entries)
      modify fun a => { a with callGraphs := a.callGraphs ++ [(key, g)] }
      g.failures.forM fun (ref, e) => addError ref.render e.message
      say .info ("Built " ++ toString g.methods.length ++ " reachable methods (" ++
        toString g.unresolved.length ++ " call sites without callee)")
      return some g

/-- Whether an error was recorded. -/
def hasErrors (a : Analyzer) : Bool := a.errors.any fun (_, texts) => !texts.isEmpty

/-- The methods that the settings name as entry points, sorted. -/
def entryMethods (a : Analyzer) : List MethodRef :=
  a.table.methods.filter fun ref => a.settings.isEntryPoint (.ofMethod ref)

/-! ## Tabulation -/

/-- The methods that a call is analyzed in: its targets with a flow graph, unless rules say what the
call does. -/
def targets (rules : RuleSet) (g : FlowGraph) (i : Nat) :
    StateM Analyzer (Option (List MethodRef)) :=
  match TaintProblem.actionAt g i with
  | .invoke _ c =>
    if (CallRules.of rules c).isOpaque then return some []
    else return (← callees c).toOption
  | _ => return some []

/-- The flow graph of a method that the memo gives. -/
def graphOf (a : Analyzer) (ref : MethodRef) : FlowGraph :=
  (((Memo.graph a.table ref).run a.memo).1.toOption).getD default

/-- The data flow problem of some rules, with the flow graphs and the targets that are kept. -/
def flowProblem (a : Analyzer) (rules : RuleSet) (k : Int) : FlowProblem Fact :=
  { (⟨⟨a.table, ∅⟩, rules, k⟩ : TaintProblem).flowProblem with
    graph := a.graphOf
    callees := fun g i => ((targets rules g i).run a).1 }

/-- Processes the next path edge, if one waits. If it is at a call then the targets are asked for
first. -/
def step (rules : RuleSet) (k : Int) (retain : Bool) (s : Tabulation Fact) :
    StateM Analyzer (Tabulation Fact) := do
  match s.next? with
  | none => return s
  | some e =>
    let found ← targets rules ((← get).graphOf e.method) e.node
    let P := (← get).flowProblem rules k
    return FlowProblem.step { P with callees := fun _ _ => found } retain s

/-- Processes at most `n` path edges. -/
def run (rules : RuleSet) (k : Int) (retain : Bool) :
    Nat → Tabulation Fact → StateM Analyzer (Tabulation Fact)
  | 0, s => return s
  | n + 1, s =>
    if s.pending = 0 then return s
    else do
      let s ← step rules k retain s
      run rules k retain n s

/-- Tabulates a taint problem from some entry methods. -/
def tabulate (rules : RuleSet) (k : Int) (retain : Bool) (budget : Int) (cancelled : Bool)
    (entries : List MethodRef) : StateM Analyzer (Tabulation Fact × SolveOutcome) := do
  let s := ((← get).flowProblem rules k).start retain entries
  if s.pending = 0 then return (s, .complete)
  else if cancelled then return (s, .cancelled)
  else
    let steps := if budget > 0 then budget.toNat else FlowProblem.unlimited
    let s ← run rules k retain steps s
    return (s, if s.pending = 0 then .complete else .overBudget steps s.pending)

/-- The taint problem of some rules over the flow graphs that are kept. -/
def problem (a : Analyzer) (rules : RuleSet) (k : Int) : TaintProblem where
  code := {
    table := a.table
    graphs := a.memo.graphs.filterMap fun _ g =>
      match g with
      | .ok g => some (.ok g)
      | .error (.build e) => some (.error e)
      | .error (.lookup _) => none }
  rules := rules
  k := k

/-- Tabulates a taint problem from some entry methods, and notes what it found. -/
def solve (rules : RuleSet) (k : Int) (retain : Bool) (budget : Int) (cancelled : Bool)
    (entries : List MethodRef) : StateM Analyzer (Tabulation Fact × SolveOutcome × Statistics) := do
  let (t, outcome) ← tabulate rules k retain budget cancelled entries
  (((← get).problem rules k).unresolvedCalls t).forM fun (site, u) => say .trace
    ("Unresolved call at " ++ site.render ++ ": " ++ site.render ++ ": " ++ u.message)
  let stats := ((← get).flowProblem rules k).statistics t
  if outcome = .complete then
    say .debug ("Solver reached " ++ toString stats.reached ++ " path edges in " ++
      toString stats.methods ++ " methods (" ++ toString stats.summaries ++ " summary edges)")
  return (t, outcome, stats)

/-! ## Analyses -/

/-- The entry methods with a flow graph. -/
def entryGraphs (entries : List MethodRef) : StateM Analyzer (List MethodRef) :=
  entries.filterM fun ref => do
    match ← method ref with
    | .ok _ => return true
    | .error e =>
      say .warn ("Entry point " ++ ref.render ++ " is not analyzed: " ++ e.message)
      return false

/-- The flows of a complete tabulation, at most as many as are to be reported. -/
def finish (rules : RuleSet) (k : Int) (o : RunOptions) (t : Tabulation Fact) (stats : Statistics)
    (runId : String) : StateM Analyzer AnalysisResult := do
  let p := (← get).problem rules k
  (p.traceErrors o.provenance t).forM fun (site, e) =>
    addError site.method.render (e.message Fact.render)
  let found := p.flows o.provenance t
  let limited := o.maxAlarms > 0 && decide ((found.length : Int) > o.maxAlarms)
  let flows := if limited then found.take o.maxAlarms.toNat else found
  if limited then
    say .warn (toString found.length ++ " flows found, only " ++ toString o.maxAlarms ++
      " reported")
  let errors := (← get).errors
  note {
    level := .info
    text := "Taint analysis " ++ runId ++ " done in "
    afterTime := some (" s: " ++ toString flows.length ++ " flows, " ++ toString stats.pathEdges ++
      " path edges, " ++ toString stats.methods ++ " methods") }
  return { runId, problem := rules.name, statistics := stats, flows, errors }

/-- The taint analysis of a rule set from some entry methods. A run that uses up its budget gives a
result without flows together with the error. -/
def analyze (runId : String) (entries : List MethodRef) (rules : Option RuleSet) (o : RunOptions)
    (cancelled : Bool) : StateM Analyzer (Option AnalysisResult × Option AnalysisError) := do
  let k := if o.depth = 0 then defaultDepth else o.depth
  if !checkDepth k then return (none, some (.depth k))
  else match rules.filter (!·.isEmpty) with
    | none => return (none, some .emptyRules)
    | some rules =>
      say .info ("Starting taint analysis " ++ runId ++ " of " ++ Text.quote rules.name ++
        " from " ++ toString entries.length ++ " entry points (K = " ++ toString k ++ ")")
      match ← callGraph entries cancelled with
      | none => return (none, some .callGraph)
      | some _ =>
        let methods ← entryGraphs entries
        let (t, outcome, stats) ← solve rules k o.provenance o.budget cancelled methods
        match outcome with
        | .complete => return (some (← finish rules k o t stats runId), none)
        | .overBudget budget pending =>
          let errors := (← get).errors
          let problem := rules.name
          return (some { runId, problem, statistics := stats, errors, isPartial := true },
            some (.incomplete problem budget pending))
        | .cancelled => return (none, some .cancelled)

/-! ## Operations -/

/-- What an analyzer can be asked to do. -/
inductive Operation where
  | analyze (runId : String) (entries : List MethodRef) (rules : Option RuleSet) (o : RunOptions)
  | callGraph (entries : List MethodRef)
  | method (ref : MethodRef)
  | callees (c : Call)
  | resolve (key : CallKey)
  | knows (cls : String)
  | typeEntry (cls : String)
  | isInterface (cls : String)
  | supertypes (cls : String)
  | subtypes (cls : String)
  | isSubtype (sub super : String)
  | concreteSubtypes (cls : String)

/-- Does what is asked for. -/
def perform : Operation → StateM Analyzer Unit
  | .analyze runId entries rules o => discard (analyze runId entries rules o false)
  | .callGraph entries => discard (callGraph entries false)
  | .method ref => discard (method ref)
  | .callees c => discard (callees c)
  | .resolve key => discard (ask (Memo.resolve · key))
  | .knows cls => discard (ask (Memo.knows · cls))
  | .typeEntry cls => discard (ask (Memo.entryOf · cls))
  | .isInterface cls => discard (ask (Memo.isInterface · cls))
  | .supertypes cls => discard (ask (Memo.supertypes · cls))
  | .subtypes cls => discard (ask (Memo.subtypes · cls))
  | .isSubtype sub super => discard (ask (Memo.isSubtype · sub super))
  | .concreteSubtypes cls => discard (ask (Memo.concreteSubtypes · cls))

/-- Does one thing after the other. -/
def performAll (ops : List Operation) : StateM Analyzer Unit := ops.forM perform

end Analyzer

end JvmTaint
