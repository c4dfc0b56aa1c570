import JvmTaint.Proofs.ClassFile.DeclarationOrder
import JvmTaint.Proofs.Taint.Reports

set_option autoImplicit false
set_option relaxedAutoImplicit false

/-!
# Code bases that can be interchanged

A session asks its code base for the flow graphs of methods and for the targets of calls, and for
nothing else. So sessions with code bases that answer alike go on alike: their analyses have the
same results, and leave behind the same errors, call graphs, counters and log.

## Main definitions

* `JvmTaint.CodeBase.Interchangeable`: two code bases that answer alike.
* `JvmTaint.Session.withCode`: a session with another code base.

## Main results

* `JvmTaint.CodeBase.Interchangeable.callGraph_eq`: call graphs are the same.
* `JvmTaint.Session.analyze_withCode`: analyses are the same.
* `JvmTaint.ClassTable.Agree.interchangeable`: tables that agree have flow graphs and targets of
  calls that are the same.
-/

namespace JvmTaint

/-- The code bases have the same flow graphs and the same targets of calls, and resolving a call
takes the same work. -/
structure CodeBase.Interchangeable (c c' : CodeBase) : Prop where
  graph : c.graph = c'.graph
  resolve : c.table.resolve = c'.table.resolve
  resolveLookups : c.table.resolveLookups = c'.table.resolveLookups
  size : c.table.bodies.size = c'.table.bodies.size

lemma CodeBase.Interchangeable.symm {c c' : CodeBase} (h : c.Interchangeable c') :
    c'.Interchangeable c :=
  ⟨h.graph.symm, h.resolve.symm, h.resolveLookups.symm, h.size.symm⟩

/-- Code bases with the same classes and flow graphs are interchangeable. -/
lemma CodeBase.Agrees.interchangeable {c c' : CodeBase} (h : c.Agrees c') :
    c.Interchangeable c' := by
  refine ⟨funext h.graph, ?_, ?_, ?_⟩ <;> rw [h.table]

/-! ## Call graphs -/

namespace CodeBase.Interchangeable

variable {c c' : CodeBase} (h : c.Interchangeable c')
include h

/-- The calls of a flow graph have the same targets. -/
lemma edgesOf_eq : c.edgesOf = c'.edgesOf := by
  funext g
  unfold edgesOf
  rw [h.resolve]

lemma unresolvedOf_eq : c.unresolvedOf = c'.unresolvedOf := by
  funext g
  unfold unresolvedOf
  rw [h.resolve]

/-- Call graphs are the same. -/
lemma callGraph_eq : CallGraph.build c = CallGraph.build c' := by
  have hcallees : c.calleesOf = c'.calleesOf := by
    funext ref
    unfold calleesOf
    rw [h.graph, h.edgesOf_eq]
  have hreached : CallGraph.reached c = CallGraph.reached c' := by
    funext entries
    unfold CallGraph.reached
    rw [hcallees, h.size]
  funext entries
  unfold CallGraph.build
  rw [hreached, h.graph, h.edgesOf_eq, h.unresolvedOf_eq]

/-- Resolving a call takes the same work. -/
lemma ledgerResolve_eq : Ledger.resolve c.table = Ledger.resolve c'.table := by
  funext l k
  unfold Ledger.resolve
  rw [h.resolveLookups]

/-- Building a call graph takes the same work. -/
lemma explore_eq : Ledger.explore c = Ledger.explore c' := by
  funext l g
  unfold Ledger.explore Ledger.exploreMethod
  rw [h.graph, h.ledgerResolve_eq]

variable (rules : RuleSet) (k : Int)

lemma graph_eq :
    (⟨c, rules, k⟩ : TaintProblem).graph = (⟨c', rules, k⟩ : TaintProblem).graph := by
  funext ref
  unfold TaintProblem.graph
  rw [show (⟨c, rules, k⟩ : TaintProblem).code.graph = c.graph from rfl, h.graph]

/-- The data flow problem is the same. -/
lemma flowProblem_eq :
    (⟨c, rules, k⟩ : TaintProblem).flowProblem = (⟨c', rules, k⟩ : TaintProblem).flowProblem := by
  have hcallees : (⟨c, rules, k⟩ : TaintProblem).callees =
      (⟨c', rules, k⟩ : TaintProblem).callees := by
    funext g i
    simp only [TaintProblem.callees, h.graph, h.resolve]
  unfold TaintProblem.flowProblem
  rw [h.graph_eq, hcallees]
  rfl

/-- The same calls are unresolved. -/
lemma unresolvedCalls_eq (t : Tabulation Fact) :
    (⟨c, rules, k⟩ : TaintProblem).unresolvedCalls t =
      (⟨c', rules, k⟩ : TaintProblem).unresolvedCalls t := by
  unfold TaintProblem.unresolvedCalls
  rw [h.flowProblem_eq, h.graph_eq, h.resolve]

/-- The same hits are found. -/
lemma hits_eq (t : Tabulation Fact) :
    (⟨c, rules, k⟩ : TaintProblem).hits t = (⟨c', rules, k⟩ : TaintProblem).hits t := by
  have hhit : (⟨c, rules, k⟩ : TaintProblem).hit? = (⟨c', rules, k⟩ : TaintProblem).hit? := by
    funext e
    unfold TaintProblem.hit? TaintProblem.reports
    rw [h.graph_eq]
    rfl
  unfold TaintProblem.hits
  rw [hhit]

/-- A hit has the same flow. -/
lemma flowOf_eq :
    (⟨c, rules, k⟩ : TaintProblem).flowOf = (⟨c', rules, k⟩ : TaintProblem).flowOf := by
  funext provenance t hit
  unfold TaintProblem.flowOf
  rw [h.flowProblem_eq]

/-- A tabulation has the same flows. -/
lemma flows_eq :
    (⟨c, rules, k⟩ : TaintProblem).flows = (⟨c', rules, k⟩ : TaintProblem).flows := by
  funext provenance t
  unfold TaintProblem.flows
  rw [h.hits_eq, h.flowOf_eq]

end CodeBase.Interchangeable

/-! ## Sessions -/

namespace Session

/-- The session with another code base. -/
def withCode (s : Session) (c : CodeBase) : Session := { s with code := c }

/-- The program stays the same when the targets of a call are looked up. -/
@[simp] lemma callees_code (s : Session) (call : Call) : (s.callees call).1.code = s.code := by
  unfold callees
  dsimp only
  split
  · rfl
  · exact foldl_code (fun s ref => method_code ref) _

/-- Looks up the targets of the call at a path edge, if it is analyzed in them. -/
def accountAt (p : TaintProblem) (s : Session) (e : PathEdge Fact) : Session :=
  match TaintProblem.actionAt (p.graph e.method) e.node with
  | .invoke _ call => if (CallRules.of p.rules call).isOpaque then s else (s.callees call).1
  | _ => s

lemma accountAt_code (p : TaintProblem) (s : Session) (e : PathEdge Fact) :
    (accountAt p s e).code = s.code := by
  unfold accountAt
  split
  · split
    · rfl
    · exact callees_code s _
  · rfl

lemma account_eq (s : Session) (p : TaintProblem) (t : Tabulation Fact) :
    s.account p t = (p.flowProblem.processedCalls t).foldl (accountAt p) s := rfl

lemma account_code (s : Session) (p : TaintProblem) (t : Tabulation Fact) :
    (s.account p t).code = s.code := foldl_code (accountAt_code p) _

/-- The program stays the same when a problem is tabulated. -/
lemma solve_code (s : Session) (p : TaintProblem) (provenance : Bool) (budget : Int)
    (cancelled : Bool) (entries : List MethodRef) :
    (s.solve p provenance budget cancelled entries).1.code = s.code := by
  unfold solve
  dsimp only
  have hreading : ∀ (s : Session) (calls : List (Site × UnresolvedCall)),
      (calls.foldl (fun s u => s.say .trace
        ("Unresolved call at " ++ u.1.render ++ ": " ++ u.1.render ++ ": " ++ u.2.message))
        s).code = s.code := by
    intro s calls
    refine foldl_code (fun _ _ => ?_) calls
    rfl
  have hsaid (s : Session) (level : LogLevel) (text : String) : (s.say level text).code = s.code :=
    rfl
  split
  · rw [hsaid, hreading, account_code]
  · rw [hreading, account_code]

/-- The tabulation and the end of an analysis that has its call graph. -/
def conclude (s : Session) (runId : String) (entries : List MethodRef) (rules : RuleSet)
    (o : RunOptions) (cancelled : Bool) : Session × Option AnalysisResult × Option AnalysisError :=
  let (s, methods) := s.entryGraphs entries
  let p : TaintProblem := { code := s.code, rules, k := o.bound }
  let (s, t, outcome) := s.solve p o.provenance o.budget cancelled methods
  match outcome with
  | .complete =>
    let (s, result) := s.finish p o t runId
    (s, some result, none)
  | .overBudget budget pending =>
    (s, some { runId, problem := rules.name, statistics := p.flowProblem.statistics t,
               errors := s.errors, isPartial := true },
      some (.incomplete rules.name budget pending))
  | .cancelled => (s, none, some .cancelled)

/-- An analysis builds its call graph first. -/
lemma analyze_eq_conclude (s : Session) (runId : String) (entries : List MethodRef)
    (rules : Option RuleSet) (o : RunOptions) (cancelled : Bool) :
    s.analyze runId entries rules o cancelled =
      if !checkDepth o.bound then (s, none, some (.depth o.bound))
      else match rules.filter (!·.isEmpty) with
        | none => (s, none, some .emptyRules)
        | some rules =>
          let s := s.say .info ("Starting taint analysis " ++ runId ++ " of " ++
            Text.quote rules.name ++ " from " ++ toString entries.length ++ " entry points (K = " ++
            toString o.bound ++ ")")
          match s.callGraph entries cancelled with
          | (s, none) => (s, none, some .callGraph)
          | (s, some _) => s.conclude runId entries rules o cancelled := rfl

variable {s : Session} {c : CodeBase}

/-- Steps that do not notice the code base can be taken one after another. -/
lemma foldl_withCode {α : Type} (step : Session → α → Session)
    (hcode : ∀ s x, (step s x).code = s.code)
    (hstep : ∀ s x, s.code.Interchangeable c → step (s.withCode c) x = (step s x).withCode c)
    (h : s.code.Interchangeable c) (xs : List α) :
    xs.foldl step (s.withCode c) = (xs.foldl step s).withCode c := by
  induction xs generalizing s with
  | nil => rfl
  | cons x xs ih =>
    rw [List.foldl_cons, List.foldl_cons, hstep s x h]
    exact ih (hcode s x ▸ h)

variable (h : s.code.Interchangeable c)
include h

lemma method_withCode (ref : MethodRef) :
    (s.withCode c).method ref = ((s.method ref).1.withCode c, (s.method ref).2) := by
  unfold method
  rw [show (s.withCode c).code = c from rfl]
  dsimp only
  rw [← h.graph]
  cases s.code.graph ref with
  | ok g => rfl
  | error e =>
    dsimp only
    split <;> rfl

lemma callees_withCode (call : Call) :
    (s.withCode c).callees call = ((s.callees call).1.withCode c, (s.callees call).2) := by
  unfold callees
  rw [show (s.withCode c).code = c from rfl]
  dsimp only
  rw [← h.resolve, ← h.graph, ← h.ledgerResolve_eq]
  cases s.code.table.resolve call.key with
  | error u => rfl
  | ok r =>
    refine Prod.ext ?_ rfl
    exact foldl_withCode (s := { s with ledger := s.ledger.resolve s.code.table call.key })
      (fun s ref => (s.method ref).1) (fun s ref => method_code ref)
      (fun s ref h => congrArg Prod.fst (method_withCode h ref)) h _

lemma callGraph_withCode (entries : List MethodRef) (cancelled : Bool) :
    (s.withCode c).callGraph entries cancelled =
      ((s.callGraph entries cancelled).1.withCode c, (s.callGraph entries cancelled).2) := by
  unfold callGraph
  rw [show (s.withCode c).code = c from rfl,
    show (s.withCode c).callGraphs = s.callGraphs from rfl]
  dsimp only
  rw [← h.callGraph_eq, ← h.explore_eq]
  cases s.callGraphs.lookup (callGraphKey entries) with
  | some g => rfl
  | none =>
    dsimp only
    split
    · rfl
    · have hfailures := foldl_withCode (s := { s with
          ledger := s.ledger.explore s.code (CallGraph.build s.code entries)
          callGraphs := s.callGraphs ++ [(callGraphKey entries, CallGraph.build s.code entries)] })
        (fun s (r : MethodRef × GraphError) => s.addError r.1.render r.2.message) (fun _ _ => rfl)
        (fun _ _ _ => rfl) h (CallGraph.build s.code entries).failures
      exact Prod.ext (congrArg (say · .info _) hfailures) rfl

lemma entryGraphs_withCode (entries : List MethodRef) :
    (s.withCode c).entryGraphs entries =
      ((s.entryGraphs entries).1.withCode c, (s.entryGraphs entries).2) := by
  have hfold : ∀ (s : Session) (found : List MethodRef), s.code.Interchangeable c →
      entries.foldl lookUpEntry (s.withCode c, found) =
        ((entries.foldl lookUpEntry (s, found)).1.withCode c,
          (entries.foldl lookUpEntry (s, found)).2) := by
    induction entries with
    | nil => exact fun _ _ _ => rfl
    | cons ref entries ih =>
      intro s found h
      have hstep : lookUpEntry (s.withCode c, found) ref =
          ((lookUpEntry (s, found) ref).1.withCode c, (lookUpEntry (s, found) ref).2) := by
        unfold lookUpEntry
        rw [method_withCode h]
        rcases s.method ref with ⟨s', e | g⟩ <;> rfl
      rw [List.foldl_cons, List.foldl_cons, hstep]
      exact ih _ _ ((lookUpEntry_eq (s, found) ref).1 ▸ h)
  exact hfold s [] h

lemma account_withCode (rules : RuleSet) (k : Int) (t : Tabulation Fact) :
    (s.withCode c).account ⟨c, rules, k⟩ t = (s.account ⟨s.code, rules, k⟩ t).withCode c := by
  have hat : accountAt ⟨c, rules, k⟩ = accountAt ⟨s.code, rules, k⟩ := by
    unfold accountAt
    rw [h.graph_eq]
  rw [account_eq, account_eq, ← h.flowProblem_eq, hat]
  refine foldl_withCode _ (accountAt_code _) (fun s e h => ?_) h _
  unfold accountAt
  split
  · split
    · rfl
    · exact congrArg Prod.fst (callees_withCode h _)
  · rfl

lemma solve_withCode (rules : RuleSet) (k : Int) (provenance : Bool) (budget : Int)
    (cancelled : Bool) (entries : List MethodRef) :
    (s.withCode c).solve ⟨c, rules, k⟩ provenance budget cancelled entries =
      ((s.solve ⟨s.code, rules, k⟩ provenance budget cancelled entries).1.withCode c,
        (s.solve ⟨s.code, rules, k⟩ provenance budget cancelled entries).2) := by
  unfold solve
  rw [← h.flowProblem_eq]
  generalize (⟨s.code, rules, k⟩ : TaintProblem).flowProblem.solve provenance budget cancelled
    entries = r
  obtain ⟨t, outcome⟩ := r
  have hcode := s.account_code ⟨s.code, rules, k⟩ t
  have hreading := foldl_withCode (s := s.account ⟨s.code, rules, k⟩ t)
    (fun s (u : Site × UnresolvedCall) => s.say .trace
      ("Unresolved call at " ++ u.1.render ++ ": " ++ u.1.render ++ ": " ++ u.2.message))
    (fun _ _ => rfl) (fun _ _ _ => rfl) (hcode ▸ h)
    ((⟨s.code, rules, k⟩ : TaintProblem).unresolvedCalls t)
  dsimp only
  rw [← h.unresolvedCalls_eq, account_withCode h, hreading]
  split <;> rfl

lemma finish_withCode (rules : RuleSet) (k : Int) (o : RunOptions) (t : Tabulation Fact)
    (runId : String) :
    (s.withCode c).finish ⟨c, rules, k⟩ o t runId =
      ((s.finish ⟨s.code, rules, k⟩ o t runId).1.withCode c,
        (s.finish ⟨s.code, rules, k⟩ o t runId).2) := by
  have herrors : (⟨c, rules, k⟩ : TaintProblem).traceErrors o.provenance t =
      (⟨s.code, rules, k⟩ : TaintProblem).traceErrors o.provenance t := by
    unfold TaintProblem.traceErrors
    rw [h.hits_eq, h.flowOf_eq]
  have hfold := foldl_withCode (s := s)
    (fun s (r : Site × TraceError Fact) => s.addError r.1.method.render (r.2.message Fact.render))
    (fun _ _ => rfl) (fun _ _ _ => rfl) h
    ((⟨s.code, rules, k⟩ : TaintProblem).traceErrors o.provenance t)
  unfold finish
  dsimp only
  rw [← h.flows_eq, herrors, ← h.flowProblem_eq, hfold]
  split <;> rfl

/-- The tabulation and the end of an analysis that has its call graph. -/
lemma conclude_withCode (runId : String) (entries : List MethodRef) (rules : RuleSet)
    (o : RunOptions) (cancelled : Bool) :
    (s.withCode c).conclude runId entries rules o cancelled =
      ((s.conclude runId entries rules o cancelled).1.withCode c,
        (s.conclude runId entries rules o cancelled).2) := by
  unfold conclude
  rw [entryGraphs_withCode h]
  have h₁ : (s.entryGraphs entries).1.code.Interchangeable c := (entryGraphs_eq s entries).1 ▸ h
  generalize s.entryGraphs entries = r at h₁
  obtain ⟨s₁, methods⟩ := r
  dsimp only at h₁ ⊢
  rw [show (s₁.withCode c).code = c from rfl, solve_withCode h₁]
  have h₂ := s₁.solve_code ⟨s₁.code, rules, o.bound⟩ o.provenance o.budget cancelled methods
  generalize s₁.solve ⟨s₁.code, rules, o.bound⟩ o.provenance o.budget cancelled methods = r at h₂
  obtain ⟨s₂, t, outcome⟩ := r
  dsimp only at h₂ ⊢
  cases outcome with
  | complete =>
    dsimp only
    rw [← h₂] at h₁ ⊢
    rw [finish_withCode h₁]
  | overBudget budget pending =>
    dsimp only
    rw [← h₁.flowProblem_eq]
    rfl
  | cancelled => rfl

/-- **Interchangeable code bases.** A session with an interchangeable code base goes on alike: its
analyses end with the same results and errors, and leave the same session behind apart from the code
base. -/
lemma analyze_withCode (runId : String) (entries : List MethodRef) (rules : Option RuleSet)
    (o : RunOptions) (cancelled : Bool) :
    (s.withCode c).analyze runId entries rules o cancelled =
      ((s.analyze runId entries rules o cancelled).1.withCode c,
        (s.analyze runId entries rules o cancelled).2) := by
  rw [analyze_eq_conclude, analyze_eq_conclude]
  cases checkDepth o.bound with
  | false => rfl
  | true =>
    cases rules.filter (!·.isEmpty) with
    | none => rfl
    | some rules =>
      simp only [Bool.not_true, Bool.false_eq_true, ↓reduceIte]
      rw [show ∀ text, (s.withCode c).say .info text = (s.say .info text).withCode c from
        fun _ => rfl]
      generalize hs₁ : s.say .info _ = s₁
      have h₁ : s₁.code.Interchangeable c := hs₁ ▸ h
      rw [callGraph_withCode h₁]
      have hcode := callGraph_code s₁ entries cancelled
      generalize s₁.callGraph entries cancelled = r at hcode
      obtain ⟨s₂, _ | g⟩ := r
      · rfl
      · exact conclude_withCode (hcode ▸ h₁) runId entries rules o cancelled

end Session

/-! ## Tables that agree -/

/-- Building a flow graph asks the type hierarchy for the exceptions that handlers catch only. -/
lemma FlowGraph.build_congr {types types' : Option ClassTable}
    (h : matchHandler types = matchHandler types') :
    FlowGraph.build types = FlowGraph.build types' := by
  have hraiseTo : Wiring.raiseTo types = Wiring.raiseTo types' := by
    funext i exit raised hs
    induction hs with
    | nil => rfl
    | cons handler hs ih =>
      funext w
      unfold Wiring.raiseTo
      rw [h, ih]
  have hraise : Wiring.raise types = Wiring.raise types' := by
    funext handlers spans scopes exit w i
    unfold Wiring.raise
    rw [hraiseTo]
  have hconnect : connectAll types = connectAll types' := by
    unfold connectAll
    rw [hraise]
  unfold FlowGraph.build FlowGraph.ofCode
  rw [hconnect]

namespace ClassTable.Agree

variable {t t' : ClassTable} (h : t.Agree t')
include h

/-- Handlers catch the same exceptions. -/
lemma matchHandler_eq : matchHandler (some t) = matchHandler (some t') := by
  funext raised catchType
  unfold matchHandler
  simp only [h.knows_eq, h.isSubtype_eq]

/-- A body has the same flow graph. -/
lemma build_eq : FlowGraph.build (some t) = FlowGraph.build (some t') :=
  FlowGraph.build_congr h.matchHandler_eq

/-- The same types are interfaces. -/
lemma isInterface_eq : t.isInterface = t'.isInterface := by
  funext cls
  unfold isInterface
  rw [h.typeEntry?_eq]

/-- A class implements the same methods. -/
lemma implements_eq : t.implements = t'.implements := by
  funext sig cls
  unfold implements
  rw [h.body_eq]

/-- A class declares the same methods. -/
lemma declares_eq : t.declares = t'.declares := by
  funext sig cls
  unfold declares
  rw [h.body_eq]

/-- An implementation is looked for in the same types. -/
lemma implementationOrder_eq : t.implementationOrder = t'.implementationOrder := by
  funext cls
  unfold implementationOrder
  rw [h.superclassChain_eq, h.transitiveSupertypes_eq, h.isInterface_eq]

/-- A class uses the same method for a signature. -/
lemma select?_eq : t.select? = t'.select? := by
  funext sig cls
  unfold select?
  rw [h.implementationOrder_eq, h.implements_eq]

/-- A call has the same targets. -/
lemma resolve_eq : t.resolve = t'.resolve := by
  funext k
  unfold resolve nearest? implementations
  rw [h.superclassChain_eq, h.declares_eq, h.concreteSubtypes_eq, h.select?_eq,
    h.transitiveSubtypes_eq]

/-- Resolving a call takes the same number of lookups. -/
lemma resolveLookups_eq : t.resolveLookups = t'.resolveLookups := by
  funext k
  unfold resolveLookups
  rw [h.superclassChain_eq, h.declares_eq, h.implements_eq, h.implementationOrder_eq,
    h.concreteSubtypes_eq, h.select?_eq]

/-- Code bases of tables that agree are interchangeable. -/
lemma interchangeable : (CodeBase.ofTable t).Interchangeable (CodeBase.ofTable t') where
  graph := by
    funext ref
    rw [CodeBase.graph_ofTable, CodeBase.graph_ofTable, h.body_eq, h.build_eq]
  resolve := h.resolve_eq
  resolveLookups := h.resolveLookups_eq
  size := h.size_eq

end ClassTable.Agree

end JvmTaint
