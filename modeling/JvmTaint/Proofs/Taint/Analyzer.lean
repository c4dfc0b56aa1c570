import JvmTaint.Analyzer
import JvmTaint.Proofs.Memo.CallGraph
import JvmTaint.Proofs.Taint.Interchange

set_option autoImplicit false
set_option relaxedAutoImplicit false

/-!
# Sharing an analyzer is transparent

An analyzer keeps flow graphs, targets of calls, supertypes, subtypes and call graphs, and uses them
for all that follows. It is sound if all that it keeps is what would be computed. Every operation
keeps it sound, and a sound analyzer answers as if nothing were kept. So what an analyzer was used
for before does not matter for the result of an analysis.

## Main definitions

* `JvmTaint.Analyzer.Sound`: an analyzer that keeps right answers.
* `JvmTaint.Analyzer.ending`: how an analysis ends, without what depends on earlier work.

## Main results

* `JvmTaint.Analyzer.step_answers`, `JvmTaint.Analyzer.run_answers`: a step and a run of a
  tabulation.
* `JvmTaint.Analyzer.analyze_gives`: an analysis ends like that of a session.
* `JvmTaint.Analyzer.perform_gives`: operations keep an analyzer sound.
* `JvmTaint.Analyzer.sharing_transparent`: earlier operations do not change an analysis.
-/

namespace JvmTaint

/-- A step asks for the targets of the call at the path edge that it processes, and of no other. -/
lemma FlowProblem.step_withCallees (P : FlowProblem Fact) (retain : Bool) {s : Tabulation Fact}
    {e : PathEdge Fact} (h : s.next? = some e) :
    FlowProblem.step { P with callees := fun _ _ => P.callees (P.graph e.method) e.node } retain s =
      P.step retain s := by
  unfold FlowProblem.step
  rw [h]
  rfl

/-- The result, apart from the name of the run and from the errors recorded so far. -/
def AnalysisResult.findings (r : AnalysisResult) : AnalysisResult :=
  { r with runId := "", errors := [] }

namespace Analyzer

/-- How an analysis ends: with which findings and which error. -/
def ending (r : Option AnalysisResult × Option AnalysisError) :
    Option AnalysisResult × Option AnalysisError := (r.1.map (·.findings), r.2)

/-- All that an analyzer of a program keeps is what would be computed. -/
structure Sound (t : ClassTable) (a : Analyzer) : Prop where
  table : a.table = t
  memo : a.memo.Sound t
  callGraphs : ∀ key g, a.callGraphs.lookup key = some g → ∃ entries,
    Session.callGraphKey entries = key ∧ CallGraph.build (.ofTable t) entries = g

variable {t : ClassTable}

/-- Nothing is kept at first. -/
lemma sound_new (t : ClassTable) (settings : Settings) : Sound t { table := t, settings } :=
  ⟨rfl, Memo.sound_empty t, by simp⟩

/-- A call graph may be kept. -/
lemma Sound.addCallGraph {a : Analyzer} (ha : Sound t a) (entries : List MethodRef) :
    Sound t { a with callGraphs := a.callGraphs ++
      [(Session.callGraphKey entries, CallGraph.build (.ofTable t) entries)] } := by
  refine ⟨ha.table, ha.memo, fun key g hg => ?_⟩
  rw [List.lookup_append, Option.or_eq_some_iff] at hg
  rcases hg with hg | ⟨-, hg⟩
  · exact ha.callGraphs key g hg
  · rw [List.lookup_cons, List.lookup_nil] at hg
    split at hg
    · rename_i hkey
      exact ⟨entries, (eq_of_beq hkey).symm, Option.some.inj hg⟩
    · cases hg

/-! ## Answers -/

/-- What the memo is asked has the answer that it has. -/
lemma ask_answers {α : Type} {q : ClassTable → StateM Memo α} {answer : α}
    (h : Answers (Memo.Sound t) (q t) answer) : Answers (Sound t) (ask q) answer := by
  intro a ha
  obtain ⟨hanswer, hmemo⟩ := h a.memo ha.memo
  have htable := ha.table
  subst htable
  exact ⟨hanswer, ⟨rfl, hmemo, ha.callGraphs⟩⟩

/-- The log does not matter for what is kept. -/
lemma note_gives (e : LogEntry) : Gives (Sound t) (note e) fun _ => True :=
  Gives.modify fun _ ha => ⟨ha.table, ha.memo, ha.callGraphs⟩

lemma say_gives (level : LogLevel) (text : String) :
    Gives (Sound t) (say level text) fun _ => True := note_gives { level, text }

lemma addError_gives (key text : String) :
    Gives (Sound t) (addError key text) fun _ => True :=
  Gives.modify fun _ ha => ⟨ha.table, ha.memo, ha.callGraphs⟩

/-- The flow graph of a method is that of the program. -/
lemma method_answers (ref : MethodRef) :
    Answers (Sound t) (method ref) ((CodeBase.ofTable t).graph ref) := by
  refine (ask_answers (Memo.graph_answers ref)).bind ?_
  cases (CodeBase.ofTable t).graph ref with
  | ok g => exact Answers.pure _
  | error e =>
    dsimp only
    split
    · exact Answers.after (addError_gives _ _) (Answers.pure _)
    · exact Answers.pure _

/-- The targets of a call with a flow graph are those of the program. -/
lemma callees_answers (c : Call) : Answers (Sound t) (callees c)
    ((t.resolve c.key).map fun r =>
      r.callees.filter fun ref => ((CodeBase.ofTable t).graph ref).toOption.isSome) := by
  refine (ask_answers (Memo.resolve_answers c.key)).bind ?_
  cases t.resolve c.key with
  | error u => exact Answers.pure _
  | ok r =>
    refine (Answers.filterM _ fun ref => ?_).bind (Answers.pure _)
    exact (method_answers ref).bind (Answers.pure _)

/-- A call graph is that of entry methods with the same key. -/
lemma callGraph_gives (entries : List MethodRef) :
    Gives (Sound t) (callGraph entries false) fun found => ∃ g entries', found = some g ∧
      Session.callGraphKey entries' = Session.callGraphKey entries ∧
      CallGraph.build (.ofTable t) entries' = g := by
  unfold callGraph
  refine Gives.get_bind fun a ha => ?_
  cases hkept : a.callGraphs.lookup (Session.callGraphKey entries) with
  | some g =>
    obtain ⟨entries', hkey, hg⟩ := ha.callGraphs _ g hkept
    exact Gives.pure ⟨g, entries', rfl, hkey, hg⟩
  | none =>
    simp only [Bool.false_and, Bool.false_eq_true, ↓reduceIte]
    refine (ask_answers (Memo.callGraph_answers entries)).gives_bind ?_
    refine (Gives.modify fun a ha => ha.addCallGraph entries).bind fun _ _ => ?_
    refine (Gives.forM (fun x => addError_gives _ _) _).bind fun _ _ => ?_
    exact (say_gives _ _).bind fun _ _ => Gives.pure ⟨_, entries, rfl, rfl, rfl⟩

/-! ## Tabulation -/

variable (rules : RuleSet) (k : Int)

/-- The methods that a call is analyzed in are those of the program. -/
lemma targets_answers (g : FlowGraph) (i : Nat) : Answers (Sound t) (targets rules g i)
    ((⟨.ofTable t, rules, k⟩ : TaintProblem).callees g i) := by
  unfold targets TaintProblem.callees
  cases TaintProblem.actionAt g i with
  | invoke lhs c =>
    refine Answers.ite (Answers.pure _) ((callees_answers c).bind ?_)
    rw [show (CodeBase.ofTable t).table = t from rfl]
    cases t.resolve c.key <;> exact Answers.pure _
  | _ => exact Answers.pure _

variable {a : Analyzer}

/-- The flow graphs that are kept are those of the program. -/
lemma graphOf_eq (ha : Sound t a) :
    a.graphOf = (⟨.ofTable t, rules, k⟩ : TaintProblem).graph := by
  funext ref
  have htable := ha.table
  subst htable
  unfold graphOf TaintProblem.graph
  rw [show _ = _ from (Memo.graph_answers ref a.memo ha.memo).1]
  cases (CodeBase.ofTable a.table).graph ref <;> rfl

/-- The data flow problem of a sound analyzer is that of the program. -/
lemma flowProblem_eq (ha : Sound t a) : a.flowProblem rules k =
    (⟨.ofTable t, rules, k⟩ : TaintProblem).flowProblem := by
  have hcallees : (fun g i => ((targets rules g i).run a).1) =
      (⟨.ofTable t, rules, k⟩ : TaintProblem).callees :=
    funext fun g => funext fun i => (targets_answers rules k g i a ha).1
  unfold flowProblem
  rw [graphOf_eq rules k ha, hcallees]
  rfl

/-- A step with the answers of an analyzer is a step of the tabulation. -/
lemma step_answers (retain : Bool) (s : Tabulation Fact) :
    Answers (Sound t) (step rules k retain s)
      ((⟨.ofTable t, rules, k⟩ : TaintProblem).flowProblem.step retain s) := by
  unfold step
  cases hnext : s.next? with
  | none =>
    rw [FlowProblem.step, hnext]
    exact Answers.pure _
  | some e =>
    refine Gives.get_bind fun a ha => ?_
    rw [graphOf_eq rules k ha]
    refine (targets_answers rules k _ _).gives_bind (Gives.get_bind fun a' ha' => Gives.pure ?_)
    rw [flowProblem_eq rules k ha']
    exact FlowProblem.step_withCallees _ retain hnext

/-- A run with the answers of an analyzer is a run of the tabulation. -/
lemma run_answers (retain : Bool) (n : Nat) (s : Tabulation Fact) :
    Answers (Sound t) (run rules k retain n s)
      ((⟨.ofTable t, rules, k⟩ : TaintProblem).flowProblem.run retain n s) := by
  induction n generalizing s with
  | zero => exact Answers.pure _
  | succ n ih =>
    unfold run FlowProblem.run
    exact Answers.ite (Answers.pure _) ((step_answers rules k retain s).bind (ih _))

/-- A tabulation with the answers of an analyzer is that of the program. -/
lemma tabulate_answers (retain : Bool) (budget : Int) (cancelled : Bool)
    (entries : List MethodRef) : Answers (Sound t)
      (tabulate rules k retain budget cancelled entries)
      ((⟨.ofTable t, rules, k⟩ : TaintProblem).flowProblem.solve retain budget cancelled
        entries) := by
  unfold tabulate FlowProblem.solve
  refine Gives.get_bind fun a ha => ?_
  rw [flowProblem_eq rules k ha]
  dsimp only
  refine Answers.ite (Answers.pure _) (Answers.ite (Answers.pure _) ?_)
  exact (run_answers rules k retain _ _).bind (Answers.pure _)

/-- The flow graphs that are kept may stand for those of the program. -/
lemma interchangeable (ha : Sound t a) :
    (a.problem rules k).code.Interchangeable (.ofTable t) := by
  have htable : (a.problem rules k).code.table = t := ha.table
  refine ⟨funext fun ref => ?_, ?_, ?_, ?_⟩
  · have hkept := ha.memo.graphs ref
    rw [CodeBase.graph_ofTable] at hkept ⊢
    unfold CodeBase.graph
    rw [htable]
    cases hbody : t.body ref with
    | error e => rfl
    | ok body =>
      simp only [hbody, Except.mapError, Except.bind, problem,
        Std.HashMap.getElem?_filterMap'] at hkept ⊢
      cases hgraph : a.memo.graphs[ref]? with
      | none => cases FlowGraph.build (some t) body <;> rfl
      | some g =>
        rw [hkept g hgraph]
        cases FlowGraph.build (some t) body <;> rfl
  all_goals
    rw [htable]
    rfl

/-- A tabulation is noted, with its statistics. -/
lemma solve_answers (retain : Bool) (budget : Int) (cancelled : Bool) (entries : List MethodRef) :
    Answers (Sound t) (solve rules k retain budget cancelled entries)
      (let P := (⟨.ofTable t, rules, k⟩ : TaintProblem).flowProblem
        let r := P.solve retain budget cancelled entries
        (r.1, r.2, P.statistics r.1)) := by
  have htab := tabulate_answers (t := t) rules k retain budget cancelled entries
  dsimp only
  generalize (TaintProblem.flowProblem _).solve retain budget cancelled entries = r at htab ⊢
  obtain ⟨tab, outcome⟩ := r
  refine htab.bind (Gives.get_bind fun a ha => ?_)
  refine (Gives.forM (fun _ => say_gives _ _) _).bind fun _ _ => ?_
  refine Gives.get_bind fun a' ha' => ?_
  rw [flowProblem_eq rules k ha']
  dsimp only
  split
  · exact (say_gives _ _).bind fun _ _ => Gives.pure rfl
  · exact Gives.pure rfl

/-! ## Analyses -/

/-- The entry methods with a flow graph are those of the program. -/
lemma entryGraphs_answers (entries : List MethodRef) : Answers (Sound t) (entryGraphs entries)
    (({ code := .ofTable t } : Session).roots entries) := by
  refine Answers.filterM _ fun ref => (method_answers ref).bind ?_
  rw [show (({ code := .ofTable t } : Session).code) = .ofTable t from rfl]
  cases (CodeBase.ofTable t).graph ref with
  | ok g => exact Answers.pure _
  | error e => exact Answers.after (say_gives _ _) (Answers.pure _)

/-- The flows of a complete tabulation are those that a session finds. -/
lemma finish_gives (o : RunOptions) (tab : Tabulation Fact)
    (runId : String) (s : Session) :
    let p : TaintProblem := ⟨.ofTable t, rules, k⟩
    Gives (Sound t) (finish rules k o tab (p.flowProblem.statistics tab) runId) fun r =>
      r.findings = (s.finish p o tab "").2.findings := by
  refine Gives.get_bind fun a ha => ?_
  refine (Gives.forM (fun _ => addError_gives _ _) _).bind fun _ _ => ?_
  rw [show (a.problem rules k).flows = (⟨.ofTable t, rules, k⟩ : TaintProblem).flows from
    (interchangeable rules k ha).flows_eq rules k]
  unfold Session.finish
  dsimp only
  generalize (⟨.ofTable t, rules, k⟩ : TaintProblem).flows o.provenance tab = flows
  split
  · exact (say_gives _ _).bind fun _ _ => Gives.get_bind fun _ _ =>
      (note_gives _).bind fun _ _ => Gives.pure rfl
  · exact Gives.get_bind fun _ _ => (note_gives _).bind fun _ _ => Gives.pure rfl

/-- **Analyses.** An analysis with the answers of an analyzer ends like that of a new session. -/
lemma analyze_gives (runId : String) (entries : List MethodRef) (rules : Option RuleSet)
    (o : RunOptions) :
    let new : Session := { code := .ofTable t }
    Gives (Sound t) (analyze runId entries rules o false) fun r =>
      ending r = ending (new.analyze "" entries rules o false).2 := by
  intro new
  cases rules with
  | none =>
    unfold analyze Session.analyze
    rw [show (if o.depth = 0 then defaultDepth else o.depth) = o.bound from rfl]
    dsimp only
    cases checkDepth o.bound <;> exact fun _ ha => ⟨rfl, ha⟩
  | some rules =>
    obtain ⟨s, hanalyze⟩ := new.analyze_eq "" entries rules o false
    rw [hanalyze]
    unfold analyze
    rw [show (if o.depth = 0 then defaultDepth else o.depth) = o.bound from rfl]
    dsimp only
    cases checkDepth o.bound with
    | false => exact fun _ ha => ⟨rfl, ha⟩
    | true =>
      cases hrules : rules.isEmpty with
      | true =>
        simp only [Option.filter_some, hrules]
        exact fun _ ha => ⟨rfl, ha⟩
      | false =>
        have hsome := (new.callGraph_false entries).2
        simp only [Option.filter_some, hrules, Option.isNone_eq_false_iff.mpr hsome, Bool.not_false,
          Bool.not_true, Bool.false_eq_true, ↓reduceIte]
        refine (say_gives _ _).bind fun _ _ => ?_
        refine (callGraph_gives entries).bind fun found hfound => ?_
        obtain ⟨g, -, rfl, -⟩ := hfound
        refine (entryGraphs_answers entries).gives_bind ?_
        refine (solve_answers rules o.bound o.provenance o.budget false _).gives_bind ?_
        rw [Session.tabulate, Session.problem]
        dsimp only
        generalize (TaintProblem.flowProblem _).solve o.provenance o.budget false _ = r
        obtain ⟨tab, outcome⟩ := r
        cases outcome with
        | complete =>
          refine (finish_gives rules o.bound o tab runId s).bind fun r hr => Gives.pure ?_
          exact congrArg (fun r => (some r, none)) hr
        | overBudget budget pending => exact Gives.get_bind fun _ _ => Gives.pure rfl
        | cancelled => exact Gives.pure rfl

/-! ## Operations -/

/-- Every operation keeps an analyzer sound. -/
lemma perform_gives (op : Operation) : Gives (Sound t) (perform op) fun _ => True := by
  cases op with
  | analyze runId entries rules o => exact (analyze_gives runId entries rules o).discard
  | callGraph entries => exact (callGraph_gives entries).discard
  | method ref => exact (method_answers ref).discard
  | callees c => exact (callees_answers c).discard
  | resolve key => exact (ask_answers (Memo.resolve_answers key)).discard
  | knows cls => exact (ask_answers (Memo.knows_answers cls)).discard
  | typeEntry cls => exact (ask_answers (Memo.entryOf_answers cls)).discard
  | isInterface cls => exact (ask_answers (Memo.isInterface_answers cls)).discard
  | supertypes cls => exact (ask_answers (Memo.supertypes_answers cls)).discard
  | subtypes cls => exact (ask_answers (Memo.subtypes_answers cls)).discard
  | isSubtype sub super => exact (ask_answers (Memo.isSubtype_answers sub super)).discard
  | concreteSubtypes cls => exact (ask_answers (Memo.concreteSubtypes_answers cls)).discard

/-- A run of operations keeps an analyzer sound. -/
lemma performAll_gives (ops : List Operation) :
    Gives (Sound t) (performAll ops) fun _ => True :=
  Gives.forM perform_gives ops

/-- **Sharing is transparent.** After any operations on an analyzer, all that it keeps is what would
be computed, and an analysis ends with the same flows, traces, statistics and error as on an
analyzer that has not been used. -/
theorem sharing_transparent (t : ClassTable) (settings : Settings) (ops : List Operation)
    (runId runId' : String) (entries : List MethodRef) (rules : Option RuleSet) (o : RunOptions) :
    let fresh : Analyzer := { table := t, settings }
    let used := ((performAll ops).run fresh).2
    Sound t used ∧
      ending ((analyze runId entries rules o false).run used).1 =
        ending ((analyze runId' entries rules o false).run fresh).1 := by
  intro fresh used
  have hfresh : Sound t fresh := sound_new t settings
  have hused : Sound t used := (performAll_gives ops fresh hfresh).2
  exact ⟨hused, (analyze_gives runId entries rules o used hused).1.trans
    (analyze_gives runId' entries rules o fresh hfresh).1.symm⟩

end Analyzer

end JvmTaint
