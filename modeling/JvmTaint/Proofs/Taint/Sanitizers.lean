import JvmTaint.Proofs.Taint.AddedRules
import JvmTaint.Proofs.Taint.FlowFunctions

set_option autoImplicit false
set_option relaxedAutoImplicit false

/-!
# Adding a sanitizer

A sanitizer that is added to a rule set does two things to a call that it matches: it removes taint
from its positions, and the call is no longer analyzed in its targets. The first one only takes
taint away. The second one can add some: taint of a static field or of a field of an operand goes
through the targets of an analyzed call, where it may be overwritten, but it is kept over a call
that is not analyzed.

So an added sanitizer adds no flow if the analyzed calls that it matches give back what is kept over
them once they are not analyzed, and it may add one if they do not.

## Main definitions

* `JvmTaint.FlowProblem.GivesBack`: the analyzed calls of a problem give back the taint that is kept
  where they are not analyzed.

## Main results

* `JvmTaint.Session.reports_of_with_sanitizer`: an added sanitizer adds no flow if the calls that it
  makes opaque give back their taint.
* `JvmTaint.boxProgram_sanitizer_adds_flow`: it adds one if a call overwrites the taint.
-/

namespace JvmTaint

namespace FlowProblem

variable {δ : Type}

/-- The analyzed calls of the problem `P` give back what the problem `Q` keeps: wherever `Q` does
not analyze a call that `P` analyzes, and keeps a fact over it, `P` finds the fact after the
call. -/
def GivesBack (P Q : FlowProblem δ) (S : Set (PathEdge δ)) : Prop :=
  ∀ c ∈ S, P.targets c.site ≠ [] → Q.targets c.site = [] →
    ∀ edge ∈ P.outgoing c.site, edge.kind ≠ .exception →
      c.fact ∈ Q.callToReturn (P.graph c.method) c.node edge [] c.fact → c.along edge c.fact ∈ S

/-- Whether the analyzed calls give back what is kept, computed. -/
def givesBackIn [DecidableEq δ] (P Q : FlowProblem δ) (edges : List (PathEdge δ)) : Bool :=
  edges.all fun c =>
    (P.targets c.site).isEmpty || !(Q.targets c.site).isEmpty ||
      (P.outgoing c.site).all fun edge => edge.kind == .exception ||
        !(Q.callToReturn (P.graph c.method) c.node edge [] c.fact).contains c.fact ||
        edges.contains (c.along edge c.fact)

/-- The computed condition is about the path edges of a tabulation. -/
lemma givesBack_found [DecidableEq δ] [Hashable δ] {P Q : FlowProblem δ} {t : Tabulation δ}
    (h : P.givesBackIn Q t.edges.toList = true) : P.GivesBack Q t.found := by
  intro c hc hanalyzed hopaque edge hedge hkind hkept
  have hcall := List.all_eq_true.mp h c (Array.mem_toList_iff.mpr hc)
  simp only [Bool.or_eq_true, List.isEmpty_iff, hanalyzed, hopaque, List.isEmpty_nil, Bool.not_true,
    Bool.false_eq_true, or_self, false_or] at hcall
  have halong := List.all_eq_true.mp hcall edge hedge
  have hmem : c.along edge c.fact ∈ t.edges := by simpa [hkind, hkept] using halong
  exact hmem

end FlowProblem

namespace TaintProblem

section

variable {p : TaintProblem} {r : Rule} {g : FlowGraph} {i : Nat} {e : Edge} {lhs : Option Value}
  {c : Call} {m : String} {path : AccessPath}

/-- The sources, the sinks and the pass-through rules about a call stay the same, and there is
possibly one more sanitizer. -/
lemma of_withRule (hr : r.kind = .sanitizer) (c : Call) : CallRules.of (p.withRule r).rules c =
    { CallRules.of p.rules c with
      sanitizers :=
        (CallRules.of p.rules c).sanitizers ++ if r.matchesCall c then [r] else [] } := by
  simp [withRule_callRules, addedTo, hr]

/-- Where taint is removed without the sanitizer, it is removed with it. -/
lemma Sanitizes.withRule (hr : r.kind = .sanitizer) (h : p.Sanitizes lhs c m path) :
    (p.withRule r).Sanitizes lhs c m path := by
  obtain ⟨r', hr', hremoves⟩ := h
  refine ⟨r', ?_, hremoves⟩
  rw [of_withRule hr]
  exact List.mem_append_left _ hr'

/-- A sanitizer does not change what pass-through rules give. -/
lemma withRule_passesThrough (hr : r.kind = .sanitizer) {q : AccessPath} :
    (p.withRule r).PassesThrough lhs c m path q ↔ p.PassesThrough lhs c m path q := by
  unfold PassesThrough
  rw [of_withRule hr]
  rfl

/-- A sanitizer does not change what is reported. -/
lemma withRule_reports (hr : r.kind = .sanitizer) (e : PathEdge Fact) :
    (p.withRule r).reports e = p.reports e := by
  unfold reports
  simp only [of_withRule hr]
  cases e.fact with
  | zero => rfl
  | taint path origin m =>
    have hfield : ∀ (f : FieldRef) (src : Value), ((p.withRule r).rules.matchField f).filter
        (fun r => r.kind == .sink && r.appliesTo m && src.isVariable && path.rootedAt src.render) =
        (p.rules.matchField f).filter
          fun r => r.kind == .sink && r.appliesTo m && src.isVariable && path.rootedAt src.render :=
      fun f src => withRule_matchField f (by simp [hr])
    simp only [hfield]
    rfl

/-- A call that the sanitizer matches is not analyzed; the targets of other calls stay the same. -/
lemma withRule_targets (hr : r.kind = .sanitizer) (n : Site) :
    (p.withRule r).flowProblem.targets n = [] ∨
      (p.withRule r).flowProblem.targets n = p.flowProblem.targets n := by
  have hcallees : (p.withRule r).callees (p.graph n.method) n.index = some [] ∨
      (p.withRule r).callees (p.graph n.method) n.index =
        p.callees (p.graph n.method) n.index := by
    unfold callees
    split
    · rename_i lhs c ha
      cases hmatches : r.matchesCall c with
      | true => simp [of_withRule hr, hmatches, CallRules.isOpaque]
      | false =>
        right
        simp only [of_withRule hr, hmatches, Bool.false_eq_true, ↓reduceIte, List.append_nil]
        rfl
    · exact Or.inl rfl
  rcases hcallees with h | h
  · exact Or.inl (congrArg (Option.getD · []) h)
  · exact Or.inr (congrArg (Option.getD · []) h)

end

section

variable {p : TaintProblem} {r : Rule} {entries : List MethodRef} {S : Set (PathEdge Fact)}

/-- What is kept over a call or passed through it with a sanitizer added, is found after the call
without it.

**Proof sketch.** Sanitizers only remove taint, so what the call generates or passes through is the
same or less. A fact that is kept is kept without the sanitizer as well, unless it is handed to the
targets of the call. In this case the sanitizer makes the call opaque, and its fact is given
back. -/
lemma callToReturn_mem_of_givesBack (hr : r.kind = .sanitizer)
    (hback : p.flowProblem.GivesBack (p.withRule r).flowProblem S)
    (hS : p.flowProblem.Closed entries S) {c : PathEdge Fact} (hc : c ∈ S)
    (hcall : p.flowProblem.AtCall c.site) {edge : Edge}
    (hedge : edge ∈ p.flowProblem.outgoing c.site) (hkind : edge.kind ≠ .exception) {d' : Fact}
    (hd' : d' ∈ (p.withRule r).callToReturn (p.graph c.method) c.node edge
      ((p.withRule r).flowProblem.targets c.site) c.fact) :
    c.along edge d' ∈ S := by
  have hrule : d' ∈ p.callToReturn (p.graph c.method) c.node edge (p.flowProblem.targets c.site)
      c.fact → c.along edge d' ∈ S :=
    fun h => hS _ _ (.callToReturn hc hcall hedge hkind h)
  cases ha : actionAt (p.graph c.method) c.node with
  | invoke lhs call =>
    cases hfact : c.fact with
    | zero =>
      refine hrule ?_
      rw [hfact] at hd' ⊢
      simp only [callToReturn, ha, of_withRule hr] at hd' ⊢
      exact hd'
    | taint path origin m =>
      have hd := hd'
      rw [hfact] at hd
      obtain ⟨hderef, ⟨rfl, hthrough, hclean, hlhs⟩ | ⟨q, hpass, hclean, rfl⟩⟩ :=
        (mem_callToReturn ha).mp hd
      · by_cases hkept : p.flowProblem.targets c.site ≠ [] → handedOver call path = false
        · refine hrule ?_
          rw [hfact]
          exact (mem_callToReturn ha).mpr
            ⟨hderef, Or.inl ⟨rfl, hkept, fun h => hclean (h.withRule hr), hlhs⟩⟩
        · rw [Classical.not_imp] at hkept
          have htargets : (p.withRule r).flowProblem.targets c.site = [] := by
            by_contra hne
            exact hkept.2 (hthrough hne)
          rw [htargets, ← hfact] at hd'
          rw [← hfact]
          exact hback c hc hkept.1 htargets edge hedge hkind hd'
      · refine hrule ?_
        rw [hfact]
        exact (mem_callToReturn ha).mpr ⟨hderef, Or.inr
          ⟨q, (withRule_passesThrough hr).mp hpass, fun h => hclean (h.withRule hr), rfl⟩⟩
  | _ =>
    refine hrule ?_
    simp only [callToReturn, ha] at hd' ⊢
    exact hd'

/-- The path edges of a problem whose calls give back what they are handed answer what the problem
does with a sanitizer added. -/
lemma answers_of_givesBack (hr : r.kind = .sanitizer)
    (hback : p.flowProblem.GivesBack (p.withRule r).flowProblem S)
    (hS : p.flowProblem.Closed entries S) :
    FlowProblem.Answers p.flowProblem (p.withRule r).flowProblem entries Eq S where
  graph := rfl
  seed m hm d' hd' := by
    have hinitial : (p.withRule r).flowProblem.initial (p.flowProblem.graph m) =
        p.flowProblem.initial (p.flowProblem.graph m) := withRule_initial (by simp [hr])
    rw [hinitial] at hd'
    exact ⟨d', hd', rfl⟩
  intra e he edge hedge hkind d hd d' hd' := by
    subst hd
    have hnormal : d' ∈ p.normal (p.graph e.method) e.node edge e.fact := by
      rw [← withRule_normal (r := r) (by simp [hr])]
      exact hd'
    exact ⟨d', rfl, hS _ _ (.intra he hedge hkind hnormal)⟩
  callToReturn c hc hcall edge hedge hkind d hd d' hd' := by
    subst hd
    exact ⟨d', rfl, callToReturn_mem_of_givesBack hr hback hS hc hcall hedge hkind hd'⟩
  call c hc d hd m d' henters := by
    subst hd
    obtain ⟨hcall, hm, hd'⟩ := henters
    refine ⟨d', rfl, hcall, ?_, hd'⟩
    rcases withRule_targets (p := p) hr c.site with h | h
    · rw [h] at hm
      cases hm
    · rwa [h] at hm
  ret c hc x hx edge d hd d' hd' := by
    subst hd
    exact ⟨d', hd', rfl⟩

end

end TaintProblem

namespace Session

/-- **An added sanitizer adds no flow**, if the calls that are no longer analyzed because of it give
back the taint that is kept over them instead. -/
theorem reports_of_with_sanitizer {s : Session} {runId : String} {entries : List MethodRef}
    {rs rs' : RuleSet} {spec : RuleSpec} {o : RunOptions} {t : Tabulation Fact} {source sink : Site}
    (hwith : rs.with? .sanitizer spec = .ok rs') (halarms : o.maxAlarms ≤ 0)
    (hcomplete : s.tabulate entries rs o false = (t, .complete))
    (hback : (s.problem rs o).flowProblem.GivesBack (s.problem rs' o).flowProblem t.found)
    (h : s.Reports runId entries rs' o source sink) : s.Reports runId entries rs o source sink := by
  obtain ⟨r, hr, rfl⟩ := RuleSet.with?_eq_ok hwith
  rw [reports_iff s runId entries halarms] at h ⊢
  obtain ⟨⟨hdepth, -, -⟩, e, he, hsite, ⟨path, m, hfact⟩, hreports⟩ := h
  have hfound : t.found = (s.problem rs o).flowProblem.pathEdges (s.roots entries) :=
    FlowProblem.found_eq_pathEdges hcomplete
  rw [hfound] at hback
  have hanswers := TaintProblem.answers_of_givesBack hr hback FlowProblem.closed_pathEdges
  obtain ⟨start, d, rfl, hmem⟩ := hanswers.exists_pathEdge FlowProblem.closed_pathEdges he
  have hreports' : (s.problem rs o).reports ⟨e.method, start, e.node, e.fact⟩ ≠ [] := by
    rw [← TaintProblem.withRule_reports hr]
    exact hreports
  exact ⟨⟨hdepth, TaintProblem.isEmpty_eq_false_of_reports hreports', by rw [hcomplete]⟩,
    _, hmem, hsite, ⟨path, m, hfact⟩, hreports'⟩

end Session

/-! ## A program with a call that overwrites a field -/

/-- A method that calls `Box.reset` and then `Out.sink` with its argument: `aload_0`,
`invokestatic`, `aload_0`, `invokestatic`, `return`. -/
def boxMain : MethodDecl where
  name := "main"
  descriptor := "(LBox;)V"
  flags := AccessFlags.empty.insert .static
  maxLocals := 1
  code := some [
    { pc := 0, op := ⟨42⟩ },
    { pc := 1, op := ⟨184⟩, owner := "Box", name := "reset", desc := "(LBox;)V" },
    { pc := 4, op := ⟨42⟩ },
    { pc := 5, op := ⟨184⟩, owner := "Out", name := "sink", desc := "(LBox;)V" },
    { pc := 8, op := ⟨177⟩ }]

/-- A method that overwrites the field `f` of its argument: `aload_0`, `iconst_0`, `putfield`,
`return`. -/
def boxReset : MethodDecl where
  name := "reset"
  descriptor := "(LBox;)V"
  flags := AccessFlags.empty.insert .static
  maxLocals := 1
  code := some [
    { pc := 0, op := ⟨42⟩ },
    { pc := 1, op := ⟨3⟩ },
    { pc := 2, op := ⟨181⟩, owner := "Box", name := "f", desc := "I" },
    { pc := 5, op := ⟨177⟩ }]

/-- The type of the two methods. -/
def boxType : ClassDecl where
  name := "Box"
  flags := AccessFlags.empty.insert .interface
  methods := [some boxMain, some boxReset]

/-- The program of the two methods. -/
def boxProgram : Program where
  classes := some [some boxType]

/-- The name of the first method. -/
def boxMainRef : MethodRef := ⟨"Box", "main", "(LBox;)V"⟩

/-- The name of the second method. -/
def boxResetRef : MethodRef := ⟨"Box", "reset", "(LBox;)V"⟩

/-- The argument of the methods. -/
def boxArg : Value := .var (.arg 0) "LBox;"

/-- The flow graph of the first method. -/
def boxMainGraph : FlowGraph where
  ref := boxMainRef
  modifiers := AccessFlags.empty.insert .static
  params := [boxArg]
  statements := #[
    ⟨1, .invoke none ⟨.static, boxResetRef, none, [boxArg]⟩, false⟩,
    ⟨5, .invoke none ⟨.static, ⟨"Out", "sink", "(LBox;)V"⟩, none, [boxArg]⟩, false⟩,
    ⟨8, .ret none, false⟩,
    ⟨-1, .exit, true⟩]
  succs := #[
    [⟨0, 1, .normal, "", false⟩, ⟨0, 3, .exception, "", false⟩],
    [⟨1, 2, .normal, "", false⟩, ⟨1, 3, .exception, "", false⟩], [], []]
  exits := [2, 3]

/-- The flow graph of the second method. -/
def boxResetGraph : FlowGraph where
  ref := boxResetRef
  modifiers := AccessFlags.empty.insert .static
  params := [boxArg]
  statements := #[
    ⟨2, .fieldWrite boxArg ⟨"Box", "f", "I"⟩ (.const "0" "I"), false⟩,
    ⟨5, .ret none, false⟩,
    ⟨-1, .exit, true⟩]
  succs := #[[⟨0, 1, .normal, "", false⟩, ⟨0, 2, .exception, "", false⟩], [], []]
  exits := [1, 2]

/-- The class table of the program. -/
def boxTable : ClassTable where
  classes := (∅ : Std.HashMap String ClassDecl).insert "Box" boxType
  order := ["Box"]
  bodies := ((∅ : Std.HashMap MethodRef MethodBody).insert boxMainRef
    (ClassTable.bodyOf boxType boxMain)).insert boxResetRef (ClassTable.bodyOf boxType boxReset)
  subtypes := ∅

/-- The class table with the flow graphs of the program. -/
def boxCode : CodeBase where
  table := boxTable
  graphs := ((∅ : Std.HashMap MethodRef (Except BuildError FlowGraph)).insert boxMainRef
    (.ok boxMainGraph)).insert boxResetRef (.ok boxResetGraph)

lemma ofProgram_boxProgram : ClassTable.ofProgram boxProgram = .ok boxTable := by cbv

lemma build_boxProgram :
    FlowGraph.build (some boxTable) (ClassTable.bodyOf boxType boxMain) = .ok boxMainGraph ∧
      FlowGraph.build (some boxTable) (ClassTable.bodyOf boxType boxReset) = .ok boxResetGraph := by
  decide +kernel

/-- The flow graphs are those that are built. -/
lemma boxCode_agrees : (CodeBase.ofTable boxTable).Agrees boxCode :=
  ((CodeBase.Records.nil.insert boxMainRef build_boxProgram.1).insert boxResetRef
    build_boxProgram.2).agrees

/-- The field `field` of the argument is tainted on entry, and taint of it is reported at every
call. -/
def fieldSpec (field : String) : ProblemSpec where
  name := "field"
  sinks := [{ positions := ["arg0." ++ field] }]
  entryPoints := [{ positions := ["arg0." ++ field] }]

/-- The rules about the field. -/
def fieldRules (field : String) : RuleSet where
  name := "field"
  rules := [
    { kind := .sink, matcher := .any, positions := [⟨.arg 0, [field]⟩] },
    { kind := .entryPoint, matcher := .any, positions := [⟨.arg 0, [field]⟩], index := 1 }]

/-- The rules about the field, with a sanitizer of the results of all calls. -/
def sanitizedFieldRules (field : String) : RuleSet :=
  { fieldRules field with rules := (fieldRules field).rules ++ [
    { kind := .sanitizer, matcher := .any, positions := [⟨.result, []⟩], index := 2 }] }

lemma ofSpec_fieldSpec : RuleSet.ofSpec (fieldSpec "f") = .ok (fieldRules "f") := by
  simp [RuleSet.ofSpec, fieldSpec, RuleSet.specsOf, Rule.ofSpec, Rule.parsePositions, fieldRules,
    CodeIdentifier.matcher_empty, Position.parse_written, Except.mapError, bind, Except.bind, pure,
    Except.pure, List.zipIdx]

lemma with?_fieldRules (field : String) :
    (fieldRules field).with? .sanitizer {} = .ok (sanitizedFieldRules field) := by
  simp [RuleSet.with?, Rule.ofSpec, Rule.parsePositions, RuleKind.defaultPositions, fieldRules,
    sanitizedFieldRules, CodeIdentifier.matcher_empty, Position.parse_written, Except.mapError,
    bind, Except.bind, pure, Except.pure]

/-- The tabulation for the field `g`, computed: its taint is found at both calls, the exit of
`Box.reset` is reached, and what passes the call with the sanitizer is given back. -/
lemma boxCode_fieldRules :
    ({ code := boxCode } : Session).findings [boxMainRef] (fieldRules "g") {} =
        (.complete, [(⟨boxMainRef, 0⟩, ⟨boxMainRef, 0⟩), (⟨boxMainRef, 0⟩, ⟨boxMainRef, 1⟩)]) ∧
      (({ code := boxCode } : Session).tabulate [boxMainRef] (fieldRules "g") {} false).1.reached
        ⟨boxResetRef, .zero, 2, .zero⟩ = true ∧
      (({ code := boxCode } : Session).problem (fieldRules "g") {}).flowProblem.givesBackIn
        (({ code := boxCode } : Session).problem (sanitizedFieldRules "g") {}).flowProblem
        (({ code := boxCode } : Session).tabulate [boxMainRef] (fieldRules "g") {}
          false).1.edges.toList = true := by
  -- one run of the tabulation shows all three
  have hrun : (fun r : Tabulation Fact × SolveOutcome =>
      ((r.2, (r.1.edges.toList.filterMap
          (({ code := boxCode } : Session).problem (fieldRules "g") {}).hit?).map
            fun h => (h.source, h.edge.site)),
        r.1.reached ⟨boxResetRef, .zero, 2, .zero⟩,
        (({ code := boxCode } : Session).problem (fieldRules "g") {}).flowProblem.givesBackIn
          (({ code := boxCode } : Session).problem (sanitizedFieldRules "g") {}).flowProblem
          r.1.edges.toList))
      (({ code := boxCode } : Session).tabulate [boxMainRef] (fieldRules "g") {} false) =
      ((.complete, [(⟨boxMainRef, 0⟩, ⟨boxMainRef, 0⟩), (⟨boxMainRef, 0⟩, ⟨boxMainRef, 1⟩)]),
        true, true) := by
    cbv
  obtain ⟨hfound, hrest⟩ := Prod.mk.inj hrun
  rw [Session.findings_eq_hits]
  exact ⟨hfound, Prod.mk.inj hrest⟩

/-- The sanitizer of results adds no flow of the field `g`, which `Box.reset` gives back. -/
theorem boxProgram_reports_of_with_sanitizer :
    ∃ t s rs', ClassTable.ofProgram boxProgram = .ok t ∧ s = ({ code := .ofTable t } : Session) ∧
      (fieldRules "g").with? .sanitizer {} = .ok rs' ∧
      (s.tabulate [boxMainRef] (fieldRules "g") {} false).2 = .complete ∧
      s.Reports "" [boxMainRef] (fieldRules "g") {} ⟨boxMainRef, 0⟩ ⟨boxMainRef, 1⟩ ∧
      ∀ source sink, s.Reports "" [boxMainRef] rs' {} source sink →
        s.Reports "" [boxMainRef] (fieldRules "g") {} source sink := by
  have hagrees : CodeBase.Agrees ({ code := .ofTable boxTable } : Session).code
      ({ code := boxCode } : Session).code := boxCode_agrees
  obtain ⟨hfound, -, hback⟩ := boxCode_fieldRules
  rw [← hagrees.findings_eq] at hfound
  rw [← hagrees.flowProblem_eq, ← hagrees.flowProblem_eq, ← hagrees.tabulate_eq] at hback
  have hcomplete := congrArg Prod.fst hfound
  refine ⟨_, _, _, ofProgram_boxProgram, rfl, with?_fieldRules "g", hcomplete, ?_, ?_⟩
  · rw [Session.reports_iff_findings (by decide) (by decide) (by decide) hfound]
    decide
  · intro source sink
    exact Session.reports_of_with_sanitizer (with?_fieldRules "g") (by decide)
      (Prod.ext rfl hcomplete) (FlowProblem.givesBack_found hback)

/-- **A sanitizer that adds a flow.** Without the sanitizer of results, the taint of the field `f`
goes through `Box.reset`, which overwrites it. With the sanitizer the call is not analyzed, and the
taint is kept and reported at the next call. -/
theorem boxProgram_sanitizer_adds_flow :
    ∃ t s rs rs', ClassTable.ofProgram boxProgram = .ok t ∧
      s = ({ code := .ofTable t } : Session) ∧ RuleSet.ofSpec (fieldSpec "f") = .ok rs ∧
      rs.with? .sanitizer {} = .ok rs' ∧ (s.tabulate [boxMainRef] rs {} false).2 = .complete ∧
      s.Reports "" [boxMainRef] rs' {} ⟨boxMainRef, 0⟩ ⟨boxMainRef, 1⟩ ∧
      ¬ s.Reports "" [boxMainRef] rs {} ⟨boxMainRef, 0⟩ ⟨boxMainRef, 1⟩ := by
  have hagrees : CodeBase.Agrees ({ code := .ofTable boxTable } : Session).code
      ({ code := boxCode } : Session).code := boxCode_agrees
  have hplain : ({ code := boxCode } : Session).findings [boxMainRef] (fieldRules "f") {} =
      (.complete, [(⟨boxMainRef, 0⟩, ⟨boxMainRef, 0⟩)]) := by
    cbv
  have hsanitized :
      ({ code := boxCode } : Session).findings [boxMainRef] (sanitizedFieldRules "f") {} =
        (.complete, [(⟨boxMainRef, 0⟩, ⟨boxMainRef, 0⟩), (⟨boxMainRef, 0⟩, ⟨boxMainRef, 1⟩)]) := by
    cbv
  rw [← hagrees.findings_eq] at hplain hsanitized
  refine ⟨_, _, _, _, ofProgram_boxProgram, rfl, ofSpec_fieldSpec, with?_fieldRules "f", ?_, ?_, ?_⟩
  · exact congrArg Prod.fst hplain
  · rw [Session.reports_iff_findings (by decide) (by decide) (by decide) hsanitized]
    decide
  · rw [Session.reports_iff_findings (by decide) (by decide) (by decide) hplain]
    decide

end JvmTaint
