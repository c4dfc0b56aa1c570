import JvmTaint.Proofs.Calls.LeastCallGraph
import JvmTaint.Proofs.Lowering.BuiltGraphs
import JvmTaint.Proofs.Taint.Sanitizers
import Mathlib.Logic.Relation

set_option autoImplicit false
set_option relaxedAutoImplicit false

/-!
# The zero fact covers the reachable code

The zero fact is kept by every flow function: along all edges of a statement, over a call whether or
not its targets return, and into the targets of a call. So it is found at exactly the statements
that control can reach: those that can be reached from the entry of a method that is analyzed. The
methods that are analyzed are the entry methods with a flow graph and the targets of the calls that
are reached in a method that is analyzed, and they are all in the call graph of the entry methods.

A session keeps its call graphs by the texts of their entry methods, and a text may be that of two
methods, since the names of classes and methods are not checked for dots. So the call graph that it
gives is that of the entry methods only if their texts can be read back.

## Main definitions

* `JvmTaint.FlowGraph.Reaches`: control can reach a statement from the entry of its method.
* `JvmTaint.Session.Analyzes`: a method is analyzed.
* `JvmTaint.MethodRef.ReadsBack`, `JvmTaint.Session.Coherent`: the call graphs that a session keeps
  are found under their own entry methods only.

## Main results

* `JvmTaint.Session.zero_mem_of_analyzes`: the zero fact is found wherever control can be.
* `JvmTaint.Session.covers_of_found`: facts are found only where control can be.
* `JvmTaint.Session.mem_methods_of_analyzes`: the call graph has all methods that are analyzed.
* `JvmTaint.Session.zero_reached_iff_reachable`: the zero fact covers exactly the reachable code.
* `JvmTaint.Session.callGraph_of_key_eq`: entry methods with the same texts share a call graph.
* `JvmTaint.drawerProgram_shares_call_graph`: the shared call graph may miss what is analyzed.
-/

namespace JvmTaint

/-- Control can reach the statement from the entry of the method. -/
def FlowGraph.Reaches (g : FlowGraph) (i : Nat) : Prop :=
  Relation.ReflTransGen (fun i j => ∃ e ∈ g.successors i, e.target = j) g.entry i

/-- Control goes on along an edge. -/
lemma FlowGraph.Reaches.along {g : FlowGraph} {i : Nat} (h : g.Reaches i) {e : Edge}
    (he : e ∈ g.successors i) : g.Reaches e.target := h.tail ⟨e, he, rfl⟩

/-- The methods that an analysis of some entry methods analyzes: the entry methods with a flow graph
and, with a method, the targets of each call that control reaches in it and for which there are no
rules. -/
inductive Session.Analyzes (s : Session) (entries : List MethodRef) (rules : RuleSet) :
    MethodRef → Prop
  | entry {m : MethodRef} {g : FlowGraph} (hm : m ∈ entries) (hg : s.code.graph m = .ok g) :
      Analyzes s entries rules m
  | call {m m' : MethodRef} {g : FlowGraph} {i : Nat} {lhs : Option Value} {c : Call}
      {targets : List MethodRef} (hm : Analyzes s entries rules m) (hg : s.code.graph m = .ok g)
      (hi : g.Reaches i) (haction : TaintProblem.actionAt g i = .invoke lhs c)
      (hrules : (CallRules.of rules c).isOpaque = false)
      (htargets : (s.callees c).2 = .ok targets) (hm' : m' ∈ targets) :
      Analyzes s entries rules m'

/-- The statement is one that control can reach in a method that is analyzed. -/
def Session.Covers (s : Session) (entries : List MethodRef) (rules : RuleSet) (n : Site) : Prop :=
  s.Analyzes entries rules n.method ∧ ∃ g, s.code.graph n.method = .ok g ∧ g.Reaches n.index

/-! ## The zero fact -/

namespace TaintProblem

variable {p : TaintProblem} {g : FlowGraph} {i : Nat}

/-- Positions without a statement count as `nop`; any other action is that of a statement. -/
lemma exists_statement_of_actionAt {a : Action Nat} (h : actionAt g i = a) (hne : a ≠ .nop) :
    ∃ st, g.statements[i]? = some st ∧ st.action = a := by
  unfold actionAt at h
  cases hst : g.statements[i]? with
  | none => exact absurd (by simpa [hst] using h.symm) hne
  | some st => exact ⟨st, rfl, by simpa [hst] using h⟩

/-- A call is an invocation. -/
lemma exists_invoke_of_isCall (h : FlowProblem.isCall g i = true) :
    ∃ lhs c, actionAt g i = .invoke lhs c := by
  unfold FlowProblem.isCall at h
  cases hst : g.statements[i]? with
  | none => simp [hst] at h
  | some st =>
    have hcall : st.action.call?.isSome = true := by simpa [hst] using h
    have hat : actionAt g i = st.action := by simp [actionAt, hst]
    rw [hat]
    cases haction : st.action with
    | invoke lhs c => exact ⟨lhs, c, rfl⟩
    | _ =>
      rw [haction] at hcall
      cases hcall

/-- An invocation is a call. -/
lemma isCall_of_invoke {lhs : Option Value} {c : Call} (h : actionAt g i = .invoke lhs c) :
    FlowProblem.isCall g i = true ∧
      ∃ st, g.statements[i]? = some st ∧ st.action.call? = some c := by
  obtain ⟨st, hst, haction⟩ := exists_statement_of_actionAt h nofun
  have hcall : st.action.call? = some c := by rw [haction, Action.call?]
  exact ⟨by simp [FlowProblem.isCall, hst, hcall], st, hst, hcall⟩

/-- A statement keeps the zero fact. -/
lemma zero_mem_normal (p : TaintProblem) (g : FlowGraph) (i : Nat) (e : Edge) :
    Fact.zero ∈ p.normal g i e .zero := by
  unfold normal
  dsimp only
  split
  · exact List.mem_singleton_self _
  · simp [Fact.isZero]

/-- A call keeps the zero fact, whether or not its targets return. -/
lemma zero_mem_callToReturn (p : TaintProblem) (g : FlowGraph) (i : Nat) (e : Edge)
    (targets : List MethodRef) : Fact.zero ∈ p.callToReturn g i e targets .zero := by
  unfold callToReturn
  split
  · simp
  · exact List.mem_singleton_self _

/-- A call enters its targets with the zero fact. -/
lemma zero_mem_enter (p : TaintProblem) {lhs : Option Value} {c : Call}
    (h : actionAt g i = .invoke lhs c) (callee : FlowGraph) :
    Fact.zero ∈ p.enter g i callee .zero :=
  (mem_enter_zero h).mpr (.inl rfl)

end TaintProblem

namespace Session

variable {s : Session} {t : ClassTable} {entries : List MethodRef} {rules : RuleSet}
  {o : RunOptions} {S : Set (PathEdge Fact)}

/-- The flow graph of a method with one is that of the problem. -/
lemma graph_problem {m : MethodRef} {g : FlowGraph} (hg : s.code.graph m = .ok g) :
    (s.problem rules o).flowProblem.graph m = g := by
  simp [TaintProblem.flowProblem, TaintProblem.graph, problem, hg]

/-- The outgoing edges of a statement are those of its flow graph. -/
lemma mem_outgoing_iff {m : MethodRef} {g : FlowGraph} (hg : s.code.graph m = .ok g) {i : Nat}
    {e : Edge} :
    e ∈ (s.problem rules o).flowProblem.outgoing ⟨m, i⟩ ↔ e ∈ g.successors i := by
  unfold FlowProblem.outgoing
  rw [graph_problem hg]

/-- An invocation is a call of the problem. -/
lemma atCall_of_invoke {m : MethodRef} {g : FlowGraph} {i : Nat} {lhs : Option Value} {c : Call}
    (hg : s.code.graph m = .ok g) (haction : TaintProblem.actionAt g i = .invoke lhs c) :
    (s.problem rules o).flowProblem.AtCall ⟨m, i⟩ := by
  unfold FlowProblem.AtCall
  rw [graph_problem hg]
  exact (TaintProblem.isCall_of_invoke haction).1

/-- The targets that a call is analyzed in. -/
lemma mem_targets_iff {m m' : MethodRef} {g : FlowGraph} {i : Nat} {lhs : Option Value} {c : Call}
    (hg : s.code.graph m = .ok g) (haction : TaintProblem.actionAt g i = .invoke lhs c) :
    m' ∈ (s.problem rules o).flowProblem.targets ⟨m, i⟩ ↔
      (CallRules.of rules c).isOpaque = false ∧
        ∃ targets, (s.callees c).2 = .ok targets ∧ m' ∈ targets := by
  unfold FlowProblem.targets
  rw [graph_problem hg]
  simp only [TaintProblem.flowProblem, TaintProblem.callees, haction, problem, callees]
  cases hrules : (CallRules.of rules c).isOpaque with
  | true => simp
  | false =>
    cases hr : s.code.table.resolve c.key with
    | error u => simp
    | ok r => simp

/-- A statement with an outgoing edge is no exit. -/
lemma not_atExit_of_mem_successors (hcode : s.code = .ofTable t) {m : MethodRef} {g : FlowGraph}
    (hg : s.code.graph m = .ok g) {i : Nat} {e : Edge} (he : e ∈ g.successors i) :
    ¬ (s.problem rules o).flowProblem.AtExit ⟨m, i⟩ := by
  rintro ⟨-, hexit⟩
  rw [graph_problem hg] at hexit
  rw [hcode] at hg
  rw [CodeBase.successors_of_isExit hg hexit] at he
  cases he

/-- The zero fact goes on along every edge of the flow graph of a program.

**Proof sketch.** A call keeps it, along its exception edges as well; so does every statement that
does not leave the method, and those that leave it have no edges. -/
lemma zero_mem_along (hcode : s.code = .ofTable t)
    (hS : (s.problem rules o).flowProblem.Closed (s.roots entries) S) {m : MethodRef}
    {g : FlowGraph} (hg : s.code.graph m = .ok g) {i : Nat} (hi : ⟨m, .zero, i, .zero⟩ ∈ S)
    {e : Edge} (he : e ∈ g.successors i) : ⟨m, .zero, e.target, .zero⟩ ∈ S := by
  have hout : e ∈ (s.problem rules o).flowProblem.outgoing ⟨m, i⟩ := (mem_outgoing_iff hg).mpr he
  by_cases hcall : (s.problem rules o).flowProblem.AtCall ⟨m, i⟩
  · by_cases hkind : e.kind = .exception
    · exact hS _ _ (.intra hi hout (Or.inl ⟨hcall, hkind⟩) (TaintProblem.zero_mem_normal _ _ _ _))
    · refine hS _ _ (.callToReturn hi hcall hout hkind ?_)
      exact TaintProblem.zero_mem_callToReturn _ _ _ e
        ((s.problem rules o).flowProblem.targets ⟨m, i⟩)
  · exact hS _ _ (.intra hi hout (Or.inr ⟨hcall, not_atExit_of_mem_successors hcode hg he⟩)
      (TaintProblem.zero_mem_normal _ _ _ _))

/-- From the entry of a method, the zero fact reaches all statements that control can reach. -/
lemma zero_mem_of_reaches (hcode : s.code = .ofTable t)
    (hS : (s.problem rules o).flowProblem.Closed (s.roots entries) S) {m : MethodRef}
    {g : FlowGraph} (hg : s.code.graph m = .ok g)
    (hentry : ⟨m, .zero, g.entry, .zero⟩ ∈ S) {i : Nat} (hi : g.Reaches i) :
    ⟨m, .zero, i, .zero⟩ ∈ S := by
  induction hi with
  | refl => exact hentry
  | tail _ hstep ih =>
    obtain ⟨e, he, rfl⟩ := hstep
    exact zero_mem_along hcode hS hg ih he

/-- **Everything that can be reached is covered.** A closed set of path edges has the zero fact at
every statement that control can reach in a method that is analyzed.

**Proof sketch.** Induction on why the method is analyzed. The zero fact is seeded at the entry
methods, and a call at which it is found enters its targets with it. -/
lemma zero_mem_of_analyzes (hcode : s.code = .ofTable t)
    (hS : (s.problem rules o).flowProblem.Closed (s.roots entries) S) {m : MethodRef}
    (hm : s.Analyzes entries rules m) {g : FlowGraph} (hg : s.code.graph m = .ok g) {i : Nat}
    (hi : g.Reaches i) : ⟨m, .zero, i, .zero⟩ ∈ S := by
  induction hm generalizing g i with
  | @entry m g' hm hg' =>
    have hroot : m ∈ s.roots entries := by
      simp [roots, hm, hg', Except.toOption]
    have hseed := hS _ _ (FlowProblem.Follows.seed (S := S) hroot List.mem_cons_self)
    exact zero_mem_of_reaches hcode hS hg hseed hi
  | @call m m' g' i' lhs c targets _ hg' hi' haction hrules htargets hm' ih =>
    have hat := ih hg' hi'
    have hcall : (s.problem rules o).flowProblem.Enters ⟨m, i'⟩ .zero m' .zero := by
      refine ⟨atCall_of_invoke hg' haction,
        (mem_targets_iff hg' haction).mpr ⟨hrules, targets, htargets, hm'⟩, ?_⟩
      rw [graph_problem hg']
      exact TaintProblem.zero_mem_enter _ haction _
    have hentered := hS _ _ (FlowProblem.Follows.call (S := S) hat hcall)
    exact zero_mem_of_reaches hcode hS hg hentered hi

/-- The methods that are analyzed have a flow graph. -/
lemma Analyzes.exists_graph {m : MethodRef} (h : s.Analyzes entries rules m) :
    ∃ g, s.code.graph m = .ok g := by
  cases h with
  | entry _ hg => exact ⟨_, hg⟩
  | call _ _ _ _ _ htargets hm' =>
    unfold callees at htargets
    dsimp only at htargets
    split at htargets
    · cases htargets
    · cases htargets
      have hsome := (List.mem_filter.mp hm').2
      cases hg : s.code.graph m with
      | error e => simp [hg, Except.toOption] at hsome
      | ok g => exact ⟨g, rfl⟩

/-- The entry of a method that is analyzed is covered. -/
lemma Analyzes.covers_entry {m : MethodRef} (h : s.Analyzes entries rules m) (o : RunOptions) :
    s.Covers entries rules ((s.problem rules o).flowProblem.entrySite m) := by
  obtain ⟨g, hg⟩ := h.exists_graph
  exact ⟨h, g, hg, Relation.ReflTransGen.refl⟩

/-- **Nothing else is covered.** What follows by a rule from path edges at covered statements is at
a covered statement. -/
lemma covers_of_follows {e : PathEdge Fact} {l : Link Fact}
    (hS : ∀ e ∈ S, s.Covers entries rules e.site)
    (h : (s.problem rules o).flowProblem.Follows (s.roots entries) S e l) :
    s.Covers entries rules e.site := by
  have halong : ∀ (c : PathEdge Fact) (edge : Edge) (d : Fact), c ∈ S →
      edge ∈ (s.problem rules o).flowProblem.outgoing c.site →
      s.Covers entries rules (c.along edge d).site := by
    intro c edge d hc hedge
    obtain ⟨hm, g, hg, hi⟩ := hS c hc
    exact ⟨hm, g, hg, hi.along ((mem_outgoing_iff hg).mp hedge)⟩
  cases h with
  | @seed m d hm _ =>
    obtain ⟨hmem, hsome⟩ := List.mem_filter.mp hm
    cases hg : s.code.graph m with
    | error e => simp [hg, Except.toOption] at hsome
    | ok g => exact (Analyzes.entry hmem hg).covers_entry o
  | intra he hedge _ _ => exact halong _ _ _ he hedge
  | callToReturn hc _ hedge _ _ => exact halong _ _ _ hc hedge
  | ret hc _ _ _ hedge _ _ => exact halong _ _ _ hc hedge
  | @call c m d hc henters =>
    obtain ⟨hm, g, hg, hi⟩ := hS c hc
    obtain ⟨hcall, htarget, -⟩ := henters
    unfold FlowProblem.AtCall at hcall
    rw [graph_problem hg] at hcall
    obtain ⟨lhs, call, haction⟩ := TaintProblem.exists_invoke_of_isCall hcall
    obtain ⟨hrules, targets, htargets, hm'⟩ := (mem_targets_iff hg haction).mp htarget
    exact (Analyzes.call hm hg hi haction hrules htargets hm').covers_entry o

/-- The facts that a tabulation found are at covered statements. -/
lemma covers_of_found {retain : Bool} {tab : Tabulation Fact}
    (h : tab.Grounded (s.problem rules o).flowProblem retain (s.roots entries)) :
    ∀ e ∈ tab.found, s.Covers entries rules e.site :=
  h.induction fun _ _ hf => covers_of_follows (fun _ he => he.2) hf

/-! ## The call graph -/

/-- The call graph of the entry methods has all methods that are analyzed. -/
lemma mem_methods_of_analyzes {m : MethodRef} (h : s.Analyzes entries rules m)
    {roots : List MethodRef} (hroots : ∀ m ∈ entries, m ∈ roots) :
    m ∈ (CallGraph.build s.code roots).methods := by
  induction h with
  | entry hm _ => exact CallGraph.mem_methods_of_mem_entries (hroots _ hm)
  | call _ hg _ haction _ htargets hm' ih =>
    obtain ⟨-, st, hst, hcall⟩ := TaintProblem.isCall_of_invoke haction
    unfold callees at htargets
    dsimp only at htargets
    split at htargets
    · cases htargets
    · rename_i r hr
      cases htargets
      exact CallGraph.mem_methods_of_callee ih
        (CodeBase.mem_calleesOf hg (FlowGraph.mem_calls_iff.mpr ⟨st, hst, hcall⟩) hr
          (List.mem_filter.mp hm').1)

end Session

/-- The method can be read back from its text, which is one line. -/
structure MethodRef.ReadsBack (m : MethodRef) : Prop where
  parse : MethodRef.parse m.render = .ok m
  line : '\n' ∉ m.render.toList

namespace Session

variable {s : Session} {entries : List MethodRef}

/-- The lines of the key of a call graph are the texts of its entry methods. -/
lemma splitOn_callGraphKey (hentries : ∀ m ∈ entries, m.ReadsBack) (hne : entries ≠ []) :
    (callGraphKey entries).toList.splitOn '\n' =
      ((entries.map MethodRef.render).mergeSort fun a b => decide (a ≤ b)).map String.toList := by
  unfold callGraphKey
  rw [String.toList_intercalate]
  refine List.splitOn_intercalate '\n' ?_ ?_
  · intro l hl
    obtain ⟨text, htext, rfl⟩ := List.mem_map.mp hl
    obtain ⟨m, hm, rfl⟩ := List.mem_map.mp (List.mem_mergeSort.mp htext)
    exact (hentries m hm).line
  · intro hnil
    have hlength := congrArg List.length hnil
    simp only [List.length_map, List.length_mergeSort, List.length_nil] at hlength
    exact hne (List.length_eq_zero_iff.mp hlength)

/-- Entry methods that read back are told apart by the key of their call graph. -/
lemma mem_of_callGraphKey_eq {others : List MethodRef} (hentries : ∀ m ∈ entries, m.ReadsBack)
    (hothers : ∀ m ∈ others, m.ReadsBack) (hkey : callGraphKey entries = callGraphKey others)
    {m : MethodRef} (hm : m ∈ entries) : m ∈ others := by
  have hlines := splitOn_callGraphKey hentries (List.ne_nil_of_mem hm)
  have hline : m.render.toList ∈ (callGraphKey others).toList.splitOn '\n' := by
    rw [← hkey, hlines]
    exact List.mem_map_of_mem (List.mem_mergeSort.mpr (List.mem_map_of_mem hm))
  by_cases hempty : others = []
  · rw [hempty] at hline
    have hnil : m.render.toList = [] := by simpa [callGraphKey] using hline
    simp [MethodRef.render] at hnil
  · rw [splitOn_callGraphKey hothers hempty] at hline
    obtain ⟨text, htext, heq⟩ := List.mem_map.mp hline
    obtain ⟨m', hm', rfl⟩ := List.mem_map.mp (List.mem_mergeSort.mp htext)
    have hparse := (hothers m' hm').parse
    rw [String.toList_inj.mp heq, (hentries m hm).parse] at hparse
    cases hparse
    exact hm'

/-- Every call graph that the session keeps has been built for entry methods that read back, and is
kept under their key. -/
def Coherent (s : Session) : Prop :=
  ∀ kept ∈ s.callGraphs, ∃ others, (∀ m ∈ others, m.ReadsBack) ∧ kept.1 = callGraphKey others ∧
    kept.2 = CallGraph.build s.code others

/-- The call graph that a session gives for entry methods is one of these. -/
lemma Coherent.callGraph_eq (h : s.Coherent) (hentries : ∀ m ∈ entries, m.ReadsBack)
    {cancelled : Bool} {g : CallGraph} (hg : (s.callGraph entries cancelled).2 = some g) :
    ∃ roots, (∀ m ∈ entries, m ∈ roots) ∧ g = CallGraph.build s.code roots := by
  unfold callGraph at hg
  dsimp only at hg
  split at hg
  · rename_i kept hkept
    cases hg
    obtain ⟨before, after, heq, -⟩ := List.lookup_eq_some_iff.mp hkept
    obtain ⟨others, hothers, hkey, hbuild⟩ := h (callGraphKey entries, g) (by simp [heq])
    exact ⟨others, fun m hm => mem_of_callGraphKey_eq hentries hothers hkey hm, hbuild⟩
  · split at hg
    · cases hg
    · cases hg
      exact ⟨entries, fun _ hm => hm, rfl⟩

/-- Reporting the methods that have no flow graph keeps a session coherent. -/
lemma Coherent.addErrors (h : s.Coherent) (failures : List (MethodRef × GraphError)) :
    (failures.foldl (fun s (ref, e) => s.addError ref.render e.message) s).Coherent :=
  List.foldlRecOn (motive := Coherent) _ _ h fun _ hs _ _ => hs

/-- Asking for a call graph keeps a session coherent. -/
lemma Coherent.callGraph (h : s.Coherent) (hentries : ∀ m ∈ entries, m.ReadsBack)
    (cancelled : Bool) : (s.callGraph entries cancelled).1.Coherent := by
  unfold Session.callGraph
  dsimp only
  split
  · exact h
  · split
    · exact h
    · refine Coherent.addErrors ?_ _
      intro kept hkept
      rcases List.mem_append.mp hkept with hkept | hkept
      · exact h kept hkept
      · rw [List.mem_singleton.mp hkept]
        exact ⟨entries, hentries, rfl, rfl⟩

/-- **The zero fact covers exactly the reachable code.** When an analysis is complete, the zero fact
is reached from the zero fact on entry at exactly the statements that control can reach in the
methods that are analyzed, and every path edge that is reached is at such a statement. The methods
that are analyzed are in the call graph that the session gives for the same entry methods; it may
have been kept from an earlier request, which is found by the texts of its entry methods. -/
theorem zero_reached_iff_reachable {t : ClassTable} (s : Session) (hcode : s.code = .ofTable t)
    (rules : RuleSet) (o : RunOptions) (entries : List MethodRef) (cancelled : Bool)
    (tab : Tabulation Fact) (h : s.tabulate entries rules o cancelled = (tab, .complete)) :
    (∀ m n, tab.reached ⟨m, .zero, n, .zero⟩ = true ↔
        s.Analyzes entries rules m ∧ ∃ g, s.code.graph m = .ok g ∧ g.Reaches n) ∧
      (∀ e, tab.reached e = true →
        s.Analyzes entries rules e.method ∧ ∃ g, s.code.graph e.method = .ok g ∧ g.Reaches e.node) ∧
      (s.Coherent → (∀ m ∈ entries, m.ReadsBack) →
        ∀ (cancelled' : Bool) (g : CallGraph), (s.callGraph entries cancelled').2 = some g →
          ∀ m, s.Analyzes entries rules m → m ∈ g.methods) := by
  have hinv := Tabulation.Invariant.of_solve h
  have hclosed := hinv.closed (Tabulation.pending_of_solve h)
  have hreached := hinv.toGrounded.reached_iff
  have hcovers := covers_of_found hinv.toGrounded
  refine ⟨?_, ?_, ?_⟩
  · intro m n
    rw [hreached]
    constructor
    · intro hmem
      exact hcovers _ hmem
    · rintro ⟨hm, g, hg, hn⟩
      exact zero_mem_of_analyzes hcode hclosed hm hg hn
  · intro e he
    exact hcovers e ((hreached e).mp he)
  · intro hs hentries cancelled' g hg m hm
    obtain ⟨roots, hroots, rfl⟩ := hs.callGraph_eq hentries hg
    exact mem_methods_of_analyzes hm hroots

/-! ### Entry methods with the same texts -/

/-- Recording errors keeps the call graphs. -/
lemma callGraphs_addErrors (s : Session) (failures : List (MethodRef × GraphError)) :
    (failures.foldl (fun s (ref, e) => s.addError ref.render e.message) s).callGraphs =
      s.callGraphs :=
  List.foldlRecOn (motive := fun s' : Session => s'.callGraphs = s.callGraphs) _ _ rfl
    fun _ hs _ _ => hs

/-- A call graph that the session gives is kept. -/
lemma lookup_callGraphs {cancelled : Bool} {g : CallGraph}
    (hg : (s.callGraph entries cancelled).2 = some g) :
    (s.callGraph entries cancelled).1.callGraphs.lookup (callGraphKey entries) = some g := by
  unfold callGraph at hg ⊢
  dsimp only at hg ⊢
  split at hg
  · rename_i hkept
    exact hkept.trans hg
  · rename_i hnone
    split at hg
    · cases hg
    · cases hg
      rw [if_neg ‹_›]
      simp [say, callGraphs_addErrors, List.lookup_append, hnone]

/-- **Entry methods with the same texts share a call graph.** The one that is asked for first is
kept and given for the others. -/
lemma callGraph_of_key_eq {others : List MethodRef} {cancelled : Bool} {g : CallGraph}
    (hg : (s.callGraph entries cancelled).2 = some g)
    (hkey : callGraphKey others = callGraphKey entries) (cancelled' : Bool) :
    ((s.callGraph entries cancelled).1.callGraph others cancelled').2 = some g := by
  have hkept := lookup_callGraphs hg
  rw [← hkey] at hkept
  generalize (s.callGraph entries cancelled).1 = s' at hkept ⊢
  unfold callGraph
  dsimp only
  rw [hkept]

end Session

/-- The name of the first method can be read back. -/
lemma boxMainRef_readsBack : boxMainRef.ReadsBack := ⟨by cbv, by decide +kernel⟩

/-- In the session that keeps the call graph of the first method, the second one is analyzed, since
the zero fact is reached at its exit; so it is in the call graph. -/
theorem boxProgram_zero_reached_iff_reachable :
    ∃ (t : ClassTable) (s : Session) (tab : Tabulation Fact) (g : CallGraph),
      ClassTable.ofProgram boxProgram = .ok t ∧ s.code = .ofTable t ∧ s.Coherent ∧
      boxMainRef.ReadsBack ∧
      s.tabulate [boxMainRef] (fieldRules "g") {} false = (tab, .complete) ∧
      (s.callGraph [boxMainRef] false).2 = some g ∧
      tab.reached ⟨boxResetRef, .zero, 2, .zero⟩ = true ∧
      s.Analyzes [boxMainRef] (fieldRules "g") boxResetRef ∧ boxResetRef ∈ g.methods := by
  have hentries : ∀ m ∈ [boxMainRef], m.ReadsBack := by
    intro m hm
    rw [List.mem_singleton.mp hm]
    exact boxMainRef_readsBack
  generalize hs : (({ code := .ofTable boxTable } : Session).callGraph [boxMainRef] false).1 = s
  have hcode : s.code = .ofTable boxTable := by
    rw [← hs]
    exact (Session.callGraph_false _ _).1
  have hcoherent : s.Coherent := by
    rw [← hs]
    exact Session.Coherent.callGraph (by simp [Session.Coherent]) hentries false
  have hagrees : CodeBase.Agrees s.code ({ code := boxCode } : Session).code := by
    rw [hcode]
    exact boxCode_agrees
  obtain ⟨hfound, hreached, -⟩ := boxCode_fieldRules
  rw [← hagrees.findings_eq] at hfound
  rw [← hagrees.tabulate_eq] at hreached
  have hcomplete := congrArg Prod.fst hfound
  obtain ⟨g, hg⟩ := Option.isSome_iff_exists.mp (Session.callGraph_false s [boxMainRef]).2
  obtain ⟨hzero, -, hmethods⟩ := Session.zero_reached_iff_reachable s hcode (fieldRules "g") {}
    [boxMainRef] false _ (Prod.ext rfl hcomplete)
  have hreset := ((hzero boxResetRef 2).mp hreached).1
  exact ⟨boxTable, s, _, g, ofProgram_boxProgram, hcode, hcoherent, boxMainRef_readsBack,
    Prod.ext rfl hcomplete, hg, hreached, hreset, hmethods hcoherent hentries false g hg
      boxResetRef hreset⟩

/-! ## Two methods with the same text -/

/-- A static method that only returns. -/
def returning (name : String) : MethodDecl where
  name := name
  descriptor := "()V"
  flags := AccessFlags.empty.insert .static
  code := some [{ pc := 0, op := ⟨177⟩ }]

/-- The method `Drawer.open` of the class `Desk`, which calls `Desk.write`: `invokestatic`,
`return`. -/
def deskOpen : MethodDecl where
  name := "Drawer.open"
  descriptor := "()V"
  flags := AccessFlags.empty.insert .static
  code := some [
    { pc := 0, op := ⟨184⟩, owner := "Desk", name := "write", desc := "()V" },
    { pc := 3, op := ⟨177⟩ }]

/-- The class `Desk.Drawer` with its method `open`. -/
def drawerType : ClassDecl where
  name := "Desk.Drawer"
  flags := AccessFlags.empty.insert .interface
  methods := [some (returning "open")]

/-- The class `Desk`. -/
def deskType : ClassDecl where
  name := "Desk"
  flags := AccessFlags.empty.insert .interface
  methods := [some deskOpen, some (returning "write")]

/-- The program of the two classes. -/
def drawerProgram : Program where
  classes := some [some drawerType, some deskType]

/-- The method `open` of the class `Desk.Drawer`. -/
def drawerOpenRef : MethodRef := ⟨"Desk.Drawer", "open", "()V"⟩

/-- The method `Drawer.open` of the class `Desk`. -/
def deskOpenRef : MethodRef := ⟨"Desk", "Drawer.open", "()V"⟩

/-- The method `write` of the class `Desk`. -/
def deskWriteRef : MethodRef := ⟨"Desk", "write", "()V"⟩

/-- The flow graph of a static method that only returns. -/
def returningGraph (ref : MethodRef) : FlowGraph where
  ref := ref
  modifiers := AccessFlags.empty.insert .static
  params := []
  statements := #[⟨0, .ret none, false⟩, ⟨-1, .exit, true⟩]
  succs := #[[], []]
  exits := [0, 1]

/-- The flow graph of the method that calls `Desk.write`. -/
def deskOpenGraph : FlowGraph where
  ref := deskOpenRef
  modifiers := AccessFlags.empty.insert .static
  params := []
  statements := #[
    ⟨0, .invoke none ⟨.static, deskWriteRef, none, []⟩, false⟩,
    ⟨3, .ret none, false⟩,
    ⟨-1, .exit, true⟩]
  succs := #[[⟨0, 1, .normal, "", false⟩, ⟨0, 2, .exception, "", false⟩], [], []]
  exits := [1, 2]

/-- The class table of the program. -/
def drawerTable : ClassTable where
  classes := ((∅ : Std.HashMap String ClassDecl).insert "Desk.Drawer" drawerType).insert "Desk"
    deskType
  order := ["Desk.Drawer", "Desk"]
  bodies := (((∅ : Std.HashMap MethodRef MethodBody).insert drawerOpenRef
    (ClassTable.bodyOf drawerType (returning "open"))).insert deskOpenRef
      (ClassTable.bodyOf deskType deskOpen)).insert deskWriteRef
        (ClassTable.bodyOf deskType (returning "write"))
  subtypes := ∅

/-- The class table with the flow graphs of the program. -/
def drawerCode : CodeBase where
  table := drawerTable
  graphs := (((∅ : Std.HashMap MethodRef (Except BuildError FlowGraph)).insert drawerOpenRef
    (.ok (returningGraph drawerOpenRef))).insert deskOpenRef (.ok deskOpenGraph)).insert deskWriteRef
      (.ok (returningGraph deskWriteRef))

lemma ofProgram_drawerProgram : ClassTable.ofProgram drawerProgram = .ok drawerTable := by cbv

lemma build_drawerProgram :
    FlowGraph.build (some drawerTable) (ClassTable.bodyOf drawerType (returning "open")) =
        .ok (returningGraph drawerOpenRef) ∧
      FlowGraph.build (some drawerTable) (ClassTable.bodyOf deskType deskOpen) =
        .ok deskOpenGraph ∧
      FlowGraph.build (some drawerTable) (ClassTable.bodyOf deskType (returning "write")) =
        .ok (returningGraph deskWriteRef) := by
  decide +kernel

/-- The flow graphs are those that are built. -/
lemma drawerCode_agrees : (CodeBase.ofTable drawerTable).Agrees drawerCode := by
  obtain ⟨hdrawer, hopen, hwrite⟩ := build_drawerProgram
  exact (((CodeBase.Records.nil.insert drawerOpenRef hdrawer).insert deskOpenRef hopen).insert
    deskWriteRef hwrite).agrees

/-- The tabulation from the method of `Desk`, computed: it enters `Desk.write`. -/
lemma drawerCode_tabulate :
    (({ code := drawerCode } : Session).tabulate [deskOpenRef] (fieldRules "f") {} false).2 =
        .complete ∧
      (({ code := drawerCode } : Session).tabulate [deskOpenRef] (fieldRules "f") {}
        false).1.reached ⟨deskWriteRef, .zero, 0, .zero⟩ = true := by
  -- one run of the tabulation shows both
  have hrun : (fun r : Tabulation Fact × SolveOutcome =>
        (r.2, r.1.reached ⟨deskWriteRef, .zero, 0, .zero⟩))
      (({ code := drawerCode } : Session).tabulate [deskOpenRef] (fieldRules "f") {} false) =
      (.complete, true) := by
    cbv
  exact Prod.mk.inj hrun

/-- The method of `Desk.Drawer` calls nothing, so it is alone in its call graph. -/
lemma deskWriteRef_notMem_methods :
    deskWriteRef ∉ (CallGraph.build (.ofTable drawerTable) [drawerOpenRef]).methods := by
  have hgraph : (CodeBase.ofTable drawerTable).graph drawerOpenRef =
      .ok (returningGraph drawerOpenRef) := by
    rw [drawerCode_agrees.graph]
    cbv
  have hcallees : (CodeBase.ofTable drawerTable).calleesOf drawerOpenRef = [] := by
    unfold CodeBase.calleesOf
    rw [hgraph]
    rfl
  intro hmem
  exact absurd (CallGraph.eq_of_mem_methods_of_calleesOf_eq_nil hcallees hmem) (by decide)

/-- The method `open` of `Desk.Drawer` and the method `Drawer.open` of `Desk` have the same text,
`Desk.Drawer.open()V`. The session that keeps the call graph of the first one gives it for the
second one as well: then `Desk.write` is analyzed, since the zero fact is reached in it, and is not
in the call graph. -/
theorem drawerProgram_shares_call_graph :
    ∃ (t : ClassTable) (s : Session) (tab : Tabulation Fact) (g : CallGraph),
      ClassTable.ofProgram drawerProgram = .ok t ∧
      s = (({ code := .ofTable t } : Session).callGraph [drawerOpenRef] false).1 ∧
      s.tabulate [deskOpenRef] (fieldRules "f") {} false = (tab, .complete) ∧
      (s.callGraph [deskOpenRef] false).2 = some g ∧
      tab.reached ⟨deskWriteRef, .zero, 0, .zero⟩ = true ∧
      s.Analyzes [deskOpenRef] (fieldRules "f") deskWriteRef ∧ deskWriteRef ∉ g.methods := by
  have hfirst : (({ code := .ofTable drawerTable } : Session).callGraph [drawerOpenRef] false).2 =
      some (CallGraph.build (.ofTable drawerTable) [drawerOpenRef]) := rfl
  have hkey : Session.callGraphKey [deskOpenRef] = Session.callGraphKey [drawerOpenRef] := by
    decide +kernel
  have hshared := Session.callGraph_of_key_eq hfirst hkey false
  generalize hs :
    (({ code := .ofTable drawerTable } : Session).callGraph [drawerOpenRef] false).1 = s at hshared
  have hagrees : CodeBase.Agrees s.code ({ code := drawerCode } : Session).code := by
    rw [← hs, (Session.callGraph_false _ _).1]
    exact drawerCode_agrees
  obtain ⟨hcomplete, hreached⟩ := drawerCode_tabulate
  rw [← hagrees.tabulate_eq] at hcomplete hreached
  have hrun : s.tabulate [deskOpenRef] (fieldRules "f") {} false =
      ((s.tabulate [deskOpenRef] (fieldRules "f") {} false).1, .complete) := Prod.ext rfl hcomplete
  have hgrounded := (Tabulation.Invariant.of_solve hrun).toGrounded
  have hwrite := (Session.covers_of_found hgrounded _ ((hgrounded.reached_iff _).mp hreached)).1
  exact ⟨drawerTable, s, _, _, ofProgram_drawerProgram, hs.symm, hrun, hshared, hreached, hwrite,
    deskWriteRef_notMem_methods⟩

end JvmTaint
