import JvmTaint.Proofs.Taint.ReachableCode
import JvmTaint.Proofs.Taint.Termination
import JvmTaint.Proofs.Taint.Truncation

set_option autoImplicit false
set_option relaxedAutoImplicit false

/-!
# Taint of the heap over calls

Taint of a static field, or of a field of an operand, is not kept at a call that is analyzed. It
goes through the methods that the call may enter instead, and is found behind the call only if one
of them gives it back; a further target without a flow graph does not keep it. A method gives it
back if it can return without a write to the heap, without a call and without an assignment to the
parameter that the operand is bound to: the path is moved to the parameter, goes along unchanged,
and is moved back. A call that is analyzed in no method keeps the taint.

An assignment to the parameter does not concern the caller, since parameters are passed by value.
It still removes the taint, because the parameter is the only name that the method has for the
object of the caller.

## Main definitions

* `JvmTaint.Action.isQuiet`, `JvmTaint.Action.Spares`: statements that leave a path alone.
* `JvmTaint.FlowGraph.ReturnsPast`: a method can return past statements with a property.
* `JvmTaint.Call.Binds`: how a method that is called sees a path of the caller.
* `JvmTaint.Session.LeavesAlone`: a method leaves a path of the caller alone.

## Main results

* `JvmTaint.TaintProblem.mem_enter_of_binds`, `JvmTaint.TaintProblem.mem_leave_of_binds`: the path
  is bound to the method that is entered, and bound back when the method is left.
* `JvmTaint.Session.mem_of_reachesPast`: the path goes through a method that leaves it alone.
* `JvmTaint.Session.heap_taint_survives_call`: when taint of the heap is found behind a call.
* `JvmTaint.jarProgram_call_loses_heap_taint`: a call that loses it.
-/

namespace JvmTaint

/-! ## Statements that leave a path alone -/

namespace Action

/-- Whether the statement neither writes to the heap nor calls a method. -/
def isQuiet : Action Nat → Bool
  | .fieldWrite .. | .staticWrite .. | .arrayWrite .. | .invoke .. => false
  | _ => true

/-- The statement leaves a path alone: it is quiet and does not assign to the variable at the root
of the path. -/
structure Spares (a : Action Nat) (path : AccessPath) : Prop where
  quiet : a.isQuiet = true
  root : ∀ l, a.lhs? = some l → path.rootedAt l.render = false

end Action

namespace FlowGraph

/-- Control can reach the statement from the entry of the method past statements with the property,
without an exception. -/
def ReachesPast (g : FlowGraph) (Q : Action Nat → Prop) (i : Nat) : Prop :=
  Relation.ReflTransGen (fun i j => Q (TaintProblem.actionAt g i) ∧
    ∃ e ∈ g.successors i, e.kind ≠ .exception ∧ e.target = j) g.entry i

/-- The method can return past statements with the property, without an exception. -/
def ReturnsPast (g : FlowGraph) (Q : Action Nat → Prop) : Prop :=
  ∃ i src, g.ReachesPast Q i ∧ TaintProblem.actionAt g i = .ret src

end FlowGraph

/-! ## Paths of the heap -/

namespace AccessPath

variable {p : AccessPath}

/-- The path leads to the heap: it is static, or goes through a field. -/
def OnHeap (p : AccessPath) : Prop := p.isStatic = true ∨ p.depth ≠ 0 ∨ p.truncated = true

/-- The path of a variable does not lead to the heap. -/
lemma OnHeap.ne_path (h : p.OnHeap) (v : Value) : p ≠ v.path := by
  rintro rfl
  simp [OnHeap, Value.path, ofVariable] at h

end AccessPath

/-- How a method that is called sees a path of the caller: a static path as it is, and a path of an
operand as one of the parameter that the operand is bound to. The selectors of the second are single
names: a path with a name that has dots does not come back as it was. -/
inductive Call.Binds (c : Call) (callee : FlowGraph) (path : AccessPath) : AccessPath → Prop
  | static (h : path.isStatic = true) : Binds c callee path path
  | operand {v param : Value} (hmem : (v, param) ∈ c.operands.zip callee.params)
      (hvar : v.isVariable = true) (hroot : path.rootedAt v.render = true)
      (hplain : path.depth = path.fields.length) :
      Binds c callee path { path with base := param.render }

namespace TaintProblem

variable {p : TaintProblem} {g callee : FlowGraph} {i exit : Nat} {e : Edge} {a : Action Nat}
  {path inside : AccessPath} {origin : Site} {m : String} {lhs : Option Value} {c : Call}

/-! ## Flow functions -/

/-- The taint of a path of the heap says of no variable that it is null. -/
lemma isNullOf_of_onHeap (h : path.OnHeap) (v : Value) :
    (Fact.taint path origin m).isNullOf v = false := by
  simp [Fact.isNullOf, h.ne_path v]

/-- No statement dereferences the taint of a path of the heap. -/
lemma dereferenced_of_onHeap (h : path.OnHeap) (p : TaintProblem) (a : Action Nat) :
    p.dereferenced a (.taint path origin m) = false := by
  unfold dereferenced
  cases a.dereferenced? with
  | none => simp
  | some v => simp [isNullOf_of_onHeap h v]

/-- No test refutes the taint of a path of the heap. -/
lemma refuted_of_onHeap (h : path.OnHeap) (a : Action Nat) (e : Edge) :
    refuted a e (.taint path origin m) = false := by
  unfold refuted
  split
  · split
    · rw [isNullOf_of_onHeap h, Bool.and_false]
    · rfl
  · rfl

/-- A statement that leaves a path alone does not overwrite it. -/
lemma overwrites_of_spares (p : TaintProblem) (h : a.Spares path) :
    p.overwrites a path = false := by
  obtain ⟨hquiet, hroot⟩ := h
  cases a with
  | fieldWrite | staticWrite | arrayWrite | invoke => cases hquiet
  | assign l _ | fieldRead l _ _ | staticRead l _ | arrayRead l _ _ | receive l _ =>
    exact hroot l rfl
  | _ => rfl

/-- A statement that leaves a path of the heap alone keeps its taint. -/
lemma mem_normal_of_spares (p : TaintProblem) (hheap : path.OnHeap)
    (h : (actionAt g i).Spares path) (e : Edge) :
    Fact.taint path origin m ∈ p.normal g i e (.taint path origin m) := by
  unfold normal
  dsimp only
  split
  · exact List.mem_singleton_self _
  · rw [dereferenced_of_onHeap hheap, refuted_of_onHeap hheap]
    exact mem_transfer.mpr (Or.inl ⟨rfl, p.overwrites_of_spares h⟩)

/-- A method is entered with the path as it sees it. -/
lemma mem_enter_of_binds (ha : actionAt g i = .invoke lhs c) (h : c.Binds callee path inside)
    (hregular : path.depth = path.fields.length → path.Regular p.k) :
    Fact.taint inside origin m ∈ p.enter g i callee (.taint path origin m) := by
  rw [mem_enter ha]
  cases h with
  | static hstatic => exact Or.inl ⟨hstatic, rfl⟩
  | operand hmem hvar hroot hplain =>
    exact Or.inr ⟨_, _, _, hmem, hvar, hroot,
      (hregular hplain).substitute?_ofVariable hroot _, rfl⟩

/-- A method is left with the path as the caller sees it, unless the call assigns to its root. -/
lemma mem_leave_of_binds (ha : actionAt g i = .invoke lhs c) (h : c.Binds callee path inside)
    (hregular : path.depth = path.fields.length → path.Regular p.k) (hheap : path.OnHeap)
    (hlhs : ∀ l, lhs = some l → path.rootedAt l.render = false) :
    Fact.taint path origin m ∈ p.leave g i e callee exit (.taint inside origin m) := by
  rw [mem_leave ha]
  cases h with
  | static hstatic => exact Or.inl ⟨hstatic, rfl⟩
  | @operand v param hmem hvar hroot hplain =>
    obtain ⟨hstatic, hbase⟩ : path.isStatic = false ∧ path.base = v.render := by
      simpa [AccessPath.rootedAt] using hroot
    have hinside : AccessPath.Regular p.k { path with base := param.render } :=
      ⟨hplain, (hregular hplain).depth_le, (hregular hplain).dotFree⟩
    have hparam :
        ({ path with base := param.render } : AccessPath).rootedAt param.render = true := by
      simp [AccessPath.rootedAt, hstatic]
    -- of a parameter only the fields come back, and to an operand that the call does not assign to
    refine Or.inr (Or.inr ⟨?_, param, v, path, ?_, hparam, hvar, ?_, ?_, rfl⟩)
    · intro hdepth
      rcases hheap with hheap | hheap | hheap
      · rw [hstatic] at hheap
        cases hheap
      · exact absurd hdepth hheap
      · exact hheap
    · rw [← List.zip_swap]
      exact List.mem_map_of_mem (f := Prod.swap) hmem
    · intro l hl heq
      have hother := hlhs l hl
      rw [heq, hroot] at hother
      cases hother
    · rw [show param.path = AccessPath.ofVariable param.render from rfl,
        show v.path = AccessPath.ofVariable v.render from rfl,
        hinside.substitute?_ofVariable hparam, ← hbase]

/-- A call that rules do not describe has no sanitizers. -/
lemma not_sanitizes_of_not_isOpaque (h : (CallRules.of p.rules c).isOpaque = false) :
    ¬ p.Sanitizes lhs c m path := by
  rintro ⟨r, hr, -⟩
  have hnil : (CallRules.of p.rules c).sanitizers = [] := by
    simp only [CallRules.isOpaque, Bool.or_eq_false_iff, Bool.not_eq_false',
      List.isEmpty_iff] at h
    exact h.1.2
  rw [hnil] at hr
  cases hr

/-- What goes through the methods that a call is analyzed in is a path of the heap. -/
lemma onHeap_of_handedOver (h : handedOver c path = true) : path.OnHeap := by
  simp only [handedOver, Bool.or_eq_true, List.any_eq_true, Bool.and_eq_true,
    decide_eq_true_eq] at h
  rcases h with hstatic | ⟨v, -, -, hfield | htruncated⟩
  · exact Or.inl hstatic
  · exact Or.inr (Or.inl (by omega))
  · exact Or.inr (Or.inr htruncated)

/-- The paths that a tabulation taints are regular, unless they have a name with dots.

**Proof sketch.** All path edges are between the facts of the problem, whose paths are within the
bound and spelled with the selectors of locations. -/
lemma regular_of_found {retain : Bool} {entries : List MethodRef} {tab : Tabulation Fact}
    (h : Tabulation.Grounded p.flowProblem retain entries tab) (hk : 1 ≤ p.k) {e : PathEdge Fact}
    (he : e ∈ tab.found) (hfact : e.fact = .taint path origin m)
    (hplain : path.depth = path.fields.length) : path.Regular p.k := by
  obtain ⟨extra, hextra⟩ := p.exists_length_le
  have hclosed : p.flowProblem.Closed entries
      (p.flowProblem.edgesWithin Set.univ (p.facts extra)) :=
    (factsClosed_facts hk hextra).closed_edgesWithin (fun _ _ => Set.mem_univ _)
      (fun _ _ _ => Set.mem_univ _)
  obtain ⟨-, -, -, hmem⟩ := h.found_subset hclosed he
  rw [hfact] at hmem
  rcases hmem with hmem | ⟨path', ⟨hbounded, -, hselectors, -⟩, n, -, m', -, hmem⟩
  · cases hmem
  · cases hmem
    refine ⟨hplain, hbounded.depth_le, fun f hf => ?_⟩
    obtain ⟨t, ht, hft⟩ := hselectors f hf
    obtain ⟨values, hlocated⟩ := locatedAt_of_mem_locationSet ht
    exact hlocated.dotFree f hft

end TaintProblem

/-- The method leaves a path of the caller alone: it can return past statements that leave the path
alone as the method sees it. -/
def Session.LeavesAlone (s : Session) (c : Call) (path : AccessPath) (m : MethodRef) : Prop :=
  ∃ g inside, s.code.graph m = .ok g ∧ c.Binds g path inside ∧ g.ReturnsPast (·.Spares inside)

namespace Session

variable {s : Session} {t : ClassTable} {entries : List MethodRef} {rules : RuleSet}
  {o : RunOptions} {S : Set (PathEdge Fact)} {path : AccessPath} {origin : Site} {mark : String}

/-! ## Through a method -/

/-- Taint of the heap goes on past a statement that leaves its path alone. -/
lemma mem_of_spares (hcode : s.code = .ofTable t)
    (hS : (s.problem rules o).flowProblem.Closed (s.roots entries) S) {m : MethodRef}
    {g : FlowGraph} (hg : s.code.graph m = .ok g) (hheap : path.OnHeap) {d : Fact} {i : Nat}
    (hi : ⟨m, d, i, .taint path origin mark⟩ ∈ S)
    (hspares : (TaintProblem.actionAt g i).Spares path) {e : Edge} (he : e ∈ g.successors i) :
    ⟨m, d, e.target, .taint path origin mark⟩ ∈ S := by
  have hgraph : (s.problem rules o).flowProblem.graph m = g := graph_problem hg
  have hcall : ¬ (s.problem rules o).flowProblem.AtCall ⟨m, i⟩ := by
    unfold FlowProblem.AtCall
    rw [hgraph]
    intro hcall
    obtain ⟨lhs, c, haction⟩ := TaintProblem.exists_invoke_of_isCall hcall
    have hquiet := hspares.quiet
    rw [haction] at hquiet
    cases hquiet
  refine hS _ _ (.intra hi ((mem_outgoing_iff hg).mpr he)
    (Or.inr ⟨hcall, not_atExit_of_mem_successors hcode hg he⟩) ?_)
  rw [hgraph]
  exact (s.problem rules o).mem_normal_of_spares hheap hspares e

/-- **Through a method.** Taint of the heap that a method is entered with is found wherever control
can get without touching its path. -/
lemma mem_of_reachesPast (hcode : s.code = .ofTable t)
    (hS : (s.problem rules o).flowProblem.Closed (s.roots entries) S) {m : MethodRef}
    {g : FlowGraph} (hg : s.code.graph m = .ok g) (hheap : path.OnHeap) {d : Fact}
    (hentry : ⟨m, d, g.entry, .taint path origin mark⟩ ∈ S) {i : Nat}
    (hi : g.ReachesPast (·.Spares path) i) : ⟨m, d, i, .taint path origin mark⟩ ∈ S := by
  induction hi with
  | refl => exact hentry
  | tail _ hstep ih =>
    obtain ⟨hspares, e, he, -, rfl⟩ := hstep
    exact mem_of_spares hcode hS hg hheap ih hspares he

/-- A return statement is an exit of its method, and not that of exceptions. -/
lemma atExit_of_ret (rules : RuleSet) (o : RunOptions) (hcode : s.code = .ofTable t)
    {m : MethodRef} {g : FlowGraph} (hg : s.code.graph m = .ok g) {i : Nat} {src : Option Value}
    (h : TaintProblem.actionAt g i = .ret src) :
    (s.problem rules o).flowProblem.AtExit ⟨m, i⟩ ∧
      ¬ (s.problem rules o).flowProblem.AtUncaught ⟨m, i⟩ := by
  have hgraph : (s.problem rules o).flowProblem.graph m = g := graph_problem hg
  obtain ⟨st, hst, haction⟩ := TaintProblem.exists_statement_of_actionAt h nofun
  refine ⟨⟨?_, ?_⟩, ?_⟩
  · unfold FlowProblem.AtCall
    rw [hgraph]
    simp [FlowProblem.isCall, hst, haction, Action.call?]
  · rw [hgraph]
    rw [hcode] at hg
    exact (CodeBase.isExit_iff hg).mpr ⟨st, hst, by simp [haction, Action.isExit]⟩
  · unfold FlowProblem.AtUncaught
    rw [hgraph]
    simp [hst, haction]

/-! ## Over a call -/

section Call

variable {c : PathEdge Fact} {g : FlowGraph} {lhs : Option Value} {call : Call} {edge : Edge}
  (hS : (s.problem rules o).flowProblem.Closed (s.roots entries) S) (hc : c ∈ S)
  (hg : s.code.graph c.method = .ok g)
  (haction : TaintProblem.actionAt g c.node = .invoke lhs call)
  (hrules : (CallRules.of rules call).isOpaque = false)
  (hfact : c.fact = .taint path origin mark) (hheap : path.OnHeap)
  (hlhs : ∀ l, lhs = some l → path.rootedAt l.render = false)
  (hedge : edge ∈ g.successors c.node) (hkind : edge.kind ≠ .exception)

include hS hc hg haction hrules hfact hheap hlhs hedge hkind

/-- A call that is analyzed in no method keeps taint of the heap, unless it assigns to the root of
its path. -/
lemma mem_along_of_untargeted
    (htargets : ∀ targets, (s.callees call).2 = .ok targets → targets = []) :
    c.along edge c.fact ∈ S := by
  have hnone : (s.problem rules o).flowProblem.targets c.site = [] := by
    rw [List.eq_nil_iff_forall_not_mem]
    intro m hm
    obtain ⟨-, targets, hok, hmem⟩ := (mem_targets_iff hg haction).mp hm
    rw [htargets targets hok] at hmem
    cases hmem
  refine hS _ _ (.callToReturn hc (atCall_of_invoke hg haction) ((mem_outgoing_iff hg).mpr hedge)
    hkind ?_)
  rw [graph_problem hg, hnone, hfact]
  refine (TaintProblem.mem_callToReturn (e := edge) haction).mpr
    ⟨TaintProblem.dereferenced_of_onHeap hheap _ _, Or.inl ⟨rfl, ?_, ?_, hlhs⟩⟩
  · intro hne
    exact absurd rfl hne
  · exact TaintProblem.not_sanitizes_of_not_isOpaque hrules

/-- Taint of the heap is found behind a call if a method that the call may enter leaves its path
alone, unless the call assigns to the root of the path.

**Proof sketch.** The method is entered with the path as it sees it, which reaches the return
statement, and is left with the path of the caller. -/
lemma mem_along_of_leavesAlone (hcode : s.code = .ofTable t)
    (hregular : path.depth = path.fields.length → path.Regular (s.problem rules o).k)
    {targets : List MethodRef} (htargets : (s.callees call).2 = .ok targets) {m : MethodRef}
    (hm : m ∈ targets) (halone : s.LeavesAlone call path m) : c.along edge c.fact ∈ S := by
  obtain ⟨callee, inside, hcallee, hbinds, i, src, hi, hret⟩ := halone
  have hgraph : (s.problem rules o).flowProblem.graph c.method = g := graph_problem hg
  have hgraph' : (s.problem rules o).flowProblem.graph m = callee := graph_problem hcallee
  have hinside : inside.OnHeap := by
    cases hbinds with
    | static => exact hheap
    | operand => exact hheap
  have henters : (s.problem rules o).flowProblem.Enters c.site c.fact m
      (.taint inside origin mark) := by
    refine ⟨atCall_of_invoke hg haction,
      (mem_targets_iff hg haction).mpr ⟨hrules, targets, htargets, hm⟩, ?_⟩
    rw [show c.site.method = c.method from rfl, hgraph, hgraph', hfact]
    exact TaintProblem.mem_enter_of_binds haction hbinds hregular
  have hentered := hS _ _ (FlowProblem.Follows.call (S := S) hc henters)
  unfold FlowProblem.entryEdge at hentered
  rw [hgraph'] at hentered
  have hleft := mem_of_reachesPast hcode hS hcallee hinside hentered hi
  obtain ⟨hexit, hcaught⟩ := atExit_of_ret rules o hcode hcallee hret
  have hreturns : edge.kind = .exception ↔
      (s.problem rules o).flowProblem.AtUncaught ⟨m, i⟩ :=
    iff_of_false hkind hcaught
  refine hS _ _ (.ret hc hleft henters hexit ((mem_outgoing_iff hg).mpr hedge) hreturns ?_)
  rw [hgraph, hgraph', hfact]
  exact TaintProblem.mem_leave_of_binds (e := edge) haction hbinds hregular hheap hlhs

end Call

/-- **Taint of the heap over a call.** When an analysis is complete, consider taint that is found
before a call without rules about what it does, of a static path or of a path with a field of an
operand, and not of what the call assigns to. It is found in the same context behind the call, along
every edge but those of exceptions, if no target of the call has a flow graph, or if a target leaves
the path alone: it can return without a write to the heap, without a call and without an assignment
to the parameter that the operand is bound to. -/
theorem heap_taint_survives_call {t : ClassTable} (s : Session) (hcode : s.code = .ofTable t)
    (rules : RuleSet) (o : RunOptions) (hdepth : checkDepth o.bound = true)
    (entries : List MethodRef) (cancelled : Bool) (tab : Tabulation Fact)
    (h : s.tabulate entries rules o cancelled = (tab, .complete)) (c : PathEdge Fact)
    (hc : tab.reached c = true) (g : FlowGraph) (hg : s.code.graph c.method = .ok g)
    (lhs : Option Value) (call : Call)
    (haction : TaintProblem.actionAt g c.node = .invoke lhs call)
    (hrules : (CallRules.of rules call).isOpaque = false) (path : AccessPath) (origin : Site)
    (mark : String) (hfact : c.fact = .taint path origin mark)
    (hheap : TaintProblem.handedOver call path = true)
    (hlhs : ∀ l, lhs = some l → path.rootedAt l.render = false)
    (hspared : (∀ targets, (s.callees call).2 = .ok targets → targets = []) ∨
      ∃ targets, (s.callees call).2 = .ok targets ∧ ∃ m ∈ targets, s.LeavesAlone call path m)
    (edge : Edge) (hedge : edge ∈ g.successors c.node) (hkind : edge.kind ≠ .exception) :
    tab.reached (c.along edge c.fact) = true := by
  have hinv := Tabulation.Invariant.of_solve h
  have hclosed := hinv.closed (Tabulation.pending_of_solve h)
  have hreached := hinv.toGrounded.reached_iff
  have hk : 1 ≤ (s.problem rules o).k := by
    simp only [checkDepth, Bool.and_eq_true, decide_eq_true_eq] at hdepth
    exact hdepth.1
  have honheap := TaintProblem.onHeap_of_handedOver hheap
  rw [hreached] at hc ⊢
  have hregular := TaintProblem.regular_of_found hinv.toGrounded hk hc hfact
  rcases hspared with hnone | ⟨targets, htargets, m, hm, halone⟩
  · exact mem_along_of_untargeted hclosed hc hg haction hrules hfact honheap hlhs hedge hkind hnone
  · exact mem_along_of_leavesAlone hclosed hc hg haction hrules hfact honheap hlhs hedge hkind hcode
      hregular htargets hm halone

end Session

/-! ## A program with a call that loses taint -/

/-- A method that hands its argument to `Jar.keep`, to `Jar.drop` and to `Out.sink`: `aload_0` and
`invokestatic`, three times, and `return`. -/
def jarMain : MethodDecl where
  name := "main"
  descriptor := "(LJar;)V"
  flags := AccessFlags.empty.insert .static
  maxLocals := 1
  code := some [
    { pc := 0, op := ⟨42⟩ },
    { pc := 1, op := ⟨184⟩, owner := "Jar", name := "keep", desc := "(LJar;)V" },
    { pc := 4, op := ⟨42⟩ },
    { pc := 5, op := ⟨184⟩, owner := "Jar", name := "drop", desc := "(LJar;)V" },
    { pc := 8, op := ⟨42⟩ },
    { pc := 9, op := ⟨184⟩, owner := "Out", name := "sink", desc := "(LJar;)V" },
    { pc := 12, op := ⟨177⟩ }]

/-- A method that stores null in a variable and returns: `aconst_null`, the store, `return`. -/
def jarClear (name : String) (maxLocals : Int) (store : Opcode) : MethodDecl where
  name
  descriptor := "(LJar;)V"
  flags := AccessFlags.empty.insert .static
  maxLocals
  code := some [{ pc := 0, op := ⟨1⟩ }, { pc := 1, op := store }, { pc := 2, op := ⟨177⟩ }]

/-- A method that clears a variable of its own: its store is `astore_1`. -/
def jarKeep : MethodDecl := jarClear "keep" 2 ⟨76⟩

/-- A method that clears its parameter: its store is `astore_0`. -/
def jarDrop : MethodDecl := jarClear "drop" 1 ⟨75⟩

/-- The type of the three methods. -/
def jarType : ClassDecl where
  name := "Jar"
  flags := AccessFlags.empty.insert .interface
  methods := [some jarMain, some jarKeep, some jarDrop]

/-- The program of the three methods. -/
def jarProgram : Program where
  classes := some [some jarType]

/-- The name of the first method. -/
def jarMainRef : MethodRef := ⟨"Jar", "main", "(LJar;)V"⟩

/-- The name of the second method. -/
def jarKeepRef : MethodRef := ⟨"Jar", "keep", "(LJar;)V"⟩

/-- The name of the third method. -/
def jarDropRef : MethodRef := ⟨"Jar", "drop", "(LJar;)V"⟩

/-- The argument of the methods. -/
def jarArg : Value := .var (.arg 0) "LJar;"

/-- The flow graph of the first method. -/
def jarMainGraph : FlowGraph where
  ref := jarMainRef
  modifiers := AccessFlags.empty.insert .static
  params := [jarArg]
  statements := #[
    ⟨1, .invoke none ⟨.static, jarKeepRef, none, [jarArg]⟩, false⟩,
    ⟨5, .invoke none ⟨.static, jarDropRef, none, [jarArg]⟩, false⟩,
    ⟨9, .invoke none ⟨.static, ⟨"Out", "sink", "(LJar;)V"⟩, none, [jarArg]⟩, false⟩,
    ⟨12, .ret none, false⟩,
    ⟨-1, .exit, true⟩]
  succs := #[
    [⟨0, 1, .normal, "", false⟩, ⟨0, 4, .exception, "", false⟩],
    [⟨1, 2, .normal, "", false⟩, ⟨1, 4, .exception, "", false⟩],
    [⟨2, 3, .normal, "", false⟩, ⟨2, 4, .exception, "", false⟩], [], []]
  exits := [3, 4]

/-- The flow graph of a method that clears a variable. -/
def jarClearGraph (ref : MethodRef) (v : Value) : FlowGraph where
  ref
  modifiers := AccessFlags.empty.insert .static
  params := [jarArg]
  statements := #[
    ⟨1, .assign v ⟨.copy (.const "null" ""), ""⟩, false⟩,
    ⟨2, .ret none, false⟩,
    ⟨-1, .exit, true⟩]
  succs := #[[⟨0, 1, .normal, "", false⟩], [], []]
  exits := [1, 2]

/-- The flow graph of the second method. -/
def jarKeepGraph : FlowGraph := jarClearGraph jarKeepRef (.var (.loc 1) "")

/-- The flow graph of the third method. -/
def jarDropGraph : FlowGraph := jarClearGraph jarDropRef jarArg

/-- The class table of the program. -/
def jarTable : ClassTable where
  classes := (∅ : Std.HashMap String ClassDecl).insert "Jar" jarType
  order := ["Jar"]
  bodies := (((∅ : Std.HashMap MethodRef MethodBody).insert jarMainRef
    (ClassTable.bodyOf jarType jarMain)).insert jarKeepRef
      (ClassTable.bodyOf jarType jarKeep)).insert jarDropRef (ClassTable.bodyOf jarType jarDrop)
  subtypes := ∅

/-- The class table with the flow graphs of the program. -/
def jarCode : CodeBase where
  table := jarTable
  graphs := (((∅ : Std.HashMap MethodRef (Except BuildError FlowGraph)).insert jarMainRef
    (.ok jarMainGraph)).insert jarKeepRef (.ok jarKeepGraph)).insert jarDropRef (.ok jarDropGraph)

lemma ofProgram_jarProgram : ClassTable.ofProgram jarProgram = .ok jarTable := by cbv

lemma build_jarProgram :
    FlowGraph.build (some jarTable) (ClassTable.bodyOf jarType jarMain) = .ok jarMainGraph ∧
      FlowGraph.build (some jarTable) (ClassTable.bodyOf jarType jarKeep) = .ok jarKeepGraph ∧
      FlowGraph.build (some jarTable) (ClassTable.bodyOf jarType jarDrop) = .ok jarDropGraph := by
  decide +kernel

/-- The flow graphs are those that are built. -/
lemma jarCode_agrees : (CodeBase.ofTable jarTable).Agrees jarCode :=
  (((CodeBase.Records.nil.insert jarMainRef build_jarProgram.1).insert jarKeepRef
    build_jarProgram.2.1).insert jarDropRef build_jarProgram.2.2).agrees

/-- A call of one of the methods with the argument. -/
def jarCall (target : MethodRef) : Call := ⟨.static, target, none, [jarArg]⟩

/-- The field `f` of the argument. -/
def jarPath : AccessPath := { base := "arg0", fields := ["f"], depth := 1 }

/-- The taint of the field on entry to the first method. -/
def jarTaint : Fact := .taint jarPath ⟨jarMainRef, 0⟩ ""

/-- The session of the program. -/
def jarSession : Session := { code := .ofTable jarTable }

/-- The flow graphs and the targets of the calls in the session. -/
lemma jarSession_code :
    jarSession.code.graph jarMainRef = .ok jarMainGraph ∧
      jarSession.code.graph jarKeepRef = .ok jarKeepGraph ∧
      jarSession.code.graph jarDropRef = .ok jarDropGraph ∧
      (jarSession.callees (jarCall jarKeepRef)).2 = .ok [jarKeepRef] ∧
      (jarSession.callees (jarCall jarDropRef)).2 = .ok [jarDropRef] := by
  have hagrees : CodeBase.Agrees jarSession.code ({ code := jarCode } : Session).code :=
    jarCode_agrees
  simp only [hagrees.graph, hagrees.callees_eq]
  refine ⟨?_, ?_, ?_, ?_, ?_⟩ <;> cbv

/-- The taint of the field is found before the calls of `Jar.keep` and `Jar.drop`, and not before
that of `Out.sink`. -/
lemma jarSession_tabulate :
    ∃ tab, jarSession.tabulate [jarMainRef] (fieldRules "f") {} false = (tab, .complete) ∧
      tab.reached ⟨jarMainRef, jarTaint, 0, jarTaint⟩ = true ∧
      tab.reached ⟨jarMainRef, jarTaint, 1, jarTaint⟩ = true ∧
      tab.reached ⟨jarMainRef, jarTaint, 2, jarTaint⟩ = false := by
  have hagrees : CodeBase.Agrees jarSession.code ({ code := jarCode } : Session).code :=
    jarCode_agrees
  have hrun : (fun r : Tabulation Fact × SolveOutcome =>
      (r.2, r.1.reached ⟨jarMainRef, jarTaint, 0, jarTaint⟩,
        r.1.reached ⟨jarMainRef, jarTaint, 1, jarTaint⟩,
        r.1.reached ⟨jarMainRef, jarTaint, 2, jarTaint⟩))
      (({ code := jarCode } : Session).tabulate [jarMainRef] (fieldRules "f") {} false) =
      (.complete, true, true, false) := by
    cbv
  rw [← hagrees.tabulate_eq] at hrun
  simp only [Prod.mk.injEq] at hrun
  exact ⟨_, Prod.ext rfl hrun.1, hrun.2⟩

/-- `Jar.keep` leaves the field alone, so its taint is found behind the call. -/
theorem jarProgram_heap_taint_survives_call :
    ∃ tab, ClassTable.ofProgram jarProgram = .ok jarTable ∧
      jarSession.tabulate [jarMainRef] (fieldRules "f") {} false = (tab, .complete) ∧
      tab.reached ⟨jarMainRef, jarTaint, 0, jarTaint⟩ = true ∧
      jarSession.LeavesAlone (jarCall jarKeepRef) jarPath jarKeepRef ∧
      tab.reached ⟨jarMainRef, jarTaint, 1, jarTaint⟩ = true := by
  obtain ⟨tab, hrun, hbefore, -⟩ := jarSession_tabulate
  obtain ⟨hmain, hkeep, -, htargets, -⟩ := jarSession_code
  have halone : jarSession.LeavesAlone (jarCall jarKeepRef) jarPath jarKeepRef := by
    have hbound : (jarArg, jarArg) ∈ (jarCall jarKeepRef).operands.zip jarKeepGraph.params :=
      List.mem_singleton_self _
    refine ⟨jarKeepGraph, _, hkeep, .operand hbound rfl (by decide) rfl, 1, none, .single ?_, rfl⟩
    refine ⟨⟨rfl, ?_⟩, ⟨0, 1, .normal, "", false⟩, List.mem_singleton_self _, by decide, rfl⟩
    rintro l ⟨⟩
    decide
  exact ⟨tab, ofProgram_jarProgram, hrun, hbefore, halone,
    Session.heap_taint_survives_call jarSession rfl (fieldRules "f") {} (by decide) _ _ tab hrun _
      hbefore jarMainGraph hmain none (jarCall jarKeepRef) rfl (by decide) jarPath _ _ rfl
      (by decide) nofun (Or.inr ⟨_, htargets, _, List.mem_singleton_self _, halone⟩)
      ⟨0, 1, .normal, "", false⟩ (by decide) (by decide)⟩

/-- **A call that loses taint of the heap.** `Jar.drop` returns without a write to the heap and
without a call, and only assigns to its own parameter. The taint of the field of its argument is
found before the call, and not behind it. -/
theorem jarProgram_call_loses_heap_taint :
    ∃ tab, ClassTable.ofProgram jarProgram = .ok jarTable ∧ jarSession.code = .ofTable jarTable ∧
      jarSession.tabulate [jarMainRef] (fieldRules "f") {} false = (tab, .complete) ∧
      jarSession.code.graph jarMainRef = .ok jarMainGraph ∧
      TaintProblem.actionAt jarMainGraph 1 = .invoke none (jarCall jarDropRef) ∧
      (CallRules.of (fieldRules "f") (jarCall jarDropRef)).isOpaque = false ∧
      TaintProblem.handedOver (jarCall jarDropRef) jarPath = true ∧
      (jarSession.callees (jarCall jarDropRef)).2 = .ok [jarDropRef] ∧
      jarSession.code.graph jarDropRef = .ok jarDropGraph ∧
      jarDropGraph.ReturnsPast (fun a => a.isQuiet = true) ∧
      tab.reached ⟨jarMainRef, jarTaint, 1, jarTaint⟩ = true ∧
      ⟨1, 2, .normal, "", false⟩ ∈ jarMainGraph.successors 1 ∧
      tab.reached ⟨jarMainRef, jarTaint, 2, jarTaint⟩ = false := by
  obtain ⟨tab, hrun, -, hbefore, hbehind⟩ := jarSession_tabulate
  obtain ⟨hmain, -, hdrop, -, htargets⟩ := jarSession_code
  have hreturns : jarDropGraph.ReturnsPast (fun a => a.isQuiet = true) := by
    refine ⟨1, none, .single ⟨rfl, ⟨0, 1, .normal, "", false⟩, ?_, ?_, rfl⟩, rfl⟩
    · exact List.mem_singleton_self _
    · decide
  exact ⟨tab, ofProgram_jarProgram, rfl, hrun, hmain, rfl, by decide, by decide, htargets, hdrop,
    hreturns, hbefore, by decide, hbehind⟩

end JvmTaint
