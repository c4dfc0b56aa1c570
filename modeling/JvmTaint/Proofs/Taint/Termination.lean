import JvmTaint.Proofs.Lowering.Assignments
import JvmTaint.Proofs.Tabulation.Termination
import JvmTaint.Proofs.Taint.FlowFunctions

set_option autoImplicit false
set_option relaxedAutoImplicit false

/-!
# Termination of the taint analysis

Loops and recursion keep extending access paths, but the bound stops them. All taint is at or below
a location that the program or a rule names, with selectors that occur in these locations, comes
from a statement of the program and has the mark of a rule. These are finitely many facts, and the
flow functions do not leave them. So the analysis ends within every large enough budget.

## Main definitions

* `JvmTaint.TaintProblem.locationSet`: the locations that the program and the rules name.
* `JvmTaint.TaintProblem.facts`: the facts about paths below these locations.
* `JvmTaint.nodeProgram`: a loop that puts a tainted node into its own field.

## Main results

* `JvmTaint.TaintProblem.finite_facts`: there are finitely many facts.
* `JvmTaint.TaintProblem.factsClosed_facts`: the flow functions do not leave them.
* `JvmTaint.TaintProblem.exists_budget_complete`: the analysis ends within every large budget.
-/

namespace JvmTaint

namespace TaintProblem

variable {p : TaintProblem} {g callee : FlowGraph} {i : Nat} {a : Action Nat}

/-! ## Methods and flow graphs -/

/-- The methods with a flow graph. -/
def methods (p : TaintProblem) : Set MethodRef := {ref | (p.code.graph ref).toOption.isSome = true}

/-- There are finitely many methods with a flow graph. -/
lemma finite_methods (p : TaintProblem) : p.methods.Finite := by
  refine (List.finite_toSet p.code.table.bodies.keys).subset ?_
  intro ref href
  have hbody : ∃ b, p.code.table.body ref = .ok b := by
    simp only [methods, Set.mem_ofPred_eq, CodeBase.graph] at href
    split at href
    · simp [Except.toOption] at href
    · exact ⟨_, ‹_›⟩
  obtain ⟨b, hb⟩ := hbody
  have hget := ClassTable.getElem?_of_body hb
  exact Std.HashMap.mem_keys.mpr (Std.HashMap.mem_iff_isSome_getElem?.mpr (by simp [hget]))

/-- There are finitely many flow graphs. -/
lemma finite_range_graph (p : TaintProblem) : (Set.range p.graph).Finite := by
  refine ((p.finite_methods.image p.graph).insert default).subset ?_
  rintro g ⟨ref, rfl⟩
  cases hgraph : p.code.graph ref with
  | ok g => exact Or.inr ⟨ref, by simp [methods, hgraph, Except.toOption], rfl⟩
  | error e => exact Or.inl (by simp [graph, hgraph])

/-- The calls of a problem are analyzed in methods with a flow graph. -/
lemma mem_methods_of_mem_targets {n : Site} {m : MethodRef} (h : m ∈ p.flowProblem.targets n) :
    m ∈ p.methods := by
  simp only [FlowProblem.targets, flowProblem, callees] at h
  split at h
  · split at h
    · simp at h
    · split at h
      · exact (List.mem_filter.mp h).2
      · simp at h
  · simp at h

/-! ## Locations, sites and marks -/

/-- The actions of a flow graph. -/
def actions (g : FlowGraph) : List (Action Nat) := .nop :: g.statements.toList.map (·.action)

/-- A statement has one of the actions of the flow graph, and none beyond its last statement. -/
lemma actionAt_eq (g : FlowGraph) (i : Nat) :
    actionAt g i ∈ actions g ∧ (actionAt g i ≠ .nop → i < g.statements.size) := by
  unfold actionAt actions
  cases hget : g.statements[i]? with
  | none => simp
  | some s =>
    have hmem : s ∈ g.statements := Array.mem_of_getElem? hget
    have hlt : i < g.statements.size := (Array.getElem?_eq_some_iff.mp hget).1
    exact ⟨List.mem_cons_of_mem _ (List.mem_map_of_mem (Array.mem_toList_iff.mpr hmem)),
      fun _ => hlt⟩

/-- The locations that the statements, the parameters and the rules name in a flow graph. -/
def locationsOf (p : TaintProblem) (g : FlowGraph) : List AccessPath :=
  (actions g).flatMap p.locations ++ g.params.map Value.path ++
    p.rules.rules.flatMap fun r => r.positions.flatMap fun pos => pos.paramPaths g p.k

/-- The locations that the program and the rules name. -/
def locationSet (p : TaintProblem) : Set AccessPath :=
  {t | ∃ g ∈ Set.range p.graph, t ∈ p.locationsOf g}

/-- There are finitely many locations. -/
lemma finite_locationSet (p : TaintProblem) : p.locationSet.Finite := by
  refine (p.finite_range_graph.biUnion fun g _ => List.finite_toSet (p.locationsOf g)).subset ?_
  rintro t ⟨g, hg, ht⟩
  exact Set.mem_biUnion hg ht

/-- The sources of taint: the entries and the statements of the flow graphs. -/
def sites (p : TaintProblem) : Set Site :=
  {n | ∃ g ∈ Set.range p.graph, n.method = g.ref ∧ n.index ≤ g.statements.size}

/-- There are finitely many sources of taint. -/
lemma finite_sites (p : TaintProblem) : p.sites.Finite := by
  refine (p.finite_range_graph.biUnion fun g _ =>
    (Set.finite_le_nat g.statements.size).image (Site.mk g.ref)).subset ?_
  rintro ⟨method, index⟩ ⟨g, hg, rfl, hle⟩
  exact Set.mem_biUnion hg ⟨index, hle, rfl⟩

/-- The marks of taint. -/
def marks (p : TaintProblem) : List String := nullMark :: p.rules.rules.map (·.mark)

/-- Locations are within the bound and free of dots. -/
lemma locatedAt_of_mem_locationSet {t : AccessPath} (ht : t ∈ p.locationSet) :
    ∃ values, LocatedAt p.k values t := by
  obtain ⟨g, -, ht⟩ := ht
  rcases List.mem_append.mp ht with ht | ht
  · rcases List.mem_append.mp ht with ht | ht
    · obtain ⟨a, -, ht⟩ := List.mem_flatMap.mp ht
      exact ⟨_, locatedAt_of_mem_locations ht⟩
    · obtain ⟨v, hv, rfl⟩ := List.mem_map.mp ht
      exact ⟨_, .value hv []⟩
  · obtain ⟨r, -, ht⟩ := List.mem_flatMap.mp ht
    obtain ⟨pos, -, ht⟩ := List.mem_flatMap.mp ht
    obtain ⟨v, hv, rfl⟩ := exists_param_of_mem_paramPaths ht
    exact ⟨_, .value hv pos.fields⟩

/-- The locations of a statement are among those of the program. -/
lemma locations_subset (p : TaintProblem) (m : MethodRef) (i : Nat) :
    ∀ t ∈ p.locations (actionAt (p.graph m) i), t ∈ p.locationSet := by
  intro t ht
  refine ⟨p.graph m, ⟨m, rfl⟩, List.mem_append_left _ (List.mem_append_left _ ?_)⟩
  exact List.mem_flatMap.mpr ⟨_, (actionAt_eq (p.graph m) i).1, ht⟩

/-- The parameters are among the locations of the program. -/
lemma params_subset (p : TaintProblem) (m : MethodRef) :
    ∀ t ∈ (p.graph m).params.map Value.path, t ∈ p.locationSet :=
  fun _ ht => ⟨p.graph m, ⟨m, rfl⟩, List.mem_append_left _ (List.mem_append_right _ ht)⟩

/-- What a statement generates has one of the marks, and it is a statement of the flow graph. -/
lemma Generates.mem_marks {m : String} (h : p.Generates a m) : m ∈ p.marks ∧ a ≠ .nop := by
  have hrule : ∀ r ∈ p.rules.rules, r.mark ∈ p.marks :=
    fun r hr => List.mem_cons_of_mem _ (List.mem_map_of_mem hr)
  cases h with
  | call hr hkind => exact ⟨hrule _ (List.mem_of_mem_filter hr), nofun⟩
  | field hf hr hkind =>
    exact ⟨hrule _ (List.mem_of_mem_filter hr), fun ha => by simp [ha, Action.field?] at hf⟩
  | null hon hnull =>
    refine ⟨List.mem_cons_self, fun ha => ?_⟩
    subst ha
    cases hnull

/-- The statements that generate taint are sources of it. -/
lemma Generates.mem_sites {ref : MethodRef} {m : String}
    (h : p.Generates (actionAt (p.graph ref) i) m) : (⟨(p.graph ref).ref, i⟩ : Site) ∈ p.sites :=
  ⟨p.graph ref, ⟨ref, rfl⟩, rfl, ((actionAt_eq (p.graph ref) i).2 h.mem_marks.2).le⟩

/-! ## Facts -/

/-- The facts of a problem: the zero fact, and taint of paths below the locations. The paths have at
most `extra` selectors more than their depth. -/
def facts (p : TaintProblem) (extra : Nat) : Set Fact :=
  {d | d = .zero ∨ ∃ path ∈ AccessPath.within p.k p.locationSet extra, ∃ n ∈ p.sites,
    ∃ m ∈ p.marks, d = .taint path n m}

variable {extra : Nat}

/-- There are finitely many facts. -/
lemma finite_facts (p : TaintProblem) (extra : Nat) : (p.facts extra).Finite := by
  refine Set.Finite.subset (s := {Fact.zero} ∪ ⋃ path ∈ AccessPath.within p.k p.locationSet extra,
    ⋃ n ∈ p.sites, ⋃ m ∈ {m | m ∈ p.marks}, {Fact.taint path n m}) ?_ ?_
  · refine (Set.finite_singleton _).union ?_
    exact (AccessPath.finite_within p.finite_locationSet p.k extra).biUnion fun path _ =>
      p.finite_sites.biUnion fun n _ => (List.finite_toSet p.marks).biUnion fun m _ =>
        Set.finite_singleton _
  · rintro d (rfl | ⟨path, hpath, n, hn, m, hm, rfl⟩)
    · exact Or.inl rfl
    · refine Or.inr ?_
      simp only [Set.mem_iUnion, Set.mem_singleton_iff]
      exact ⟨path, hpath, n, hn, m, hm, rfl⟩

/-- Taint that is generated at a location is a fact. -/
lemma taint_mem_facts (hk : 1 ≤ p.k) (hextra : ∀ t ∈ p.locationSet, t.fields.length ≤ extra)
    {t : AccessPath} {n : Site} {m : String} (ht : t ∈ p.locationSet) (hn : n ∈ p.sites)
    (hm : m ∈ p.marks) : Fact.taint t n m ∈ p.facts extra := by
  obtain ⟨values, hlocated⟩ := locatedAt_of_mem_locationSet ht
  exact Or.inr ⟨t, AccessPath.mem_within ht (hlocated.bounded hk) (hextra t ht), n, hn, m, hm, rfl⟩

/-- What follows from a fact by keeping it, moving it to a location or generating it there is a
fact. -/
lemma Yields.mem_facts {kept : Fact → Prop} {locations : List AccessPath} {n : Site} {d d' : Fact}
    (h : p.Yields kept locations n a d d') (hk : 1 ≤ p.k)
    (hextra : ∀ t ∈ p.locationSet, t.fields.length ≤ extra)
    (hsub : ∀ t ∈ locations, t ∈ p.locationSet) (hn : ∀ m, p.Generates a m → n ∈ p.sites)
    (hd : d ∈ p.facts extra) : d' ∈ p.facts extra := by
  cases h with
  | keep _ => exact hd
  | @move path target q origin m htarget hmove =>
    rcases hd with hd | ⟨path', hpath, n', hn', m', hm', hd⟩
    · cases hd
    · cases hd
      have hmem := hsub target htarget
      obtain ⟨values, hlocated⟩ := locatedAt_of_mem_locationSet hmem
      have hdots : ∀ t ∈ p.locationSet, t.DotFree := fun t ht =>
        (locatedAt_of_mem_locationSet ht).choose_spec.dotFree
      exact Or.inr ⟨q, hmove.mem_within hpath hdots hmem (hlocated.bounded hk)
        (hextra target hmem), _, hn', _, hm', rfl⟩
  | generate hpath hgen =>
    exact taint_mem_facts hk hextra (hsub _ hpath) (hn _ hgen) hgen.mem_marks.1

/-- The flow functions do not leave the facts. -/
lemma factsClosed_facts (hk : 1 ≤ p.k) (hextra : ∀ t ∈ p.locationSet, t.fields.length ≤ extra) :
    p.flowProblem.FactsClosed (p.facts extra) where
  zero := Or.inl rfl
  initial m d hd := by
    obtain ⟨r, hr, pos, hpos, path, hpath, rfl⟩ := mem_initial.mp hd
    have hrule : r ∈ p.rules.rules := List.mem_of_mem_filter hr
    refine taint_mem_facts hk hextra ?_ ⟨p.graph m, ⟨m, rfl⟩, rfl, Nat.zero_le _⟩
      (List.mem_cons_of_mem _ (List.mem_map_of_mem hrule))
    exact ⟨p.graph m, ⟨m, rfl⟩, List.mem_append_right _
      (List.mem_flatMap.mpr ⟨r, hrule, List.mem_flatMap.mpr ⟨pos, hpos, hpath⟩⟩)⟩
  normal m i edge d hd d' hd' :=
    (normal_yields hd').mem_facts hk hextra (p.locations_subset m i) (fun _ hg => hg.mem_sites) hd
  callToReturn m i edge callees d hd d' hd' := by
    have h : d' ∈ p.callToReturn (p.graph m) i edge callees d := hd'
    exact (callToReturn_yields h).mem_facts hk hextra (p.locations_subset m i)
      (fun _ hg => hg.mem_sites) hd
  enter m i callee d hd d' hd' :=
    (enter_yields hd').mem_facts hk hextra (p.params_subset callee) (fun _ hg => hg.mem_sites) hd
  leave m i edge callee exit d hd d' hd' := by
    have h : d' ∈ p.leave (p.graph m) i edge (p.graph callee) exit d := hd'
    exact (leave_yields h).mem_facts hk hextra (p.locations_subset m i)
      (fun _ hg => hg.mem_sites) hd

/-! ## Termination -/

/-- The locations have boundedly many selectors. -/
lemma exists_length_le (p : TaintProblem) :
    ∃ extra, ∀ t ∈ p.locationSet, t.fields.length ≤ extra := by
  obtain ⟨extra, hextra⟩ := (p.finite_locationSet.image fun t => t.fields.length).bddAbove
  exact ⟨extra, fun t ht => hextra ⟨t, ht, rfl⟩⟩

/-- **Termination of the taint analysis.** For every positive bound of access paths, a finite set of
facts is closed under the flow functions: the zero fact, and taint with the marks of the rules, from
the statements of the program, of paths within the bound that are spelled with the names in the
locations. No path edge is processed twice, and with every large enough budget the analysis comes to
its end. -/
theorem exists_budget_complete (p : TaintProblem) (entries : List MethodRef) (hk : 1 ≤ p.k) :
    (∃ extra, (p.facts extra).Finite ∧ p.flowProblem.FactsClosed (p.facts extra)) ∧
      (∀ retain budget cancelled t outcome,
        p.flowProblem.solve retain budget cancelled entries = (t, outcome) →
          (t.edges.toList.take t.processed).Nodup) ∧
      ∃ N : Nat, ∀ (retain : Bool) (budget : Int), (N : Int) ≤ budget →
        ∃ t, p.flowProblem.solve retain budget false entries = (t, .complete) ∧
          t.processed = t.edges.size := by
  obtain ⟨extra, hextra⟩ := p.exists_length_le
  have hclosed := factsClosed_facts hk hextra
  have hfinite : (p.flowProblem.pathEdges entries).Finite := by
    refine hclosed.finite_pathEdges (p.finite_facts extra)
      (p.finite_methods.union (List.finite_toSet entries)) ?_ ?_
    · exact fun m hm => Or.inr hm
    · exact fun n m hm => Or.inl (mem_methods_of_mem_targets hm)
  refine ⟨⟨extra, p.finite_facts extra, hclosed⟩, ?_, ?_⟩
  · intro retain budget cancelled t outcome hsolve
    exact (Tabulation.Invariant.of_solve hsolve).nodup.sublist (List.take_sublist ..)
  · obtain ⟨N, hN⟩ := FlowProblem.exists_complete_of_finite hfinite
    refine ⟨N, fun retain budget hbudget => ?_⟩
    obtain ⟨t, ht⟩ := hN retain budget hbudget
    have hinv := Tabulation.Invariant.of_solve ht
    exact ⟨t, ht, hinv.processed_eq (Tabulation.pending_of_solve ht)⟩

end TaintProblem

/-! ## A program -/

/-- A method that puts a node into its own field for ever: `aload_0`, `aload_0`, `putfield`,
`goto`. -/
def growMethod : MethodDecl where
  name := "grow"
  descriptor := "(LNode;)V"
  flags := AccessFlags.empty.insert .static
  maxLocals := 1
  code := some [
    { pc := 0, op := ⟨42⟩ },
    { pc := 1, op := ⟨42⟩ },
    { pc := 2, op := ⟨181⟩, owner := "Node", name := "next", desc := "LNode;" },
    { pc := 5, op := ⟨167⟩, target := 0 }]

/-- A program with a class of linked nodes. -/
def nodeProgram : Program where
  classes := some [some {
    name := "Node", super := javaLangObject, methods := [some growMethod] }]

/-- The method of the program. -/
def growRef : MethodRef := ⟨"Node", "grow", "(LNode;)V"⟩

/-- The parameters of entry methods are tainted. -/
def entryRules : RuleSet where
  name := "entries"
  rules := [{
    kind := .entryPoint, matcher := ⟨{}, none⟩, positions := [⟨.anyArg, []⟩], mark := "user" }]

/-- The taint problem of the program, with three selectors at most. -/
def nodeProblem (t : ClassTable) : TaintProblem := ⟨.ofTable t, entryRules, 3⟩

/-- The analysis of the program ends, although its loop extends the tainted path in each round. -/
theorem nodeProgram_exists_budget_complete :
    ∃ t, ClassTable.ofProgram nodeProgram = .ok t ∧ 1 ≤ (nodeProblem t).k ∧
      (∃ extra, ((nodeProblem t).facts extra).Finite ∧
        (nodeProblem t).flowProblem.FactsClosed ((nodeProblem t).facts extra)) ∧
      ∃ N : Nat, ∀ (retain : Bool) (budget : Int), (N : Int) ≤ budget →
        ∃ s, (nodeProblem t).flowProblem.solve retain budget false [growRef] = (s, .complete) ∧
          s.processed = s.edges.size := by
  have hok : (ClassTable.ofProgram nodeProgram).isOk = true := by cbv
  cases ht : ClassTable.ofProgram nodeProgram with
  | error e => simp [ht, Except.isOk, Except.toBool] at hok
  | ok t =>
    have hk : 1 ≤ (nodeProblem t).k := show (1 : Int) ≤ 3 by decide
    obtain ⟨hfacts, -, hN⟩ := TaintProblem.exists_budget_complete (nodeProblem t) [growRef] hk
    exact ⟨t, rfl, hk, hfacts, hN⟩

end JvmTaint
