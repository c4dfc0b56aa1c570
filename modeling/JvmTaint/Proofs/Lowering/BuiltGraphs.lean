import JvmTaint.Proofs.Calls.CallGraph
import JvmTaint.Proofs.Lowering.Connecting
import JvmTaint.SortedList

set_option autoImplicit false
set_option relaxedAutoImplicit false

/-!
# Built flow graphs

The flow graph of a method fits together. Every statement has the edges that follow from its action:
a branch has one edge for each outcome of its condition, a jump has edges to all of its targets, a
statement has exception edges if and only if it may raise an exception, and control goes on from
everything but exits and placeholders. The exits are the returns and the last statement, and they
are found by binary search.

## Main definitions

* `JvmTaint.Action.Connected`: the outgoing edges of a statement follow from its action.
* `JvmTaint.FlowGraph.Connects`: a graph is made of all lowered blocks of a body.
* `JvmTaint.FlowGraph.WellFormed`: statements, edges and exits fit together.

## Main results

* `JvmTaint.Action.connected`: the edges that connecting gives to a statement.
* `JvmTaint.FlowGraph.build_cases`: what a built graph is made of.
* `JvmTaint.CodeBase.successors_of_isExit`, `JvmTaint.CodeBase.isExit_iff`: the exits of the graphs
  of a program.
* `JvmTaint.FlowGraph.wellFormed_of_build`: every graph that is built is well formed.
-/

namespace JvmTaint

/-! ## Edges of a statement -/

/-- The edge with another mark. -/
def Edge.marked (mark : Edge → Bool) (e : Edge) : Edge := { e with back := mark e }

/-- The outgoing edges of the statement `i` of `size` statements, as they follow from its action. -/
structure Action.Connected (size i : Nat) (a : Action Nat) (out : List Edge) : Prop where
  source_eq : ∀ e ∈ out, e.source = i
  target_lt : ∀ e ∈ out, e.target < size
  /-- No two edges have the same target and kind. -/
  distinct : Distinct out
  /-- Control does not go on from an exit. -/
  stops : a.isExit = true → out = []
  /-- Control goes on from everything else but placeholders. -/
  goes : a.isExit = false → a.isUnreachable = false → out ≠ []
  /-- A branch has one edge to its target, for the case that its condition holds, and one edge for
  the case that it does not. -/
  branches : ∀ condition t, a = .branch condition t →
    (∃ e, out.filter (·.kind == .onTrue) = [e] ∧ e.target = t) ∧
    ∃ e, out.filter (·.kind == .onFalse) = [e]
  /-- A jump has edges to all of its targets. -/
  jumps : (∃ t, a = .goto t) ∨ (∃ key ts, a = .switch key ts) →
    ∀ t, (∃ e ∈ out, e.Leads t .normal) ↔ t ∈ a.targets
  /-- The exceptions that may be raised have edges. -/
  raises : (∃ e ∈ out, e.kind = .exception) ↔ a.mayThrow = true

section Outcome

variable {a : Action Nat} {i : Nat} {f : Nat → Nat} {raised : List Edge}

/-- The edges that are no exception edges are those of the ways. -/
lemma exists_leads_iff (hraised : ∀ e ∈ raised, e.kind = .exception) {t : Nat} {kind : EdgeKind}
    (hkind : kind ≠ .exception) :
    (∃ e ∈ raised.foldl insertEdge (((a.ways i).foldl insertEdge []).map (Edge.retarget f)),
      e.Leads t kind) ↔ ∃ e ∈ a.ways i, f e.target = t ∧ e.kind = kind := by
  rw [exists_foldl_insertEdge]
  constructor
  · rintro (⟨e, he, hleads⟩ | ⟨e, he, hleads⟩)
    · obtain ⟨e', he', rfl⟩ := List.mem_map.mp he
      have hway : e' ∈ a.ways i := by simpa using mem_of_mem_foldl_insertEdge he'
      exact ⟨e', hway, hleads⟩
    · exact absurd (hleads.2.symm.trans (hraised e he)) hkind
  · rintro ⟨e, he, rfl, rfl⟩
    obtain ⟨e', he', htarget, hkind'⟩ :=
      exists_foldl_insertEdge_nil.mpr ⟨e, he, (⟨rfl, rfl⟩ : e.Leads e.target e.kind)⟩
    exact .inl ⟨_, List.mem_map_of_mem he', congrArg f htarget, hkind'⟩

/-- **Edges of a statement.** Its ways, renamed apart, and its exceptions connect it.

**Proof sketch.** Every edge is a way or an exception. Edges are only added where none with the same
target and kind is, and adding edges of one kind does not change those of another. -/
lemma Action.connected {size : Nat} (hf : ∀ e ∈ a.ways i, f e.target < size)
    (hinj : ∀ e ∈ a.ways i, ∀ e' ∈ a.ways i, f e.target = f e'.target → e.target = e'.target)
    (hraised : ∀ e ∈ raised, e.source = i ∧ e.kind = .exception ∧ e.target < size)
    (hthrow : raised ≠ [] ↔ a.mayThrow = true)
    (hgoes : a.isExit = false → a.isUnreachable = false → a.mayThrow = false → a.ways i ≠ []) :
    (a.mapLabels f).Connected size i
      (raised.foldl insertEdge (((a.ways i).foldl insertEdge []).map (Edge.retarget f))) := by
  have hkind : ∀ e ∈ raised, e.kind = .exception := fun e he => (hraised e he).2.1
  have hmem : ∀ e ∈ raised.foldl insertEdge
      (((a.ways i).foldl insertEdge []).map (Edge.retarget f)),
      (∃ e' ∈ a.ways i, e = e'.retarget f) ∨ e ∈ raised := by
    intro e he
    refine (mem_of_mem_foldl_insertEdge he).imp_left fun he => ?_
    obtain ⟨e', he', rfl⟩ := List.mem_map.mp he
    exact ⟨e', by simpa using mem_of_mem_foldl_insertEdge he', rfl⟩
  have hthrows : (∃ e ∈ raised.foldl insertEdge
      (((a.ways i).foldl insertEdge []).map (Edge.retarget f)), e.kind = .exception) ↔
      a.mayThrow = true := by
    rw [← hthrow]
    constructor
    · rintro ⟨e, he, hexception⟩ hnil
      rcases hmem e he with ⟨e', he', rfl⟩ | he
      · exact (source_of_mem_ways he').2 hexception
      · rw [hnil] at he
        cases he
    · intro hne
      obtain ⟨e, he⟩ := List.exists_mem_of_ne_nil _ hne
      obtain ⟨e', he', hleads⟩ := exists_foldl_insertEdge.mpr
        (.inr ⟨e, he, (⟨rfl, hkind e he⟩ : e.Leads e.target .exception)⟩)
      exact ⟨e', he', hleads.2⟩
  constructor
  case source_eq =>
    intro e he
    rcases hmem e he with ⟨e', he', rfl⟩ | he
    · exact (source_of_mem_ways he').1
    · exact (hraised e he).1
  case target_lt =>
    intro e he
    rcases hmem e he with ⟨e', he', rfl⟩ | he
    · exact hf e' he'
    · exact (hraised e he).2.2
  case distinct =>
    have hnone : Distinct [] := List.Pairwise.nil
    refine ((hnone.foldl_insertEdge).map_retarget fun e he e' he' => ?_).foldl_insertEdge
    exact hinj e (by simpa using mem_of_mem_foldl_insertEdge he) e'
      (by simpa using mem_of_mem_foldl_insertEdge he')
  case stops =>
    intro hexit
    rw [isExit_mapLabels] at hexit
    have hnone : raised = [] := by
      by_contra hne
      have hthrow := hthrow.mp hne
      rw [mayThrow_of_isExit hexit] at hthrow
      cases hthrow
    rw [ways_of_isExit hexit, hnone]
    rfl
  case goes =>
    intro hexit hreached hnil
    rw [isExit_mapLabels] at hexit
    rw [isUnreachable_mapLabels] at hreached
    rw [hnil] at hthrows
    have hcalm : a.mayThrow = false := by
      by_contra hthrow
      obtain ⟨e, he, -⟩ := hthrows.mpr (by simpa using hthrow)
      cases he
    obtain ⟨e, he⟩ := List.exists_mem_of_ne_nil _ (hgoes hexit hreached hcalm)
    have hleads := (exists_leads_iff (f := f) hkind (source_of_mem_ways he).2).mpr
      ⟨e, he, rfl, rfl⟩
    rw [hnil] at hleads
    obtain ⟨e, he, -⟩ := hleads
    cases he
  case branches =>
    intro condition t ha
    cases a with
    | branch condition' t' =>
      cases ha
      have hfilter : ∀ kind, kind ≠ EdgeKind.exception → (raised.foldl insertEdge
          ((((Action.branch condition t').ways i).foldl insertEdge []).map
            (Edge.retarget f))).filter (·.kind == kind) =
          ((((Action.branch condition t').ways i).foldl insertEdge []).map
            (Edge.retarget f)).filter (·.kind == kind) := by
        intro kind hne
        refine filter_foldl_insertEdge fun e he => ?_
        rw [hkind e he]
        exact beq_eq_false_iff_ne.mpr hne.symm
      have hways : ((Action.branch condition t').ways i).foldl insertEdge [] =
          (Action.branch condition t').ways i := by
        simp [ways, insertEdge]
      rw [hfilter .onTrue (by simp), hfilter .onFalse (by simp), hways]
      exact ⟨⟨_, rfl, rfl⟩, ⟨_, rfl⟩⟩
    | _ => cases ha
  case jumps =>
    intro ha t
    rw [exists_leads_iff hkind (by simp)]
    rcases ha with ⟨t', ha⟩ | ⟨key, ts, ha⟩
    · cases a with
      | goto t'' => simp [ways, mapLabels, targets, eq_comm]
      | _ => cases ha
    · cases a with
      | switch key' ts' => simp [ways, mapLabels, targets]
      | _ => cases ha
  case raises => rw [hthrows, mayThrow_mapLabels]

/-- Marking edges keeps the statement connected. -/
lemma Action.Connected.map_marked {size : Nat} {out : List Edge} (h : a.Connected size i out)
    (mark : Edge → Bool) : a.Connected size i (out.map (Edge.marked mark)) := by
  have hfilter : ∀ kind : EdgeKind, (out.map (Edge.marked mark)).filter (·.kind == kind) =
      (out.filter (·.kind == kind)).map (Edge.marked mark) := fun kind => List.filter_map
  constructor
  case source_eq => exact List.forall_mem_map.mpr h.source_eq
  case target_lt => exact List.forall_mem_map.mpr h.target_lt
  case distinct => exact List.pairwise_map.mpr h.distinct
  case stops =>
    intro hexit
    rw [h.stops hexit]
    rfl
  case goes =>
    intro hexit hreached
    simpa using h.goes hexit hreached
  case branches =>
    intro condition t ha
    obtain ⟨⟨e, he, htarget⟩, ⟨e', he'⟩⟩ := h.branches condition t ha
    rw [hfilter, hfilter, he, he']
    exact ⟨⟨_, rfl, htarget⟩, ⟨_, rfl⟩⟩
  case jumps =>
    intro ha t
    rw [← h.jumps ha t]
    simp [Edge.marked, Edge.Leads]
  case raises =>
    rw [← h.raises]
    simp [Edge.marked]

end Outcome

/-! ## Graphs -/

/-- Edges are marked that the search for back edges has found. -/
lemma getD_markBackEdges (succs : Successors) (i : Nat) : (markBackEdges succs).getD i [] =
    (succs.getD i []).map (Edge.marked fun e => (backEdges succs).contains e) := by
  simp only [markBackEdges, Array.getD_eq_getD_getElem?, Array.getElem?_map]
  cases succs[i]? <;> rfl

/-- Marking edges. -/
lemma exists_markBackEdges (succs : Successors) :
    ∃ mark, (markBackEdges succs).size = succs.size ∧
      ∀ i, (markBackEdges succs).getD i [] = (succs.getD i []).map (Edge.marked mark) :=
  ⟨_, by simp [markBackEdges], getD_markBackEdges succs⟩

namespace FlowGraph

variable {types : Option ClassTable} {b : MethodBody} {g : FlowGraph}

/-- The graph of a body with code is made of all of its lowered blocks. -/
structure Connects (types : Option ClassTable) (b : MethodBody) (params : ParamSlots)
    (p : Progression) (g : FlowGraph) : Prop where
  complete : p.Complete b
  statements_eq : g.statements = (connectAll types params b.handlers b.resources p).statements
  succs_eq : g.succs = markBackEdges (connectAll types params b.handlers b.resources p).succs

/-- The exits of a built flow graph are the statements that leave the method. -/
lemma build_exits (h : FlowGraph.build types b = .ok g) : g.exits = exitsOf g.statements := by
  unfold FlowGraph.build at h
  split at h
  · cases h
  · split at h
    · cases h
    · dsimp only at h
      split at h
      · cases h
      · cases h
        rfl

/-- A body with code passes the checks, and all of its blocks are lowered. -/
lemma ofCode_complete {params : ParamSlots} (hparams : params.Variables) (hcode : b.code ≠ []) :
    Ensures (ofCode types b params) fun w => ∃ p : Progression, p.Complete b ∧
      w = connectAll types params b.handlers b.resources p := by
  unfold ofCode
  refine b.validate_valid.bind fun _ hvalid => ?_
  refine Ensures.bind (Q := fun shapes => findShapes params b.handlers b.blocks = .ok shapes)
    (fun _ hshapes => hshapes) fun shapes hshapes => ?_
  refine Ensures.of_bind fun _ => ?_
  refine Ensures.bind ((lowerBlocks_laid hparams b shapes).and
    (lowerBlocks_visits hvalid hshapes)) fun p hp => ?_
  exact ensures_ok ⟨p, ⟨hvalid, hcode, hp.1.1, hp.1.2, hp.2⟩, rfl⟩

/-- A built flow graph is the exit alone or made of all lowered blocks. -/
lemma build_cases (h : FlowGraph.build types b = .ok g) :
    (b.code = [] ∧ g.statements = #[exitStatement] ∧ g.succs = #[[]]) ∨
      ∃ d p, MethodDescriptor.parse b.ref.descriptor = .ok d ∧
        g.Connects types b (b.paramSlots d) p := by
  unfold FlowGraph.build at h
  split at h
  · cases h
  · split at h
    · cases h
    · rename_i d hd
      dsimp only at h
      split at h
      · cases h
      · rename_i w hw
        cases h
        split at hw
        · rename_i hempty
          cases hw
          exact .inl ⟨by simpa using hempty, rfl, by simp [markBackEdges]⟩
        · rename_i hempty
          obtain ⟨p, hp, rfl⟩ := ofCode_complete (b.paramSlots_variables d) (by simpa using hempty)
            w hw
          exact .inr ⟨d, p, hd, hp, rfl, rfl⟩

namespace Connects

variable {params : ParamSlots} {p : Progression} (h : g.Connects types b params p)

include h

lemma size_statements : g.statements.size = p.exit b.resources + 1 := by
  rw [h.statements_eq, connectAll_statements h.complete, Array.size_mapIdx,
    Progression.size_unlinked]

lemma size_succs : g.succs.size = p.exit b.resources + 1 := by
  obtain ⟨mark, hsize, -⟩ := exists_markBackEdges
    (connectAll types params b.handlers b.resources p).succs
  rw [h.succs_eq, hsize, connectAll_size h.complete]

lemma unhandledExit_eq : g.unhandledExit = p.exit b.resources := by
  rw [unhandledExit, h.size_statements]
  rfl

/-- The statements with the targets of their jumps. -/
lemma getElem?_statements (i : Nat) : g.statements[i]? =
    ((p.unlinked params b.resources)[i]?).map
      (Statement.retarget (p.leadsTo params b.resources i)) := by
  rw [h.statements_eq, connectAll_statements h.complete, Array.getElem?_mapIdx]

/-- The edges of the statements. -/
lemma exists_successors : ∃ mark, ∀ i < p.exit b.resources + 1, g.successors i =
    ((raisedEdges types b.handlers p.spans (p.scopes b.resources) (p.exit b.resources)
      (p.unlinked params b.resources) i).foldl insertEdge
      ((flowEdges (p.unlinked params b.resources) i).map
        (Edge.retarget (p.leadsTo params b.resources i)))).map (Edge.marked mark) := by
  obtain ⟨mark, -, hmark⟩ := exists_markBackEdges
    (connectAll types params b.handlers b.resources p).succs
  refine ⟨mark, fun i hi => ?_⟩
  rw [successors, h.succs_eq, hmark, ← connectAll_out h.complete types params _ _ hi]
  rfl

/-- Every statement is connected. -/
lemma connected {i : Nat} {st : Statement} (hst : g.statements[i]? = some st) :
    st.action.Connected g.statements.size i (g.successors i) := by
  have hi := (Array.getElem?_eq_some_iff.mp hst).1
  rw [h.size_statements] at hi ⊢
  rw [h.getElem?_statements] at hst
  obtain ⟨st', hst', rfl⟩ := Option.map_eq_some_iff.mp hst
  obtain ⟨mark, hmark⟩ := h.exists_successors
  have hhas := h.complete.has hst'
  rw [hmark i hi, flowEdges_of_getElem? hst']
  refine (Action.connected (a := st'.action) ?_ ?_ ?_ ?_ ?_).map_marked mark
  · intro e he
    exact Nat.lt_succ_of_lt (Progression.leadsTo_lt (hhas.target h.complete he).1 i)
  · intro e he e' he'
    exact Progression.leadsTo_injOn (hhas.target h.complete he).2 (hhas.target h.complete he').2
  · intro e he
    exact Progression.of_mem_raisedEdges h.complete he
  · rw [raisedEdges, hst']
    dsimp only
    split
    · rename_i hthrow
      simp [hthrow, catchEdges_ne_nil]
    · rename_i hthrow
      simp [hthrow]
  · exact hhas.goes

/-- The exit is the last statement. -/
lemma exit_iff {i : Nat} {st : Statement} (hst : g.statements[i]? = some st) :
    st.action = .exit ↔ i = g.unhandledExit := by
  rw [h.getElem?_statements] at hst
  obtain ⟨st', hst', rfl⟩ := Option.map_eq_some_iff.mp hst
  rw [h.unhandledExit_eq, ← (h.complete.has hst').exit_iff, Statement.retarget]
  cases st'.action <;> simp [Action.mapLabels]

end Connects

/-- **Statements of built graphs.** Every statement has the edges that follow from its action, and
the last one is the only exit of exceptions. -/
lemma build_connected (h : FlowGraph.build types b = .ok g) :
    0 < g.statements.size ∧ g.succs.size = g.statements.size ∧
      ∀ i st, g.statements[i]? = some st →
        st.action.Connected g.statements.size i (g.successors i) ∧
          (st.action = .exit ↔ i = g.unhandledExit) := by
  rcases build_cases h with ⟨-, hstatements, hsuccs⟩ | ⟨d, p, -, hconnects⟩
  · refine ⟨by simp [hstatements], by simp [hstatements, hsuccs], fun i st hst => ?_⟩
    have hi : i = 0 := by
      have := (Array.getElem?_eq_some_iff.mp hst).1
      rw [hstatements] at this
      simpa using this
    subst hi
    obtain rfl : exitStatement = st := by simpa [hstatements] using hst
    have hout : g.successors 0 = [] := by simp [successors, hsuccs]
    have hexit : Action.Connected g.statements.size 0 (Action.mapLabels (fun t => t) .exit)
        ((([] : List Edge).foldl insertEdge
          (((Action.exit.ways 0).foldl insertEdge []).map (Edge.retarget fun t => t)))) :=
      Action.connected (by nofun) (by nofun) (by nofun) (by simp [Action.mayThrow]) (by nofun)
    refine ⟨?_, by simp [exitStatement, unhandledExit, hstatements]⟩
    rw [hout]
    exact hexit
  · exact ⟨by rw [hconnects.size_statements]; omega,
      by rw [hconnects.size_statements, hconnects.size_succs],
      fun i st hst => ⟨hconnects.connected hst, hconnects.exit_iff hst⟩⟩

end FlowGraph

/-! ## Exits -/

/-- The exits are the positions of the statements that leave the method. -/
lemma mem_exitsOf {statements : Array Statement} {i : Nat} :
    i ∈ exitsOf statements ↔ ∃ st, statements[i]? = some st ∧ st.action.isExit = true := by
  unfold exitsOf
  simp only [List.mem_map, List.mem_filter, Prod.exists, exists_eq_right,
    List.mem_zipIdx_iff_getElem?, Array.getElem?_toList]

/-- The exits are listed in increasing order. -/
lemma pairwise_exitsOf (statements : Array Statement) :
    (exitsOf statements).Pairwise (· < ·) := by
  have hsublist : (exitsOf statements).Sublist (statements.toList.zipIdx.map (·.2)) :=
    List.Sublist.map _ List.filter_sublist
  rw [List.zipIdx_map_snd] at hsublist
  exact List.Pairwise.sublist hsublist List.pairwise_lt_range'

namespace FlowGraph

variable {types : Option ClassTable} {b : MethodBody} {g : FlowGraph}

/-- The exits of a built flow graph are the statements that leave the method. -/
lemma build_isExit_iff (h : FlowGraph.build types b = .ok g) {i : Nat} :
    g.isExit i = true ↔ ∃ st, g.statements[i]? = some st ∧ st.action.isExit = true := by
  rw [isExit, build_exits h, List.contains_iff_mem, mem_exitsOf]

/-- The exits of a built flow graph have no outgoing edges. -/
lemma build_successors_of_isExit (h : FlowGraph.build types b = .ok g) {i : Nat}
    (hi : g.isExit i = true) : g.successors i = [] := by
  obtain ⟨st, hst, hexit⟩ := (build_isExit_iff h).mp hi
  exact ((build_connected h).2.2 i st hst).1.stops hexit

end FlowGraph

/-- The exits of the flow graphs of a program have no outgoing edges. -/
lemma CodeBase.successors_of_isExit {t : ClassTable} {ref : MethodRef} {g : FlowGraph}
    (h : (CodeBase.ofTable t).graph ref = .ok g) {i : Nat} (hi : g.isExit i = true) :
    g.successors i = [] := by
  obtain ⟨b, -, hbuild⟩ := CodeBase.build_of_graph h
  exact FlowGraph.build_successors_of_isExit hbuild hi

/-- The exits of the flow graphs of a program are the statements that leave the method. -/
lemma CodeBase.isExit_iff {t : ClassTable} {ref : MethodRef} {g : FlowGraph}
    (h : (CodeBase.ofTable t).graph ref = .ok g) {i : Nat} :
    g.isExit i = true ↔ ∃ st, g.statements[i]? = some st ∧ st.action.isExit = true := by
  obtain ⟨b, -, hbuild⟩ := CodeBase.build_of_graph h
  exact FlowGraph.build_isExit_iff hbuild

/-! ## Binary search -/

/-- In an increasing list exactly the members are found. -/
lemma binarySearch_eq_contains {xs : List Nat} (hxs : xs.Pairwise (· < ·)) (x : Nat) :
    binarySearch xs x = xs.contains x := by
  rw [Bool.eq_iff_iff, binarySearch_iff (hxs.imp Nat.le_of_lt), List.contains_iff_mem]

/-! ## Well-formed graphs -/

namespace FlowGraph

variable {types : Option ClassTable} {b : MethodBody} {g : FlowGraph}

/-- A flow graph whose statements, edges and exits fit together. -/
structure WellFormed (g : FlowGraph) : Prop where
  size_succs : g.succs.size = g.statements.size
  /-- A statement is known by its position. -/
  calls_iff : ∀ call i, (call, i) ∈ g.calls ↔
    ∃ st, g.statements[i]? = some st ∧ st.action.call? = some call
  joins : ∀ e ∈ g.edges, e.source < g.statements.size ∧ e.target < g.statements.size
  /-- The edges are listed at their sources. -/
  mem_successors_iff : ∀ i e, e ∈ g.successors i ↔ e ∈ g.edges ∧ e.source = i
  /-- The same edges are listed at their targets. -/
  mem_predecessors_iff : ∀ i e, e ∈ g.predecessors i ↔ e ∈ g.edges ∧ e.target = i
  distinct : g.edges.Pairwise fun e e' =>
    ¬ (e.source = e'.source ∧ e.target = e'.target ∧ e.kind = e'.kind)
  /-- The last statement is the only exit of exceptions. -/
  exit_iff : ∀ i, (∃ st, g.statements[i]? = some st ∧ st.action = .exit) ↔ i = g.unhandledExit
  exits_increase : g.exits.Pairwise (· < ·)
  mem_exits_iff : ∀ i, i ∈ g.exits ↔
    (∃ st, g.statements[i]? = some st ∧ ∃ src, st.action = .ret src) ∨ i = g.unhandledExit
  /-- The exits are found by binary search. -/
  search_eq : ∀ (i : Nat) (st : Statement), g.statements[i]? = some st →
    g.isExit i = st.action.isExit ∧ binarySearch g.exits i = st.action.isExit
  connected : ∀ (i : Nat) (st : Statement), g.statements[i]? = some st →
    st.action.Connected g.statements.size i (g.successors i)

/-- The edges are those of the statements. -/
lemma mem_edges_iff {e : Edge} : e ∈ g.edges ↔ ∃ i < g.succs.size, e ∈ g.successors i := by
  unfold edges
  rw [List.mem_flatten]
  constructor
  · rintro ⟨out, hout, he⟩
    obtain ⟨i, hi⟩ := List.mem_iff_getElem?.mp hout
    have hlt := (List.getElem?_eq_some_iff.mp hi).1
    rw [Array.getElem?_toList] at hi
    refine ⟨i, by simpa using hlt, ?_⟩
    simpa [successors, hi] using he
  · rintro ⟨i, hi, he⟩
    refine ⟨g.succs[i], Array.getElem_mem_toList hi, ?_⟩
    simpa [successors, hi] using he

/-- The edges at a position start there. -/
lemma source_of_mem_successors (h : FlowGraph.build types b = .ok g) {i : Nat} {e : Edge}
    (he : e ∈ g.successors i) : i < g.statements.size ∧ e.source = i ∧
      e.target < g.statements.size := by
  obtain ⟨-, hsize, hconnected⟩ := build_connected h
  have hi : i < g.statements.size := by
    by_contra hi
    have hnone : g.succs[i]? = none := Array.getElem?_eq_none (by omega)
    simp [successors, hnone] at he
  have hst := Array.getElem?_eq_getElem hi
  have hi' := (hconnected i _ hst).1
  exact ⟨hi, hi'.source_eq e he, hi'.target_lt e he⟩

/-- The edges at a position are those that start there. -/
lemma mem_successors_iff (h : FlowGraph.build types b = .ok g) {i : Nat} {e : Edge} :
    e ∈ g.successors i ↔ e ∈ g.edges ∧ e.source = i := by
  obtain ⟨-, hsize, -⟩ := build_connected h
  rw [mem_edges_iff]
  constructor
  · intro he
    have hi := source_of_mem_successors h he
    exact ⟨⟨i, hsize ▸ hi.1, he⟩, hi.2.1⟩
  · rintro ⟨⟨j, -, he⟩, rfl⟩
    rw [(source_of_mem_successors h he).2.1]
    exact he

/-- No two edges have the same ends and kind.

**Proof sketch.** The edges are listed by their sources, and the edges of one source differ in their
targets or kinds. -/
lemma pairwise_edges (h : FlowGraph.build types b = .ok g) : g.edges.Pairwise fun e e' =>
    ¬ (e.source = e'.source ∧ e.target = e'.target ∧ e.kind = e'.kind) := by
  obtain ⟨-, hsize, hconnected⟩ := build_connected h
  have hget : ∀ i (hi : i < g.succs.toList.length), g.succs.toList[i] = g.successors i := by
    intro i hi
    have hi : i < g.succs.size := by simpa using hi
    simp [successors, hi]
  unfold edges
  refine List.pairwise_flatten.mpr ⟨fun out hout => ?_, ?_⟩
  · obtain ⟨i, hi, rfl⟩ := List.mem_iff_getElem.mp hout
    rw [hget i hi]
    have hi : i < g.statements.size := by
      rw [← hsize]
      simpa using hi
    refine (hconnected i _ (Array.getElem?_eq_getElem hi)).1.distinct.imp ?_
    intro e e' hne heq
    exact hne ⟨heq.2.1.symm, heq.2.2.symm⟩
  · refine List.pairwise_iff_getElem.mpr fun i j hi hj hij e he e' he' heq => ?_
    rw [hget i hi] at he
    rw [hget j hj] at he'
    have hsource := (source_of_mem_successors h he).2.1
    have hsource' := (source_of_mem_successors h he').2.1
    omega

/-- The exit of exceptions is the last statement. -/
lemma exists_exit_iff (h : FlowGraph.build types b = .ok g) {i : Nat} :
    (∃ st, g.statements[i]? = some st ∧ st.action = .exit) ↔ i = g.unhandledExit := by
  obtain ⟨hpos, -, hconnected⟩ := build_connected h
  constructor
  · rintro ⟨st, hst, hexit⟩
    exact (hconnected i st hst).2.mp hexit
  · rintro rfl
    have hlt : g.unhandledExit < g.statements.size := by
      unfold unhandledExit
      omega
    have hst := Array.getElem?_eq_getElem hlt
    exact ⟨_, hst, (hconnected _ _ hst).2.mpr rfl⟩

/-- The exits are the returns and the exit of exceptions. -/
lemma mem_exits_iff (h : FlowGraph.build types b = .ok g) {i : Nat} : i ∈ g.exits ↔
    (∃ st, g.statements[i]? = some st ∧ ∃ src, st.action = .ret src) ∨ i = g.unhandledExit := by
  rw [← exists_exit_iff h, build_exits h, mem_exitsOf]
  constructor
  · rintro ⟨st, hst, hexit⟩
    cases ha : st.action with
    | ret src => exact .inl ⟨st, hst, src, ha⟩
    | exit => exact .inr ⟨st, hst, ha⟩
    | _ => simp [ha, Action.isExit] at hexit
  · rintro (⟨st, hst, src, ha⟩ | ⟨st, hst, ha⟩)
    · exact ⟨st, hst, by rw [ha]; rfl⟩
    · exact ⟨st, hst, by rw [ha]; rfl⟩

/-- **Well-formedness.** Every flow graph that is built is well formed. -/
theorem wellFormed_of_build (h : FlowGraph.build types b = .ok g) : g.WellFormed := by
  obtain ⟨-, hsize, hconnected⟩ := build_connected h
  have hincrease : g.exits.Pairwise (· < ·) := by
    rw [build_exits h]
    exact pairwise_exitsOf g.statements
  constructor
  case size_succs => exact hsize
  case calls_iff => exact fun call i => mem_calls_iff
  case joins =>
    intro e he
    obtain ⟨i, -, he⟩ := mem_edges_iff.mp he
    obtain ⟨hi, rfl, htarget⟩ := source_of_mem_successors h he
    exact ⟨hi, htarget⟩
  case mem_successors_iff => exact fun i e => mem_successors_iff h
  case mem_predecessors_iff =>
    intro i e
    rw [predecessors, List.mem_filter, beq_iff_eq]
  case distinct => exact pairwise_edges h
  case exit_iff => exact fun i => exists_exit_iff h
  case exits_increase => exact hincrease
  case mem_exits_iff => exact fun i => mem_exits_iff h
  case search_eq =>
    intro i st hst
    have hexit : g.isExit i = st.action.isExit := by
      rw [Bool.eq_iff_iff, build_isExit_iff h]
      exact ⟨fun ⟨st', hst', hexit⟩ => by rwa [Option.some.inj (hst.symm.trans hst')],
        fun hexit => ⟨st, hst, hexit⟩⟩
    exact ⟨hexit, (binarySearch_eq_contains hincrease i).trans hexit⟩
  case connected => exact fun i st hst => (hconnected i st hst).1

end FlowGraph

/-- A method with a branch around a call in a resource scope, which is also guarded by a handler:
`iload_0`, `ifle` to the return, the call, `return`, and a handler that returns. -/
def guardedCall : MethodBody where
  ref := ⟨"Desk", "serve", "(I)V"⟩
  modifiers := AccessFlags.empty.insert .static
  maxLocals := 2
  code := [
    { pc := 0, op := ⟨21⟩, slot := 0 },
    { pc := 1, op := ⟨158⟩, target := 7 },
    { pc := 4, op := ⟨184⟩, owner := "Desk", name := "open", desc := "()V" },
    { pc := 7, op := ⟨177⟩ },
    { pc := 8, op := ⟨87⟩ },
    { pc := 9, op := ⟨177⟩ }]
  handlers := [{ start := 4, stop := 7, handler := 8 }]
  resources := [{ slot := 1, start := 4, stop := 7 }]

/-- The graph of this method: it has eleven statements, of which three are exits. -/
def guardedCallGraph : { g : FlowGraph // FlowGraph.build none guardedCall = .ok g ∧
    (g.statements.size, g.exits) = (11, [2, 4, 10]) } :=
  resultOf (by decide +kernel)

/-- The graph of this method has eleven statements, of which three are exits, and is well formed. -/
theorem guardedCall_wellFormed : ∃ g, FlowGraph.build none guardedCall = .ok g ∧
    g.statements.size = 11 ∧ g.exits = [2, 4, 10] ∧ g.WellFormed := by
  obtain ⟨g, hg, hfacts⟩ := guardedCallGraph
  obtain ⟨hsize, hexits⟩ := Prod.mk.inj hfacts
  exact ⟨g, hg, hsize, hexits, FlowGraph.wellFormed_of_build hg⟩

end JvmTaint
