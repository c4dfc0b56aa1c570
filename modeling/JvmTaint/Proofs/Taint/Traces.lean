import JvmTaint.Proofs.Tabulation.TracePaths
import JvmTaint.Proofs.Taint.ReachableCode
import JvmTaint.Proofs.Taint.WellFormed

set_option autoImplicit false
set_option relaxedAutoImplicit false

/-!
# Traces of taint

The trace of a tainted path leads from the source of the taint to the statement where it is found,
along edges of the exploded supergraph. Flow functions give taint on with its source and its mark,
so all facts of a trace have those of the last one; and taint that is generated, on entry to an
entry method or by a statement, has the statement as its source.

## Main results

* `JvmTaint.TaintProblem.taint_of_isChain`: the source and the mark along a path.
* `JvmTaint.Session.trace_explains`: a trace leads from the source of its taint along edges of the
  supergraph.
-/

namespace JvmTaint

namespace TaintProblem

variable {p : TaintProblem}

/-! ## Sources along a path -/

/-- An edge of the supergraph keeps, moves or generates taint, at the statement that it starts
from. -/
lemma yields_of_stepsTo {n n' : Site} {d d' : Fact}
    (h : p.flowProblem.StepsTo (n, d) (n', d')) :
    ∃ kept locations a,
      p.Yields kept locations ⟨(p.graph n.method).ref, n.index⟩ a d d' := by
  obtain ⟨step, hstep⟩ := h
  cases hstep with
  | normal _ _ hd =>
    have hd : d' ∈ p.normal _ _ _ d := hd
    exact ⟨_, _, _, normal_yields hd⟩
  | @callToReturn _ _ _ edge _ _ _ hd =>
    have hd : d' ∈ p.callToReturn (p.graph n.method) n.index edge (p.flowProblem.targets n) d := hd
    exact ⟨_, _, _, callToReturn_yields hd⟩
  | enter henters =>
    have hd : d' ∈ p.enter _ _ _ d := henters.2.2
    exact ⟨_, _, _, enter_yields hd⟩
  | @leave _ c _ _ edge _ _ _ _ _ hd =>
    have hd : d' ∈ p.leave (p.graph c.method) c.index edge (p.graph n.method) n.index d := hd
    exact ⟨_, _, _, leave_yields hd⟩

/-- Along an edge of the supergraph, taint keeps its source and its mark. -/
lemma taint_of_stepsTo {n n' : Site} {path : AccessPath} {origin : Site} {mark : String}
    {d' : Fact} (h : p.flowProblem.StepsTo (n, .taint path origin mark) (n', d')) :
    ∃ q, d' = .taint q origin mark := by
  obtain ⟨kept, locations, a, hyields⟩ := yields_of_stepsTo h
  cases hyields with
  | keep => exact ⟨path, rfl⟩
  | move => exact ⟨_, rfl⟩

/-- The source of taint that follows from the zero fact is the statement that the edge starts
from. -/
lemma taint_of_generated {n n' : Site} {d' : Fact}
    (h : p.flowProblem.StepsTo (n, .zero) (n', d')) (hne : d' ≠ .zero) :
    ∃ q mark, d' = .taint q ⟨(p.graph n.method).ref, n.index⟩ mark := by
  obtain ⟨kept, locations, a, hyields⟩ := yields_of_stepsTo h
  cases hyields with
  | keep => exact absurd rfl hne
  | generate => exact ⟨_, _, rfl⟩

/-- All facts of a path have the source and the mark of the first one. -/
lemma taint_of_isChain {origin : Site} {mark : String} (rest : Trace Fact) {u : Site × Fact}
    (hchain : List.IsChain p.flowProblem.StepsTo (u :: rest))
    (hu : ∃ q, u.2 = .taint q origin mark) :
    ∀ node ∈ u :: rest, ∃ q, node.2 = .taint q origin mark := by
  induction rest generalizing u with
  | nil =>
    intro node hnode
    rw [List.mem_singleton.mp hnode]
    exact hu
  | cons v rest ih =>
    obtain ⟨hstep, hrest⟩ := List.isChain_cons_cons.mp hchain
    intro node hnode
    rcases List.mem_cons.mp hnode with rfl | hlater
    · exact hu
    · obtain ⟨n, d⟩ := u
      obtain ⟨q, rfl⟩ : ∃ q, d = .taint q origin mark := hu
      exact ih hrest (taint_of_stepsTo hstep) node hlater

/-- A path that explains taint starts at the source of all its facts, if flow graphs carry the names
of their methods. -/
lemma origin_of_explains {entries : List MethodRef} {S : Set (PathEdge Fact)} {tr : Trace Fact}
    (hentries : ∀ m ∈ entries, (p.graph m).ref = m)
    (hS : ∀ e ∈ S, (p.graph e.method).ref = e.method)
    (h : p.flowProblem.Explains entries S tr) :
    ∃ origin mark, tr.head?.map (·.1) = some origin ∧
      ∀ node ∈ tr, ∃ q, node.2 = .taint q origin mark := by
  cases h with
  | @initial m d rest hm hd hchain =>
    obtain ⟨r, -, pos, -, path, -, rfl⟩ := mem_initial.mp hd
    refine ⟨p.flowProblem.entrySite m, r.mark, rfl, taint_of_isChain rest hchain ?_⟩
    refine ⟨path, ?_⟩
    show Fact.taint path ⟨(p.graph m).ref, _⟩ r.mark = _
    rw [hentries m hm]
    rfl
  | @generated e u rest he hzero hne hstep hchain =>
    obtain ⟨q, mark, hq⟩ := taint_of_generated hstep hne
    rw [show (⟨(p.graph e.site.method).ref, e.site.index⟩ : Site) = e.site by
      rw [show (p.graph e.site.method).ref = e.site.method from hS e he]] at hq
    refine ⟨e.site, mark, rfl, ?_⟩
    intro node hnode
    rcases List.mem_cons.mp hnode with rfl | hnode
    · exact ⟨q, hq⟩
    · exact taint_of_isChain rest hchain ⟨q, hq⟩ node hnode

end TaintProblem

/-- **Traces are paths of the supergraph.** In every run of an analysis, however it ends, the trace
of a path edge ends at the statement of the path edge with its fact, and starts at the source of the
fact; all its facts have this source and the mark of the fact. Each node follows from the one before
by the flow function of an edge inside a method, of a call or of a return; only the first step of a
trace that does not start at an initial fact of an entry method generates the fact from the zero
fact, which is reached there. -/
theorem Session.trace_explains {program : Program} {t : ClassTable}
    (ht : ClassTable.ofProgram program = .ok t) (s : Session) (hcode : s.code = .ofTable t)
    (rules : RuleSet) (o : RunOptions) (entries : List MethodRef) (cancelled : Bool)
    (e : PathEdge Fact) (he : (s.tabulate entries rules o cancelled).1.reached e = true)
    (tr : Trace Fact)
    (htr : (s.problem rules o).flowProblem.trace o.provenance
      (s.tabulate entries rules o cancelled).1 e = .ok tr) :
    tr.getLast? = some (e.site, e.fact) ∧
      (∃ path origin mark, e.fact = .taint path origin mark ∧
        tr.head?.map (·.1) = some origin ∧ ∀ node ∈ tr, ∃ q, node.2 = .taint q origin mark) ∧
      (s.problem rules o).flowProblem.Explains (s.roots entries)
        {e | (s.tabulate entries rules o cancelled).1.reached e = true} tr := by
  have hretain : o.provenance = true := by
    cases hretain : o.provenance with
    | true => rfl
    | false => simp [FlowProblem.trace, hretain] at htr
  have hsolve : (s.problem rules o).flowProblem.solve true o.budget cancelled (s.roots entries) =
      ((s.tabulate entries rules o cancelled).1, (s.tabulate entries rules o cancelled).2) := by
    rw [← hretain]
    rfl
  have hg := (Tabulation.Invariant.of_solve hsolve).toGrounded
  have hset : {e | (s.tabulate entries rules o cancelled).1.reached e = true} =
      (s.tabulate entries rules o cancelled).1.found :=
    Set.ext fun e => hg.reached_iff e
  rw [hretain] at htr
  obtain ⟨hexplains, hlast, -⟩ := hg.explains_of_trace ((hg.reached_iff e).mp he) htr
  have href : ∀ m g, s.code.graph m = .ok g → ((s.problem rules o).graph m).ref = m := by
    intro m g hm
    exact (TaintProblem.readable_of_graph ht hcode (by simp [problem, hm, Except.toOption])).1
  have hcovers := covers_of_found hg
  obtain ⟨origin, mark, hhead, hall⟩ := TaintProblem.origin_of_explains
    (fun m hm => by
      have hsome := (List.mem_filter.mp hm).2
      exact (TaintProblem.readable_of_graph (p := s.problem rules o) ht hcode hsome).1)
    (fun e he => by
      obtain ⟨-, g, hgraph, -⟩ := hcovers e he
      exact href e.method g hgraph)
    hexplains
  obtain ⟨path, hpath⟩ := hall (e.site, e.fact) (List.mem_of_getLast? hlast)
  rw [hset]
  exact ⟨hlast, ⟨path, origin, mark, hpath, hhead, hall⟩, hexplains⟩

/-- The taint of the field `g` of the argument of the first method of the program with two
methods. -/
def boxTaint : Fact := .taint { base := "arg0", fields := ["g"], depth := 1 } ⟨boxMainRef, 0⟩ ""

/-- The taint of the field `g` goes through `Box.reset`, and its trace does. -/
theorem boxProgram_trace_explains :
    ∃ (t : ClassTable) (s : Session) (o : RunOptions) (tr : Trace Fact),
      ClassTable.ofProgram boxProgram = .ok t ∧ s.code = .ofTable t ∧
      (s.tabulate [boxMainRef] (fieldRules "g") o false).1.reached
        ⟨boxMainRef, boxTaint, 1, boxTaint⟩ = true ∧
      (s.problem (fieldRules "g") o).flowProblem.trace o.provenance
        (s.tabulate [boxMainRef] (fieldRules "g") o false).1 ⟨boxMainRef, boxTaint, 1, boxTaint⟩ =
          .ok tr ∧
      tr = [(⟨boxMainRef, 0⟩, boxTaint), (⟨boxResetRef, 0⟩, boxTaint), (⟨boxResetRef, 1⟩, boxTaint),
        (⟨boxMainRef, 1⟩, boxTaint)] ∧
      (s.problem (fieldRules "g") o).flowProblem.Explains (s.roots [boxMainRef])
        {e | (s.tabulate [boxMainRef] (fieldRules "g") o false).1.reached e = true} tr := by
  have hagrees : CodeBase.Agrees ({ code := .ofTable boxTable } : Session).code
      ({ code := boxCode } : Session).code := boxCode_agrees
  have hrun : (fun r : Tabulation Fact × SolveOutcome =>
      (r.1.reached ⟨boxMainRef, boxTaint, 1, boxTaint⟩,
        (({ code := boxCode } : Session).problem (fieldRules "g") { provenance := true }
          ).flowProblem.trace true r.1 ⟨boxMainRef, boxTaint, 1, boxTaint⟩))
      (({ code := boxCode } : Session).tabulate [boxMainRef] (fieldRules "g")
        { provenance := true } false) =
      (true, .ok [(⟨boxMainRef, 0⟩, boxTaint), (⟨boxResetRef, 0⟩, boxTaint),
        (⟨boxResetRef, 1⟩, boxTaint), (⟨boxMainRef, 1⟩, boxTaint)]) := by
    cbv
  rw [← hagrees.tabulate_eq, ← hagrees.flowProblem_eq] at hrun
  obtain ⟨hreached, htrace⟩ := Prod.mk.inj hrun
  exact ⟨boxTable, _, { provenance := true }, _, ofProgram_boxProgram, rfl, hreached, htrace, rfl,
    (Session.trace_explains ofProgram_boxProgram _ rfl _ { provenance := true } _ _ _ hreached _
      htrace).2.2⟩

end JvmTaint
