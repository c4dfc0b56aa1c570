import JvmTaint.Proofs.Lowering.Assignments
import JvmTaint.Proofs.Taint.FlowFunctions
import JvmTaint.Proofs.Taint.Reports
import JvmTaint.Proofs.Taint.Termination
import Mathlib.Computability.Primrec.List

set_option autoImplicit false
set_option relaxedAutoImplicit false

/-!
# Well-formed facts

Every fact that an analysis finds makes sense where it holds. Its path is within the bound and is
rooted at a variable of the method, unless it is static; no variable leaks between the methods of a
call. Its source generated taint with its mark, and control can be there.

## Main definitions

* `JvmTaint.FlowGraph.Mentions`: a variable is a parameter or occurs in a statement.
* `JvmTaint.TaintProblem.Originates`: taint with a mark comes from a statement.
* `JvmTaint.TaintProblem.WellFormed`: a fact makes sense in a method.

## Main results

* `JvmTaint.TaintProblem.Yields.wellFormed`: one flow function keeps facts well formed.
* `JvmTaint.TaintProblem.wellFormed_of_follows`: the rules of the tabulation keep facts well formed.
* `JvmTaint.Session.wellFormed_of_reached`: every fact of an analysis is well formed.
-/

namespace JvmTaint

namespace FlowGraph

variable {g : FlowGraph} {v : Value}

/-- The variable is a parameter of the method or occurs in one of its statements. -/
def Mentions (g : FlowGraph) (x : Var) : Prop :=
  (∃ v ∈ g.params, v.var? = some x) ∨
    ∃ st ∈ g.statements, ∃ v ∈ st.action.lhs?.toList ++ st.action.operands, v.var? = some x

/-- A value with a variable has the name of the variable. -/
lemma render_of_var? {x : Var} (h : v.var? = some x) : v.render = x.name := by
  cases v with
  | var y type =>
    cases h
    rfl
  | const literal type => cases h

/-- The parameters of a method are variables of it. -/
lemma OverVariables.mentions_param (hg : g.OverVariables) (hv : v ∈ g.params) :
    ∃ x, g.Mentions x ∧ v.render = x.name := by
  obtain ⟨x, hx⟩ := Option.isSome_iff_exists.mp (hg.params v hv)
  exact ⟨x, Or.inl ⟨v, hv, hx⟩, render_of_var? hx⟩

/-- The values that a statement names are variables of the method. -/
lemma OverVariables.mentions_value (hg : g.OverVariables) {i : Nat}
    (hv : v ∈ (TaintProblem.actionAt g i).values) : ∃ x, g.Mentions x ∧ v.render = x.name := by
  unfold TaintProblem.actionAt at hv
  cases hget : g.statements[i]? with
  | none => simp [hget, Action.values, Action.lhs?, Action.uses, Action.operands] at hv
  | some st =>
    have hst : st ∈ g.statements := Array.mem_of_getElem? hget
    simp only [hget, Option.map_some, Option.getD_some] at hv
    have hvar : v.var?.isSome = true ∧ v ∈ st.action.lhs?.toList ++ st.action.operands := by
      rcases List.mem_append.mp hv with hv | hv
      · exact ⟨hg.assigns st hst v (Option.mem_toList.mp hv), List.mem_append_left _ hv⟩
      · exact ⟨(List.mem_filter.mp hv).2, List.mem_append_right _ (List.mem_filter.mp hv).1⟩
    obtain ⟨x, hx⟩ := Option.isSome_iff_exists.mp hvar.1
    exact ⟨x, Or.inr ⟨st, hst, v, hvar.2, hx⟩, render_of_var? hx⟩

end FlowGraph

namespace TaintProblem

variable {p : TaintProblem} {entries : List MethodRef} {S : Set (PathEdge Fact)}
  {m m' : MethodRef} {d d' : Fact} {a : Action Nat} {n : Site}

/-- Taint with the mark comes from the statement: an entry point rule with the mark is about the
entry method that it is the entry of, or the statement generates taint with the mark. -/
inductive Originates (p : TaintProblem) (entries : List MethodRef) : Site → String → Prop
  | entry {m : MethodRef} {r : Rule} (hm : m ∈ entries) (hr : r ∈ p.rules.matchEntry m) :
      Originates p entries ⟨m, (p.graph m).entry⟩ r.mark
  | statement {n : Site} {mark : String}
      (h : p.Generates (actionAt (p.graph n.method) n.index) mark) : Originates p entries n mark

/-- The path can be tainted in the method: it is within the bound, and rooted at a variable of the
method unless it is static. -/
structure FitsIn (p : TaintProblem) (m : MethodRef) (path : AccessPath) : Prop where
  bounded : path.Bounded p.k
  rooted : path.isStatic = false → ∃ x, (p.graph m).Mentions x ∧ path.base = x.name

/-- The source of taint: it comes from there, and control can be there, as a path edge of `S` with
the zero fact shows. -/
structure ComesFrom (p : TaintProblem) (entries : List MethodRef) (S : Set (PathEdge Fact))
    (source : Site) (mark : String) : Prop where
  originates : p.Originates entries source mark
  reached : ∃ d, ⟨source.method, d, source.index, .zero⟩ ∈ S

/-- The fact makes sense in the method: it is the zero fact, or taint of a path that fits into the
method and comes from its source. -/
def WellFormed (p : TaintProblem) (entries : List MethodRef) (S : Set (PathEdge Fact))
    (m : MethodRef) (d : Fact) : Prop :=
  ∀ path source mark, d = .taint path source mark →
    p.FitsIn m path ∧ p.ComesFrom entries S source mark

lemma wellFormed_zero : p.WellFormed entries S m .zero := nofun

/-- A global fact makes sense in every method. -/
lemma WellFormed.of_isGlobal (h : p.WellFormed entries S m d) (hglobal : d.IsGlobal) :
    p.WellFormed entries S m' d := by
  rintro path source mark rfl
  obtain ⟨hfits, hcomes⟩ := h path source mark rfl
  refine ⟨⟨hfits.bounded, fun hstatic => ?_⟩, hcomes⟩
  rw [hglobal path rfl] at hstatic
  cases hstatic

/-- A location at variables of a method fits into the method. -/
lemma LocatedAt.fitsIn {values : List Value} {t : AccessPath} (h : LocatedAt p.k values t)
    (hk : 1 ≤ p.k) (hvalues : ∀ v ∈ values, ∃ x, (p.graph m).Mentions x ∧ v.render = x.name) :
    p.FitsIn m t := by
  refine ⟨h.bounded hk, fun hstatic => ?_⟩
  obtain ⟨v, hv, hbase⟩ := h.exists_root hstatic
  obtain ⟨x, hx, hname⟩ := hvalues v hv
  exact ⟨x, hx, hbase.trans hname⟩

/-- One flow function keeps facts well formed, if its locations fit into the method that it leads to
and the taint that it generates comes from its statement. -/
lemma Yields.wellFormed {kept : Fact → Prop} {locations : List AccessPath}
    (h : p.Yields kept locations n a d d') (hd : p.WellFormed entries S m d)
    (hkept : kept d → p.WellFormed entries S m' d) (hfits : ∀ t ∈ locations, p.FitsIn m' t)
    (hgenerated : d = .zero → ∀ mark, p.Generates a mark → p.ComesFrom entries S n mark) :
    p.WellFormed entries S m' d' := by
  cases h with
  | keep hk => exact hkept hk
  | @move path target q origin mark htarget hmove =>
    obtain ⟨-, hcomes⟩ := hd path origin mark rfl
    have htfits := hfits target htarget
    rintro path' source' mark' ⟨⟩
    refine ⟨⟨hmove.bounded htfits.bounded, fun hstatic => ?_⟩, hcomes⟩
    rw [hmove.isStatic htfits.bounded.depth_le] at hstatic
    rw [hmove.base htfits.bounded.depth_le]
    exact htfits.rooted hstatic
  | @generate path mark hpath hgen =>
    rintro path' source' mark' ⟨⟩
    exact ⟨hfits path hpath, hgenerated rfl mark hgen⟩

/-! ## The rules of the tabulation -/

/-- The flow graph of the method carries its name and is over variables. -/
def Readable (p : TaintProblem) (m : MethodRef) : Prop :=
  (p.graph m).ref = m ∧ (p.graph m).OverVariables

/-- The method of the path edge is readable, and both its facts make sense there. -/
def WellFormedEdge (p : TaintProblem) (entries : List MethodRef) (S : Set (PathEdge Fact))
    (e : PathEdge Fact) : Prop :=
  p.Readable e.method ∧ p.WellFormed entries S e.method e.startFact ∧
    p.WellFormed entries S e.method e.fact

/-- The locations of a statement fit into its method. -/
lemma Readable.fitsIn (h : p.Readable m) (hk : 1 ≤ p.k) (i : Nat) :
    ∀ t ∈ p.locations (actionAt (p.graph m) i), p.FitsIn m t :=
  fun _ ht => (locatedAt_of_mem_locations ht).fitsIn hk fun _ hv => h.2.mentions_value hv

/-- The parameters of a method fit into it. -/
lemma Readable.params_fitIn (h : p.Readable m) (hk : 1 ≤ p.k) :
    ∀ t ∈ (p.graph m).params.map Value.path, p.FitsIn m t := by
  intro t ht
  obtain ⟨v, hv, rfl⟩ := List.mem_map.mp ht
  exact (LocatedAt.value hv []).fitsIn hk fun _ hv => h.2.mentions_param hv

/-- Taint that a statement generates comes from it, if the zero fact holds there. -/
lemma Readable.comesFrom (h : p.Readable m) {i : Nat} {mark : String}
    (hzero : ∃ d, ⟨m, d, i, .zero⟩ ∈ S) (hgen : p.Generates (actionAt (p.graph m) i) mark) :
    p.ComesFrom entries S ⟨(p.graph m).ref, i⟩ mark := by
  rw [h.1]
  exact ⟨.statement hgen, hzero⟩

/-- What holds on entry to an entry method makes sense there. -/
lemma Readable.wellFormed_initial (h : p.Readable m) (hk : 1 ≤ p.k) (hm : m ∈ entries)
    (hzero : p.flowProblem.entryEdge m .zero ∈ S) (hd : d ∈ p.initial (p.graph m)) :
    p.WellFormed entries S m d := by
  obtain ⟨r, hr, pos, hpos, path, hpath, rfl⟩ := mem_initial.mp hd
  rw [h.1] at hr ⊢
  rintro path' source' mark' ⟨⟩
  obtain ⟨v, hv, rfl⟩ := exists_param_of_mem_paramPaths hpath
  exact ⟨(LocatedAt.value hv pos.fields).fitsIn hk fun _ hv => h.2.mentions_param hv,
    .entry hm hr, .zero, hzero⟩

/-- What follows by a rule from path edges with well-formed facts has well-formed facts.

**Proof sketch.** By cases on the rules. A step inside a method and one over a call go to locations
of the statement. Entering a method goes to its parameters and keeps only global facts, and leaving
it goes to locations of the call, which is in the method that is gone back to. -/
lemma wellFormed_of_follows (hk : 1 ≤ p.k) (hentries : ∀ m ∈ entries, p.Readable m)
    (htargets : ∀ n, ∀ m ∈ p.flowProblem.targets n, p.Readable m)
    (hzero : ∀ m ∈ entries, p.flowProblem.entryEdge m .zero ∈ S) (e : PathEdge Fact)
    (l : Link Fact)
    (hf : p.flowProblem.Follows entries {e' | e' ∈ S ∧ p.WellFormedEdge entries S e'} e l) :
    p.WellFormedEdge entries S e := by
  cases hf with
  | @seed m d hm hd =>
    have hd' : p.WellFormed entries S m d := by
      rcases List.mem_cons.mp hd with rfl | hd
      · exact wellFormed_zero
      · exact (hentries m hm).wellFormed_initial hk hm (hzero m hm) hd
    exact ⟨hentries m hm, hd', hd'⟩
  | @intra e edge d he hedge hkind hd =>
    obtain ⟨hmem, hreadable, hstart, hfact⟩ := he
    refine ⟨hreadable, hstart, (normal_yields hd).wellFormed hfact (fun _ => hfact)
      (hreadable.fitsIn hk e.node) ?_⟩
    intro hz mark hgen
    exact hreadable.comesFrom ⟨e.startFact, hz ▸ hmem⟩ hgen
  | @callToReturn c edge d hc hcall hedge hkind hd =>
    obtain ⟨hmem, hreadable, hstart, hfact⟩ := hc
    have hd' : d ∈ p.callToReturn (p.graph c.method) c.node edge (p.flowProblem.targets c.site)
      c.fact := hd
    refine ⟨hreadable, hstart, (callToReturn_yields hd').wellFormed hfact (fun _ => hfact)
      (hreadable.fitsIn hk c.node) ?_⟩
    intro hz mark hgen
    exact hreadable.comesFrom ⟨c.startFact, hz ▸ hmem⟩ hgen
  | @call c m d hc henters =>
    obtain ⟨hmem, hreadable, hstart, hfact⟩ := hc
    obtain ⟨-, hm, hd⟩ := henters
    have hcallee := htargets _ m hm
    have hd' : p.WellFormed entries S m d := by
      refine (enter_yields hd).wellFormed hfact hfact.of_isGlobal (hcallee.params_fitIn hk) ?_
      intro hz mark hgen
      exact hreadable.comesFrom ⟨c.startFact, hz ▸ hmem⟩ hgen
    exact ⟨hcallee, hd', hd'⟩
  | @ret c x edge d hc hx henters hexit hedge hkind hd =>
    obtain ⟨hmem, hreadable, hstart, -⟩ := hc
    obtain ⟨hmemx, hcallee, -, hfactx⟩ := hx
    have hd' : d ∈ p.leave (p.graph c.method) c.node edge (p.graph x.method) x.node x.fact := hd
    refine ⟨hreadable, hstart, (leave_yields hd').wellFormed hfactx hfactx.of_isGlobal
      (hreadable.fitsIn hk c.node) ?_⟩
    intro hz mark hgen
    exact hcallee.comesFrom ⟨x.startFact, hz ▸ hmemx⟩ hgen

/-- The methods of a program that have a flow graph are readable. -/
lemma readable_of_graph {program : Program} {t : ClassTable}
    (ht : ClassTable.ofProgram program = .ok t) (hcode : p.code = .ofTable t)
    (hgraph : (p.code.graph m).toOption.isSome = true) : p.Readable m := by
  cases hg : p.code.graph m with
  | error e => simp [hg, Except.toOption] at hgraph
  | ok g =>
    have hpg : p.graph m = g := by simp [graph, hg]
    rw [hcode] at hg
    rw [Readable, hpg]
    exact CodeBase.ofTable_graph ht hg

end TaintProblem

/-- **Well-formedness of every fact.** In every run of an analysis, however it ends, each path edge
that is reached has facts that make sense in its method, at its start and at its statement. A
tainted path is within the bound, and has its field if it is static; it is rooted at a parameter of
the method or at a variable that occurs there, if it is not static. Its source is the entry of an
entry method that an entry point rule with its mark is about, or a statement that generates taint
with its mark, by a source rule or, if null dereferences are reported, as a null value; and the zero
fact is reached there. -/
theorem Session.wellFormed_of_reached {program : Program} {t : ClassTable}
    (ht : ClassTable.ofProgram program = .ok t) (s : Session) (hcode : s.code = .ofTable t)
    (rules : RuleSet) (o : RunOptions) (hdepth : checkDepth o.bound = true)
    (entries : List MethodRef) (cancelled : Bool) (e : PathEdge Fact)
    (he : (s.tabulate entries rules o cancelled).1.reached e = true) :
    (s.problem rules o).WellFormed (s.roots entries)
        {e | (s.tabulate entries rules o cancelled).1.reached e = true} e.method e.startFact ∧
      (s.problem rules o).WellFormed (s.roots entries)
        {e | (s.tabulate entries rules o cancelled).1.reached e = true} e.method e.fact := by
  have hinv := Tabulation.Invariant.of_solve
    (show s.tabulate entries rules o cancelled = (_, _) from rfl)
  have hk : 1 ≤ (s.problem rules o).k := by
    simp only [checkDepth, Bool.and_eq_true, decide_eq_true_eq] at hdepth
    exact hdepth.1
  have hset : {e | (s.tabulate entries rules o cancelled).1.reached e = true} =
      (s.tabulate entries rules o cancelled).1.found :=
    Set.ext fun e => hinv.toGrounded.reached_iff e
  have hall := hinv.toGrounded.induction
    (Q := (s.problem rules o).WellFormedEdge (s.roots entries)
      (s.tabulate entries rules o cancelled).1.found)
    (TaintProblem.wellFormed_of_follows hk
      (fun m hm => TaintProblem.readable_of_graph ht hcode (List.mem_filter.mp hm).2)
      (fun n m hm => TaintProblem.readable_of_graph ht hcode
        (TaintProblem.mem_methods_of_mem_targets hm))
      (fun m hm => hinv.seeded m hm _ List.mem_cons_self))
  rw [hset]
  exact (hall e ((hinv.toGrounded.reached_iff e).mp he)).2

/-- The taint of a parameter of a method, generated at its entry. -/
def entryTaint (ref : MethodRef) (fields : List String) : Fact :=
  .taint { base := "arg0", fields, depth := fields.length } ⟨ref, 0⟩ "user"

/-- The first round of the loop taints the field of the node: its path is within the bound, rooted
at the parameter, and comes from the entry of the method. -/
theorem nodeProgram_wellFormed_of_reached :
    ∃ (t : ClassTable) (s : Session) (o : RunOptions) (e : PathEdge Fact),
      ClassTable.ofProgram nodeProgram = .ok t ∧ s.code = .ofTable t ∧
      checkDepth o.bound = true ∧ e.fact = entryTaint growRef ["next"] ∧
      (s.tabulate [growRef] entryRules o false).1.reached e = true ∧
      (s.problem entryRules o).WellFormed (s.roots [growRef])
        {e | (s.tabulate [growRef] entryRules o false).1.reached e = true} e.method e.fact := by
  have hreached : (ClassTable.ofProgram nodeProgram).toOption.map (fun t =>
      (Session.tabulate { code := .ofTable t } [growRef] entryRules { depth := 3, budget := 3 }
        false).1.reached ⟨growRef, entryTaint growRef [], 1, entryTaint growRef ["next"]⟩) =
      some true := by
    cbv
  cases ht : ClassTable.ofProgram nodeProgram with
  | error e => simp [ht, Except.toOption] at hreached
  | ok t =>
    simp only [ht, Except.toOption, Option.map_some, Option.some_inj] at hreached
    have hdepth : checkDepth (RunOptions.bound { depth := 3, budget := 3 }) = true := by decide
    exact ⟨t, { code := .ofTable t }, { depth := 3, budget := 3 },
      ⟨growRef, entryTaint growRef [], 1, entryTaint growRef ["next"]⟩, rfl, rfl, hdepth, rfl,
      hreached, (Session.wellFormed_of_reached ht _ rfl _ _ hdepth _ _ _ hreached).2⟩

end JvmTaint
