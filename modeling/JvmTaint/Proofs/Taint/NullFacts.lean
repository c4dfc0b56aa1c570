import JvmTaint.Proofs.Tabulation.Restriction
import JvmTaint.Proofs.Taint.AddedRules
import JvmTaint.Proofs.Taint.ReportedFlows
import JvmTaint.Proofs.Taint.Retention

set_option autoImplicit false
set_option relaxedAutoImplicit false

/-!
# Null dereferences beside taint

If no rule is about the mark of null values, then null values and taint do not mix: facts with the
mark come from null values and go to facts with the mark only. So a problem that also reports null
dereferences restricts to the one that does not, and its hits of taint are the hits of that one. But
a source and a sink have one flow only. If a null value of the same source reaches the same
statement first, the flow of the taint is not reported.

## Main definitions

* `JvmTaint.TaintProblem.withoutDereference`: a problem that reports no null dereferences.
* `JvmTaint.Flow.isDereference`: a flow is reported by the rule of null dereferences.

## Main results

* `JvmTaint.TaintProblem.restricts_withoutDereference`: null facts do not mix with others.
* `JvmTaint.TaintProblem.flows_withoutDereference`: the flows of taint that are reported beside null
  dereferences.
-/

namespace JvmTaint

/-- Whether the fact is not about a null value. -/
def Fact.isTaint (d : Fact) : Bool := d.mark != nullMark

namespace TaintProblem

/-- The problem without null dereferences. -/
def withoutDereference (p : TaintProblem) : TaintProblem :=
  { p with rules := { p.rules with dereference := none } }

variable {p : TaintProblem} {g callee : FlowGraph} {i exit : Nat} {e : Edge} {d d' : Fact}

/-! ## Null facts do not mix with others -/

/-- What follows from a tainted path has its mark. -/
lemma Yields.mark_eq {kept : Fact → Prop} {locations : List AccessPath} {n : Site}
    {a : Action Nat} (h : p.Yields kept locations n a d d') (hd : d ≠ .zero) :
    d'.mark = d.mark := by
  cases h with
  | keep => rfl
  | move => rfl
  | generate => exact absurd rfl hd

/-- Facts with the mark of a fact are kept if that one is. -/
lemma filter_isTaint {ds : List Fact} (h : ∀ d' ∈ ds, d'.mark = d.mark) :
    ds.filter Fact.isTaint = if d.isTaint then ds else [] := by
  have hsame : ∀ d' ∈ ds, d'.isTaint = d.isTaint := fun d' hd' => by
    unfold Fact.isTaint
    rw [h d' hd']
  cases hd : d.isTaint with
  | true => exact List.filter_eq_self.mpr fun d' hd' => (hsame d' hd').trans hd
  | false =>
    refine List.filter_eq_nil_iff.mpr fun d' hd' => ?_
    rw [hsame d' hd', hd]
    exact Bool.false_ne_true

/-- Only a null fact says that a variable is null. -/
lemma isNullOf_of_isTaint (hd : d.isTaint = true) (v : Value) : d.isNullOf v = false := by
  cases d with
  | zero => rfl
  | taint path source mark =>
    have hmark : (mark == nullMark) = false := by
      simpa [Fact.isTaint, Fact.mark, bne] using hd
    simp [Fact.isNullOf, hmark]

/-- Only a null fact says that a dereferenced value is null. -/
lemma dereferenced_of_isTaint (hd : d.isTaint = true) (a : Action Nat) :
    p.dereferenced a d = false := by
  unfold dereferenced
  cases a.dereferenced? with
  | none => simp
  | some v => simp [isNullOf_of_isTaint hd]

section Marks

variable (hmarks : ∀ r ∈ p.rules.rules, r.mark ≠ nullMark)
include hmarks

/-- The facts that rules generate are not about null values. -/
lemma isTaint_of_mem_rules {r : Rule} (hr : r ∈ p.rules.rules) (path : AccessPath) (source : Site) :
    (Fact.taint path source r.mark).isTaint = true := by
  simp [Fact.isTaint, Fact.mark, hmarks r hr]

lemma initial_restricts (g : FlowGraph) :
    (p.initial g).filter Fact.isTaint = p.withoutDereference.initial g := by
  refine List.filter_eq_self.mpr fun d hd => ?_
  obtain ⟨r, hr, pos, -, path, -, rfl⟩ := mem_initial.mp hd
  exact isTaint_of_mem_rules hmarks (List.mem_of_mem_filter hr) path _

lemma normal_restricts (g : FlowGraph) (i : Nat) (e : Edge) (d : Fact) :
    (p.normal g i e d).filter Fact.isTaint =
      if d.isTaint then p.withoutDereference.normal g i e d else [] := by
  cases d with
  | zero =>
    have hsources : (Fact.zero :: p.fieldSources ⟨g.ref, i⟩ (actionAt g i)).filter Fact.isTaint =
        .zero :: p.fieldSources ⟨g.ref, i⟩ (actionAt g i) := by
      refine List.filter_eq_self.mpr fun d hd => ?_
      rcases List.mem_cons.mp hd with rfl | hd
      · rfl
      · obtain ⟨f, path, r, -, -, hr, -, rfl⟩ := mem_fieldSources.mp hd
        exact isTaint_of_mem_rules hmarks (List.mem_of_mem_filter hr) path _
    have hnulls : (p.nullSources ⟨g.ref, i⟩ (actionAt g i) e).filter Fact.isTaint = [] := by
      refine List.filter_eq_nil_iff.mpr fun d hd => ?_
      obtain ⟨-, path, -, rfl⟩ := mem_nullSources.mp hd
      simp [Fact.isTaint, Fact.mark]
    unfold normal
    dsimp only
    split
    · rfl
    · rw [if_pos (show Fact.zero.isZero = true from rfl), filter_appendNew, hsources, hnulls]
      rfl
  | taint path origin m =>
    rw [filter_isTaint fun d' hd' => (normal_yields hd').mark_eq (by simp)]
    split
    · rename_i hd
      unfold normal
      dsimp only
      rw [dereferenced_of_isTaint hd, dereferenced_of_isTaint hd]
      rfl
    · rfl

lemma callToReturn_restricts (g : FlowGraph) (i : Nat) (e : Edge) (callees : List MethodRef)
    (d : Fact) : (p.callToReturn g i e callees d).filter Fact.isTaint =
      if d.isTaint then p.withoutDereference.callToReturn g i e callees d else [] := by
  cases d with
  | zero =>
    rw [if_pos (show Fact.zero.isTaint = true from rfl)]
    refine List.filter_eq_self.mpr fun d hd => ?_
    cases ha : actionAt g i with
    | invoke lhs c =>
      simp only [callToReturn, ha, mem_appendNew, List.mem_singleton, List.mem_flatMap,
        List.mem_map] at hd
      rcases hd with rfl | ⟨r, hr, pos, -, path, -, rfl⟩
      · rfl
      · refine isTaint_of_mem_rules hmarks ?_ path _
        exact List.mem_of_mem_filter (List.mem_of_mem_filter hr)
    | _ =>
      simp only [callToReturn, ha, List.mem_singleton] at hd
      rw [hd]
      rfl
  | taint path origin m =>
    rw [filter_isTaint fun d' hd' => (callToReturn_yields hd').mark_eq (by simp)]
    split
    · rename_i hd
      unfold callToReturn
      split
      · dsimp only
        rw [dereferenced_of_isTaint hd, dereferenced_of_isTaint hd]
        rfl
      · rfl
    · rfl

end Marks

lemma enter_restricts (g : FlowGraph) (i : Nat) (callee : FlowGraph) (d : Fact) :
    (p.enter g i callee d).filter Fact.isTaint =
      if d.isTaint then p.withoutDereference.enter g i callee d else [] := by
  cases d with
  | zero =>
    rw [if_pos (show Fact.zero.isTaint = true from rfl)]
    cases ha : actionAt g i with
    | invoke lhs c =>
      simp only [enter, ha]
      split
      · -- null values among the operands give null facts
        refine (filter_appendNew _ _ _).trans ?_
        refine congrArg (appendNew _) (List.filter_eq_nil_iff.mpr fun d hd => ?_)
        obtain ⟨bound, -, rfl⟩ := List.mem_map.mp hd
        simp [Fact.isTaint, Fact.mark]
      · rfl
    | _ => simp [enter, ha]
  | taint path origin m =>
    rw [filter_isTaint fun d' hd' => (enter_yields hd').mark_eq (by simp)]
    split <;> rfl

lemma leave_restricts (g : FlowGraph) (i : Nat) (e : Edge) (callee : FlowGraph) (exit : Nat)
    (d : Fact) : (p.leave g i e callee exit d).filter Fact.isTaint =
      if d.isTaint then p.withoutDereference.leave g i e callee exit d else [] := by
  cases d with
  | zero =>
    rw [if_pos (show Fact.zero.isTaint = true from rfl)]
    cases ha : actionAt g i with
    | invoke lhs c =>
      simp only [leave, ha]
      -- a returned null value generates a null fact, and without its rule nothing
      split
      · split <;> simp [withoutDereference, Fact.isTaint, Fact.mark]
      · rfl
    | _ => simp [leave, ha]
  | taint path origin m =>
    rw [filter_isTaint fun d' hd' => (leave_yields hd').mark_eq (by simp)]
    split <;> rfl

/-- **Null facts do not mix.** If no rule has the mark of null values, then the problem restricts to
the one that does not report null dereferences. -/
lemma restricts_withoutDereference (hmarks : ∀ r ∈ p.rules.rules, r.mark ≠ nullMark) :
    p.flowProblem.Restricts Fact.isTaint p.withoutDereference.flowProblem where
  graph := rfl
  callees := rfl
  zero := rfl
  keep_zero := rfl
  initial := initial_restricts hmarks
  normal := normal_restricts hmarks
  callToReturn := callToReturn_restricts hmarks
  enter := enter_restricts
  leave := leave_restricts

end TaintProblem

/-! ## Hits and flows -/

/-- The flow is reported by the rule of null dereferences. -/
def Flow.isDereference (f : Flow) : Bool := f.rule.kind == .dereference

/-- Whether a null dereference among the flows has the source and the sink of a flow. -/
def Flow.displacedBy (flows : List Flow) (f : Flow) : Bool :=
  flows.any fun f' => f'.isDereference && f'.ends == f.ends

namespace TaintProblem

variable {p : TaintProblem} {e : PathEdge Fact} {h : Hit} {s t : Tabulation Fact}

/-- Where a fact is not about a null value, the same is reported without null dereferences. -/
lemma hit?_withoutDereference (he : e.fact.isTaint = true) :
    p.withoutDereference.hit? e = p.hit? e := by
  have hreports : p.withoutDereference.reports e = p.reports e := by
    unfold reports
    simp only [dereferenced_of_isTaint he]
    rfl
  unfold hit?
  rw [hreports]

/-- Without null dereferences, sinks report. -/
lemma isDereference_withoutDereference (hh : p.withoutDereference.hit? e = some h) :
    h.flow.isDereference = false := by
  obtain ⟨-, ⟨-, ⟨path, mark, hfact⟩, -⟩, hrule⟩ := hit?_eq_some.mp hh
  rcases (mem_reports_iff hfact).mp (List.mem_of_head? hrule) with ⟨-, hsink⟩ | ⟨hnone, -⟩
  · simp [Flow.isDereference, Hit.flow, hsink.1]
  · cases hnone

/-- A null fact is reported by the rule of null dereferences only. -/
lemma isDereference_of_null (hmarks : ∀ r ∈ p.rules.rules, r.mark ≠ nullMark)
    (hkind : ∀ r, p.rules.dereference = some r → r.kind = .dereference)
    (he : e.fact.isTaint = false) (hh : p.hit? e = some h) : h.flow.isDereference = true := by
  obtain ⟨-, ⟨-, ⟨path, mark, hfact⟩, -⟩, hrule⟩ := hit?_eq_some.mp hh
  obtain rfl : mark = nullMark := by simpa [hfact, Fact.isTaint, Fact.mark] using he
  rcases (mem_reports_iff hfact).mp (List.mem_of_head? hrule) with ⟨hr, hsink⟩ | ⟨hderef, -⟩
  · have happlies := hsink.2.1
    simp [Rule.appliesTo, hmarks _ hr] at happlies
  · simp [Flow.isDereference, Hit.flow, hkind _ hderef]

/-- The hits of sinks are those of the path edges that are not about null values. -/
lemma filter_filterMap_hit? (hmarks : ∀ r ∈ p.rules.rules, r.mark ≠ nullMark)
    (hkind : ∀ r, p.rules.dereference = some r → r.kind = .dereference)
    (edges : List (PathEdge Fact)) :
    (edges.filterMap p.hit?).filter (!·.flow.isDereference) =
      (edges.filter (·.fact.isTaint)).filterMap p.withoutDereference.hit? := by
  induction edges with
  | nil => rfl
  | cons e edges ih =>
    rw [List.filterMap_cons, List.filter_cons]
    cases he : e.fact.isTaint with
    | true =>
      rw [if_pos rfl, List.filterMap_cons, hit?_withoutDereference he]
      cases hh : p.hit? e with
      | none => exact ih
      | some h =>
        rw [← hit?_withoutDereference he] at hh
        simp only [List.filter_cons, isDereference_withoutDereference hh, Bool.not_false,
          ↓reduceIte, ih]
    | false =>
      rw [if_neg Bool.false_ne_true]
      cases hh : p.hit? e with
      | none => exact ih
      | some h =>
        simp only [List.filter_cons, isDereference_of_null hmarks hkind he hh, Bool.not_true,
          Bool.false_eq_true, ↓reduceIte, ih]

/-- The hits of sinks beside null dereferences, if the tabulation without null dereferences has the
path edges that are not about null values. -/
lemma hits_withoutDereference (hmarks : ∀ r ∈ p.rules.rules, r.mark ≠ nullMark)
    (hkind : ∀ r, p.rules.dereference = some r → r.kind = .dereference)
    (hedges : t.edges.toList = s.edges.toList.filter (·.fact.isTaint)) :
    (p.hits s).filter (!·.flow.isDereference) =
      (p.withoutDereference.hits t).filter fun h =>
        !h.flow.displacedBy ((p.hits s).map Hit.flow) := by
  have hends : ∀ h h' : Hit, (h.source == h'.source && h.edge.site == h'.edge.site) =
      decide (h.flow.ends = h'.flow.ends) := fun h h' => by
    simp only [Flow.ends, Hit.flow, Prod.mk.injEq, Bool.decide_and, beq_eq_decide]
  unfold hits
  rw [hedges, ← filter_filterMap_hit? hmarks hkind,
    filter_eraseDupsBy_eq_displaced (fun h : Hit => h.flow.ends) hends]
  refine List.filter_congr fun h _ => ?_
  rw [Flow.displacedBy, List.any_map, List.not_any_eq_all_not]
  refine congrArg (List.all _) (funext fun h' => ?_)
  rw [Function.comp_apply, hends, Bool.not_and, beq_eq_decide, decide_eq_decide.mpr eq_comm]

/-- Flows are displaced by the flows of the hits. -/
lemma displacedBy_flows (p : TaintProblem) (provenance : Bool) (s : Tabulation Fact) (f : Flow) :
    f.displacedBy (p.flows provenance s) = f.displacedBy ((p.hits s).map Hit.flow) := by
  have huntraced : f.displacedBy (p.flows provenance s) =
      f.displacedBy ((p.flows provenance s).map Flow.untraced) := by
    unfold Flow.displacedBy
    rw [List.any_map]
    rfl
  rw [huntraced, flows_eq_hits]
  exact (List.mergeSort_perm _ _).any_eq

/-- Choosing flows by their sources, sinks and rules, and sorting. -/
lemma filter_flows_untraced (p : TaintProblem) (provenance : Bool) (s : Tabulation Fact)
    (chosen : Flow → Bool) (hchosen : ∀ f, chosen f.untraced = chosen f) :
    let flows := ((p.flows provenance s).filter chosen).map Flow.untraced
    flows.Perm (((p.hits s).filter (chosen ·.flow)).map Hit.flow) ∧
      flows.Pairwise fun f g => f.key < g.key := by
  constructor
  · have hfilter : ((p.flows provenance s).filter chosen).map Flow.untraced =
        ((p.flows provenance s).map Flow.untraced).filter chosen := by
      rw [List.filter_map]
      exact congrArg (List.map _) (List.filter_congr fun f _ => (hchosen f).symm)
    rw [hfilter, flows_eq_hits]
    refine ((List.mergeSort_perm _ _).filter _).trans ?_
    rw [List.filter_map]
    exact .refl _
  · refine List.pairwise_map.mpr (List.Pairwise.filter _ ?_)
    exact pairwise_flows.imp fun {f g} hbefore => (f.before_iff g).mp hbefore

/-- **Flows of taint beside null dereferences.** Apart from their traces, they are the flows that
are reported without null dereferences, but for those that a null dereference has the source and the
sink of.

**Proof sketch.** The hits are the same but for those. Both lists of flows are strictly sorted, so
that they are equal if they have the same elements. -/
lemma flows_withoutDereference (hmarks : ∀ r ∈ p.rules.rules, r.mark ≠ nullMark)
    (hkind : ∀ r, p.rules.dereference = some r → r.kind = .dereference)
    (hedges : t.edges.toList = s.edges.toList.filter (·.fact.isTaint))
    (provenance provenance' : Bool) :
    ((p.flows provenance s).filter (!·.isDereference)).map Flow.untraced =
      ((p.withoutDereference.flows provenance' t).filter
        (!·.displacedBy (p.flows provenance s))).map Flow.untraced := by
  obtain ⟨hperm, hsorted⟩ := p.filter_flows_untraced provenance s
    (!·.isDereference) fun _ => rfl
  obtain ⟨hperm', hsorted'⟩ := p.withoutDereference.filter_flows_untraced provenance' t
    (!·.displacedBy (p.flows provenance s)) fun _ => rfl
  have hhits := hits_withoutDereference hmarks hkind hedges
  simp only [displacedBy_flows] at hperm' hsorted' ⊢
  rw [hhits] at hperm
  refine (hperm.trans hperm'.symm).eq_of_pairwise (fun f g _ _ hfg hgf => ?_) hsorted hsorted'
  exact absurd (hfg.trans hgf) (lt_irrefl _)

end TaintProblem

end JvmTaint
