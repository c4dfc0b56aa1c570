import JvmTaint.Proofs.Lowering.Positions
import Mathlib.Computability.Primrec.List
import Mathlib.Tactic

set_option autoImplicit false
set_option relaxedAutoImplicit false

/-!
# Leaving resource scopes

A body may list resource scopes: ranges of offsets in which a resource is open. Where control leaves
such a range without an exception, the graph leads through a statement that closes the resource,
followed by a jump to the end of the range. This module follows the ways from the end of a block and
says which scopes are closed on them, and in which order.

## Main definitions

* `JvmTaint.MethodBody.Transfers`: where control goes to from the last instruction of a block.
* `JvmTaint.FlowGraph.Follows`, `JvmTaint.FlowGraph.Closes`: the way of a transfer in the graph, and
  a way that closes scopes one after the other.
* `JvmTaint.FlowGraph.ClosesLeft`: exactly the scopes that are left are closed, each of them once,
  the shortest first.

## Main results

* `JvmTaint.Progression.Complete.leadsTo_last`: the first scope that is closed behind a block.
* `JvmTaint.Progression.Complete.leadsTo_gotoEnd`: the scope that is closed behind another one.
* `JvmTaint.FlowGraph.leaving_closes_scopes`: scopes that end where control goes to, and that have
  different ranges, are closed when they are left.
* `JvmTaint.equalScopes_never_left`: two scopes of the same range are closed again and again.

The graph knows no scopes any more, only the statements that close them. They stand in front of the
exit, five for each scope, the shortest scope first, so `JvmTaint.FlowGraph.scopesOf` finds them
again.
-/

namespace JvmTaint

/-! ## Ways between blocks -/

/-- Control goes from the instruction to the one at an offset, without an exception: to a jump
target, given by its number, or on to the next instruction. -/
inductive MethodBody.Transfers (b : MethodBody) (ins : Instruction) : Option Nat → Int → Prop
  | jump {k : Nat} {v : Int} (h : ins.branchTargets[k]? = some v) : Transfers b ins (some k) v
  | next {k : Nat} {after : Instruction} (hins : b.code[k]? = some ins)
    (hafter : b.code[k + 1]? = some after) (hgoes : ins.op.endsBlock = false) :
    Transfers b ins none after.pc

/-- The length of the range of a scope. -/
def ResourceScope.length (r : ResourceScope) : Int := r.stop - r.start

/-- Whether control that goes from one offset to another one leaves the scope. -/
def ResourceScope.leaves (r : ResourceScope) (u v : Int) : Bool :=
  decide (r.start ≤ u ∧ u < r.stop) && !decide (r.start ≤ v ∧ v < r.stop)

lemma Action.targets_mapLabels {τ σ : Type} (a : Action τ) (f : τ → σ) :
    (a.mapLabels f).targets = a.targets.map f := by
  cases a <;> rfl

/-- The ways of an action lead to its targets. -/
lemma Action.exists_way_of_mem_targets {a : Action Nat} {t : Nat} (h : t ∈ a.targets) (i : Nat) :
    ∃ e ∈ a.ways i, e.target = t ∧ (e.kind = .normal ∨ e.kind = .onTrue) := by
  cases a with
  | branch condition t' =>
    rw [List.mem_singleton.mp h]
    exact ⟨_, List.mem_cons_self, rfl, .inr rfl⟩
  | goto t' =>
    rw [List.mem_singleton.mp h]
    exact ⟨_, List.mem_cons_self, rfl, .inl rfl⟩
  | switch key ts => exact ⟨_, List.mem_map_of_mem h, rfl, .inl rfl⟩
  | _ => cases h

/-- The last action of a block jumps to the targets of its last instruction. -/
lemma Instruction.EndsIn.targets_eq {ins : Instruction} {a : Action Int} (h : ins.EndsIn a) :
    a.targets = ins.branchTargets := by
  have hstops : (ins.op.isReturn || ins.op.isThrow) = true → ins.branchTargets = [] := by
    intro hop
    have hconditional : ins.op.isConditional = false := by
      refine Opcode.isConditional_of_endsBlock ?_
      rw [Opcode.endsBlock, Bool.or_assoc, hop, Bool.or_true]
    have hjump := Opcode.isGoto_of_isReturn_or_isThrow hop
    simp only [Bool.or_eq_false_iff] at hjump
    simp [branchTargets, hconditional, hjump.1, hjump.2]
  cases h with
  | branch h condition => simp [branchTargets, h, Action.targets]
  | goto h => simp [branchTargets, h, Action.targets]
  | switch h key => rfl
  | ret h src => exact (hstops (by simp [h])).symm
  | throw h src => exact (hstops (by simp [h])).symm
  | straight h ha =>
    simp only [Opcode.isControl, Opcode.endsBlock, Bool.or_eq_false_iff] at h
    obtain ⟨hconditional, ⟨⟨hgoto, hswitch⟩, -⟩, -⟩ := h
    have htargets : a.targets = [] := by cases a <;> first | rfl | cases ha
    simp [branchTargets, hconditional, hgoto, hswitch, htargets]

/-- The fall-through of the last action of a block. -/
lemma Instruction.EndsIn.filter_ways {ins : Instruction} {a : Action Int} (h : ins.EndsIn a)
    (hgoes : ins.op.endsBlock = false) (f : Int → Nat) (i : Nat) :
    ∃ kind, (((a.mapLabels f).ways i).foldl insertEdge []).filter
      (fun e => e.kind == .normal || e.kind == .onFalse) = [⟨i, i + 1, kind, "", false⟩] := by
  cases h with
  | branch h condition => exact ⟨.onFalse, by simp [Action.mapLabels, Action.ways, insertEdge]⟩
  | straight h ha =>
    refine ⟨.normal, ?_⟩
    rw [Action.ways_of_isStraight (by simpa using ha)]
    rfl
  | goto h => simp [Opcode.endsBlock, h] at hgoes
  | switch h key => simp [Opcode.endsBlock, h] at hgoes
  | ret h src => simp [Opcode.endsBlock, h] at hgoes
  | throw h src => simp [Opcode.endsBlock, h] at hgoes

namespace FlowGraph

variable (g : FlowGraph)

/-- The edges of the statement `i` that are no exception edges are one edge, to `t`. -/
def GoesOnlyTo (i t : Nat) : Prop :=
  ∃ e, (g.successors i).filter (·.kind != .exception) = [e] ∧ e.target = t

/-- From the statement `i` the way with the given number, or the fall-through, leads to `t`. -/
def Follows (i : Nat) : Option Nat → Nat → Prop
  | some k, t => (∃ st, g.statements[i]? = some st ∧ st.action.targets[k]? = some t) ∧
      ∃ e ∈ g.successors i, e.target = t ∧ (e.kind = .normal ∨ e.kind = .onTrue)
  | none, t => ∃ e, (g.successors i).filter (fun e => e.kind == .normal || e.kind == .onFalse) =
      [e] ∧ e.target = t

/-- The only way from the statement `i` without an exception closes the scopes, one after the other,
and then comes to the statement `t`. -/
def Closes (params : ParamSlots) : List Scope → Nat → Nat → Prop
  | [], i, t => i = t
  | s :: scopes, i, t => i = s.closeNormal ∧
      (∃ st, g.statements[i]? = some st ∧ st.action = s.scope.closing params) ∧
      g.GoesOnlyTo i s.gotoEnd ∧ ∃ next, g.GoesOnlyTo s.gotoEnd next ∧ Closes params scopes next t

/-- The resource scopes with the places of their statements, in front of the exit. -/
def scopesOf (resources : List ResourceScope) : List Scope :=
  placeScopes resources (g.unhandledExit - 5 * resources.length)

/-- On the way from the last instruction of a block, at `u`, to the instruction at `v` exactly the
scopes that are left are closed, the shortest first. -/
def ClosesLeft (params : ParamSlots) (resources : List ResourceScope) (u : Int) (way : Option Nat)
    (v : Int) : Prop :=
  ∃ left : List Scope,
    left.Perm ((g.scopesOf resources).filter fun s => s.scope.leaves u v) ∧
    left.Pairwise (fun s s' => s.scope.length ≤ s'.scope.length) ∧
    ∃ i, g.Follows (g.endOf u) way i ∧ g.Closes params left i (g.entryOf v)

end FlowGraph

/-! ## Places of scopes -/

lemma map_scope_placeScopes (resources : List ResourceScope) (base : Nat) :
    (placeScopes resources base).map (·.scope) =
      resources.mergeSort fun x y => decide (x.stop - x.start ≤ y.stop - y.start) := by
  simp only [placeScopes, List.map_map, Function.comp_def]
  exact List.zipIdx_map_fst 0 _

/-- The scopes are the resource scopes of the body. -/
lemma perm_map_scope_placeScopes (resources : List ResourceScope) (base : Nat) :
    ((placeScopes resources base).map (·.scope)).Perm resources := by
  rw [map_scope_placeScopes]
  exact List.mergeSort_perm ..

/-- The scopes are placed by length. -/
lemma pairwise_placeScopes (resources : List ResourceScope) (base : Nat) :
    (placeScopes resources base).Pairwise fun s s' => s.scope.length ≤ s'.scope.length := by
  have hsorted : (resources.mergeSort
      fun x y => decide (x.stop - x.start ≤ y.stop - y.start)).Pairwise
      fun x y => decide (x.stop - x.start ≤ y.stop - y.start) = true :=
    List.pairwise_mergeSort (by simp only [decide_eq_true_eq]; intros; omega)
      (by simp only [Bool.or_eq_true, decide_eq_true_eq]; intros; omega) resources
  rw [← map_scope_placeScopes resources base, List.pairwise_map] at hsorted
  exact hsorted.imp fun h => by simpa [ResourceScope.length] using h

namespace Progression

variable {params : ParamSlots} {resources : List ResourceScope} {p : Progression} {s s' : Scope}

/-- A statement of a scope belongs to this scope. -/
lemma ownerOf?_of_owns (hs : s ∈ p.scopes resources) {i : Nat} (hi : s.owns i = true) :
    ownerOf? (p.scopes resources) i = some s := by
  unfold ownerOf?
  cases hfind : (p.scopes resources).find? (·.owns i) with
  | none => exact absurd hi (List.find?_eq_none.mp hfind s hs)
  | some s' =>
    have hs' := List.mem_of_find?_eq_some hfind
    have hi' := List.find?_some hfind
    obtain ⟨j, -, -, hbase⟩ := exists_base hs
    obtain ⟨j', -, -, hbase'⟩ := exists_base hs'
    simp only [Scope.owns, decide_eq_true_eq] at hi hi'
    rw [eq_of_base_eq hs' hs (by omega)]

/-- A statement of a block belongs to no scope. -/
lemma ownerOf?_of_lt {i : Nat} (hi : i < p.lowered.size) :
    ownerOf? (p.scopes resources) i = none := by
  refine List.find?_eq_none.mpr fun s hs howns => ?_
  obtain ⟨j, -, -, hbase⟩ := exists_base hs
  simp only [Scope.owns, decide_eq_true_eq] at howns
  omega

/-- A statement of a block is inside the scopes that contain its offset. -/
lemma inside_of_lt {i : Nat} (hi : i < p.lowered.size) {st : Statement}
    (hst : (p.unlinked params resources)[i]? = some st) :
    p.inside params resources s i = (decide (0 ≤ st.offset) && s.contains st.offset) := by
  simp only [inside, Wiring.isInside, ownerOf?_of_lt hi, hst]

/-- A statement of a scope is inside the other scopes that its scope lies within. -/
lemma inside_of_owns (hs : s ∈ p.scopes resources) {i : Nat} (hi : s.owns i = true) :
    p.inside params resources s' i = (s != s' && s.within s') := by
  simp only [inside, Wiring.isInside, ownerOf?_of_owns hs hi]

/-- A way closes the first one of the scopes that it leaves. -/
lemma leadsTo_eq (i t : Nat) : p.leadsTo params resources i t =
    ((((p.scopes resources).filter fun s => p.inside params resources s i &&
      firstAt p.spans s.scope.stop == t).head?).map Scope.closeNormal).getD t := by
  rw [List.head?_filter]
  rfl

end Progression

namespace Progression.Complete

variable {params : ParamSlots} {p : Progression} {b : MethodBody}

lemma scope_mem (p : Progression) {s : Scope} (hs : s ∈ p.scopes b.resources) :
    s.scope ∈ b.resources :=
  (perm_map_scope_placeScopes b.resources p.lowered.size).mem_iff.mp (List.mem_map_of_mem hs)

/-- The scopes that are left are placed by length, and have different lengths if their ranges
differ. -/
lemma pairwise_left (p : Progression) {u v : Int}
    (hstop : ∀ r ∈ b.resources, r.leaves u v = true → r.stop = v)
    (hranges : b.resources.Pairwise fun r r' => r.leaves u v = true → r'.leaves u v = true →
      ¬ (r.start = r'.start ∧ r.stop = r'.stop)) :
    ((p.scopes b.resources).filter fun s => s.scope.leaves u v).Pairwise
      fun s s' => s.scope.length < s'.scope.length := by
  have hperm := perm_map_scope_placeScopes b.resources p.lowered.size
  have hdiffer := (hperm.pairwise_iff (fun {r r'} hr hleaves hleaves' heq =>
    hr hleaves' hleaves ⟨heq.1.symm, heq.2.symm⟩)).mpr hranges
  rw [List.pairwise_map] at hdiffer
  have hboth := (pairwise_placeScopes b.resources p.lowered.size).and hdiffer
  refine (hboth.sublist List.filter_sublist).imp_of_mem fun {s s'} hs hs' hss' => ?_
  obtain ⟨hs, hleaves⟩ := List.mem_filter.mp hs
  obtain ⟨hs', hleaves'⟩ := List.mem_filter.mp hs'
  have hstops := hstop _ (scope_mem p hs) hleaves
  have hstops' := hstop _ (scope_mem p hs') hleaves'
  have hne := hss'.2 hleaves hleaves'
  have hle := hss'.1
  unfold ResourceScope.length at hle ⊢
  omega

/-- A block starts where a scope ends. -/
lemma starts_stop (h : p.Complete b) {s : Scope} (hs : s ∈ p.scopes b.resources) :
    Starts p (firstAt p.spans s.scope.stop) s.scope.stop := by
  have hmem := scope_mem p hs
  refine h.starts_firstAt (h.valid.scopes _ hmem).2.1 ?_
  unfold MethodBody.referredOffsets
  exact List.mem_append_right _ (List.mem_map_of_mem hmem)

/-- A way that leads behind the blocks leaves no scope. -/
lemma leadsTo_of_le (h : p.Complete b) {i t : Nat} (ht : p.lowered.size ≤ t) :
    p.leadsTo params b.resources i t = t :=
  exitTarget_of_le _ (fun _ _ => h.firstAt_lt _) i ht

section Leaving

variable (h : p.Complete b) {u v : Int} {t : Nat} (ht : Starts p t v)
  (hstop : ∀ r ∈ b.resources, r.leaves u v = true → r.stop = v)

include h ht

lemma firstAt_stop_eq_iff {s : Scope} (hs : s ∈ p.scopes b.resources) :
    firstAt p.spans s.scope.stop = t ↔ s.scope.stop = v :=
  Starts.eq_iff h (h.starts_stop hs) ht

include hstop

/-- Behind a scope that is left, the next longer one is closed.

**Proof sketch.** All scopes that are left end where control goes to. So the other scopes that a
scope that is left lies within and that end there are the longer ones of those that are left. -/
lemma leadsTo_gotoEnd {front rest : List Scope} {s : Scope}
    (hleft : (p.scopes b.resources).filter (fun s => s.scope.leaves u v) = front ++ s :: rest)
    (hstrict : (front ++ s :: rest).Pairwise fun s s' => s.scope.length < s'.scope.length) :
    p.leadsTo params b.resources s.gotoEnd t = (rest.head?.map Scope.closeNormal).getD t := by
  have hmem : ∀ s' ∈ front ++ s :: rest, s' ∈ p.scopes b.resources ∧
      s'.scope.leaves u v = true ∧ s'.scope.stop = v := by
    intro s' hs'
    rw [← hleft] at hs'
    obtain ⟨hs', hleaves⟩ := List.mem_filter.mp hs'
    exact ⟨hs', hleaves, hstop _ (scope_mem p hs') hleaves⟩
  obtain ⟨hs, hleaves, hstops⟩ := hmem s (by simp)
  simp only [ResourceScope.leaves, Bool.and_eq_true, decide_eq_true_eq] at hleaves
  have howns : s.owns s.gotoEnd = true := decide_eq_true (by unfold Scope.gotoEnd; omega)
  have hfront : ∀ s' ∈ front, s.scope.start < s'.scope.start := by
    intro s' hs'
    have hlt := (List.pairwise_append.mp hstrict).2.2 s' hs' s (by simp)
    have hstops' := (hmem s' (by simp [hs'])).2.2
    unfold ResourceScope.length at hlt
    omega
  have hrest : ∀ s' ∈ rest, s'.scope.start < s.scope.start := by
    intro s' hs'
    have hlt := (List.pairwise_cons.mp (List.pairwise_append.mp hstrict).2.1).1 s' hs'
    have hstops' := (hmem s' (by simp [hs'])).2.2
    unfold ResourceScope.length at hlt
    omega
  -- of the scopes that are left, those that start earlier than this one are closed later
  have hlater : ∀ s' ∈ p.scopes b.resources,
      (p.inside params b.resources s' s.gotoEnd && firstAt p.spans s'.scope.stop == t) =
        (decide (s'.scope.start < s.scope.start) && s'.scope.leaves u v) := by
    intro s' hs'
    rw [Progression.inside_of_owns hs howns, Bool.eq_iff_iff]
    simp only [Bool.and_eq_true, bne_iff_ne, Scope.within, decide_eq_true_eq, beq_iff_eq,
      h.firstAt_stop_eq_iff ht hs']
    constructor
    · rintro ⟨⟨hne, hstart, -⟩, hstops'⟩
      have hleaves' : s'.scope.leaves u v = true := by
        simp only [ResourceScope.leaves, Bool.and_eq_true, Bool.not_eq_true', decide_eq_true_eq,
          decide_eq_false_iff_not]
        omega
      have hmem' : s' ∈ front ++ s :: rest := by
        rw [← hleft]
        exact List.mem_filter.mpr ⟨hs', hleaves'⟩
      refine ⟨?_, hleaves'⟩
      rcases List.mem_append.mp hmem' with hmem' | hmem'
      · have := hfront s' hmem'
        omega
      · rcases List.mem_cons.mp hmem' with rfl | hmem'
        · exact absurd rfl hne
        · exact hrest s' hmem'
    · rintro ⟨hstart, hleaves'⟩
      have hstops' := hstop _ (scope_mem p hs') hleaves'
      refine ⟨⟨?_, by omega, by omega⟩, hstops'⟩
      rintro rfl
      omega
  have hfilter : (p.scopes b.resources).filter (fun s' =>
      p.inside params b.resources s' s.gotoEnd && firstAt p.spans s'.scope.stop == t) = rest := by
    rw [List.filter_congr hlater, ← List.filter_filter, hleft, List.filter_append,
      List.filter_eq_nil_iff.mpr (fun s' hs' => by have := hfront s' hs'; simp; omega),
      List.filter_cons_of_neg (by simp), List.nil_append]
    exact List.filter_eq_self.mpr fun s' hs' => decide_eq_true (hrest s' hs')
  rw [Progression.leadsTo_eq, hfilter]

/-- From the last statement of a block, the shortest scope that is left is closed first.

**Proof sketch.** The statement comes from an instruction of the block, and no block starts between
it and the end of the block. So the statement is inside of a scope that ends where control goes to
if and only if the scope is left. -/
lemma leadsTo_last {s : Span} (hs : s ∈ p.spans) {ins : Instruction}
    (hlast : s.block.last? = some ins) (hu : u = ins.pc) {st : Statement}
    (hst : (p.unlinked params b.resources)[s.last]? = some st)
    (hstart : ∀ r ∈ b.resources, r.leaves u v = true → r.start ≤ st.offset) :
    p.leadsTo params b.resources s.last t = ((((p.scopes b.resources).filter
      fun s => s.scope.leaves u v).head?).map Scope.closeNormal).getD t := by
  have hbounds := h.laid.bounds hs
  rw [Array.length_toList] at hbounds
  have hmem : ins ∈ s.block.instructions := List.mem_of_getLast? hlast
  obtain ⟨ins', hins', hoffset⟩ : ∃ ins' ∈ s.block.instructions, st.offset = ins'.pc := by
    rw [Progression.getElem?_unlinked params b.resources (by omega)] at hst
    obtain ⟨l, hl, rfl⟩ := Option.map_eq_some_iff.mp hst
    exact h.laid.exists_instruction hs hbounds.2.1 (Nat.le_refl _) hl
  have hle : st.offset ≤ u := by
    rw [hu, hoffset]
    exact h.le_last hs hlast hins'
  have hnonneg : 0 ≤ st.offset := by
    rw [hoffset]
    exact h.valid.nonneg ins' (h.mem_code hs hins')
  have hbetween : st.offset < v → u < v := by
    intro hlt
    obtain ⟨s', hs', -, rfl⟩ := ht
    obtain ⟨first, hfirst, heq⟩ := h.exists_first hs'
    rcases h.laid.eq_or_apart hs hs' with rfl | hlt' | hlt'
    · have := h.offset_le hs hins'
      omega
    · have := h.pc_lt hs hs' hlt' ins hmem first hfirst
      omega
    · have := h.pc_lt hs' hs hlt' first hfirst ins' hins'
      omega
  rw [Progression.leadsTo_eq]
  congr 3
  refine List.filter_congr fun s' hs' => ?_
  rw [Progression.inside_of_lt (by omega) hst, Bool.eq_iff_iff]
  simp only [Bool.and_eq_true, Scope.contains, decide_eq_true_eq, beq_iff_eq,
    h.firstAt_stop_eq_iff ht hs', ResourceScope.leaves, Bool.not_eq_true',
    decide_eq_false_iff_not]
  constructor
  · rintro ⟨⟨-, hstart', hstop'⟩, rfl⟩
    have := hbetween hstop'
    omega
  · rintro ⟨hu', hv'⟩
    have hleaves : s'.scope.leaves u v = true := by
      simp only [ResourceScope.leaves, Bool.and_eq_true, Bool.not_eq_true', decide_eq_true_eq,
        decide_eq_false_iff_not]
      exact ⟨hu', hv'⟩
    have hstart' := hstart _ (scope_mem p hs') hleaves
    exact ⟨⟨hnonneg, hstart', by omega⟩, hstop _ (scope_mem p hs') hleaves⟩

end Leaving

end Progression.Complete

/-! ## The way from a block -/

namespace FlowGraph.Connects

variable {types : Option ClassTable} {b : MethodBody} {params : ParamSlots} {p : Progression}
  {g : FlowGraph} (h : g.Connects types b params p)

include h

lemma scopesOf_eq : g.scopesOf b.resources = p.scopes b.resources := by
  unfold scopesOf Progression.scopes
  rw [h.unhandledExit_eq]
  unfold Progression.exit
  rw [Nat.add_sub_cancel]

/-- The edges of a statement that are no exception edges are those of its ways. -/
lemma filter_successors {i : Nat} {st : Statement}
    (hst : (p.unlinked params b.resources)[i]? = some st) {q : EdgeKind → Bool}
    (hq : q .exception = false) : ∃ mark, (g.successors i).filter (fun e => q e.kind) =
      ((((st.action.ways i).foldl insertEdge []).filter fun e => q e.kind).map
        (Edge.retarget (p.leadsTo params b.resources i))).map (Edge.marked mark) := by
  obtain ⟨mark, hmark⟩ := h.exists_successors
  have hi : i < p.exit b.resources + 1 := by
    rw [← Progression.size_unlinked params]
    exact (Array.getElem?_eq_some_iff.mp hst).1
  refine ⟨mark, ?_⟩
  rw [hmark i hi, flowEdges_of_getElem? hst, List.filter_map]
  congr 1
  refine (filter_foldl_insertEdge fun e he => ?_).trans ?_
  · have hkind := (Progression.of_mem_raisedEdges h.complete he).2.1
    simp [Edge.marked, hkind, hq]
  · rw [List.filter_map]
    rfl

/-- A way of a statement has an edge. -/
lemma exists_edge {i : Nat} {st : Statement}
    (hst : (p.unlinked params b.resources)[i]? = some st) {e : Edge} (he : e ∈ st.action.ways i) :
    ∃ e' ∈ g.successors i, e'.Leads (p.leadsTo params b.resources i e.target) e.kind := by
  obtain ⟨mark, hmark⟩ := h.exists_successors
  have hi : i < p.exit b.resources + 1 := by
    rw [← Progression.size_unlinked params]
    exact (Array.getElem?_eq_some_iff.mp hst).1
  rw [hmark i hi, flowEdges_of_getElem? hst]
  obtain ⟨e', he', hleads⟩ := (exists_leads_iff (f := p.leadsTo params b.resources i)
    (fun e he => (Progression.of_mem_raisedEdges h.complete he).2.1)
    (Action.source_of_mem_ways he).2).mpr ⟨e, he, rfl, rfl⟩
  exact ⟨_, List.mem_map_of_mem he', hleads⟩

/-- A statement with one way goes this way only. -/
lemma goesOnlyTo {i t : Nat} {st : Statement}
    (hst : (p.unlinked params b.resources)[i]? = some st)
    (hways : st.action.ways i = [⟨i, t, .normal, "", false⟩]) :
    g.GoesOnlyTo i (p.leadsTo params b.resources i t) := by
  obtain ⟨mark, hfilter⟩ := h.filter_successors hst (q := (· != .exception)) rfl
  rw [hways] at hfilter
  exact ⟨_, hfilter, rfl⟩

/-- The scopes that are left are closed in turn.

**Proof sketch.** Induction on the scopes that are still to be closed. The statement that closes the
first of them goes on to its jump behind the scope, and this jump leads to the next of them. -/
lemma closes {u v : Int} {t : Nat} (ht : Progression.Complete.Starts p t v)
    (hstop : ∀ r ∈ b.resources, r.leaves u v = true → r.stop = v) (front : List Scope)
    {rest : List Scope}
    (hleft : (p.scopes b.resources).filter (fun s => s.scope.leaves u v) = front ++ rest)
    (hstrict : (front ++ rest).Pairwise fun s s' => s.scope.length < s'.scope.length) :
    g.Closes params rest ((rest.head?.map Scope.closeNormal).getD t) t := by
  induction rest generalizing front with
  | nil => rfl
  | cons s rest ih =>
    have hmem : s ∈ (p.scopes b.resources).filter fun s => s.scope.leaves u v := by
      rw [hleft]
      simp
    replace hmem := List.mem_filter.mp hmem
    obtain ⟨exception, hclose, hgoto, -⟩ :=
      (Progression.placed_unlinked params b.resources hmem.1).getElem?
    have hend : firstAt p.spans s.scope.stop = t := by
      rw [h.complete.firstAt_stop_eq_iff ht hmem.1]
      exact hstop _ (Progression.Complete.scope_mem p hmem.1) hmem.2
    have hclosing := h.goesOnlyTo hclose rfl
    rw [h.complete.leadsTo_of_le (by
      obtain ⟨j, -, -, hbase⟩ := Progression.exists_base hmem.1
      unfold Scope.closeNormal
      omega)] at hclosing
    have hnext := h.goesOnlyTo hgoto rfl
    rw [hend, h.complete.leadsTo_gotoEnd ht hstop hleft hstrict] at hnext
    refine ⟨rfl, ⟨_, by rw [List.head?_cons, Option.map_some, Option.getD_some,
      h.getElem?_statements, hclose]; rfl, rfl⟩, hclosing, _, hnext, ?_⟩
    have happend : front ++ s :: rest = front ++ [s] ++ rest := by simp
    rw [happend] at hleft hstrict
    exact ih _ hleft hstrict

/-- A block whose last statement is no placeholder is reached. -/
lemma reached_of {s : Span} (hs : s ∈ p.spans) {st : Statement}
    (hst : g.statements[s.last]? = some st) (halive : st.action.isUnreachable = false) :
    s.reached = true := by
  by_contra hdead
  have hbounds := h.complete.laid.bounds hs
  obtain ⟨st', hst', hunreachable⟩ := (h.complete.fits params b.resources hs).dead
    (by simpa using hdead) s.last hbounds.2.1 (Nat.le_refl _)
  rw [h.getElem?_statements, hst', Option.map_some] at hst
  obtain rfl := Option.some.inj hst
  rw [Statement.retarget, Action.isUnreachable_mapLabels, hunreachable] at halive
  cases halive

/-- The way of a transfer from the last statement of a block that is reached. -/
lemma follows {s : Span} (hs : s ∈ p.spans) (hreached : s.reached = true) {ins : Instruction}
    (hlast : s.block.last? = some ins) {way : Option Nat} {v : Int}
    (htransfer : b.Transfers ins way v) :
    ∃ t, Progression.Complete.Starts p t v ∧
      g.Follows s.last way (p.leadsTo params b.resources s.last t) := by
  obtain ⟨ins', hins', ⟨st, hst, a, hends, ha⟩, -⟩ :=
    (h.complete.fits params b.resources hs).ends hreached
  obtain rfl : ins = ins' := Option.some.inj (hlast.symm.trans hins')
  have hmem : ins ∈ b.code := h.complete.mem_code hs (List.mem_of_getLast? hlast)
  cases htransfer with
  | @jump k v htarget =>
    have htarget' := List.mem_of_getElem? htarget
    have hoffset := h.complete.valid.targets ins hmem v htarget'
    refine ⟨firstAt p.spans v, h.complete.starts_firstAt hoffset ?_, ?_⟩
    · unfold MethodBody.referredOffsets
      refine List.mem_append_left _ (List.mem_append_left _ ?_)
      exact List.mem_flatMap.mpr ⟨ins, hmem, htarget'⟩
    · have htargets : st.action.targets[k]? = some (firstAt p.spans v) := by
        rw [ha, Action.targets_mapLabels, hends.targets_eq, List.getElem?_map, htarget]
        rfl
      refine ⟨⟨_, by rw [h.getElem?_statements, hst]; rfl, ?_⟩, ?_⟩
      · rw [Statement.retarget, Action.targets_mapLabels, List.getElem?_map, htargets]
        rfl
      · obtain ⟨e, he, heq, hkind⟩ :=
          Action.exists_way_of_mem_targets (List.mem_of_getElem? htargets) s.last
        obtain ⟨e', he', htarget, hkind'⟩ := h.exists_edge hst he
        exact ⟨e', he', by rw [htarget, heq], by rwa [hkind']⟩
  | @next k after hins hafter hgoes =>
    refine ⟨s.last + 1, h.complete.starts_next hs hlast hgoes hins hafter, ?_⟩
    obtain ⟨mark, hfilter⟩ := h.filter_successors hst
      (q := fun kind => kind == .normal || kind == .onFalse) rfl
    obtain ⟨kind, hways⟩ := hends.filter_ways hgoes (firstAt p.spans) s.last
    rw [ha, hways] at hfilter
    exact ⟨_, hfilter, rfl⟩

end FlowGraph.Connects

namespace FlowGraph

variable {types : Option ClassTable} {b : MethodBody} {g : FlowGraph}

/-- **Leaving scopes.** On the way from the end of a block that is reached to the start of another
one, the scopes that are left are closed, the shortest first, and no others. This is so if the
scopes that are left end where control goes to and have different ranges, and if the last statement
of the block comes from an instruction in all of them. -/
theorem leaving_closes_scopes (hbuild : FlowGraph.build types b = .ok g) {block : BasicBlock}
    (hblock : block ∈ b.blocks) {ins : Instruction} (hlast : block.last? = some ins)
    (hreached : ∀ st, g.statements[g.endOf ins.pc]? = some st → st.action.isUnreachable = false)
    {way : Option Nat} {v : Int} (htransfer : b.Transfers ins way v)
    (hstop : ∀ r ∈ b.resources, r.leaves ins.pc v = true → r.stop = v)
    (hranges : b.resources.Pairwise fun r r' => r.leaves ins.pc v = true →
      r'.leaves ins.pc v = true → ¬ (r.start = r'.start ∧ r.stop = r'.stop))
    (hstart : ∀ st, g.statements[g.endOf ins.pc]? = some st →
      ∀ r ∈ b.resources, r.leaves ins.pc v = true → r.start ≤ st.offset) :
    ∃ d, MethodDescriptor.parse b.ref.descriptor = .ok d ∧
      g.ClosesLeft (b.paramSlots d) b.resources ins.pc way v := by
  have hcode : b.code ≠ [] := by
    rw [← b.flatMap_blocks]
    intro hnil
    exact (b.regular_of_mem_blocks hblock).ne_nil (List.flatMap_eq_nil_iff.mp hnil block hblock)
  rcases build_cases hbuild with ⟨hnil, -⟩ | ⟨d, p, hd, h⟩
  · exact absurd hnil hcode
  refine ⟨d, hd, ?_⟩
  obtain ⟨s, hs, rfl⟩ := h.complete.exists_span hblock
  have hend := h.endOf_last hs hlast
  rw [hend] at hreached hstart
  have hbounds := h.complete.laid.bounds hs
  rw [Array.length_toList] at hbounds
  obtain ⟨st, hst⟩ : ∃ st, (p.unlinked (b.paramSlots d) b.resources)[s.last]? = some st :=
    ⟨_, (Progression.getElem?_unlinked _ _ (by omega)).trans
      (by rw [List.getElem?_eq_getElem (by rw [Array.length_toList]; omega)]; rfl)⟩
  have hst' : g.statements[s.last]? =
      some (st.retarget (p.leadsTo (b.paramSlots d) b.resources s.last)) := by
    rw [h.getElem?_statements, hst, Option.map_some]
  obtain ⟨t, ht, hfollows⟩ := h.follows hs (h.reached_of hs hst' (hreached _ hst')) hlast htransfer
  have hstart' : ∀ r ∈ b.resources, r.leaves ins.pc v = true → r.start ≤ st.offset :=
    hstart (st.retarget _) hst'
  rw [h.complete.leadsTo_last ht hstop hs hlast rfl hst hstart'] at hfollows
  have hentry : g.entryOf v = t := by
    obtain ⟨s', hs', rfl, rfl⟩ := ht
    exact h.entryOf_offset hs'
  have hcloses := h.closes ht hstop [] rfl (Progression.Complete.pairwise_left p hstop hranges)
  refine ⟨(p.scopes b.resources).filter fun s => s.scope.leaves ins.pc v, ?_, ?_, ?_⟩
  · rw [h.scopesOf_eq]
  · exact (pairwise_placeScopes b.resources p.lowered.size).sublist List.filter_sublist
  · rw [hend, hentry]
    exact ⟨_, hfollows, hcloses⟩

end FlowGraph

/-! ## Two methods with two scopes -/

/-- A static method of two files, with scopes that close them. -/
def fileMethod (name : String) (code : List Instruction) (ranges : List (Int × Int)) :
    MethodBody where
  ref := ⟨"Desk", name, "(LFile;LFile;)V"⟩
  modifiers := AccessFlags.empty.insert .static
  maxLocals := 2
  code
  handlers := []
  resources := ranges.zipIdx.map fun ((start, stop), slot) => { slot, start, stop, type := "File" }

/-- Two calls and a return. The scope of the second file starts at the second call, and both end at
the return. -/
def nestedScopes : MethodBody := fileMethod "copy" [
  { pc := 0, op := ⟨184⟩, owner := "Desk", name := "read", desc := "()V" },
  { pc := 3, op := ⟨184⟩, owner := "Desk", name := "write", desc := "()V" },
  { pc := 6, op := ⟨177⟩ }] [(0, 6), (3, 6)]

/-- A call and a return. The scopes of both files end at the return and have the same range. -/
def equalScopes : MethodBody := fileMethod "use" [
  { pc := 0, op := ⟨25⟩, slot := 0 },
  { pc := 1, op := ⟨182⟩, owner := "File", name := "read", desc := "()V" },
  { pc := 4, op := ⟨177⟩ }] [(0, 4), (0, 4)]

/-- The second call of the first method. -/
def writeCall : Instruction :=
  { pc := 3, op := ⟨184⟩, owner := "Desk", name := "write", desc := "()V" }

/-- The call of the second method. -/
def readCall : Instruction :=
  { pc := 1, op := ⟨182⟩, owner := "File", name := "read", desc := "()V" }

lemma blocks_nestedScopes : nestedScopes.blocks =
    [⟨0, nestedScopes.code.take 2, none⟩, ⟨2, nestedScopes.code.drop 2, none⟩] := by cbv

lemma build_nestedScopes : (FlowGraph.build none nestedScopes).map (fun g =>
    (g.endOf 3, g.entryOf 6,
      (g.statements[1]?).map fun st : Statement => (st.offset, st.action.isUnreachable))) =
    .ok (1, 2, some (3, false)) := by cbv

/-- Behind the second call of the first method both scopes are left, and both files are closed, the
second one first. -/
theorem nestedScopes_leaving_closes_scopes : ∃ g d,
    FlowGraph.build none nestedScopes = .ok g ∧ g.endOf 3 = 1 ∧ g.entryOf 6 = 2 ∧
    (nestedScopes.resources.map fun r => r.leaves 3 6) = [true, true] ∧
    MethodDescriptor.parse nestedScopes.ref.descriptor = .ok d ∧
    g.ClosesLeft (nestedScopes.paramSlots d) nestedScopes.resources 3 none 6 := by
  have hblock : (⟨0, nestedScopes.code.take 2, none⟩ : BasicBlock) ∈ nestedScopes.blocks := by
    rw [blocks_nestedScopes]
    exact List.mem_cons_self
  have htransfer : nestedScopes.Transfers writeCall none 6 :=
    @MethodBody.Transfers.next nestedScopes writeCall 1 { pc := 6, op := ⟨177⟩ } rfl rfl rfl
  obtain ⟨g, hg, hfacts⟩ := exists_of_map_eq_ok build_nestedScopes
  simp only [Prod.mk.injEq] at hfacts
  obtain ⟨hend, hentry, hst⟩ := hfacts
  obtain ⟨st, hst, heq⟩ := Option.map_eq_some_iff.mp hst
  obtain ⟨hoffset, halive⟩ := Prod.mk.inj heq
  have hlast : ∀ st', g.statements[g.endOf 3]? = some st' → st' = st := by
    intro st' hst'
    rw [hend, hst] at hst'
    exact (Option.some.inj hst').symm
  obtain ⟨d, hd, hcloses⟩ := FlowGraph.leaving_closes_scopes hg hblock
    (show _ = some writeCall from rfl) (fun st' hst' => hlast st' hst' ▸ halive) htransfer
    (by decide) (by decide)
    (fun st' hst' => by
      rw [hlast st' hst', hoffset]
      decide)
  exact ⟨g, d, hg, hend, hentry, by decide, hd, hcloses⟩

lemma blocks_equalScopes : equalScopes.blocks =
    [⟨0, equalScopes.code.take 2, none⟩, ⟨2, equalScopes.code.drop 2, none⟩] := by cbv

lemma build_equalScopes : (FlowGraph.build none equalScopes).map (fun g =>
    (g.endOf 1, g.entryOf 4, g.unhandledExit,
      (g.statements[0]?).map (fun st : Statement => st.action.isUnreachable),
      (g.successors 0).filter (fun e => e.kind == .normal || e.kind == .onFalse),
      (g.successors 3).filter (·.kind != .exception),
      (g.successors 8).filter (·.kind != .exception))) =
    .ok (0, 1, 12, some false, [⟨0, 2, .normal, "", false⟩], [⟨3, 7, .normal, "", false⟩],
      [⟨8, 2, .normal, "", true⟩]) := by cbv

lemma parse_equalScopes : MethodDescriptor.parse equalScopes.ref.descriptor =
    .ok ⟨[.object "File", .object "File"], none⟩ := by cbv

/-- The statement goes only where its single edge leads to. -/
lemma FlowGraph.GoesOnlyTo.eq {g : FlowGraph} {i t : Nat} (h : g.GoesOnlyTo i t) {e : Edge}
    (he : (g.successors i).filter (·.kind != .exception) = [e]) : t = e.target := by
  obtain ⟨e', he', rfl⟩ := h
  rw [(List.cons.inj (he'.symm.trans he)).1]

/-- The jump behind a scope follows the statement that closes it. -/
lemma Scope.gotoEnd_eq (s : Scope) : s.gotoEnd = s.closeNormal + 1 := rfl

lemma length_left_equalScopes : ((placeScopes equalScopes.resources 2).filter
    fun s => s.scope.leaves 1 4).length = 2 := by cbv

/-- Behind the call of the second method, two scopes of the same range are left. The way that closes
the first file goes on to close the second one, and then the first one again: it does not come to
the return after closing each of them once. -/
theorem equalScopes_never_left : ∃ g d,
    FlowGraph.build none equalScopes = .ok g ∧
    MethodDescriptor.parse equalScopes.ref.descriptor = .ok d ∧
    (∃ block ∈ equalScopes.blocks, block.last? = some readCall) ∧
    (∃ st, g.statements[g.endOf 1]? = some st ∧ st.action.isUnreachable = false) ∧
    equalScopes.Transfers readCall none 4 ∧
    ¬ g.ClosesLeft (equalScopes.paramSlots d) equalScopes.resources 1 none 4 := by
  have htransfer : equalScopes.Transfers readCall none 4 :=
    @MethodBody.Transfers.next equalScopes readCall 1 { pc := 4, op := ⟨177⟩ } rfl rfl rfl
  have hblock : (⟨0, equalScopes.code.take 2, none⟩ : BasicBlock) ∈ equalScopes.blocks := by
    rw [blocks_equalScopes]
    exact List.mem_cons_self
  obtain ⟨g, hg, hfacts⟩ := exists_of_map_eq_ok build_equalScopes
  simp only [Prod.mk.injEq] at hfacts
  obtain ⟨hend, hentry, hexit, hst, h₀, h₃, h₈⟩ := hfacts
  obtain ⟨st, hst, halive⟩ := Option.map_eq_some_iff.mp hst
  refine ⟨g, _, hg, parse_equalScopes, ⟨_, hblock, rfl⟩, ⟨st, hend ▸ hst, halive⟩, htransfer, ?_⟩
  rintro ⟨left, hperm, -, i, ⟨e, he, rfl⟩, hcloses⟩
  rw [hend, h₀] at he
  rw [hentry, ← (List.cons.inj he).1] at hcloses
  have hlength := hperm.length_eq
  rw [FlowGraph.scopesOf, hexit] at hlength
  replace hlength := hlength.trans length_left_equalScopes
  -- two scopes are closed, and the jump behind the second one leads back to the first one
  match left, hlength with
  | [s, s'], _ =>
    obtain ⟨hfirst, -, -, j, hjump, hsecond, -, -, k, hback, rfl⟩ := hcloses
    rw [s.gotoEnd_eq, ← hfirst] at hjump
    obtain rfl := hjump.eq h₃
    rw [s'.gotoEnd_eq, ← hsecond] at hback
    exact absurd (hback.eq h₈) (by decide)

end JvmTaint
