import JvmTaint.Proofs.Lowering.ReachedBlocks
import Mathlib.Data.Finset.Max

set_option autoImplicit false
set_option relaxedAutoImplicit false

/-!
# Entries of handlers

A handler starts with a statement that receives the exception into the lowest temporary of the
stack. A jump or a fall-through to an instruction where a handler starts leads to this statement,
too, if it brings one reference on its stack; so does the way behind a resource scope that ends
there. The statement then overwrites what the stack holds. This module shows that there are no other
ways into handlers than those of exceptions.

## Main definitions

* `JvmTaint.MethodBody.HandlersApart`: no transfer leads to a handler and no scope ends at one.

## Main results

* `JvmTaint.FlowGraph.Connects.handler_entered`: the ways into handlers that are no exceptions.
* `JvmTaint.FlowGraph.handlers_entered_by_exceptions`: handlers that are apart are entered by
  exceptions only.
* `JvmTaint.FlowGraph.handlersApart_of_entered`: the handlers have to be apart if the ranges of the
  scopes are different.
* `JvmTaint.jumpToHandler_entered`: a jump to a handler.
-/

namespace JvmTaint

/-- Handlers are apart from the rest of the code: control is transferred to a handler at the end of
no block that is reached, and no resource scope ends at a handler. -/
structure MethodBody.HandlersApart (b : MethodBody) : Prop where
  transfers : ∀ (block : BasicBlock) (ins : Instruction) (way : Option Nat), b.Live block →
    block.last? = some ins → ∀ e ∈ b.handlers, ¬ b.Transfers ins way e.handler
  scopes : ∀ r ∈ b.resources, ∀ e ∈ b.handlers, r.stop ≠ e.handler

namespace FlowGraph

variable {types : Option ClassTable} {b : MethodBody} {params : ParamSlots} {p : Progression}
  {g : FlowGraph}

namespace Connects

variable (h : g.Connects types b params p)

include h

/-- The only statement of a scope that receives an exception is its handler. -/
lemma eq_handler_of_isReceive {s : Scope} (hs : s ∈ p.scopes b.resources) {i : Nat}
    (hi : s.owns i = true) {st : Statement} (hst : g.statements[i]? = some st)
    (hreceive : st.action.isReceive = true) : i = s.handler := by
  rw [h.getElem?_statements] at hst
  obtain ⟨st', hst', rfl⟩ := Option.map_eq_some_iff.mp hst
  rw [Statement.retarget, Action.isReceive_mapLabels] at hreceive
  cases (Progression.placed_unlinked params b.resources hs).owns hi hst' with
  | handler exception => rfl
  | _ => cases hreceive

/-- **Ways into handlers.** An edge to a statement that receives an exception is an exception edge,
or it leads from the end of a block that is reached to a handler, or from behind a scope that ends
at a handler.

**Proof sketch.** An edge that is no exception edge follows a way or closes a scope. The ways inside
a block do not lead to its first statement, and those between the statements of a scope do not lead
to its handler. -/
lemma handler_entered {i : Nat} {e : Edge} (he : e ∈ g.successors i) {st : Statement}
    (hst : g.statements[e.target]? = some st) (hreceive : st.action.isReceive = true) :
    e.kind = .exception ∨ ∃ entry ∈ b.handlers,
      (∃ s ∈ p.spans, s.reached = true ∧ i = s.last ∧ ∃ ins way,
        s.block.last? = some ins ∧ b.Transfers ins way entry.handler) ∨
      ∃ s ∈ p.scopes b.resources, i = s.gotoEnd ∧ s.scope.stop = entry.handler := by
  have hscope : ∀ s ∈ p.scopes b.resources, ∀ k < 5, e.target = s.base + k → k = 2 := by
    intro s hs k hk htarget
    have howns : s.owns e.target = true := decide_eq_true (by omega)
    have := h.eq_handler_of_isReceive hs howns hst hreceive
    unfold Scope.handler at this
    omega
  have hfirst : ∀ s ∈ p.spans, e.target = s.first →
      ∃ entry ∈ b.handlers, entry.handler = s.block.offset := by
    intro s hs htarget
    rw [htarget] at hst
    have hbounds := h.complete.laid.bounds hs
    exact ((h.isReceive_iff hs (Nat.le_refl _) hbounds.2.1 hst).mp hreceive).2
  rcases h.edge_cases he with ⟨hkind, -⟩ | ⟨-, t, hway, htarget⟩
  · exact .inl hkind
  right
  rcases htarget with htarget | ⟨s, hs, -, htarget⟩
  · cases hway with
    | @inside s i hs hreached hfirst' hlast =>
      rw [htarget] at hst
      have := ((h.isReceive_iff hs (by omega) hlast hst).mp hreceive).1
      omega
    | leaves hs hreached hlast hs' htransfer =>
      obtain ⟨entry, hentry, hoffset⟩ := hfirst _ hs' htarget
      exact ⟨entry, hentry, .inl ⟨_, hs, hreached, rfl, _, _, hlast, hoffset ▸ htransfer⟩⟩
    | closeNormal hs => exact absurd (hscope _ hs 1 (by omega) htarget) (by omega)
    | gotoEnd hs hs' hstop =>
      obtain ⟨entry, hentry, hoffset⟩ := hfirst _ hs' htarget
      exact ⟨entry, hentry, .inr ⟨_, hs, rfl, hstop.symm.trans hoffset.symm⟩⟩
    | handler hs => exact absurd (hscope _ hs 3 (by omega) htarget) (by omega)
    | closeOnException hs => exact absurd (hscope _ hs 4 (by omega) htarget) (by omega)
  · exact absurd (hscope s hs 0 (by omega) htarget) (by omega)

/-- The first statement of a handler receives the exception. -/
lemma isReceive_of_starts {entry : HandlerEntry} (hentry : entry ∈ b.handlers) {t : Nat}
    (ht : Progression.Complete.Starts p t entry.handler) :
    ∃ st, g.statements[t]? = some st ∧ st.action.isReceive = true := by
  obtain ⟨s, hs, rfl, hoffset⟩ := ht
  have hbounds := h.complete.laid.bounds hs
  rw [Array.length_toList] at hbounds
  have hsize := h.size_le
  have hst := Array.getElem?_eq_getElem (show s.first < g.statements.size by omega)
  exact ⟨_, hst, (h.isReceive_iff hs (Nat.le_refl _) hbounds.2.1 hst).mpr
    ⟨rfl, entry, hentry, hoffset.symm⟩⟩

/-- Of the scopes of different ranges that end at an offset, one has a jump that leads there.

**Proof sketch.** The jump behind a scope closes those other scopes first that enclose it and end at
the same offset. Around the scope that starts first there is none. -/
lemma exists_goesOnlyTo {v : Int} {t : Nat} (ht : Progression.Complete.Starts p t v)
    (hranges : b.resources.Pairwise fun r r' => ¬ (r.start = r'.start ∧ r.stop = r'.stop))
    {r : ResourceScope} (hr : r ∈ b.resources) (hstop : r.stop = v) :
    ∃ i, g.GoesOnlyTo i t := by
  have hperm := perm_map_scope_placeScopes b.resources p.lowered.size
  have hdiffer : (p.scopes b.resources).Pairwise fun s s' =>
      ¬ (s.scope.start = s'.scope.start ∧ s.scope.stop = s'.scope.stop) := by
    have hpairwise := (hperm.pairwise_iff fun {r r'} hrr' heq =>
      hrr' ⟨heq.1.symm, heq.2.symm⟩).mpr hranges
    rwa [List.pairwise_map] at hpairwise
  obtain ⟨s₀, hs₀, hstop₀⟩ : ∃ s ∈ p.scopes b.resources, s.scope.stop = v := by
    obtain ⟨s, hs, rfl⟩ := List.mem_map.mp (hperm.mem_iff.mpr hr)
    exact ⟨s, hs, hstop⟩
  obtain ⟨s, hs, hleast⟩ := Finset.exists_min_image
    ((p.scopes b.resources).filter fun s => s.scope.stop = v).toFinset (fun s => s.scope.start)
    ⟨s₀, by simp [hs₀, hstop₀]⟩
  obtain ⟨hs, hstop⟩ : s ∈ p.scopes b.resources ∧ s.scope.stop = v := by simpa using hs
  have houter : ∀ s' ∈ p.scopes b.resources,
      (p.inside params b.resources s' s.gotoEnd && firstAt p.spans s'.scope.stop == t) = false := by
    intro s' hs'
    have howns : s.owns s.gotoEnd = true := decide_eq_true (by unfold Scope.gotoEnd; omega)
    rw [Progression.inside_of_owns hs howns, Bool.eq_false_iff]
    simp only [ne_eq, Bool.and_eq_true, bne_iff_ne, Scope.within, decide_eq_true_eq, beq_iff_eq,
      h.complete.firstAt_stop_eq_iff ht hs']
    rintro ⟨⟨hne, hstart, -⟩, hstop'⟩
    have hle := hleast s' (by simp [hs', hstop'])
    have hsymm : Std.Symm fun s s' : Scope =>
        ¬ (s.scope.start = s'.scope.start ∧ s.scope.stop = s'.scope.stop) :=
      ⟨fun _ _ hss' heq => hss' ⟨heq.1.symm, heq.2.symm⟩⟩
    exact hdiffer.forall hs hs' hne ⟨by omega, by omega⟩
  obtain ⟨exception, -, hgoto, -⟩ := (Progression.placed_unlinked params b.resources hs).getElem?
  have hgoes := h.goesOnlyTo hgoto rfl
  rw [(h.complete.firstAt_stop_eq_iff ht hs).mpr hstop, Progression.leadsTo_eq,
    List.filter_eq_nil_iff.mpr fun s' hs' => by simp [houter s' hs']] at hgoes
  exact ⟨_, hgoes⟩

end Connects

/-- **Entries of handlers.** If no transfer leads to a handler and no resource scope ends at one,
then every edge to a statement that receives an exception is an exception edge, and the instruction
that a transfer leads to does not start with such a statement. -/
theorem handlers_entered_by_exceptions (hbuild : FlowGraph.build types b = .ok g)
    (hapart : b.HandlersApart) :
    (∀ e ∈ g.edges, ∀ st, g.statements[e.target]? = some st → st.action.isReceive = true →
      e.kind = .exception) ∧
    ∀ (block : BasicBlock) (ins : Instruction) (way : Option Nat) (v : Int), b.Live block →
      block.last? = some ins → b.Transfers ins way v →
        ∃ st, g.statements[g.entryOf v]? = some st ∧ st.action.isReceive = false := by
  rcases build_cases hbuild with ⟨hnil, -, hsuccs⟩ | ⟨d, p, -, h⟩
  · refine ⟨fun e he => ?_, fun block ins way v hlive => ?_⟩
    · simp [edges, hsuccs] at he
    · have hmem := hlive.mem
      simp [MethodBody.blocks, hnil, MethodBody.cut, MethodBody.number] at hmem
  refine ⟨fun e he st hst hreceive => ?_, fun block ins way v hlive hlast htransfer => ?_⟩
  · obtain ⟨i, -, he⟩ := mem_edges_iff.mp he
    rcases h.handler_entered he hst hreceive with hkind | ⟨entry, hentry, hway⟩
    · exact hkind
    · rcases hway with ⟨s, hs, hreached, -, ins, way, hlast, htransfer⟩ | ⟨s, hs, -, hstop⟩
      · have hlive := (h.complete.reached_iff hs).mp hreached
        exact absurd htransfer (hapart.transfers _ ins way hlive hlast entry hentry)
      · exact absurd hstop
          (hapart.scopes _ (Progression.Complete.scope_mem p hs) entry hentry)
  · obtain ⟨s, hs, rfl⟩ := h.complete.exists_span hlive.mem
    obtain ⟨t, ⟨s', hs', rfl, rfl⟩, -⟩ :=
      h.follows hs ((h.complete.reached_iff hs).mpr hlive) hlast htransfer
    rw [h.entryOf_offset hs']
    have hbounds := h.complete.laid.bounds hs'
    rw [Array.length_toList] at hbounds
    have hsize := h.size_le
    have hst := Array.getElem?_eq_getElem (show s'.first < g.statements.size by omega)
    refine ⟨_, hst, Bool.eq_false_iff.mpr fun hreceive => ?_⟩
    obtain ⟨-, entry, hentry, hoffset⟩ :=
      (h.isReceive_iff hs' (Nat.le_refl _) hbounds.2.1 hst).mp hreceive
    exact hapart.transfers _ ins way hlive hlast entry hentry (hoffset ▸ htransfer)

/-- If the resource scopes have different ranges, the handlers have to be apart for exceptions to be
the only entries.

**Proof sketch.** A transfer to a handler has an edge to its first statement, or to a scope that
ends there, and of the scopes that end there one has a jump to it. -/
theorem handlersApart_of_entered (hbuild : FlowGraph.build types b = .ok g) (hcode : b.code ≠ [])
    (hranges : b.resources.Pairwise fun r r' => ¬ (r.start = r'.start ∧ r.stop = r'.stop))
    (hentered : ∀ e ∈ g.edges, ∀ st, g.statements[e.target]? = some st →
      st.action.isReceive = true → e.kind = .exception) : b.HandlersApart := by
  rcases build_cases hbuild with ⟨hnil, -⟩ | ⟨d, p, -, h⟩
  · exact absurd hnil hcode
  have hno : ∀ (i : Nat) (e : Edge) (entry : HandlerEntry), entry ∈ b.handlers →
      e ∈ g.successors i → Progression.Complete.Starts p e.target entry.handler →
      e.kind = .exception := by
    intro i e entry hentry he hstarts
    obtain ⟨st, hst, hreceive⟩ := h.isReceive_of_starts hentry hstarts
    exact hentered e ((mem_successors_iff hbuild).mp he).1 st hst hreceive
  have hscopes : ∀ r ∈ b.resources, ∀ e ∈ b.handlers, r.stop ≠ e.handler := by
    intro r hr entry hentry hstop
    have hstarts : Progression.Complete.Starts p (firstAt p.spans entry.handler) entry.handler := by
      refine h.complete.starts_firstAt (h.complete.valid.handlers entry hentry) ?_
      unfold MethodBody.referredOffsets
      exact List.mem_append_left _ (List.mem_append_right _ (List.mem_map_of_mem hentry))
    obtain ⟨i, e, hfilter, htarget⟩ := h.exists_goesOnlyTo hstarts hranges hr hstop
    have he := List.mem_filter.mp (hfilter ▸ List.mem_singleton_self e)
    have hkind := hno i e entry hentry he.1 (htarget ▸ hstarts)
    simp [hkind] at he
  refine ⟨fun block ins way hlive hlast entry hentry htransfer => ?_, hscopes⟩
  obtain ⟨s, hs, rfl⟩ := h.complete.exists_span hlive.mem
  obtain ⟨t, ht, hfollows⟩ :=
    h.follows hs ((h.complete.reached_iff hs).mpr hlive) hlast htransfer
  obtain ⟨e, he, htarget, hkind⟩ : ∃ e ∈ g.successors s.last,
      e.target = p.leadsTo (b.paramSlots d) b.resources s.last t ∧ e.kind ≠ .exception := by
    cases way with
    | some k =>
      obtain ⟨-, e, he, htarget, hkind⟩ := hfollows
      exact ⟨e, he, htarget, by rcases hkind with hkind | hkind <;> simp [hkind]⟩
    | none =>
      obtain ⟨e, hfilter, htarget⟩ := hfollows
      have he := List.mem_filter.mp (hfilter ▸ List.mem_singleton_self e)
      refine ⟨e, he.1, htarget, fun hkind => ?_⟩
      simp [hkind] at he
  rcases Progression.leadsTo_cases (b.paramSlots d) b.resources p s.last t with
    heq | ⟨s', hs', hstop, -⟩
  · exact hkind (hno _ e entry hentry he (by rw [htarget, heq]; exact ht))
  · exact hscopes _ (Progression.Complete.scope_mem p hs') entry hentry
      ((h.complete.firstAt_stop_eq_iff ht hs').mp hstop)

end FlowGraph

/-! ## Two methods with a handler -/

/-- A static method with one handler, which catches failures of the instructions in front of it. -/
def failureMethod (name : String) (code : List Instruction) (handler : Int) : MethodBody where
  ref := ⟨"Desk", name, "(LFailure;)V"⟩
  modifiers := AccessFlags.empty.insert .static
  maxLocals := 2
  code
  handlers := [{ start := 0, stop := handler, handler, catchType := "Failure" }]
  resources := []

/-- A call of `Desk.open`. -/
def openCall (pc : Int) : Instruction :=
  { pc, op := ⟨184⟩, owner := "Desk", name := "open", desc := "()V" }

/-- A call and a jump over its handler, which stores the failure. -/
def jumpOverHandler : MethodBody := failureMethod "skip"
  [openCall 0, { pc := 3, op := ⟨167⟩, target := 8 }, { pc := 6, op := ⟨58⟩, slot := 1 },
    { pc := 8, op := ⟨177⟩ }] 6

/-- A call and a jump to its handler, which stores the failure. The jump brings the parameter on the
stack. -/
def jumpToHandler : MethodBody := failureMethod "store"
  [{ pc := 0, op := ⟨25⟩, slot := 0 }, openCall 2, { pc := 5, op := ⟨167⟩, target := 8 },
    { pc := 8, op := ⟨58⟩, slot := 1 }, { pc := 10, op := ⟨177⟩ }] 8

/-- The jump of the first method leads behind its handler, and the handler stands behind a jump. -/
lemma handlersApart_jumpOverHandler : jumpOverHandler.HandlersApart where
  transfers := by
    intro block ins way hlive hlast e he htransfer
    obtain rfl := List.mem_singleton.mp he
    have hmem : ins ∈ jumpOverHandler.code := by
      rw [← jumpOverHandler.flatMap_blocks]
      exact List.mem_flatMap.mpr ⟨block, hlive.mem, List.mem_of_getLast? hlast⟩
    generalize hv : (6 : Int) = v at htransfer
    cases htransfer with
    | jump ht =>
      have htargets : ∀ ins ∈ jumpOverHandler.code, 6 ∉ ins.branchTargets := by decide
      exact htargets ins hmem (hv ▸ List.mem_of_getElem? ht)
    | @next k after hins hafter hgoes =>
      have hends : ∀ k < 3, (jumpOverHandler.code[k + 1]?).map (·.pc) = some 6 →
          (jumpOverHandler.code[k]?).map (·.op.endsBlock) = some true := by decide
      have hk : k + 1 < 4 := (List.getElem?_eq_some_iff.mp hafter).1
      have hends := hends k (by omega) (by rw [hafter, hv]; rfl)
      rw [hins, Option.map_some, hgoes] at hends
      cases hends
  scopes := by simp [jumpOverHandler, failureMethod]

lemma build_jumpOverHandler : (FlowGraph.build none jumpOverHandler).map (fun g =>
    (g.statements[2]?.map fun st : Statement => st.action.isReceive, g.successors 0)) =
    .ok (some true, [⟨0, 1, .normal, "", false⟩, ⟨0, 2, .exception, "Failure", false⟩,
      ⟨0, 5, .exception, "", false⟩]) := by decide +kernel

/-- The handler of the first method is entered by exceptions only. -/
theorem jumpOverHandler_entered_by_exceptions : ∃ g,
    FlowGraph.build none jumpOverHandler = .ok g ∧
    (∃ e ∈ g.successors 0, ∃ st, g.statements[e.target]? = some st ∧
      st.action.isReceive = true) ∧
    ∀ e ∈ g.edges, ∀ st, g.statements[e.target]? = some st → st.action.isReceive = true →
      e.kind = .exception := by
  obtain ⟨g, hg, hfacts⟩ := exists_of_map_eq_ok build_jumpOverHandler
  obtain ⟨hreceives, hsuccessors⟩ := Prod.mk.inj hfacts
  obtain ⟨st, hst, hreceive⟩ := Option.map_eq_some_iff.mp hreceives
  exact ⟨g, hg, ⟨_, by rw [hsuccessors]; exact List.mem_cons_of_mem _ List.mem_cons_self, st, hst,
    hreceive⟩, (FlowGraph.handlers_entered_by_exceptions hg handlersApart_jumpOverHandler).1⟩

lemma build_jumpToHandler : (FlowGraph.build none jumpToHandler).map (fun g =>
    (g.statements[3]?.map fun st : Statement => st.action.isReceive, g.entryOf 8, g.successors 2)) =
    .ok (some true, 3, [⟨2, 3, .normal, "", false⟩]) := by decide +kernel

/-- The jump of the second method leads to the statement that receives the failure, which overwrites
the parameter on the stack. -/
theorem jumpToHandler_entered : ∃ g, FlowGraph.build none jumpToHandler = .ok g ∧
    ∃ e ∈ g.edges, e.kind = .normal ∧ e.target = g.entryOf 8 ∧
      ∃ st, g.statements[e.target]? = some st ∧ st.action.isReceive = true := by
  obtain ⟨g, hg, hfacts⟩ := exists_of_map_eq_ok build_jumpToHandler
  simp only [Prod.mk.injEq] at hfacts
  obtain ⟨hreceives, hentry, hsuccessors⟩ := hfacts
  obtain ⟨st, hst, hreceive⟩ := Option.map_eq_some_iff.mp hreceives
  have he : (⟨2, 3, .normal, "", false⟩ : Edge) ∈ g.successors 2 := by
    rw [hsuccessors]
    exact List.mem_singleton_self _
  exact ⟨g, hg, _, ((FlowGraph.mem_successors_iff hg).mp he).1, rfl, hentry.symm, st, hst, hreceive⟩

end JvmTaint
