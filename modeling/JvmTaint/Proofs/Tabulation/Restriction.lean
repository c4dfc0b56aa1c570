import JvmTaint.Proofs.Tabulation.Invariant

set_option autoImplicit false
set_option relaxedAutoImplicit false

/-!
# Problems restricted to some facts

The facts of a problem are of two kinds, those that are kept and the others. If kept facts follow
from kept facts only, then the problem can be restricted to them. Its tabulation interleaves the
tabulation of the restriction with path edges of other facts: processing one of those adds no path
edge that is kept, and processing one that is kept adds the path edges that the restriction adds, in
the same order.

## Main definitions

* `JvmTaint.FlowProblem.Restricts`: a problem is the restriction of another one.
* `JvmTaint.Tabulation.Restricts`: the state of a restricted tabulation.

## Main results

* `JvmTaint.Tabulation.Restricts.step`: a step of the tabulation is one of the restricted one, or
  none.
* `JvmTaint.FlowProblem.Restricts.solve`: the path edges of the restriction are those that are kept.
-/

namespace JvmTaint

variable {δ : Type}

/-- `Q` is the problem `P` restricted to the facts that are kept, which follow from kept facts
only. -/
structure FlowProblem.Restricts (keep : δ → Bool) (P Q : FlowProblem δ) : Prop where
  graph : P.graph = Q.graph
  callees : P.callees = Q.callees
  zero : P.zero = Q.zero
  keep_zero : keep P.zero = true
  initial : ∀ g, (P.initial g).filter keep = Q.initial g
  normal : ∀ g i e d, (P.normal g i e d).filter keep = if keep d then Q.normal g i e d else []
  callToReturn : ∀ g i e callees d, (P.callToReturn g i e callees d).filter keep =
    if keep d then Q.callToReturn g i e callees d else []
  enter : ∀ g i callee d, (P.enter g i callee d).filter keep =
    if keep d then Q.enter g i callee d else []
  leave : ∀ g i e callee exit d, (P.leave g i e callee exit d).filter keep =
    if keep d then Q.leave g i e callee exit d else []

/-! ## What follows from a path edge -/

namespace FlowProblem.Restricts

variable {keep : δ → Bool} {P Q : FlowProblem δ}

/-- Facts along an edge are kept or not as they are alone. -/
lemma filter_along (facts : List δ) (e : PathEdge δ) (target : Nat) (l : Link δ) :
    (facts.map fun d => ((⟨e.method, e.startFact, target, d⟩ : PathEdge δ), l)).filter
        (keep ·.1.fact) =
      (facts.filter keep).map fun d => (⟨e.method, e.startFact, target, d⟩, l) := by
  rw [List.filter_map]
  rfl

/-- The path edges that follow in a method are those of the restriction, if the fact is kept. -/
lemma localItems (h : P.Restricts keep Q) (g : FlowGraph) (targets : Option (List MethodRef))
    (e : PathEdge δ) : (P.localItems g targets e).filter (keep ·.1.fact) =
      if keep e.fact then Q.localItems g targets e else [] := by
  unfold FlowProblem.localItems
  rw [List.filter_flatMap]
  cases hkept : keep e.fact with
  | true =>
    refine congrArg (List.flatMap · _) (funext fun edge => ?_)
    dsimp only
    cases targets with
    | none => rw [filter_along, h.normal, if_pos hkept]
    | some callees =>
      dsimp only
      split
      · rw [filter_along, h.normal, if_pos hkept]
      · rw [filter_along, h.callToReturn, if_pos hkept]
  | false =>
    refine List.flatMap_eq_nil_iff.mpr fun edge _ => ?_
    dsimp only
    cases targets with
    | none => rw [filter_along, h.normal, hkept]; rfl
    | some callees =>
      dsimp only
      split
      · rw [filter_along, h.normal, hkept]; rfl
      · rw [filter_along, h.callToReturn, hkept]; rfl

/-- The path edges that a call and an exit give are those of the restriction, if the fact at the
exit is kept. -/
lemma returnItems (h : P.Restricts keep Q) (c x : PathEdge δ) :
    (P.returnItems c x).filter (keep ·.1.fact) =
      if keep x.fact then Q.returnItems c x else [] := by
  unfold FlowProblem.returnItems
  dsimp only
  rw [List.filter_flatMap, h.graph]
  cases hkept : keep x.fact with
  | true =>
    refine congrArg (List.flatMap · _) (funext fun edge => ?_)
    rw [filter_along, h.leave, if_pos hkept]
  | false =>
    refine List.flatMap_eq_nil_iff.mpr fun edge _ => ?_
    rw [filter_along, h.leave, hkept]
    rfl

end FlowProblem.Restricts

/-- The path edges that follow in a method hold in the same context. -/
lemma FlowProblem.startFact_of_mem_localItems {P : FlowProblem δ} {g : FlowGraph}
    {targets : Option (List MethodRef)} {e : PathEdge δ} :
    ∀ i ∈ P.localItems g targets e, i.1.startFact = e.startFact := by
  intro i hi
  unfold FlowProblem.localItems at hi
  obtain ⟨edge, -, hi⟩ := List.mem_flatMap.mp hi
  dsimp only at hi
  cases targets with
  | none =>
    obtain ⟨d, -, rfl⟩ := List.mem_map.mp hi
    rfl
  | some callees =>
    dsimp only at hi
    split at hi
    all_goals
      obtain ⟨d, -, rfl⟩ := List.mem_map.mp hi
      rfl

/-- The path edges that a call and an exit give hold in the context of the call. -/
lemma FlowProblem.startFact_of_mem_returnItems {P : FlowProblem δ} {c x : PathEdge δ} :
    ∀ i ∈ P.returnItems c x, i.1.startFact = c.startFact := by
  intro i hi
  unfold FlowProblem.returnItems at hi
  obtain ⟨edge, -, hi⟩ := List.mem_flatMap.mp hi
  obtain ⟨d, -, rfl⟩ := List.mem_map.mp hi
  rfl

/-- What is left out of the images of elements. -/
lemma flatMap_ite_nil {α β : Type} (p : α → Bool) (f : α → List β) (xs : List α) :
    (xs.flatMap fun x => if p x then f x else []) = (xs.filter p).flatMap f := by
  induction xs with
  | nil => rfl
  | cons x xs ih =>
    rw [List.flatMap_cons, ih, List.filter_cons]
    split
    · rw [List.flatMap_cons]
    · rfl

/-! ## Restricted tabulations -/

variable [DecidableEq δ] [Hashable δ]

namespace Tabulation

/-- The path edges of `t` are those of `s` whose facts are kept, and what `t` knows about methods is
what `s` knows about them for kept facts. -/
structure Restricts (keep : δ → Bool) (s t : Tabulation δ) : Prop where
  edges : t.edges.toList = s.edges.toList.filter (keep ·.fact)
  processed_le : s.processed ≤ s.edges.size
  processed : t.processed = ((s.edges.toList.take s.processed).filter (keep ·.fact)).length
  reached : ∀ e, keep e.fact = true → t.reached e = s.reached e
  /-- Kept facts hold in methods that were entered with kept facts. -/
  start : ∀ e ∈ s.edges.toList, keep e.fact = true → keep e.startFact = true
  callers : ∀ key : EntryFact δ, keep key.fact = true → t.callers key = s.callers key
  callers_start : ∀ key : EntryFact δ, keep key.fact = true →
    ∀ c ∈ (s.callers key).toList, keep c.startFact = true
  summaries : ∀ key : EntryFact δ, keep key.fact = true →
    (t.summariesOf key).toList = (s.summariesOf key).toList.filter (keep ·.fact)
  summaries_dropped : ∀ key : EntryFact δ, keep key.fact = false →
    ∀ x ∈ (s.summariesOf key).toList, keep x.fact = false

variable {keep : δ → Bool} {P Q : FlowProblem δ} (retain : Bool) {s t : Tabulation δ}

namespace Restricts

/-- Nothing is found before the start. -/
lemma empty (keep : δ → Bool) : ({} : Tabulation δ).Restricts keep {} := by
  constructor <;> simp [Tabulation.callers, summariesOf, Tabulation.reached]

/-! ### Adding path edges -/

/-- A path edge with a kept fact is added to both. -/
lemma propagate_kept (h : s.Restricts keep t) {e : PathEdge δ} (l : Link δ)
    (he : keep e.fact = true) (hstart : keep e.startFact = true) :
    (s.propagate retain e l).Restricts keep (t.propagate retain e l) := by
  unfold Tabulation.propagate
  rw [h.reached e he]
  split
  · exact h
  · refine ⟨?_, ?_, ?_, fun e' he' => ?_, fun e' he' hkept => ?_, h.callers, h.callers_start,
      h.summaries, h.summaries_dropped⟩
    · simp [h.edges, he]
    · simpa using h.processed_le.trans (Nat.le_succ _)
    · dsimp only
      rw [Array.toList_push, List.take_append_of_le_length (by simpa using h.processed_le)]
      exact h.processed
    · have hreached := h.reached e' he'
      unfold Tabulation.reached at hreached ⊢
      rw [Std.HashMap.contains_insert, Std.HashMap.contains_insert, hreached]
    · rw [Array.toList_push, List.mem_append, List.mem_singleton] at he'
      rcases he' with he' | rfl
      · exact h.start e' he' hkept
      · exact hstart

/-- A path edge with another fact is added to the unrestricted tabulation only. -/
lemma propagate_dropped (h : s.Restricts keep t) {e : PathEdge δ} (l : Link δ)
    (he : keep e.fact = false) : (s.propagate retain e l).Restricts keep t := by
  unfold Tabulation.propagate
  split
  · exact h
  · refine ⟨?_, ?_, ?_, fun e' he' => ?_, fun e' he' hkept => ?_, h.callers, h.callers_start,
      h.summaries, h.summaries_dropped⟩
    · simp [h.edges, he]
    · simpa using h.processed_le.trans (Nat.le_succ _)
    · dsimp only
      rw [Array.toList_push, List.take_append_of_le_length (by simpa using h.processed_le)]
      exact h.processed
    · have hne : e ≠ e' := by
        rintro rfl
        rw [he] at he'
        cases he'
      have hreached := h.reached e' he'
      unfold Tabulation.reached at hreached ⊢
      rw [Std.HashMap.contains_insert, beq_eq_false_iff_ne.mpr hne, hreached, Bool.false_or]
    · rw [Array.toList_push, List.mem_append, List.mem_singleton] at he'
      rcases he' with he' | rfl
      · exact h.start e' he' hkept
      · rw [he] at hkept
        cases hkept

/-- The path edges with kept facts are added to both, in the same order. -/
lemma propagateAll (items : List (PathEdge δ × Link δ)) (h : s.Restricts keep t)
    (hstart : ∀ i ∈ items, keep i.1.fact = true → keep i.1.startFact = true) :
    (s.propagateAll retain items).Restricts keep
      (t.propagateAll retain (items.filter (keep ·.1.fact))) := by
  induction items generalizing s t with
  | nil => exact h
  | cons i items ih =>
    obtain ⟨hi, hitems⟩ := List.forall_mem_cons.mp hstart
    unfold Tabulation.propagateAll at ih ⊢
    cases hkept : keep i.1.fact with
    | true =>
      simp only [List.filter_cons, hkept, ↓reduceIte, List.foldl_cons]
      exact ih (h.propagate_kept retain i.2 hkept (hi hkept)) hitems
    | false =>
      simp only [List.filter_cons, hkept, Bool.false_eq_true, ↓reduceIte, List.foldl_cons]
      exact ih (h.propagate_dropped retain i.2 hkept) hitems

/-! ### Calls and exits -/

/-- The path edges of an entry fact after one was added. -/
lemma getD_addTo (table : Std.HashMap (EntryFact δ) (Array (PathEdge δ))) (key key' : EntryFact δ)
    (e : PathEdge δ) : (addTo table key e).getD key' #[] =
      if key = key' ∧ (table.getD key #[]).contains e = false then (table.getD key #[]).push e
      else table.getD key' #[] := by
  unfold addTo
  dsimp only
  split
  · rename_i hknown
    rw [if_neg]
    rintro ⟨-, hnew⟩
    rw [hknown] at hnew
    cases hnew
  · rename_i hnew
    rw [Std.HashMap.getD_insert]
    simp_all

/-- A caller with a kept fact is added to both. -/
lemma addCaller_kept (h : s.Restricts keep t) {e : PathEdge δ} (hstart : keep e.startFact = true)
    (key : EntryFact δ) (hkey : keep key.fact = true) :
    ({ s with incoming := addTo s.incoming key e } : Tabulation δ).Restricts keep
      { t with incoming := addTo t.incoming key e } := by
  have hcallers : ∀ key' : EntryFact δ, keep key'.fact = true →
      t.incoming.getD key' #[] = s.incoming.getD key' #[] := h.callers
  refine { h with callers := fun key' hkey' => ?_, callers_start := fun key' hkey' c hc => ?_ }
  · unfold Tabulation.callers
    dsimp only
    rw [getD_addTo, getD_addTo, hcallers key hkey, hcallers key' hkey']
  · rw [Array.mem_toList_iff] at hc
    rcases mem_addTo.mp hc with hc | ⟨-, rfl⟩
    · exact h.callers_start key' hkey' c (Array.mem_toList_iff.mpr hc)
    · exact hstart

/-- A caller with another fact is added to the unrestricted tabulation only. -/
lemma addCaller_dropped (h : s.Restricts keep t) (e : PathEdge δ) (key : EntryFact δ)
    (hkey : keep key.fact = false) :
    ({ s with incoming := addTo s.incoming key e } : Tabulation δ).Restricts keep t := by
  have hother : ∀ key' : EntryFact δ, keep key'.fact = true →
      (addTo s.incoming key e).getD key' #[] = s.incoming.getD key' #[] := by
    intro key' hkey'
    rw [getD_addTo, if_neg]
    rintro ⟨rfl, -⟩
    rw [hkey] at hkey'
    cases hkey'
  refine { h with callers := fun key' hkey' => ?_, callers_start := fun key' hkey' c hc => ?_ }
  · exact (h.callers key' hkey').trans (hother key' hkey').symm
  · refine h.callers_start key' hkey' c ?_
    rw [Tabulation.callers, hother key' hkey'] at hc
    exact hc

/-- A call enters a method with a kept fact in both, and both use the summaries that are there. -/
lemma enterWith_kept (hP : P.Restricts keep Q) (h : s.Restricts keep t) {e : PathEdge δ}
    (hstart : keep e.startFact = true) (callee : MethodRef) {d : δ} (hd : keep d = true) :
    (P.enterWith retain e callee s d).Restricts keep (Q.enterWith retain e callee t d) := by
  have hentered := (h.addCaller_kept hstart ⟨callee, d⟩ hd).propagate_kept retain
    (e := ⟨callee, d, (P.graph callee).entry, d⟩) (.call e) hd hd
  unfold FlowProblem.enterWith
  dsimp only
  rw [← hP.graph]
  generalize Tabulation.propagate retain { s with incoming := _ } _ _ = s₁ at hentered ⊢
  generalize Tabulation.propagate retain { t with incoming := _ } _ _ = t₁ at hentered ⊢
  have hitems : ((s₁.summaries.getD ⟨callee, d⟩ #[]).toList.flatMap (P.returnItems e)).filter
      (keep ·.1.fact) = (t₁.summaries.getD ⟨callee, d⟩ #[]).toList.flatMap (Q.returnItems e) := by
    have hsummaries := hentered.summaries ⟨callee, d⟩ hd
    unfold summariesOf at hsummaries
    rw [List.filter_flatMap, hsummaries, ← flatMap_ite_nil]
    exact congrArg (List.flatMap · _) (funext fun x => hP.returnItems e x)
  rw [← hitems]
  refine hentered.propagateAll retain _ fun i hi _ => ?_
  obtain ⟨x, -, hi⟩ := List.mem_flatMap.mp hi
  rw [FlowProblem.startFact_of_mem_returnItems i hi]
  exact hstart

/-- Adding path edges whose facts are not kept. -/
lemma propagateAll_dropped (h : s.Restricts keep t) {items : List (PathEdge δ × Link δ)}
    (hitems : items.filter (keep ·.1.fact) = []) :
    (s.propagateAll retain items).Restricts keep t := by
  have hadded := h.propagateAll retain items fun i hi hkept => by
    rw [List.filter_eq_nil_iff] at hitems
    exact absurd hkept (hitems i hi)
  rwa [hitems] at hadded

/-- A call enters a method with another fact in the unrestricted tabulation only. -/
lemma enterWith_dropped (hP : P.Restricts keep Q) (h : s.Restricts keep t) (e : PathEdge δ)
    (callee : MethodRef) {d : δ} (hd : keep d = false) :
    (P.enterWith retain e callee s d).Restricts keep t := by
  have hentered := (h.addCaller_dropped e ⟨callee, d⟩ hd).propagate_dropped retain
    (e := ⟨callee, d, (P.graph callee).entry, d⟩) (.call e) hd
  unfold FlowProblem.enterWith
  dsimp only
  generalize Tabulation.propagate retain { s with incoming := _ } _ _ = s₁ at hentered ⊢
  refine hentered.propagateAll_dropped retain ?_
  rw [List.filter_flatMap]
  refine List.flatMap_eq_nil_iff.mpr fun x hx => ?_
  rw [hP.returnItems, hentered.summaries_dropped ⟨callee, d⟩ hd x hx]
  rfl

/-- A call enters a method with several facts. -/
lemma enterWithAll (hP : P.Restricts keep Q) {e : PathEdge δ} (facts : List δ)
    (hstart : ∀ d ∈ facts, keep d = true → keep e.startFact = true) (h : s.Restricts keep t)
    (callee : MethodRef) : (facts.foldl (P.enterWith retain e callee) s).Restricts keep
      ((facts.filter keep).foldl (Q.enterWith retain e callee) t) := by
  induction facts generalizing s t with
  | nil => exact h
  | cons d facts ih =>
    obtain ⟨hd, hfacts⟩ := List.forall_mem_cons.mp hstart
    cases hkept : keep d with
    | true =>
      simp only [List.filter_cons, hkept, ↓reduceIte, List.foldl_cons]
      exact ih hfacts (h.enterWith_kept retain hP (hd hkept) callee hkept)
    | false =>
      simp only [List.filter_cons, hkept, Bool.false_eq_true, ↓reduceIte, List.foldl_cons]
      exact ih hfacts (h.enterWith_dropped retain hP e callee hkept)

/-- A call with a kept fact before it is processed in both. -/
lemma processCall_kept (hP : P.Restricts keep Q) (h : s.Restricts keep t) (g : FlowGraph)
    {e : PathEdge δ} (he : keep e.fact = true) (hstart : keep e.startFact = true) :
    (P.processCall retain s g e).Restricts keep (Q.processCall retain t g e) := by
  have hlocal := h.propagateAll retain
    (P.localItems g (some ((P.callees g e.node).getD [])) e) fun i hi _ => by
      rw [FlowProblem.startFact_of_mem_localItems i hi]
      exact hstart
  rw [hP.localItems, if_pos he] at hlocal
  unfold FlowProblem.processCall
  dsimp only
  rw [← hP.callees, ← hP.graph]
  refine List.foldl_rel hlocal fun callee _ s t hst => ?_
  have henter := hst.enterWithAll retain hP
    (P.enter g e.node (P.graph callee) e.fact) (fun _ _ _ => hstart) callee
  rwa [hP.enter, if_pos he] at henter

/-- A call with another fact before it is processed in the unrestricted tabulation only. -/
lemma processCall_dropped (hP : P.Restricts keep Q) (h : s.Restricts keep t) (g : FlowGraph)
    {e : PathEdge δ} (he : keep e.fact = false) :
    (P.processCall retain s g e).Restricts keep t := by
  have hnone : (P.localItems g (some ((P.callees g e.node).getD [])) e).filter (keep ·.1.fact) =
      [] := by
    simp [hP.localItems, he]
  have hlocal := h.propagateAll_dropped retain hnone
  unfold FlowProblem.processCall
  dsimp only
  generalize (P.callees g e.node).getD [] = callees at hlocal ⊢
  generalize Tabulation.propagateAll retain s _ = s at hlocal
  -- only the unrestricted tabulation changes
  induction callees generalizing s with
  | nil => exact hlocal
  | cons callee callees ih =>
    rw [List.foldl_cons]
    refine ih _ ?_
    have hnone : (P.enter g e.node (P.graph callee) e.fact).filter keep = [] := by
      simp [hP.enter, he]
    have henter := hlocal.enterWithAll retain hP
      (P.enter g e.node (P.graph callee) e.fact) (e := e) (fun d hd hkept => by
        rw [List.filter_eq_nil_iff] at hnone
        exact absurd hkept (hnone d hd)) callee
    rwa [hnone] at henter

/-- A path edge with a kept fact is a summary of both or of none. -/
lemma contains_summaries (h : s.Restricts keep t) {e : PathEdge δ} (he : keep e.fact = true)
    (hstart : keep e.startFact = true) :
    (t.summaries.getD ⟨e.method, e.startFact⟩ #[]).contains e =
      (s.summaries.getD ⟨e.method, e.startFact⟩ #[]).contains e := by
  have hsummaries := h.summaries ⟨e.method, e.startFact⟩ hstart
  unfold summariesOf at hsummaries
  rw [Bool.eq_iff_iff, Array.contains_iff_mem, Array.contains_iff_mem, ← Array.mem_toList_iff,
    hsummaries, List.mem_filter, Array.mem_toList_iff, and_iff_left he]

/-- A summary with a kept fact is added to both. -/
lemma addSummary_kept (h : s.Restricts keep t) {e : PathEdge δ} (he : keep e.fact = true)
    (hstart : keep e.startFact = true) :
    ({ s with
        summaries := addTo s.summaries ⟨e.method, e.startFact⟩ e
        summaryCount := s.summaryCount + 1 } : Tabulation δ).Restricts keep
      { t with
        summaries := addTo t.summaries ⟨e.method, e.startFact⟩ e
        summaryCount := t.summaryCount + 1 } := by
  have hsummaries : ∀ key : EntryFact δ, keep key.fact = true →
      (t.summaries.getD key #[]).toList =
        (s.summaries.getD key #[]).toList.filter (keep ·.fact) := h.summaries
  have hknown := h.contains_summaries he hstart
  refine { h with summaries := fun key hkey => ?_, summaries_dropped := fun key hkey x hx => ?_ }
  · unfold summariesOf
    dsimp only
    rw [getD_addTo, getD_addTo, hknown]
    split
    · rw [Array.toList_push, Array.toList_push, List.filter_append, ← hsummaries _ hstart]
      simp [he]
    · exact hsummaries key hkey
  · rw [Array.mem_toList_iff] at hx
    rcases mem_addTo.mp hx with hx | ⟨rfl, rfl⟩
    · exact h.summaries_dropped key hkey x (Array.mem_toList_iff.mpr hx)
    · rw [hstart] at hkey
      cases hkey

/-- A summary with another fact is added to the unrestricted tabulation only. -/
lemma addSummary_dropped (h : s.Restricts keep t) {e : PathEdge δ} (he : keep e.fact = false)
    (count : Nat) :
    ({ s with
        summaries := addTo s.summaries ⟨e.method, e.startFact⟩ e
        summaryCount := count } : Tabulation δ).Restricts keep t := by
  refine { h with summaries := fun key hkey => ?_, summaries_dropped := fun key hkey x hx => ?_ }
  · refine (h.summaries key hkey).trans ?_
    unfold summariesOf
    dsimp only
    rw [getD_addTo]
    split
    · rename_i hnew
      rw [hnew.1, Array.toList_push, List.filter_append]
      simp [he]
    · rfl
  · rw [Array.mem_toList_iff] at hx
    rcases mem_addTo.mp hx with hx | ⟨-, rfl⟩
    · exact h.summaries_dropped key hkey x (Array.mem_toList_iff.mpr hx)
    · exact he

/-- An exit with a kept fact before it is processed in both. -/
lemma processExit_kept (hP : P.Restricts keep Q) (h : s.Restricts keep t) {e : PathEdge δ}
    (he : keep e.fact = true) (hstart : keep e.startFact = true) :
    (P.processExit retain s e).Restricts keep (Q.processExit retain t e) := by
  have hcallers : t.incoming.getD ⟨e.method, e.startFact⟩ #[] =
      s.incoming.getD ⟨e.method, e.startFact⟩ #[] := h.callers ⟨e.method, e.startFact⟩ hstart
  unfold FlowProblem.processExit
  dsimp only
  rw [h.contains_summaries he hstart]
  split
  · exact h
  · have hadded := (h.addSummary_kept he hstart).propagateAll retain
      ((s.incoming.getD ⟨e.method, e.startFact⟩ #[]).toList.flatMap
        fun c => P.returnItems c e) fun i hi _ => by
        obtain ⟨c, hc, hi⟩ := List.mem_flatMap.mp hi
        rw [FlowProblem.startFact_of_mem_returnItems i hi]
        exact h.callers_start ⟨e.method, e.startFact⟩ hstart c hc
    simp only [List.filter_flatMap, hP.returnItems, he, ↓reduceIte] at hadded
    rw [hcallers]
    exact hadded

/-- An exit with another fact before it is processed in the unrestricted tabulation only. -/
lemma processExit_dropped (hP : P.Restricts keep Q) (h : s.Restricts keep t) {e : PathEdge δ}
    (he : keep e.fact = false) : (P.processExit retain s e).Restricts keep t := by
  unfold FlowProblem.processExit
  dsimp only
  split
  · exact h
  · refine (h.addSummary_dropped he _).propagateAll_dropped retain ?_
    rw [List.filter_flatMap]
    refine List.flatMap_eq_nil_iff.mpr fun c _ => ?_
    simp [hP.returnItems, he]

/-! ### Steps and runs -/

/-- A path edge with a kept fact is processed in both. -/
lemma process_kept (hP : P.Restricts keep Q) (h : s.Restricts keep t) {e : PathEdge δ}
    (he : keep e.fact = true) (hstart : keep e.startFact = true) :
    (P.process retain s e).Restricts keep (Q.process retain t e) := by
  unfold FlowProblem.process
  dsimp only
  rw [← hP.graph]
  split
  · exact h.processCall_kept retain hP _ he hstart
  · split
    · exact h.processExit_kept retain hP he hstart
    · have hlocal := h.propagateAll retain
        (P.localItems (P.graph e.method) none e) fun i hi _ => by
          rw [FlowProblem.startFact_of_mem_localItems i hi]
          exact hstart
      rwa [hP.localItems, if_pos he] at hlocal

/-- A path edge with another fact is processed in the unrestricted tabulation only. -/
lemma process_dropped (hP : P.Restricts keep Q) (h : s.Restricts keep t) {e : PathEdge δ}
    (he : keep e.fact = false) : (P.process retain s e).Restricts keep t := by
  unfold FlowProblem.process
  dsimp only
  split
  · exact h.processCall_dropped retain hP _ he
  · split
    · exact h.processExit_dropped retain hP he
    · exact h.propagateAll_dropped retain (by simp [hP.localItems, he])

/-- The path edges that were processed before and after one more. -/
lemma take_succ {e : PathEdge δ} (hnext : s.next? = some e) :
    s.edges.toList.take (s.processed + 1) = s.edges.toList.take s.processed ++ [e] := by
  unfold next? at hnext
  rw [List.take_add_one, Array.getElem?_toList, hnext]
  rfl

lemma processed_lt {e : PathEdge δ} (hnext : s.next? = some e) : s.processed < s.edges.size := by
  obtain ⟨hlt, -⟩ := Array.getElem?_eq_some_iff.mp hnext
  exact hlt

/-- The restricted tabulation has the same path edge next, if it is kept. -/
lemma next?_kept (h : s.Restricts keep t) {e : PathEdge δ} (hnext : s.next? = some e)
    (he : keep e.fact = true) : t.next? = some e := by
  have hsplit : s.edges.toList = s.edges.toList.take s.processed ++
      e :: s.edges.toList.drop (s.processed + 1) := by
    rw [← List.singleton_append, ← List.append_assoc, ← take_succ hnext, List.take_append_drop]
  have hedges : t.edges.toList = (s.edges.toList.take s.processed).filter (keep ·.fact) ++
      e :: (s.edges.toList.drop (s.processed + 1)).filter (keep ·.fact) := by
    have hfilter := congrArg (List.filter (keep ·.fact)) hsplit
    simp only [List.filter_append, List.filter_cons, he, ↓reduceIte] at hfilter
    exact h.edges.trans hfilter
  unfold next?
  rw [← Array.getElem?_toList, hedges, h.processed]
  simp

/-- Another path edge is processed in the unrestricted tabulation. -/
lemma advance_dropped (h : s.Restricts keep t) {e : PathEdge δ} (hnext : s.next? = some e)
    (he : keep e.fact = false) :
    ({ s with processed := s.processed + 1 } : Tabulation δ).Restricts keep t := by
  refine { h with processed_le := processed_lt hnext, processed := ?_ }
  dsimp only
  rw [take_succ hnext, List.filter_append, h.processed]
  simp [he]

/-- A path edge with a kept fact is processed in both. -/
lemma advance_kept (h : s.Restricts keep t) {e : PathEdge δ} (hnext : s.next? = some e)
    (he : keep e.fact = true) :
    ({ s with processed := s.processed + 1 } : Tabulation δ).Restricts keep
      { t with processed := t.processed + 1 } := by
  refine { h with processed_le := processed_lt hnext, processed := ?_ }
  dsimp only
  rw [take_succ hnext, List.filter_append, h.processed]
  simp [he]

lemma pending_ne_zero_of_next? {e : PathEdge δ} (hnext : s.next? = some e) : s.pending ≠ 0 := by
  have hlt := processed_lt hnext
  unfold pending
  omega

/-- **A step.** The next path edge of the unrestricted tabulation is the next one of the restricted
tabulation as well, or its fact is not kept and the restricted tabulation waits. -/
lemma step (hP : P.Restricts keep Q) (h : s.Restricts keep t) (hpending : s.pending ≠ 0) :
    (P.step retain s).Restricts keep t ∨
      t.pending ≠ 0 ∧ (P.step retain s).Restricts keep (Q.step retain t) := by
  have hlt : s.processed < s.edges.size := by
    unfold pending at hpending
    omega
  obtain ⟨e, hnext⟩ : ∃ e, s.next? = some e := ⟨s.edges[s.processed], by simp [next?, hlt]⟩
  unfold FlowProblem.step
  rw [hnext]
  dsimp only
  cases he : keep e.fact with
  | true =>
    have hnext' := h.next?_kept hnext he
    have hstart : keep e.startFact = true := by
      refine h.start e ?_ he
      exact Array.mem_toList_iff.mpr (Array.mem_of_getElem? hnext)
    refine .inr ⟨pending_ne_zero_of_next? hnext', ?_⟩
    rw [hnext']
    exact (h.advance_kept hnext he).process_kept retain hP he hstart
  | false => exact .inl ((h.advance_dropped hnext he).process_dropped retain hP he)

/-- **A run.** A run of the unrestricted tabulation contains a run of the restricted one, which is
not longer. -/
lemma run (hP : P.Restricts keep Q) (h : s.Restricts keep t) (n : Nat) :
    ∃ m ≤ n, (P.run retain n s).Restricts keep (Q.run retain m t) := by
  induction n generalizing s t with
  | zero => exact ⟨0, le_rfl, h⟩
  | succ n ih =>
    rw [FlowProblem.run]
    by_cases hpending : s.pending = 0
    · rw [if_pos hpending]
      exact ⟨0, n.succ.zero_le, h⟩
    · rw [if_neg hpending]
      rcases h.step retain hP hpending with hstep | ⟨hpending', hstep⟩
      · obtain ⟨m, hm, hrun⟩ := ih hstep
        exact ⟨m, hm.trans n.le_succ, hrun⟩
      · obtain ⟨m, hm, hrun⟩ := ih hstep
        refine ⟨m + 1, Nat.succ_le_succ hm, ?_⟩
        rwa [FlowProblem.run, if_neg hpending']

/-- If no path edge waits in the unrestricted tabulation, then none waits in the restricted one. -/
lemma pending_eq_zero (h : s.Restricts keep t) (hpending : s.pending = 0) : t.pending = 0 := by
  unfold pending at hpending ⊢
  have hlength := congrArg List.length h.edges
  rw [Array.length_toList] at hlength
  rw [hlength, h.processed, List.take_of_length_le (by rw [Array.length_toList]; omega)]
  omega

end Restricts

end Tabulation

namespace FlowProblem

variable {keep : δ → Bool} {P Q : FlowProblem δ} (retain : Bool)

/-- A run that has come to its end goes on as it is. -/
lemma run_of_pending {t : Tabulation δ} (h : t.pending = 0) (n : Nat) :
    Q.run retain n t = t := by
  cases n with
  | zero => rfl
  | succ n => rw [run, if_pos h]

/-- Longer runs end where a run has come to its end. -/
lemma run_eq_of_le {m n : Nat} (hle : m ≤ n) {t : Tabulation δ}
    (h : (Q.run retain m t).pending = 0) : Q.run retain n t = Q.run retain m t := by
  induction m generalizing n t with
  | zero => exact run_of_pending retain h n
  | succ m ih =>
    obtain ⟨n, rfl⟩ := Nat.exists_eq_add_of_lt hle
    rw [run] at h ⊢
    rw [run]
    split
    · rfl
    · rename_i hpending
      rw [if_neg hpending] at h
      exact ih (by omega) h

/-- The entry methods start with the same kept facts. -/
lemma Restricts.start (hP : P.Restricts keep Q) (entries : List MethodRef) :
    (P.start retain entries).Restricts keep (Q.start retain entries) := by
  have hseeds : (P.seeds entries).filter (keep ·.1.fact) = Q.seeds entries := by
    unfold seeds
    rw [List.filter_flatMap]
    refine congrArg (List.flatMap · entries) (funext fun m => ?_)
    dsimp only
    rw [List.filter_map, ← hP.graph, ← hP.zero, ← hP.initial]
    refine congrArg (List.map _) ?_
    exact List.filter_cons_of_pos hP.keep_zero
  have hstart := (Tabulation.Restricts.empty keep).propagateAll retain (P.seeds entries)
    fun i hi hkept => by
      obtain ⟨m, -, hi⟩ := List.mem_flatMap.mp hi
      obtain ⟨d, -, rfl⟩ := List.mem_map.mp hi
      exact hkept
  rwa [hseeds] at hstart

variable {retain}

/-- **The restricted tabulation.** If the tabulation of a problem comes to its end, then so does
that of its restriction, and it finds the path edges whose facts are kept, in the same order. -/
lemma Restricts.solve (hP : P.Restricts keep Q) {budget : Int} {cancelled : Bool}
    {entries : List MethodRef} {s : Tabulation δ}
    (h : P.solve retain budget cancelled entries = (s, .complete)) :
    ∃ t, Q.solve retain budget cancelled entries = (t, .complete) ∧ s.Restricts keep t := by
  have hstart := hP.start retain entries
  unfold FlowProblem.solve at h ⊢
  dsimp only at h ⊢
  generalize hsteps : (if budget > 0 then budget.toNat else unlimited) = steps at h ⊢
  by_cases hpending : (P.start retain entries).pending = 0
  · rw [if_pos hpending] at h
    obtain ⟨rfl, -⟩ := Prod.mk.inj h
    exact ⟨_, if_pos (hstart.pending_eq_zero hpending), hstart⟩
  · rw [if_neg hpending] at h
    cases cancelled with
    | true => simp at h
    | false =>
      simp only [Bool.false_eq_true, ↓reduceIte, Prod.mk.injEq] at h
      obtain ⟨rfl, houtcome⟩ := h
      have hdone : (P.run retain steps (P.start retain entries)).pending = 0 := by
        by_contra hne
        simp [hne] at houtcome
      obtain ⟨m, hm, hrun⟩ := hstart.run retain hP steps
      have hdone' := hrun.pending_eq_zero hdone
      by_cases hpending' : (Q.start retain entries).pending = 0
      · rw [run_of_pending retain hpending'] at hrun
        exact ⟨_, if_pos hpending', hrun⟩
      · refine ⟨Q.run retain m (Q.start retain entries), ?_, hrun⟩
        simp [hpending', run_eq_of_le retain hm hdone', hdone']

end FlowProblem

end JvmTaint
