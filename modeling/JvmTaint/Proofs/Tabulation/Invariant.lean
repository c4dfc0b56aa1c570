import JvmTaint.Proofs.Tabulation.Rules

set_option autoImplicit false
set_option relaxedAutoImplicit false

/-!
# The loop invariant of the tabulation

What holds whenever a path edge is about to be processed. Every path edge follows by a rule from
path edges that were found before it, and its link names the rule. Everything that follows from the
processed path edges is there: each of them has been followed inside its method, has entered the
targets of its call and is registered with them, or summarizes its method. A caller and a summary
that are registered for the same method and fact have been combined, whichever of them came first.

## Main definitions

* `JvmTaint.Tabulation.Extends`: a state that was reached from another one by adding.
* `JvmTaint.Tabulation.Grounded`: every path edge, caller and summary has a reason.
* `JvmTaint.Tabulation.Consistent`: moreover callers and summaries have been combined.
* `JvmTaint.Tabulation.Handled`: what processing a path edge leaves behind.
* `JvmTaint.Tabulation.Invariant`: the loop invariant.

## Main results

* `JvmTaint.Tabulation.Consistent.process`: processing one path edge.
* `JvmTaint.Tabulation.Invariant.step`, `JvmTaint.Tabulation.Invariant.run`: the invariant is kept
  by a step and by a run.
* `JvmTaint.Tabulation.Invariant.of_solve`: the invariant holds of what `FlowProblem.solve` returns.

## Design

The states between the actions of one step are compared by `Extends`. What has been established
about a path edge stays true in every extension, so each action is described by one lemma: the
state afterwards is consistent, extends the one before, and holds what the action adds.
-/

namespace JvmTaint

namespace Tabulation

variable {δ : Type} [DecidableEq δ] [Hashable δ]

/-- The path edges found so far. -/
def found (s : Tabulation δ) : Set (PathEdge δ) := {e | e ∈ s.edges}

/-- The path edges that were found before the `i`-th one. -/
def foundBefore (s : Tabulation δ) (i : Nat) : Set (PathEdge δ) := {e | e ∈ s.edges.toList.take i}

/-- A path edge that was found before the `i`-th one has an earlier position. -/
lemma exists_lt_of_mem_foundBefore {s : Tabulation δ} {i : Nat} {e : PathEdge δ}
    (h : e ∈ s.foundBefore i) : ∃ j < i, s.edges[j]? = some e := by
  obtain ⟨j, hj, hget⟩ := List.mem_take_iff_getElem.mp h
  refine ⟨j, by omega, ?_⟩
  rw [← Array.getElem?_toList, List.getElem?_eq_getElem (by omega), hget]

/-- The path edges at the calls that entered a method with a fact. -/
def callers (s : Tabulation δ) (key : EntryFact δ) : Array (PathEdge δ) := s.incoming.getD key #[]

/-- The path edges at the exits of a method that was entered with a fact. -/
def summariesOf (s : Tabulation δ) (key : EntryFact δ) : Array (PathEdge δ) :=
  s.summaries.getD key #[]

/-! ## Extensions -/

/-- The state `t` was reached from `s` by adding path edges, callers and summaries. -/
structure Extends (s t : Tabulation δ) : Prop where
  edges : s.edges.toList <+: t.edges.toList
  processed : t.processed = s.processed
  callers : ∀ key c, c ∈ s.callers key → c ∈ t.callers key
  summaries : ∀ key x, x ∈ s.summariesOf key → x ∈ t.summariesOf key

namespace Extends

variable {s t u : Tabulation δ}

/-- Every state extends itself. -/
lemma refl (s : Tabulation δ) : s.Extends s :=
  ⟨List.prefix_rfl, rfl, fun _ _ h => h, fun _ _ h => h⟩

/-- An extension of an extension is an extension. -/
lemma trans (h : s.Extends t) (h' : t.Extends u) : s.Extends u where
  edges := h.edges.trans h'.edges
  processed := h'.processed.trans h.processed
  callers key c hc := h'.callers key c (h.callers key c hc)
  summaries key x hx := h'.summaries key x (h.summaries key x hx)

/-- Path edges are never removed. -/
lemma found (h : s.Extends t) : s.found ⊆ t.found := by
  intro e he
  have he' : e ∈ s.edges.toList := Array.mem_toList_iff.mpr he
  exact Array.mem_toList_iff.mp (h.edges.subset he')

end Extends

/-! ## Grounded states -/

/-- Every path edge of the state follows from earlier ones by the rule that its link names, every
caller entered the method it is registered with, and every summary is at an exit of its method. -/
structure Grounded (P : FlowProblem δ) (retain : Bool) (entries : List MethodRef)
    (s : Tabulation δ) : Prop where
  nodup : s.edges.toList.Nodup
  reached_iff : ∀ e, s.reached e = true ↔ e ∈ s.found
  justified : ∀ i e, s.edges[i]? = some e → ∃ l, P.Follows entries (s.foundBefore i) e l ∧
    s.links[e]? = some (if retain then some l else none)
  entered : ∀ key, ∀ c ∈ s.callers key, c ∈ s.found ∧ P.Enters c.site c.fact key.method key.fact
  left : ∀ key, ∀ x ∈ s.summariesOf key,
    x ∈ s.found ∧ P.AtExit x.site ∧ x.method = key.method ∧ x.startFact = key.fact

/-- A grounded state in which every caller has been combined with every summary of the same method
and fact. -/
structure Consistent (P : FlowProblem δ) (retain : Bool) (entries : List MethodRef)
    (s : Tabulation δ) : Prop extends Grounded P retain entries s where
  returned : ∀ key, ∀ c ∈ s.callers key, ∀ x ∈ s.summariesOf key,
    ∀ item ∈ P.returnItems c x, item.1 ∈ s.found

/-- What processing a path edge leaves behind. -/
structure Handled (P : FlowProblem δ) (s : Tabulation δ) (e : PathEdge δ) : Prop where
  intra : ∀ edge ∈ P.outgoing e.site, P.FollowedNormally e.site edge →
    ∀ d ∈ P.normal (P.graph e.method) e.node edge e.fact, e.along edge d ∈ s.found
  callToReturn : P.AtCall e.site → ∀ edge ∈ P.outgoing e.site, edge.kind ≠ .exception →
    ∀ d ∈ P.callToReturn (P.graph e.method) e.node edge (P.targets e.site) e.fact,
      e.along edge d ∈ s.found
  entered : ∀ m d, P.Enters e.site e.fact m d → P.entryEdge m d ∈ s.found ∧ e ∈ s.callers ⟨m, d⟩
  summarized : P.AtExit e.site → e ∈ s.summariesOf ⟨e.method, e.startFact⟩

/-- What processing a path edge left behind stays. -/
lemma Handled.mono {P : FlowProblem δ} {s t : Tabulation δ} {e : PathEdge δ} (h : s.Extends t)
    (he : Handled P s e) : Handled P t e where
  intra edge hedge hkind d hd := h.found (he.intra edge hedge hkind d hd)
  callToReturn hcall edge hedge hkind d hd :=
    h.found (he.callToReturn hcall edge hedge hkind d hd)
  entered m d henters :=
    ⟨h.found (he.entered m d henters).1, h.callers _ _ (he.entered m d henters).2⟩
  summarized hexit := h.summaries _ _ (he.summarized hexit)

/-- The loop invariant. -/
structure Invariant (P : FlowProblem δ) (retain : Bool) (entries : List MethodRef)
    (s : Tabulation δ) : Prop extends Consistent P retain entries s where
  processed_le : s.processed ≤ s.edges.size
  seeded : ∀ m ∈ entries, ∀ d ∈ P.zero :: P.initial (P.graph m), P.entryEdge m d ∈ s.found
  handled : ∀ e ∈ s.foundBefore s.processed, Handled P s e

/-! ## Adding path edges -/

/-- Adding a path edge gives an extension. -/
lemma extends_propagate (retain : Bool) (s : Tabulation δ) (e : PathEdge δ) (l : Link δ) :
    s.Extends (s.propagate retain e l) := by
  unfold propagate
  split
  · exact .refl s
  · exact ⟨by simp, rfl, fun _ _ h => h, fun _ _ h => h⟩

@[simp] lemma callers_propagate (retain : Bool) (s : Tabulation δ) (e : PathEdge δ) (l : Link δ) :
    (s.propagate retain e l).callers = s.callers := by
  unfold propagate; split <;> rfl

@[simp] lemma summariesOf_propagate (retain : Bool) (s : Tabulation δ) (e : PathEdge δ)
    (l : Link δ) : (s.propagate retain e l).summariesOf = s.summariesOf := by
  unfold propagate; split <;> rfl

section

variable {P : FlowProblem δ} {retain : Bool} {entries : List MethodRef} {s : Tabulation δ}

/-- A path edge that is added is found afterwards. -/
lemma Grounded.mem_propagate (h : Grounded P retain entries s) (e : PathEdge δ) (l : Link δ) :
    e ∈ (s.propagate retain e l).found := by
  unfold propagate
  split
  · exact (h.reached_iff e).mp ‹_›
  · exact Array.mem_push_self

/-- Adding a path edge that follows from those found so far keeps a state grounded.

**Proof sketch.** If the path edge is known nothing changes. Otherwise it becomes the last one, and
its link is stored; the path edges before an earlier position are the same as before. -/
lemma Grounded.propagate (h : Grounded P retain entries s) {e : PathEdge δ} {l : Link δ}
    (hf : P.Follows entries s.found e l) : Grounded P retain entries (s.propagate retain e l) := by
  have hext := extends_propagate retain s e l
  unfold Tabulation.propagate at hext ⊢
  split
  · exact h
  rename_i hnew
  rw [if_neg hnew] at hext
  have hnot : e ∉ s.edges := fun he => hnew ((h.reached_iff e).mpr he)
  refine ⟨?_, ?_, ?_, ?_, ?_⟩
  · rw [Array.toList_push, List.nodup_append]
    refine ⟨h.nodup, by simp, ?_⟩
    intro a ha b hb hab
    rw [List.mem_singleton] at hb
    exact hnot (Array.mem_toList_iff.mp (hb ▸ hab ▸ ha))
  · intro e'
    have := h.reached_iff e'
    simp only [reached, found, Set.mem_ofPred_eq] at this ⊢
    rw [Std.HashMap.contains_insert, Array.mem_push, Bool.or_eq_true, beq_iff_eq, this, or_comm,
      eq_comm]
  · intro i e' hi
    rw [Array.getElem?_push] at hi
    split at hi
    · rename_i hlast
      obtain rfl : e = e' := Option.some.inj hi
      refine ⟨l, hf.mono ?_, by simp⟩
      intro e'' he''
      have hall : (s.edges.push e).toList.take i = s.edges.toList := by
        rw [hlast, Array.toList_push, List.take_append_of_le_length (by simp),
          List.take_of_length_le (by simp)]
      show e'' ∈ (s.edges.push e).toList.take i
      rw [hall]
      exact Array.mem_toList_iff.mpr he''
    · obtain ⟨l', hf', hl'⟩ := h.justified i e' hi
      obtain ⟨hlt, -⟩ := Array.getElem?_eq_some_iff.mp hi
      have hmem : e' ∈ s.edges := Array.mem_of_getElem? hi
      refine ⟨l', hf'.mono ?_, ?_⟩
      · intro e'' he''
        have hall : (s.edges.push e).toList.take i = s.edges.toList.take i := by
          rw [Array.toList_push, List.take_append_of_le_length (by simpa using hlt.le)]
        show e'' ∈ (s.edges.push e).toList.take i
        rw [hall]
        exact he''
      · rw [Std.HashMap.getElem?_insert, if_neg]
        · exact hl'
        · simp only [beq_iff_eq]
          rintro rfl
          exact hnot hmem
  · intro key c hc
    obtain ⟨hfound, henters⟩ := h.entered key c hc
    exact ⟨hext.found hfound, henters⟩
  · intro key x hx
    obtain ⟨hfound, hrest⟩ := h.left key x hx
    exact ⟨hext.found hfound, hrest⟩

/-- Adding path edges that follow from those found so far. -/
lemma Grounded.propagateAll (items : List (PathEdge δ × Link δ))
    (h : Grounded P retain entries s)
    (hf : ∀ item ∈ items, P.Follows entries s.found item.1 item.2) :
    Grounded P retain entries (s.propagateAll retain items) ∧
      s.Extends (s.propagateAll retain items) ∧
      (s.propagateAll retain items).callers = s.callers ∧
      (s.propagateAll retain items).summariesOf = s.summariesOf ∧
      ∀ item ∈ items, item.1 ∈ (s.propagateAll retain items).found := by
  induction items generalizing s with
  | nil => exact ⟨h, .refl s, rfl, rfl, by simp⟩
  | cons item items ih =>
    have hstep := extends_propagate retain s item.1 item.2
    have hground := h.propagate (hf item (by simp))
    have hmem := h.mem_propagate item.1 item.2
    obtain ⟨hg, hext, hcallers, hsummaries, hall⟩ := ih hground (by
      intro item' hitem'
      exact (hf item' (by simp [hitem'])).mono hstep.found)
    refine ⟨hg, hstep.trans hext, ?_, ?_, ?_⟩
    · exact hcallers.trans (callers_propagate retain s item.1 item.2)
    · exact hsummaries.trans (summariesOf_propagate retain s item.1 item.2)
    · intro item' hitem'
      rcases List.mem_cons.mp hitem' with rfl | hitem'
      · exact hext.found hmem
      · exact hall item' hitem'

/-- Adding path edges to a consistent state. -/
lemma Consistent.propagateAll (items : List (PathEdge δ × Link δ))
    (h : Consistent P retain entries s)
    (hf : ∀ item ∈ items, P.Follows entries s.found item.1 item.2) :
    Consistent P retain entries (s.propagateAll retain items) ∧
      s.Extends (s.propagateAll retain items) ∧
      ∀ item ∈ items, item.1 ∈ (s.propagateAll retain items).found := by
  obtain ⟨hg, hext, hcallers, hsummaries, hall⟩ := h.toGrounded.propagateAll items hf
  refine ⟨⟨hg, ?_⟩, hext, hall⟩
  intro key c hc x hx item hitem
  rw [hcallers] at hc
  rw [hsummaries] at hx
  exact hext.found (h.returned key c hc x hx item hitem)

/-! ## Calls and exits -/

/-- The path edges of an entry fact after one was added. -/
lemma mem_addTo {table : Std.HashMap (EntryFact δ) (Array (PathEdge δ))} {key key' : EntryFact δ}
    {e c : PathEdge δ} :
    c ∈ (addTo table key e).getD key' #[] ↔
      c ∈ table.getD key' #[] ∨ (key' = key ∧ c = e) := by
  unfold addTo
  dsimp only
  split
  · rename_i hmem
    rw [Array.contains_iff_mem] at hmem
    constructor
    · exact Or.inl
    · rintro (h | ⟨rfl, rfl⟩)
      · exact h
      · exact hmem
  · rw [Std.HashMap.getD_insert]
    by_cases hkey : key = key'
    · subst hkey
      simp
    · have hkey' : key' ≠ key := fun h => hkey h.symm
      simp [hkey, hkey']

/-- Entering a method with a fact from the call of a path edge that was found.

**Proof sketch.** The caller is registered first, so that only it has not been combined with the
summaries of the method. The items added last are those that it gives together with each of them. -/
lemma Consistent.enterWith (h : Consistent P retain entries s) {e : PathEdge δ} (he : e ∈ s.found)
    {m : MethodRef} {d : δ} (henters : P.Enters e.site e.fact m d) :
    Consistent P retain entries (P.enterWith retain e m s d) ∧
      s.Extends (P.enterWith retain e m s d) ∧
      P.entryEdge m d ∈ (P.enterWith retain e m s d).found ∧
      e ∈ (P.enterWith retain e m s d).callers ⟨m, d⟩ := by
  set key : EntryFact δ := ⟨m, d⟩ with hkey
  set s₁ : Tabulation δ := { s with incoming := addTo s.incoming key e } with hs₁
  set s₂ : Tabulation δ := s₁.propagate retain (P.entryEdge m d) (.call e) with hs₂
  set items := (s₂.summariesOf key).toList.flatMap (P.returnItems e) with hitems
  have heq : P.enterWith retain e m s d = s₂.propagateAll retain items := rfl
  have hcallers : ∀ key' c, c ∈ s₁.callers key' ↔ c ∈ s.callers key' ∨ (key' = key ∧ c = e) :=
    fun key' c => mem_addTo
  have hg₁ : Grounded P retain entries s₁ := by
    refine ⟨h.nodup, h.reached_iff, h.justified, ?_, h.left⟩
    intro key' c hc
    rcases (hcallers key' c).mp hc with hc | ⟨rfl, rfl⟩
    · exact h.entered key' c hc
    · exact ⟨he, henters⟩
  have hext₁ : s.Extends s₁ :=
    ⟨List.prefix_rfl, rfl, fun key' c hc => (hcallers key' c).mpr (Or.inl hc), fun _ _ hx => hx⟩
  have hg₂ : Grounded P retain entries s₂ := hg₁.propagate (.call he henters)
  have hext₂ : s₁.Extends s₂ := extends_propagate retain s₁ _ _
  have hentry : P.entryEdge m d ∈ s₂.found := hg₁.mem_propagate _ _
  have hsum₂ : s₂.summariesOf = s.summariesOf := summariesOf_propagate retain s₁ _ _
  have hcal₂ : s₂.callers = s₁.callers := callers_propagate retain s₁ _ _
  have he₂ : e ∈ s₂.found := hext₂.found (hext₁.found he)
  have hfollow : ∀ item ∈ items, P.Follows entries s₂.found item.1 item.2 := by
    intro item hitem
    obtain ⟨x, hx, hxitem⟩ := List.mem_flatMap.mp hitem
    obtain ⟨hxfound, hexit, hxm, hxd⟩ := hg₂.left key x (Array.mem_toList_iff.mp hx)
    obtain ⟨edge, hedge, hkind, d', hd', heq', hl⟩ := FlowProblem.mem_returnItems.mp hxitem
    rw [heq', hl]
    exact .ret he₂ hxfound (by rw [hxm, hxd]; exact henters) hexit hedge hkind hd'
  obtain ⟨hg₃, hext₃, hcal₃, hsum₃, hall⟩ := hg₂.propagateAll items hfollow
  rw [heq]
  refine ⟨⟨hg₃, ?_⟩, hext₁.trans (hext₂.trans hext₃), hext₃.found hentry, ?_⟩
  · intro key' c hc x hx item hitem
    rw [hcal₃, hcal₂] at hc
    rw [hsum₃] at hx
    rcases (hcallers key' c).mp hc with hc | ⟨rfl, rfl⟩
    · rw [hsum₂] at hx
      exact hext₃.found (hext₂.found (h.returned key' c hc x hx item hitem))
    · exact hall item (List.mem_flatMap.mpr ⟨x, Array.mem_toList_iff.mpr hx, hitem⟩)
  · rw [hcal₃, hcal₂]
    exact (hcallers key e).mpr (Or.inr ⟨rfl, rfl⟩)

/-- Entering a method with each of some facts. -/
lemma Consistent.enterWithAll (facts : List δ) (h : Consistent P retain entries s)
    {e : PathEdge δ} (he : e ∈ s.found) {m : MethodRef}
    (henters : ∀ d ∈ facts, P.Enters e.site e.fact m d) :
    Consistent P retain entries (facts.foldl (P.enterWith retain e m) s) ∧
      s.Extends (facts.foldl (P.enterWith retain e m) s) ∧
      ∀ d ∈ facts, P.entryEdge m d ∈ (facts.foldl (P.enterWith retain e m) s).found ∧
        e ∈ (facts.foldl (P.enterWith retain e m) s).callers ⟨m, d⟩ := by
  induction facts generalizing s with
  | nil => exact ⟨h, .refl s, by simp⟩
  | cons d facts ih =>
    simp only [List.foldl_cons]
    obtain ⟨hc, hext, hentry, hcaller⟩ := h.enterWith he (henters d (by simp))
    obtain ⟨hc', hext', hall⟩ := ih hc (hext.found he) (fun d' hd' => henters d' (by simp [hd']))
    refine ⟨hc', hext.trans hext', ?_⟩
    intro d' hd'
    rcases List.mem_cons.mp hd' with rfl | hd'
    · exact ⟨hext'.found hentry, hext'.callers _ _ hcaller⟩
    · exact hall d' hd'

/-- Entering each of some targets of a call. -/
lemma Consistent.enterAll (callees : List MethodRef) (h : Consistent P retain entries s)
    {e : PathEdge δ} (he : e ∈ s.found) (hcall : P.AtCall e.site)
    (htargets : ∀ m ∈ callees, m ∈ P.targets e.site) :
    let t := callees.foldl (fun s callee => (P.enter (P.graph e.method) e.node (P.graph callee)
      e.fact).foldl (P.enterWith retain e callee) s) s
    Consistent P retain entries t ∧ s.Extends t ∧
      ∀ m ∈ callees, ∀ d, P.Enters e.site e.fact m d →
        P.entryEdge m d ∈ t.found ∧ e ∈ t.callers ⟨m, d⟩ := by
  induction callees generalizing s with
  | nil => exact ⟨h, .refl s, by simp⟩
  | cons m callees ih =>
    have hm : m ∈ P.targets e.site := htargets m (by simp)
    obtain ⟨hc, hext, hfacts⟩ := h.enterWithAll _ he (m := m) (fun d hd => ⟨hcall, hm, hd⟩)
    obtain ⟨hc', hext', hall⟩ :=
      ih hc (hext.found he) (fun m' hm' => htargets m' (by simp [hm']))
    refine ⟨hc', hext.trans hext', ?_⟩
    intro m' hm' d henters
    rcases List.mem_cons.mp hm' with rfl | hm'
    · obtain ⟨hentry, hcaller⟩ := hfacts d henters.2.2
      exact ⟨hext'.found hentry, hext'.callers _ _ hcaller⟩
    · exact hall m' hm' d henters

/-- Processing a path edge at a call. -/
lemma Consistent.processCall (h : Consistent P retain entries s) {e : PathEdge δ}
    (he : e ∈ s.found) (hcall : P.AtCall e.site) :
    Consistent P retain entries (P.processCall retain s (P.graph e.method) e) ∧
      s.Extends (P.processCall retain s (P.graph e.method) e) ∧
      Handled P (P.processCall retain s (P.graph e.method) e) e := by
  set items := P.localItems (P.graph e.method) (some (P.targets e.site)) e with hitems
  have hfollow : ∀ item ∈ items, P.Follows entries s.found item.1 item.2 := by
    rintro ⟨e', l⟩ hitem
    obtain ⟨edge, hedge, d, rfl, ⟨hkind, hd, rfl⟩ | ⟨hkind, hd, rfl⟩⟩ :=
      FlowProblem.mem_localItems_call.mp hitem
    · exact .intra he hedge (Or.inl ⟨hcall, hkind⟩) hd
    · exact .callToReturn he hcall hedge hkind hd
  obtain ⟨hc₁, hext₁, hlocal⟩ := h.propagateAll items hfollow
  obtain ⟨hc₂, hext₂, hentered⟩ :=
    hc₁.enterAll (P.targets e.site) (hext₁.found he) hcall (fun _ hm => hm)
  refine ⟨hc₂, hext₁.trans hext₂, ?_, ?_, ?_, ?_⟩
  · rintro edge hedge (⟨-, hkind⟩ | ⟨hno, -⟩) d hd
    · exact hext₂.found (hlocal (e.along edge d, .intra e)
        (FlowProblem.mem_localItems_call.mpr ⟨edge, hedge, d, rfl, Or.inl ⟨hkind, hd, rfl⟩⟩))
    · exact absurd hcall hno
  · intro _ edge hedge hkind d hd
    exact hext₂.found (hlocal (e.along edge d, .callToReturn e)
      (FlowProblem.mem_localItems_call.mpr ⟨edge, hedge, d, rfl, Or.inr ⟨hkind, hd, rfl⟩⟩))
  · intro m d henters
    exact hentered m henters.2.1 d henters
  · intro hexit
    exact absurd hcall hexit.1

/-- Processing a path edge at an exit.

**Proof sketch.** A path edge that is registered already changes nothing. Otherwise it is registered
first, so that only it has not been combined with the callers of its method. -/
lemma Consistent.processExit (h : Consistent P retain entries s) {e : PathEdge δ}
    (he : e ∈ s.found) (hexit : P.AtExit e.site) :
    Consistent P retain entries (P.processExit retain s e) ∧
      s.Extends (P.processExit retain s e) ∧ Handled P (P.processExit retain s e) e := by
  -- an exit is no call, so that only its summary has to be there
  have handled : ∀ t : Tabulation δ, e ∈ t.summariesOf ⟨e.method, e.startFact⟩ →
      Handled P t e := by
    intro t ht
    refine ⟨?_, fun hcall => absurd hcall hexit.1, fun m d henters => absurd henters.1 hexit.1,
      fun _ => ht⟩
    rintro edge hedge (⟨hcall, -⟩ | ⟨-, hno⟩)
    · exact absurd hcall hexit.1
    · exact absurd hexit hno
  unfold FlowProblem.processExit
  dsimp only
  split
  · rename_i hmem
    exact ⟨h, .refl s, handled s (Array.contains_iff_mem.mp hmem)⟩
  · set key : EntryFact δ := ⟨e.method, e.startFact⟩ with hkey
    set s₁ : Tabulation δ := { s with
      summaries := addTo s.summaries key e, summaryCount := s.summaryCount + 1 } with hs₁
    set items := (s₁.callers key).toList.flatMap (fun c => P.returnItems c e) with hitems
    have hsummaries : ∀ key' x,
        x ∈ s₁.summariesOf key' ↔ x ∈ s.summariesOf key' ∨ (key' = key ∧ x = e) :=
      fun key' x => mem_addTo
    have hg₁ : Grounded P retain entries s₁ := by
      refine ⟨h.nodup, h.reached_iff, h.justified, h.entered, ?_⟩
      intro key' x hx
      rcases (hsummaries key' x).mp hx with hx | ⟨rfl, rfl⟩
      · exact h.left key' x hx
      · exact ⟨he, hexit, rfl, rfl⟩
    have hext₁ : s.Extends s₁ :=
      ⟨List.prefix_rfl, rfl, fun _ _ hc => hc, fun key' x hx => (hsummaries key' x).mpr (Or.inl hx)⟩
    have hfollow : ∀ item ∈ items, P.Follows entries s₁.found item.1 item.2 := by
      intro item hitem
      obtain ⟨c, hc, hcitem⟩ := List.mem_flatMap.mp hitem
      obtain ⟨hcfound, henters⟩ := hg₁.entered key c (Array.mem_toList_iff.mp hc)
      obtain ⟨edge, hedge, hkind, d', hd', heq', hl⟩ := FlowProblem.mem_returnItems.mp hcitem
      rw [heq', hl]
      exact .ret hcfound he henters hexit hedge hkind hd'
    obtain ⟨hg₂, hext₂, hcal₂, hsum₂, hall⟩ := hg₁.propagateAll items hfollow
    show Consistent P retain entries (s₁.propagateAll retain items) ∧
      s.Extends (s₁.propagateAll retain items) ∧ Handled P (s₁.propagateAll retain items) e
    refine ⟨⟨hg₂, ?_⟩, hext₁.trans hext₂, handled _ ?_⟩
    · intro key' c hc x hx item hitem
      rw [hcal₂] at hc
      rw [hsum₂] at hx
      rcases (hsummaries key' x).mp hx with hx | ⟨rfl, rfl⟩
      · exact hext₂.found (h.returned key' c hc x hx item hitem)
      · exact hall item (List.mem_flatMap.mpr ⟨c, Array.mem_toList_iff.mpr hc, hitem⟩)
    · rw [hsum₂]
      exact (hsummaries key e).mpr (Or.inr ⟨rfl, rfl⟩)

/-- Processing a path edge. -/
lemma Consistent.process (h : Consistent P retain entries s) {e : PathEdge δ} (he : e ∈ s.found) :
    Consistent P retain entries (P.process retain s e) ∧
      s.Extends (P.process retain s e) ∧ Handled P (P.process retain s e) e := by
  unfold FlowProblem.process
  dsimp only
  split
  · exact h.processCall he ‹_›
  rename_i hcall
  split
  · exact h.processExit he ⟨hcall, ‹_›⟩
  rename_i hexit
  have hfollow : ∀ item ∈ P.localItems (P.graph e.method) none e,
      P.Follows entries s.found item.1 item.2 := by
    rintro ⟨e', l⟩ hitem
    obtain ⟨edge, hedge, d, rfl, hd, rfl⟩ := FlowProblem.mem_localItems_other.mp hitem
    exact .intra he hedge (Or.inr ⟨hcall, fun hat => hexit hat.2⟩) hd
  obtain ⟨hc, hext, hlocal⟩ := h.propagateAll _ hfollow
  refine ⟨hc, hext, ?_, fun hat => absurd hat hcall, fun m d henters => absurd henters.1 hcall,
    fun hat => absurd hat.2 hexit⟩
  intro edge hedge _ d hd
  exact hlocal (e.along edge d, .intra e)
    (FlowProblem.mem_localItems_other.mpr ⟨edge, hedge, d, rfl, hd, rfl⟩)

/-! ## Steps and runs -/

/-- A step keeps the invariant.

**Proof sketch.** The path edge that is processed is found, so processing it gives a consistent
extension in which it is handled. The path edges before it were handled and stay so. -/
lemma Invariant.step (h : Invariant P retain entries s) :
    Invariant P retain entries (P.step retain s) := by
  unfold FlowProblem.step
  split
  · exact h
  rename_i e hnext
  obtain ⟨hlt, -⟩ := Array.getElem?_eq_some_iff.mp hnext
  set s₁ : Tabulation δ := { s with processed := s.processed + 1 } with hs₁
  have hc₁ : Consistent P retain entries s₁ :=
    ⟨⟨h.nodup, h.reached_iff, h.justified, h.entered, h.left⟩, h.returned⟩
  have he : e ∈ s₁.found := Array.mem_of_getElem? hnext
  obtain ⟨hc, hext, hhandled⟩ := hc₁.process he
  refine ⟨hc, ?_, ?_, ?_⟩
  · have hle := hext.edges.length_le
    rw [Array.length_toList, Array.length_toList] at hle
    rw [hext.processed]
    show s.processed + 1 ≤ _
    exact hlt.trans_le hle
  · intro m hm d hd
    exact hext.found (h.seeded m hm d hd)
  · intro e' he'
    -- the processed path edges are the ones that were processed before, and `e`
    have htake : (P.process retain s₁ e).edges.toList.take (s.processed + 1) =
        s.edges.toList.take s.processed ++ [e] := by
      obtain ⟨rest, hrest⟩ := hext.edges
      rw [← hrest, List.take_append_of_le_length (Array.length_toList ▸ hlt),
        List.take_add_one]
      congr 1
      rw [Array.getElem?_toList, show s₁.edges[s.processed]? = some e from hnext]
      rfl
    change e' ∈ (P.process retain s₁ e).edges.toList.take _ at he'
    rw [hext.processed, show s₁.processed = s.processed + 1 from rfl, htake] at he'
    rcases List.mem_append.mp he' with hbefore | hlast
    · obtain ⟨h₁, h₂, h₃, h₄⟩ := h.handled e' hbefore
      exact Handled.mono hext ⟨h₁, h₂, h₃, h₄⟩
    · rw [List.mem_singleton.mp hlast]
      exact hhandled

/-- A run keeps the invariant. -/
lemma Invariant.run (n : Nat) (h : Invariant P retain entries s) :
    Invariant P retain entries (P.run retain n s) := by
  induction n generalizing s with
  | zero => exact h
  | succ n ih =>
    rw [FlowProblem.run]
    split
    · exact h
    · exact ih h.step

end

/-- The invariant holds before any path edge is processed. -/
lemma Invariant.start (P : FlowProblem δ) (retain : Bool) (entries : List MethodRef) :
    Invariant P retain entries (P.start retain entries) := by
  have hempty : Consistent P retain entries ({} : Tabulation δ) := by
    refine ⟨⟨by simp, ?_, ?_, ?_, ?_⟩, ?_⟩
    · intro e
      simp [reached, found]
    · simp
    · intro key c hc
      simp [callers] at hc
    · intro key x hx
      simp [summariesOf] at hx
    · intro key c hc
      simp [callers] at hc
  have hfollow : ∀ item ∈ P.seeds entries,
      P.Follows entries ({} : Tabulation δ).found item.1 item.2 := by
    rintro ⟨e, l⟩ hitem
    obtain ⟨m, hm, d, hd, rfl, rfl⟩ := FlowProblem.mem_seeds.mp hitem
    exact .seed hm hd
  obtain ⟨hc, hext, hall⟩ := hempty.propagateAll (P.seeds entries) hfollow
  refine ⟨hc, ?_, ?_, ?_⟩
  · rw [show (P.start retain entries).processed = 0 from hext.processed]
    exact Nat.zero_le _
  · intro m hm d hd
    exact hall (P.entryEdge m d, .seed) (FlowProblem.mem_seeds.mpr ⟨m, hm, d, hd, rfl, rfl⟩)
  · intro e he
    rw [show (P.start retain entries).processed = 0 from hext.processed] at he
    simp [foundBefore] at he

/-- The invariant holds of the result of a tabulation, however it ended. -/
lemma Invariant.of_solve {P : FlowProblem δ} {retain cancelled : Bool} {budget : Int}
    {entries : List MethodRef} {s : Tabulation δ} {outcome : SolveOutcome}
    (h : P.solve retain budget cancelled entries = (s, outcome)) :
    Invariant P retain entries s := by
  have hstart := Invariant.start P retain entries
  unfold FlowProblem.solve at h
  dsimp only at h
  split at h
  · rw [← (Prod.mk.inj h).1]
    exact hstart
  split at h
  · rw [← (Prod.mk.inj h).1]
    exact hstart
  · rw [← (Prod.mk.inj h).1]
    exact hstart.run _

/-- No path edge waits when a tabulation is complete. -/
lemma pending_of_solve {P : FlowProblem δ} {retain cancelled : Bool} {budget : Int}
    {entries : List MethodRef} {s : Tabulation δ}
    (h : P.solve retain budget cancelled entries = (s, .complete)) : s.pending = 0 := by
  unfold FlowProblem.solve at h
  dsimp only at h
  split at h
  · rename_i hpending
    rw [← (Prod.mk.inj h).1]
    exact hpending
  split at h
  · simp at h
  · obtain ⟨rfl, hout⟩ := Prod.mk.inj h
    by_contra hpending
    rw [if_neg hpending] at hout
    exact absurd hout (by simp)

end Tabulation

end JvmTaint
