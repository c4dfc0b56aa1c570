import JvmTaint.Proofs.Tabulation.Exactness

set_option autoImplicit false
set_option relaxedAutoImplicit false

/-!
# Context sensitivity

The exploded supergraph of a problem has a node for every fact before every statement, and an edge
for every fact that a flow function gives. Its paths may enter a method from one call and leave it
to another. In a realizable path every return goes back to the last call that was entered and not
yet left. A complete tabulation finds a fact before a statement if and only if some realizable path
from a seed leads there.

## Main definitions

* `JvmTaint.CallStep`: what a step of a path does to the calls that are open.
* `JvmTaint.FlowProblem.SuperStep`: the edges of the exploded supergraph.
* `JvmTaint.FlowProblem.SuperPath`: the paths of the exploded supergraph.
* `JvmTaint.openCalls`: the calls that a path has entered and not left; none if a return does not
  belong to the last open call.
* `JvmTaint.FlowProblem.Realizable`: some realizable path leads from a seed to a node.

## Main results

* `JvmTaint.FlowProblem.exists_edge_of_realizable`: a realizable path gives a path edge.
* `JvmTaint.FlowProblem.realizable_of_edge`: a path edge gives a realizable path.
* `JvmTaint.FlowProblem.mem_factsAt_iff_realizable`: the facts found before a statement are those
  that hold there along realizable paths.

## Design

The steps of the supergraph do not know where a path comes from: a return step goes to any call that
the method may have been entered from. What makes a path realizable is a condition on the sequence
of its call and return steps alone, checked by `openCalls`. The two directions are inductions on the
path and on the rules. A path with open calls is supported by one path edge per open call, and a
path edge stands for a path inside its method along which all calls are left again.
-/

namespace JvmTaint

variable {δ : Type}

/-! ## The exploded supergraph -/

/-- What a step of a path does to the calls that are open. -/
inductive CallStep where
  /-- The step stays in its method. -/
  | inner
  /-- The step enters a method from a call. -/
  | enter (call : Site)
  /-- The step leaves a method to a successor of a call. -/
  | leave (call : Site)
  deriving DecidableEq, Repr

/-- The calls that are open after some steps, the last one first, if `calls` are open before them.
There are none if a step leaves a method to another call than the last open one. -/
def openCalls : List Site → List CallStep → Option (List Site)
  | calls, [] => some calls
  | calls, .inner :: steps => openCalls calls steps
  | calls, .enter c :: steps => openCalls (c :: calls) steps
  | c' :: calls, .leave c :: steps => if c = c' then openCalls calls steps else none
  | [], .leave _ :: _ => none

/-- The calls that are open after two sequences of steps. -/
lemma openCalls_append (calls : List Site) (steps steps' : List CallStep) :
    openCalls calls (steps ++ steps') = (openCalls calls steps).bind (openCalls · steps') := by
  fun_induction openCalls calls steps with
  | case1 => rfl
  | case2 calls steps ih => simpa [openCalls] using ih
  | case3 calls c steps ih => simpa [openCalls] using ih
  | case4 c' calls steps ih => simpa [openCalls] using ih
  | case5 c' calls c steps hne => simp [openCalls, hne]
  | case6 c steps => rfl

namespace FlowProblem

/-- An edge of the exploded supergraph: if the first fact holds before the first statement, the
second one holds before the second. -/
inductive SuperStep (P : FlowProblem δ) : Site × δ → CallStep → Site × δ → Prop
  | normal {n : Site} {d d' : δ} {edge : Edge} (hedge : edge ∈ P.outgoing n)
      (hkind : P.FollowedNormally n edge)
      (hd : d' ∈ P.normal (P.graph n.method) n.index edge d) :
      SuperStep P (n, d) .inner (⟨n.method, edge.target⟩, d')
  | callToReturn {n : Site} {d d' : δ} {edge : Edge} (hcall : P.AtCall n)
      (hedge : edge ∈ P.outgoing n) (hkind : edge.kind ≠ .exception)
      (hd : d' ∈ P.callToReturn (P.graph n.method) n.index edge (P.targets n) d) :
      SuperStep P (n, d) .inner (⟨n.method, edge.target⟩, d')
  | enter {n : Site} {d d' : δ} {m : MethodRef} (henters : P.Enters n d m d') :
      SuperStep P (n, d) (.enter n) (P.entrySite m, d')
  /-- A method is left to a successor of any call that it may have been entered from. -/
  | leave {x c : Site} {d d' : δ} {edge : Edge} (hexit : P.AtExit x) (hcall : P.AtCall c)
      (htarget : x.method ∈ P.targets c) (hedge : edge ∈ P.outgoing c)
      (hkind : edge.kind = .exception ↔ P.AtUncaught x)
      (hd : d' ∈ P.leave (P.graph c.method) c.index edge (P.graph x.method) x.index d) :
      SuperStep P (x, d) (.leave c) (⟨c.method, edge.target⟩, d')

/-- A path of the exploded supergraph, with what its steps do to the open calls. -/
inductive SuperPath (P : FlowProblem δ) : Site × δ → List CallStep → Site × δ → Prop
  | nil (u : Site × δ) : SuperPath P u [] u
  | snoc {u v w : Site × δ} {steps : List CallStep} {step : CallStep}
      (hpath : SuperPath P u steps v) (hstep : P.SuperStep v step w) :
      SuperPath P u (steps ++ [step]) w

/-- The facts that hold on entry to an entry method. -/
def IsSeed (P : FlowProblem δ) (entries : List MethodRef) (u : Site × δ) : Prop :=
  ∃ m ∈ entries, u.1 = P.entrySite m ∧ u.2 ∈ P.zero :: P.initial (P.graph m)

/-- Some path from a seed leads to the node, and each of its returns belongs to the last open
call. -/
def Realizable (P : FlowProblem δ) (entries : List MethodRef) (v : Site × δ) : Prop :=
  ∃ u steps calls, P.IsSeed entries u ∧ P.SuperPath u steps v ∧ openCalls [] steps = some calls

/-! ## From paths to path edges -/

/-- The open calls are supported by path edges: the method `m` was entered with `d` from the last
one, the method of that call from the one before, and so on. -/
def Supported (P : FlowProblem δ) (S : Set (PathEdge δ)) : List Site → MethodRef → δ → Prop
  | [], _, _ => True
  | c :: calls, m, d => ∃ startFact fact, ⟨c.method, startFact, c.index, fact⟩ ∈ S ∧
      P.Enters c fact m d ∧ P.Supported S calls c.method startFact

/-- A path from a seed ends at a path edge whose start fact was handed over by its open calls.

**Proof sketch.** Induction on the path. A step inside a method is one of the rules. A call starts a
new path edge and is supported by the old one. A return goes to the last open call; the path edge
that supports this call and the one at the exit are the premises of the return rule. -/
lemma exists_edge_of_path {P : FlowProblem δ} {entries : List MethodRef} {S : Set (PathEdge δ)}
    (hS : P.Closed entries S) {u v : Site × δ} {steps : List CallStep} (hu : P.IsSeed entries u)
    (hpath : P.SuperPath u steps v) {calls : List Site}
    (hcalls : openCalls [] steps = some calls) :
    ∃ startFact, ⟨v.1.method, startFact, v.1.index, v.2⟩ ∈ S ∧
      P.Supported S calls v.1.method startFact := by
  induction hpath generalizing calls with
  | nil =>
    obtain ⟨m, hm, hsite, hd⟩ := hu
    obtain ⟨site, d⟩ := u
    obtain rfl : site = P.entrySite m := hsite
    obtain rfl : [] = calls := Option.some.inj hcalls
    exact ⟨d, hS _ _ (.seed hm hd), trivial⟩
  | @snoc v w steps step hpath hstep ih =>
    rw [openCalls_append] at hcalls
    obtain ⟨before, hbefore, hlast⟩ := Option.bind_eq_some_iff.mp hcalls
    obtain ⟨startFact, hedge, hsupported⟩ := ih hbefore
    cases hstep with
    | @normal n d d' edge hout hkind hd =>
      obtain rfl : before = calls := Option.some.inj hlast
      exact ⟨startFact, hS _ _ (.intra hedge hout hkind hd), hsupported⟩
    | @callToReturn n d d' edge hcall hout hkind hd =>
      obtain rfl : before = calls := Option.some.inj hlast
      exact ⟨startFact, hS _ _ (.callToReturn hedge hcall hout hkind hd), hsupported⟩
    | @enter n d d' m henters =>
      obtain rfl : n :: before = calls := Option.some.inj hlast
      exact ⟨d', hS _ _ (.call hedge henters), startFact, d, hedge, henters, hsupported⟩
    | @leave x c d d' edge hexit hcall htarget hout hkind hd =>
      cases before with
      | nil => exact absurd hlast (by simp [openCalls])
      | cons c' before =>
        by_cases hc : c = c'
        · subst hc
          rw [openCalls, if_pos rfl] at hlast
          obtain rfl : before = calls := Option.some.inj hlast
          obtain ⟨callerFact, fact, hcaller, henters, hrest⟩ := hsupported
          exact ⟨callerFact, hS _ _ (.ret hcaller hedge henters hexit hout hkind hd), hrest⟩
        · rw [openCalls, if_neg hc] at hlast
          exact absurd hlast (by simp)

/-- A realizable path leads to a path edge of every closed set. -/
lemma exists_edge_of_realizable {P : FlowProblem δ} {entries : List MethodRef}
    {S : Set (PathEdge δ)} (hS : P.Closed entries S) {n : Site} {d : δ}
    (h : P.Realizable entries (n, d)) : ∃ startFact, ⟨n.method, startFact, n.index, d⟩ ∈ S := by
  obtain ⟨u, steps, calls, hu, hpath, hcalls⟩ := h
  obtain ⟨startFact, hedge, -⟩ := exists_edge_of_path hS hu hpath hcalls
  exact ⟨startFact, hedge⟩

/-! ## From path edges to paths -/

/-- Paths compose. -/
lemma SuperPath.trans {P : FlowProblem δ} {u v w : Site × δ} {steps steps' : List CallStep}
    (h : P.SuperPath u steps v) (h' : P.SuperPath v steps' w) :
    P.SuperPath u (steps ++ steps') w := by
  induction h' with
  | nil => simpa using h
  | snoc _ hstep ih => simpa using ih.snoc hstep

/-- A path along which every call is left again, whatever calls are open. -/
def BalancedPath (P : FlowProblem δ) (u v : Site × δ) : Prop :=
  ∃ steps, P.SuperPath u steps v ∧ ∀ calls, openCalls calls steps = some calls

/-- The path edge stands for paths: its method is entered with its start fact by a realizable path,
and a balanced path leads from there to its end. -/
def StandsForPath (P : FlowProblem δ) (entries : List MethodRef) (e : PathEdge δ) : Prop :=
  P.Realizable entries (P.entrySite e.method, e.startFact) ∧
    P.BalancedPath (P.entrySite e.method, e.startFact) (e.site, e.fact)

/-- A balanced path can be extended by a step that stays in its method. -/
lemma BalancedPath.snoc {P : FlowProblem δ} {u v w : Site × δ} (h : P.BalancedPath u v)
    (hstep : P.SuperStep v .inner w) : P.BalancedPath u w := by
  obtain ⟨steps, hpath, hbalanced⟩ := h
  refine ⟨steps ++ [.inner], hpath.snoc hstep, ?_⟩
  intro calls
  rw [openCalls_append, hbalanced]
  rfl

/-- A balanced path can be extended by a call, a balanced path in the called method, and the return
to the call. -/
lemma BalancedPath.call {P : FlowProblem δ} {u v w x y : Site × δ} {c : Site}
    (h : P.BalancedPath u v) (hcall : P.SuperStep v (.enter c) w) (h' : P.BalancedPath w x)
    (hret : P.SuperStep x (.leave c) y) : P.BalancedPath u y := by
  obtain ⟨steps, hpath, hbalanced⟩ := h
  obtain ⟨steps', hpath', hbalanced'⟩ := h'
  refine ⟨(steps ++ [.enter c]) ++ steps' ++ [.leave c],
    ((hpath.snoc hcall).trans hpath').snoc hret, ?_⟩
  intro calls
  simp [openCalls_append, hbalanced, hbalanced', openCalls]

/-- A realizable path can be extended by a balanced path and a call. -/
lemma Realizable.call {P : FlowProblem δ} {entries : List MethodRef} {u v w : Site × δ} {c : Site}
    (h : P.Realizable entries u) (h' : P.BalancedPath u v) (hcall : P.SuperStep v (.enter c) w) :
    P.Realizable entries w := by
  obtain ⟨seed, steps, calls, hseed, hpath, hcalls⟩ := h
  obtain ⟨steps', hpath', hbalanced'⟩ := h'
  refine ⟨seed, steps ++ (steps' ++ [.enter c]), c :: calls, hseed,
    hpath.trans (hpath'.snoc hcall), ?_⟩
  simp [openCalls_append, hcalls, hbalanced', openCalls]

/-- The set of path edges that stand for paths is closed under the rules.

**Proof sketch.** By cases on the rules. A seed stands for the empty path. A rule inside a method
adds a step to the balanced path of its premise. A call makes the way to its premise a realizable
path to the entry of the called method. A return puts the balanced path of the called method between
the call and the return. -/
lemma closed_standsForPath (P : FlowProblem δ) (entries : List MethodRef) :
    P.Closed entries {e | P.StandsForPath entries e} := by
  intro e l hf
  have hnil : ∀ u, P.BalancedPath u u := fun u => ⟨[], .nil u, fun _ => rfl⟩
  cases hf with
  | @seed m d hm hd =>
    exact ⟨⟨_, [], [], ⟨m, hm, rfl, hd⟩, .nil _, rfl⟩, hnil _⟩
  | @intra e edge d he hedge hkind hd =>
    exact ⟨he.1, he.2.snoc (.normal hedge hkind hd)⟩
  | @callToReturn c edge d hc hcall hedge hkind hd =>
    exact ⟨hc.1, hc.2.snoc (.callToReturn hcall hedge hkind hd)⟩
  | @call c m d hc henters =>
    exact ⟨hc.1.call hc.2 (.enter henters), hnil _⟩
  | @ret c x edge d hc hx henters hexit hedge hkind hd =>
    exact ⟨hc.1, hc.2.call (.enter henters) hx.2
      (.leave hexit henters.1 henters.2.1 hedge hkind hd)⟩

/-- The end of a path edge of the least closed set is reached by a realizable path. -/
lemma realizable_of_edge {P : FlowProblem δ} {entries : List MethodRef} {S : Set (PathEdge δ)}
    (hS : IsLeast {S | P.Closed entries S} S) {e : PathEdge δ} (he : e ∈ S) :
    P.Realizable entries (e.site, e.fact) := by
  obtain ⟨⟨u, steps, calls, hu, hpath, hcalls⟩, steps', hpath', hbalanced⟩ :=
    hS.2 (P.closed_standsForPath entries) he
  refine ⟨u, steps ++ steps', calls, hu, hpath.trans hpath', ?_⟩
  rw [openCalls_append, hcalls]
  exact hbalanced calls

variable [DecidableEq δ] [Hashable δ]

/-- The facts found before a statement are the facts of the path edges that end there. -/
lemma mem_factsAt {s : Tabulation δ} {n : Site} {d : δ} :
    d ∈ s.factsAt n ↔ ∃ startFact, ⟨n.method, startFact, n.index, d⟩ ∈ s.found := by
  simp only [Tabulation.factsAt, List.mem_eraseDups, List.mem_map, List.mem_filter,
    Array.mem_toList_iff, beq_iff_eq]
  constructor
  · rintro ⟨e, ⟨he, rfl⟩, rfl⟩
    exact ⟨e.startFact, he⟩
  · rintro ⟨startFact, he⟩
    exact ⟨_, ⟨he, rfl⟩, rfl⟩

/-- **Context sensitivity.** A complete tabulation finds a fact before a statement if and only if
some path of the exploded supergraph leads there from a seed and returns from every method to the
call that it was entered from. -/
theorem mem_factsAt_iff_realizable (P : FlowProblem δ) (retain : Bool) (budget : Int)
    (cancelled : Bool) (entries : List MethodRef) (s : Tabulation δ)
    (h : P.solve retain budget cancelled entries = (s, .complete)) (n : Site) (d : δ) :
    d ∈ s.factsAt n ↔ P.Realizable entries (n, d) := by
  have hleast := Tabulation.isLeast_found_of_solve h
  rw [mem_factsAt]
  constructor
  · rintro ⟨startFact, he⟩
    exact realizable_of_edge hleast he
  · exact exists_edge_of_realizable hleast.1

end FlowProblem

/-- In the relay with three calls, the fact that holds on entry is found after the last call, and
some path leads it there through the three calls in turn. -/
theorem relay_mem_factsAt_iff_realizable :
    ∃ s, (relay 3 2).solve true 0 false [relayMain] = (s, .complete) ∧
      true ∈ s.factsAt ⟨relayMain, 3⟩ ∧
      (relay 3 2).Realizable [relayMain] (⟨relayMain, 3⟩, true) := by
  obtain ⟨s, hs, hreached⟩ := relayTabulation
  have hfact : true ∈ s.factsAt ⟨relayMain, 3⟩ :=
    FlowProblem.mem_factsAt.mpr
      ⟨true, ((Tabulation.Invariant.of_solve hs).toGrounded.reached_iff _).mp hreached⟩
  exact ⟨_, hs, hfact, (FlowProblem.mem_factsAt_iff_realizable _ _ _ _ _ _ hs _ _).mp hfact⟩

end JvmTaint
