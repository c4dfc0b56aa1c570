import JvmTaint.Proofs.Tabulation.Provenance
import JvmTaint.Proofs.Tabulation.RealizablePaths
import Mathlib.Data.List.Chain

set_option autoImplicit false
set_option relaxedAutoImplicit false

/-!
# Traces are paths of the supergraph

A trace is what the walk back from a path edge passes. Each of its nodes follows from the one before
by an edge of the exploded supergraph: a link names such an edge, and where the walk leaves a method
to a pending call instead of the call that its link names, the pending call has entered the method
with the same fact. A trace starts at a fact that was seeded, or at the statement that generated the
fact from the zero fact.

Between the first node and the last one, calls and returns are matched: the walk puts the call of a
return aside and comes back to it at the entry of the method. It may come to a seed while calls are
still pending, if the entry method is itself called with the fact that it is seeded with; then the
trace returns from methods that it has not called.

## Main definitions

* `JvmTaint.FlowProblem.Explains`: a trace is a path that starts where its fact comes from.
* `JvmTaint.FlowProblem.Nested`: the calls and returns of a trace are matched.
* `JvmTaint.Tabulation.WalksTo`: the walk back, with the part of the trace that it has passed.
* `JvmTaint.Tabulation.BackToSeed`: a trace starts at a seed, with some calls pending there.

## Main results

* `JvmTaint.Tabulation.Grounded.nested_of_goesBack`: a step back is an edge of the supergraph, which
  opens or closes a frame.
* `JvmTaint.Tabulation.Grounded.walksTo_of_traceFrom`: where a trace starts.
* `JvmTaint.Tabulation.Grounded.explains_of_trace`: a trace explains its fact.
* `JvmTaint.FlowProblem.nested_of_backToSeed`: when the calls and returns of a trace are matched.
* `JvmTaint.echo_trace_not_nested`: a trace that returns from a method which it has not called.

## Design

The open calls are path edges while the walk goes on and frames of a call stack in what is said
about the trace. A frame names the call and the method that was entered from it, so that a return
can be compared with both. The frames that are open at a path edge are determined by the pending
calls and the method of the path edge (`framesOf`).
-/

namespace JvmTaint

variable {δ : Type}

namespace FlowProblem

/-! ## Paths -/

/-- An edge of the exploded supergraph leads from one node to the other. -/
def StepsTo (P : FlowProblem δ) (u v : Site × δ) : Prop := ∃ step, P.SuperStep u step v

/-- A trace is a path of the supergraph that starts at an initial fact of an entry method, or at a
statement where the zero fact is found in `S` and from which its first fact is generated: the
statement then stands in front with the fact that it generates. -/
inductive Explains (P : FlowProblem δ) (entries : List MethodRef) (S : Set (PathEdge δ)) :
    Trace δ → Prop
  | initial {m : MethodRef} {d : δ} {rest : Trace δ} (hm : m ∈ entries)
      (hd : d ∈ P.initial (P.graph m))
      (hchain : List.IsChain P.StepsTo ((P.entrySite m, d) :: rest)) :
      Explains P entries S ((P.entrySite m, d) :: rest)
  | generated {e : PathEdge δ} {u : Site × δ} {rest : Trace δ} (he : e ∈ S)
      (hzero : e.fact = P.zero) (hne : u.2 ≠ P.zero) (hstep : P.StepsTo (e.site, P.zero) u)
      (hchain : List.IsChain P.StepsTo (u :: rest)) :
      Explains P entries S ((e.site, u.2) :: u :: rest)

/-- The calls and returns of a trace are matched, if the frames are open in front of it: a call
opens a frame with its site and the method that it enters, and a return closes the last frame, which
names the call that it goes back to and the method that it leaves. -/
inductive Nested (P : FlowProblem δ) : List (Site × MethodRef) → Trace δ → Prop
  | single (frames : List (Site × MethodRef)) (u : Site × δ) : Nested P frames [u]
  | inner {frames : List (Site × MethodRef)} {u v : Site × δ} {rest : Trace δ}
      (hstep : P.SuperStep u .inner v) (hrest : Nested P frames (v :: rest)) :
      Nested P frames (u :: v :: rest)
  | enter {frames : List (Site × MethodRef)} {u v : Site × δ} {c : Site} {rest : Trace δ}
      (hstep : P.SuperStep u (.enter c) v)
      (hrest : Nested P ((c, v.1.method) :: frames) (v :: rest)) : Nested P frames (u :: v :: rest)
  | leave {frames : List (Site × MethodRef)} {u v : Site × δ} {c : Site} {rest : Trace δ}
      (hstep : P.SuperStep u (.leave c) v) (hrest : Nested P frames (v :: rest)) :
      Nested P ((c, u.1.method) :: frames) (u :: v :: rest)

/-- More frames may be open below. -/
lemma Nested.append {P : FlowProblem δ} {frames : List (Site × MethodRef)} {t : Trace δ}
    (h : P.Nested frames t) (below : List (Site × MethodRef)) : P.Nested (frames ++ below) t := by
  induction h with
  | single frames u => exact .single _ u
  | inner hstep _ ih => exact .inner hstep ih
  | enter hstep _ ih => exact .enter hstep ih
  | leave hstep _ ih => exact .leave hstep ih

/-- At a statement without outgoing edges that is no call, a trace can only go on by a return. -/
lemma not_nested_of_final {P : FlowProblem δ} {n : Site} {d : δ}
    (hout : P.outgoing n = []) (hcall : ¬ P.AtCall n) (v : Site × δ) (rest : Trace δ) :
    ¬ P.Nested [] ((n, d) :: v :: rest) := by
  intro h
  cases h with
  | inner hstep _ =>
    cases hstep with
    | normal hedge =>
      rw [hout] at hedge
      cases hedge
    | callToReturn hat => exact hcall hat
  | enter hstep _ =>
    cases hstep with
    | enter henters => exact hcall henters.1

/-- The frames that are open in a method while some calls are pending, the last one first. -/
def framesOf : MethodRef → List (PathEdge δ) → List (Site × MethodRef)
  | _, [] => []
  | m, c :: calls => (c.site, m) :: framesOf c.method calls

/-- The pending calls were found: the method `m` was entered with `d` from the last one, the method
of that call was entered from the one before with its start fact, and so on. -/
def Awaits (P : FlowProblem δ) (S : Set (PathEdge δ)) :
    List (PathEdge δ) → MethodRef → δ → Prop
  | [], _, _ => True
  | c :: calls, m, d =>
    c ∈ S ∧ P.Enters c.site c.fact m d ∧ P.Awaits S calls c.method c.startFact

end FlowProblem

variable [DecidableEq δ] [Hashable δ]

namespace Tabulation

variable {P : FlowProblem δ} {entries : List MethodRef} {s : Tabulation δ}

/-! ## One step back -/

/-- A path edge that was found has a link, which names the rule that it follows by. -/
lemma Grounded.exists_link (h : Grounded P true entries s) {e : PathEdge δ} (he : e ∈ s.found) :
    ∃ l, s.links[e]? = some (some l) ∧ P.Follows entries s.found e l := by
  obtain ⟨i, hi, hget⟩ := Array.getElem_of_mem he
  obtain ⟨l, hf, hl⟩ := h.justified i e (by rw [Array.getElem?_eq_getElem hi, hget])
  refine ⟨l, by simpa using hl, hf.mono ?_⟩
  intro e' he'
  obtain ⟨j, -, hj⟩ := exists_lt_of_mem_foundBefore he'
  exact Array.mem_of_getElem? hj

/-- What a path edge follows from is what its link says. -/
lemma Grounded.follows_of_link (h : Grounded P true entries s) {e : PathEdge δ} {l : Link δ}
    (he : e ∈ s.found) (hl : s.links[e]? = some (some l)) : P.Follows entries s.found e l := by
  obtain ⟨l', hl', hf⟩ := h.exists_link he
  obtain rfl : l' = l := by simpa [hl'] using hl
  exact hf

/-- From a path edge with another link than a seed the walk goes back. -/
lemma exists_goesBack {e : PathEdge δ} {l : Link δ} (hl : s.links[e]? = some (some l))
    (hne : l ≠ .seed) (calls : List (PathEdge δ)) : ∃ e' calls', s.GoesBack e calls e' calls' := by
  cases l with
  | seed => exact absurd rfl hne
  | intra pred => exact ⟨pred, calls, .intra hl⟩
  | callToReturn pred => exact ⟨pred, calls, .callToReturn hl⟩
  | ret pred exit => exact ⟨exit, pred :: calls, .ret hl⟩
  | call pred =>
    cases calls with
    | nil => exact ⟨pred, [], .enter hl⟩
    | cons c calls => exact ⟨c, calls, .close hl⟩

/-- The walk stays on path edges that were found, and the pending calls entered the methods that it
is in. -/
lemma Grounded.found_of_goesBack (h : Grounded P true entries s) {e e' : PathEdge δ}
    {calls calls' : List (PathEdge δ)} (hback : s.GoesBack e calls e' calls') (he : e ∈ s.found)
    (hcalls : P.Awaits s.found calls e.method e.startFact) :
    e' ∈ s.found ∧ P.Awaits s.found calls' e'.method e'.startFact := by
  cases hback with
  | intra hl =>
    cases h.follows_of_link he hl with
    | intra hpred => exact ⟨hpred, hcalls⟩
  | callToReturn hl =>
    cases h.follows_of_link he hl with
    | callToReturn hpred => exact ⟨hpred, hcalls⟩
  | ret hl =>
    cases h.follows_of_link he hl with
    | ret hc hx henters => exact ⟨hx, hc, henters, hcalls⟩
  | close hl => exact ⟨hcalls.1, hcalls.2.2⟩
  | enter hl =>
    cases h.follows_of_link he hl with
    | call hc => exact ⟨hc, trivial⟩

/-- **One step back is an edge of the supergraph**, and what it does to the open frames is undone
by going forward along this edge.

**Proof sketch.** The link of the path edge is an instance of a rule, and the rule is an edge of the
supergraph. At the entry of a method with a pending call, the edge is the one from that call, which
entered the method with the same fact. Where no call is pending, the trace behind the entry closes
no frame that was opened before, so one more frame may be open below. -/
lemma Grounded.nested_of_goesBack (h : Grounded P true entries s) {e e' : PathEdge δ}
    {calls calls' : List (PathEdge δ)} (hback : s.GoesBack e calls e' calls') (he : e ∈ s.found)
    (hcalls : P.Awaits s.found calls e.method e.startFact) :
    P.StepsTo (e'.site, e'.fact) (e.site, e.fact) ∧
      ∀ later, P.Nested (FlowProblem.framesOf e.method calls) ((e.site, e.fact) :: later) →
        P.Nested (FlowProblem.framesOf e'.method calls')
          ((e'.site, e'.fact) :: (e.site, e.fact) :: later) := by
  cases hback with
  | intra hl =>
    cases h.follows_of_link he hl with
    | intra _ hedge hkind hd =>
      have hstep := FlowProblem.SuperStep.normal hedge hkind hd
      exact ⟨⟨_, hstep⟩, fun later hlater => .inner hstep hlater⟩
  | callToReturn hl =>
    cases h.follows_of_link he hl with
    | callToReturn _ hcall hedge hkind hd =>
      have hstep := FlowProblem.SuperStep.callToReturn hcall hedge hkind hd
      exact ⟨⟨_, hstep⟩, fun later hlater => .inner hstep hlater⟩
  | ret hl =>
    cases h.follows_of_link he hl with
    | ret _ _ henters hexit hedge hkind hd =>
      have hstep := FlowProblem.SuperStep.leave hexit henters.1 henters.2.1 hedge hkind hd
      exact ⟨⟨_, hstep⟩, fun later hlater => .leave hstep hlater⟩
  | close hl =>
    cases h.follows_of_link he hl with
    | call =>
      have hstep := FlowProblem.SuperStep.enter hcalls.2.1
      exact ⟨⟨_, hstep⟩, fun later hlater => .enter hstep hlater⟩
  | enter hl =>
    cases h.follows_of_link he hl with
    | call _ henters =>
      have hstep := FlowProblem.SuperStep.enter henters
      refine ⟨⟨_, hstep⟩, fun later hlater => .enter hstep ?_⟩
      exact hlater.append [_]

/-! ## The whole walk -/

/-- The walk back goes on from `e` to `e₀` over facts that are not zero. The pending calls change
from `calls` to `calls₀`, and what has been passed is put in front of `later`. -/
inductive WalksTo (P : FlowProblem δ) (s : Tabulation δ) : PathEdge δ → List (PathEdge δ) →
    Trace δ → PathEdge δ → List (PathEdge δ) → Trace δ → Prop
  | refl (e : PathEdge δ) (calls : List (PathEdge δ)) (later : Trace δ) :
      WalksTo P s e calls later e calls later
  | back {e e' e₀ : PathEdge δ} {calls calls' calls₀ : List (PathEdge δ)} {later later₀ : Trace δ}
      (hback : s.GoesBack e calls e' calls') (hne : e'.fact ≠ P.zero)
      (hrest : WalksTo P s e' calls' ((e.site, e.fact) :: later) e₀ calls₀ later₀) :
      WalksTo P s e calls later e₀ calls₀ later₀

/-- What holds of the walk and is kept by each step back: the path edge was found and its fact is
not zero, the pending calls entered the methods that the walk is in, and the trace from the path
edge on is a nested path to the target. -/
structure Passes (P : FlowProblem δ) (s : Tabulation δ) (target e : PathEdge δ)
    (calls : List (PathEdge δ)) (later : Trace δ) : Prop where
  found : e ∈ s.found
  nonzero : e.fact ≠ P.zero
  awaits : P.Awaits s.found calls e.method e.startFact
  chain : List.IsChain P.StepsTo ((e.site, e.fact) :: later)
  nested : P.Nested (FlowProblem.framesOf e.method calls) ((e.site, e.fact) :: later)
  last : ((e.site, e.fact) :: later).getLast? = some (target.site, target.fact)

/-- The walk starts at its target. -/
lemma Passes.start {e : PathEdge δ} (he : e ∈ s.found) (hne : e.fact ≠ P.zero) :
    Passes P s e e [] [] where
  found := he
  nonzero := hne
  awaits := trivial
  chain := List.isChain_singleton _
  nested := .single _ _
  last := rfl

/-- A step back keeps what holds of the walk. -/
lemma Passes.step (h : Grounded P true entries s) {target e e' : PathEdge δ}
    {calls calls' : List (PathEdge δ)} {later : Trace δ} (hp : Passes P s target e calls later)
    (hback : s.GoesBack e calls e' calls') (hne : e'.fact ≠ P.zero) :
    Passes P s target e' calls' ((e.site, e.fact) :: later) := by
  obtain ⟨hfound, hawaits⟩ := h.found_of_goesBack hback hp.found hp.awaits
  obtain ⟨hstep, hnested⟩ := h.nested_of_goesBack hback hp.found hp.awaits
  exact {
    found := hfound
    nonzero := hne
    awaits := hawaits
    chain := List.isChain_cons_cons.mpr ⟨hstep, hp.chain⟩
    nested := hnested later hp.nested
    last := by rw [List.getLast?_cons_cons]; exact hp.last }

/-- The whole walk keeps it. -/
lemma Passes.walk (h : Grounded P true entries s) {target e e₀ : PathEdge δ}
    {calls calls₀ : List (PathEdge δ)} {later later₀ : Trace δ}
    (hp : Passes P s target e calls later) (hwalk : WalksTo P s e calls later e₀ calls₀ later₀) :
    Passes P s target e₀ calls₀ later₀ := by
  induction hwalk with
  | refl => exact hp
  | back hback hne _ ih => exact ih (hp.step h hback hne)

/-- A trace is found by a walk that ends at a seed, or at a path edge whose fact was generated from
the zero fact one step before.

**Proof sketch.** Induction on the fuel; the search takes the steps of the walk. -/
lemma Grounded.walksTo_of_traceFrom (h : Grounded P true entries s) {target : PathEdge δ}
    {fuel : Nat} {e : PathEdge δ} {calls : List (PathEdge δ)} {later t : Trace δ}
    (hp : Passes P s target e calls later)
    (ht : P.traceFrom s target fuel e calls later = .ok t) :
    ∃ e₀ calls₀ later₀, WalksTo P s e calls later e₀ calls₀ later₀ ∧
      ((s.links[e₀]? = some (some .seed) ∧ t = (e₀.site, e₀.fact) :: later₀) ∨
        ∃ e' calls', s.GoesBack e₀ calls₀ e' calls' ∧ e'.fact = P.zero ∧
          t = (e'.site, e₀.fact) :: (e₀.site, e₀.fact) :: later₀) := by
  induction fuel generalizing e calls later with
  | zero => cases ht
  | succ fuel ih =>
    obtain ⟨l, hl, -⟩ := h.exists_link hp.found
    by_cases hseed : l = .seed
    · subst hseed
      have heq : t = (e.site, e.fact) :: later := by
        rw [FlowProblem.traceFrom] at ht
        simp only [hl, Except.ok.injEq] at ht
        exact ht.symm
      exact ⟨e, calls, later, .refl _ _ _, Or.inl ⟨hl, heq⟩⟩
    · obtain ⟨e', calls', hback⟩ := exists_goesBack hl hseed calls
      rw [traceFrom_succ_of_goesBack hback] at ht
      by_cases hzero : e'.fact = P.zero
      · rw [if_pos hzero, Except.ok.injEq] at ht
        exact ⟨e, calls, later, .refl _ _ _, Or.inr ⟨e', calls', hback, hzero, ht.symm⟩⟩
      · rw [if_neg hzero] at ht
        obtain ⟨e₀, calls₀, later₀, hwalk, hend⟩ := ih (hp.step h hback hzero) ht
        exact ⟨e₀, calls₀, later₀, .back hback hzero hwalk, hend⟩

/-- The trace of a path edge is found by the search. -/
lemma Grounded.walksTo_of_trace (h : Grounded P true entries s) {e : PathEdge δ} {t : Trace δ}
    (he : e ∈ s.found) (ht : P.trace true s e = .ok t) :
    Passes P s e e [] [] ∧ ∃ e₀ calls₀ later₀, WalksTo P s e [] [] e₀ calls₀ later₀ ∧
      ((s.links[e₀]? = some (some .seed) ∧ t = (e₀.site, e₀.fact) :: later₀) ∨
        ∃ e' calls', s.GoesBack e₀ calls₀ e' calls' ∧ e'.fact = P.zero ∧
          t = (e'.site, e₀.fact) :: (e₀.site, e₀.fact) :: later₀) := by
  unfold FlowProblem.trace at ht
  by_cases hzero : e.fact = P.zero
  · simp [hzero] at ht
  · have hp : Passes P s e e [] [] := Passes.start he hzero
    have hsearch : P.traceFrom s e (s.edges.size + 1) e [] [] = .ok t := by
      simpa [hzero] using ht
    exact ⟨hp, h.walksTo_of_traceFrom hp hsearch⟩

/-- **A trace explains its fact**: it is a path of the supergraph to the path edge, from an initial
fact or from the statement that generated the fact. -/
lemma Grounded.explains_of_trace (h : Grounded P true entries s) {e : PathEdge δ} {t : Trace δ}
    (he : e ∈ s.found) (ht : P.trace true s e = .ok t) :
    P.Explains entries s.found t ∧ t.getLast? = some (e.site, e.fact) ∧ e.fact ≠ P.zero := by
  obtain ⟨hstart, e₀, calls₀, later₀, hwalk, hend⟩ := h.walksTo_of_trace he ht
  have hp := hstart.walk h hwalk
  rcases hend with ⟨hl, rfl⟩ | ⟨e', calls', hback, hzero, rfl⟩
  · refine ⟨?_, hp.last, hstart.nonzero⟩
    have hchain := hp.chain
    have hne := hp.nonzero
    cases h.follows_of_link hp.found hl with
    | seed hm hd =>
      rcases List.mem_cons.mp hd with hd | hd
      · exact absurd hd hne
      · exact .initial hm hd hchain
  · refine ⟨?_, by rw [List.getLast?_cons_cons]; exact hp.last, hstart.nonzero⟩
    obtain ⟨hstep, -⟩ := h.nested_of_goesBack hback hp.found hp.awaits
    rw [hzero] at hstep
    obtain ⟨hfound, -⟩ := h.found_of_goesBack hback hp.found hp.awaits
    exact .generated hfound hzero hp.nonzero hstep hp.chain

/-- The trace starts at the seed `e₀`, and the walk back comes there with the calls `pending`. -/
def BackToSeed (P : FlowProblem δ) (s : Tabulation δ) (e : PathEdge δ) (t : Trace δ)
    (e₀ : PathEdge δ) (pending : List (PathEdge δ)) : Prop :=
  ∃ later, WalksTo P s e [] [] e₀ pending later ∧ s.links[e₀]? = some (some .seed) ∧
    t = (e₀.site, e₀.fact) :: later

end Tabulation

namespace FlowProblem

/-- **When calls and returns are matched.** In every run that retains links, consider a trace that
starts at a seed, an initial fact at the entry of an entry method. Its calls and returns are
matched, if the frames of the calls that are pending at the seed are open in front of it. Calls can
be pending there only if some call enters the entry method with the very fact that is seeded; if
none does, the calls and returns of the trace are matched, and it returns from no method that it has
not called. -/
theorem nested_of_backToSeed (P : FlowProblem δ) (budget : Int) (cancelled : Bool)
    (entries : List MethodRef) (s : Tabulation δ) (outcome : SolveOutcome)
    (h : P.solve true budget cancelled entries = (s, outcome)) (e : PathEdge δ)
    (he : s.reached e = true) (t : Trace δ) (ht : P.trace true s e = .ok t) (e₀ : PathEdge δ)
    (pending : List (PathEdge δ)) (hseed : Tabulation.BackToSeed P s e t e₀ pending) :
    (∃ m ∈ entries, ∃ d ∈ P.initial (P.graph m), e₀ = P.entryEdge m d ∧
        t.head? = some (P.entrySite m, d)) ∧
      P.Nested (framesOf e₀.method pending) t ∧
      (pending ≠ [] → ∃ c, s.reached c = true ∧ P.Enters c.site c.fact e₀.method e₀.fact) ∧
      ((∀ c, s.reached c = true → ¬ P.Enters c.site c.fact e₀.method e₀.fact) →
        P.Nested [] t) := by
  have hg := (Tabulation.Invariant.of_solve h).toGrounded
  obtain ⟨later, hwalk, hl, rfl⟩ := hseed
  obtain ⟨hstart, -⟩ := hg.walksTo_of_trace ((hg.reached_iff e).mp he) ht
  have hp := hstart.walk hg hwalk
  have hentry : ∃ m ∈ entries, ∃ d ∈ P.initial (P.graph m), e₀ = P.entryEdge m d := by
    have hne := hp.nonzero
    cases hg.follows_of_link hp.found hl with
    | @seed m d hm hd =>
      rcases List.mem_cons.mp hd with hd | hd
      · exact absurd hd hne
      · exact ⟨m, hm, d, hd, rfl⟩
  obtain ⟨m, hm, d, hd, rfl⟩ := hentry
  have hpending : pending ≠ [] →
      ∃ c, s.reached c = true ∧ P.Enters c.site c.fact m d := by
    intro hne
    cases pending with
    | nil => exact absurd rfl hne
    | cons c calls => exact ⟨c, (hg.reached_iff c).mpr hp.awaits.1, hp.awaits.2.1⟩
  refine ⟨⟨m, hm, d, hd, rfl, rfl⟩, hp.nested, hpending, ?_⟩
  intro hnone
  have hempty : pending = [] := by
    by_contra hne
    obtain ⟨c, hc, henters⟩ := hpending hne
    exact hnone c hc henters
  have hnested := hp.nested
  rw [hempty] at hnested
  exact hnested

end FlowProblem

/-- The trace behind the call of a relay: it enters the body from that call and returns to it, and
no call enters the entry method. -/
theorem relay_nested_of_backToSeed :
    ∃ (s : Tabulation Bool) (e e₀ : PathEdge Bool) (t : Trace Bool),
      (relay 1 1).solve true 0 false [relayMain] = (s, .complete) ∧ s.reached e = true ∧
      (relay 1 1).trace true s e = .ok t ∧ Tabulation.BackToSeed (relay 1 1) s e t e₀ [] ∧
      t = [(⟨relayMain, 0⟩, true), (⟨relayBody, 0⟩, true), (⟨relayBody, 1⟩, true),
        (⟨relayMain, 1⟩, true)] ∧ (relay 1 1).Nested [] t := by
  have hrun : (fun r : Tabulation Bool × SolveOutcome => (r.2,
      r.1.reached ⟨relayMain, true, 1, true⟩,
      (relay 1 1).trace true r.1 ⟨relayMain, true, 1, true⟩,
      r.1.links[(⟨relayMain, true, 1, true⟩ : PathEdge Bool)]?,
      r.1.links[(⟨relayBody, true, 1, true⟩ : PathEdge Bool)]?,
      r.1.links[(⟨relayBody, true, 0, true⟩ : PathEdge Bool)]?,
      r.1.links[(⟨relayMain, true, 0, true⟩ : PathEdge Bool)]?))
      ((relay 1 1).solve true 0 false [relayMain]) =
      (.complete, true,
        .ok [(⟨relayMain, 0⟩, true), (⟨relayBody, 0⟩, true), (⟨relayBody, 1⟩, true),
          (⟨relayMain, 1⟩, true)],
        some (some (.ret ⟨relayMain, true, 0, true⟩ ⟨relayBody, true, 1, true⟩)),
        some (some (.intra ⟨relayBody, true, 0, true⟩)),
        some (some (.call ⟨relayMain, true, 0, true⟩)), some (some .seed)) := by
    cbv
  simp only [Prod.mk.injEq] at hrun
  obtain ⟨hcomplete, he, ht, hleft, hinside, hentered, hseeded⟩ := hrun
  have hs := solve_eq_of_snd hcomplete
  generalize ((relay 1 1).solve true 0 false [relayMain]).1 = s at *
  have hback : Tabulation.BackToSeed (relay 1 1) s ⟨relayMain, true, 1, true⟩
      [(⟨relayMain, 0⟩, true), (⟨relayBody, 0⟩, true), (⟨relayBody, 1⟩, true),
        (⟨relayMain, 1⟩, true)] ⟨relayMain, true, 0, true⟩ [] := by
    refine ⟨_, ?_, hseeded, rfl⟩
    refine .back (.ret hleft) (by decide) ?_
    refine .back (.intra hinside) (by decide) ?_
    exact .back (.close hentered) (by decide) (.refl _ _ _)
  obtain ⟨-, -, -, hnested⟩ := FlowProblem.nested_of_backToSeed (relay 1 1) 0 false _ _ _ hs _ he _
    ht _ _ hback
  refine ⟨s, _, _, _, hs, he, ht, hback, rfl, hnested ?_⟩
  rintro c - ⟨-, htarget, -⟩
  have hbody : relayMain ∈ [relayBody] := htarget
  revert hbody
  decide

/-! ## An entry method that calls itself -/

/-- The method that calls itself. -/
def echoRef : MethodRef := ⟨"Echo", "turn", "()V"⟩

/-- A method that either returns at once, or calls itself and returns then. -/
def echoGraph : FlowGraph where
  ref := echoRef
  modifiers := default
  params := []
  statements := #[
    { offset := 0, action := .branch ⟨.eq, .const "0" "I", .const "0" "I"⟩ 3 },
    { offset := 1, action := .invoke none ⟨.static, echoRef, none, []⟩ },
    { offset := 2, action := .ret none },
    { offset := 3, action := .ret none }]
  succs := #[
    [{ source := 0, target := 3, kind := .onTrue }, { source := 0, target := 1, kind := .onFalse }],
    [{ source := 1, target := 2, kind := .normal }], [], []]
  exits := [2, 3]

/-- The fact `true` holds on entry to the method and goes through its call. -/
def echo : FlowProblem Bool where
  zero := false
  graph _ := echoGraph
  callees _ _ := some [echoRef]
  initial _ := [true]
  normal _ _ _ d := [d]
  callToReturn _ _ _ _ d := if d then [] else [d]
  enter _ _ _ d := [d]
  leave _ _ _ _ _ d := if d then [d] else []

/-- **A return without a call.** The entry method calls itself with the fact that it is seeded with.
The walk back from behind the call goes through the called method to its entry and stops there,
since the entry is seeded, although the call is still pending. So the trace goes from the entry to a
return statement and on to the successor of a call that it has not passed. -/
theorem echo_trace_not_nested :
    ∃ (s : Tabulation Bool) (e e₀ : PathEdge Bool) (pending : List (PathEdge Bool))
      (t : Trace Bool),
      echo.solve true 0 false [echoRef] = (s, .complete) ∧ s.reached e = true ∧
      echo.trace true s e = .ok t ∧ Tabulation.BackToSeed echo s e t e₀ pending ∧
      t = [(⟨echoRef, 0⟩, true), (⟨echoRef, 3⟩, true), (⟨echoRef, 2⟩, true)] ∧
      ¬ echo.Nested [] t := by
  have hrun : (fun r : Tabulation Bool × SolveOutcome => (r.2,
      r.1.reached ⟨echoRef, true, 2, true⟩,
      echo.trace true r.1 ⟨echoRef, true, 2, true⟩,
      r.1.links[(⟨echoRef, true, 2, true⟩ : PathEdge Bool)]?,
      r.1.links[(⟨echoRef, true, 3, true⟩ : PathEdge Bool)]?,
      r.1.links[(⟨echoRef, true, 0, true⟩ : PathEdge Bool)]?))
      (echo.solve true 0 false [echoRef]) =
      (.complete, true,
        .ok [(⟨echoRef, 0⟩, true), (⟨echoRef, 3⟩, true), (⟨echoRef, 2⟩, true)],
        some (some (.ret ⟨echoRef, true, 1, true⟩ ⟨echoRef, true, 3, true⟩)),
        some (some (.intra ⟨echoRef, true, 0, true⟩)), some (some .seed)) := by
    cbv
  simp only [Prod.mk.injEq] at hrun
  obtain ⟨hcomplete, he, ht, hleft, hinside, hseeded⟩ := hrun
  have hs := solve_eq_of_snd hcomplete
  generalize (echo.solve true 0 false [echoRef]).1 = s at *
  have hback : Tabulation.BackToSeed echo s ⟨echoRef, true, 2, true⟩
      [(⟨echoRef, 0⟩, true), (⟨echoRef, 3⟩, true), (⟨echoRef, 2⟩, true)] ⟨echoRef, true, 0, true⟩
      [⟨echoRef, true, 1, true⟩] := by
    refine ⟨_, ?_, hseeded, rfl⟩
    refine .back (.ret hleft) (by decide) ?_
    exact .back (.intra hinside) (by decide) (.refl _ _ _)
  refine ⟨s, _, _, _, _, hs, he, ht, hback, rfl, ?_⟩
  -- the first step stays in the method, and the second one starts at a return
  intro hnested
  cases hnested with
  | inner _ hrest =>
    exact FlowProblem.not_nested_of_final (by decide) (by unfold FlowProblem.AtCall; decide) _ _
      hrest
  | enter hstep _ => cases hstep

end JvmTaint
