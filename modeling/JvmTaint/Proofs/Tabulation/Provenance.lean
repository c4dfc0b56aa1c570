import JvmTaint.Proofs.Tabulation.Exactness
import JvmTaint.Tabulation.Trace

set_option autoImplicit false
set_option relaxedAutoImplicit false

/-!
# Going back along links

A trace is found by going back from a path edge along its links. Links lead to path edges that were
found earlier, except that after a return the walk goes through the called method and then on to the
call of that return, which may have been found later than the entry of the method. The walk ends
nevertheless, for every path edge of a tabulation that retains links.

The number of path edges on the way is another matter. A method is passed once per return, so the
walk can be longer than there are path edges. The search for a trace gives up after one more step
than there are path edges, hence it finds a trace exactly if the walk is not longer than that.

## Main definitions

* `JvmTaint.Tabulation.GoesBack`: one step back.
* `JvmTaint.Tabulation.Walk`: the walk back from a path edge, with the number of path edges on it.

## Main results

* `JvmTaint.Tabulation.Grounded.exists_walk`: the walk back from every path edge ends.
* `JvmTaint.Tabulation.Walk.traceFrom_ok`, `JvmTaint.Tabulation.Walk.traceFrom_cyclic`: the search
  for a trace succeeds if and only if it has fuel for the walk.
* `JvmTaint.FlowProblem.trace_ok_iff_walk_le`: when a path edge has a trace.
* `JvmTaint.relay_trace_cyclic`: a path edge whose trace is not found.

## Design

The walk is a relation, so that its termination is a theorem about the links and not about fuel. The
measure is nested. Inside a method the walk goes back to an entry of the method with the open calls
that it started with, by induction on the position of the path edge; a return contributes the walk
through the called method and the walk from its call, which both start earlier. Only from an entry
that no return has led to does it go on in a caller, again at an earlier position.
-/

namespace JvmTaint

variable {δ : Type} [DecidableEq δ] [Hashable δ]

namespace Tabulation

/-! ## The walk -/

/-- From the path edge `e` the walk goes back to `e'`. The calls of the returns that were passed are
open, the last one first: they change from `calls` to `calls'`. -/
inductive GoesBack (s : Tabulation δ) :
    PathEdge δ → List (PathEdge δ) → PathEdge δ → List (PathEdge δ) → Prop
  | intra {e pred : PathEdge δ} {calls : List (PathEdge δ)}
      (hl : s.links[e]? = some (some (.intra pred))) : GoesBack s e calls pred calls
  | callToReturn {e pred : PathEdge δ} {calls : List (PathEdge δ)}
      (hl : s.links[e]? = some (some (.callToReturn pred))) : GoesBack s e calls pred calls
  /-- A return opens its call; the walk goes through the method that was left. -/
  | ret {e pred exit : PathEdge δ} {calls : List (PathEdge δ)}
      (hl : s.links[e]? = some (some (.ret pred exit))) : GoesBack s e calls exit (pred :: calls)
  /-- At its entry the method is left to the open call, whatever call it was first entered from. -/
  | close {e pred call : PathEdge δ} {calls : List (PathEdge δ)}
      (hl : s.links[e]? = some (some (.call pred))) : GoesBack s e (call :: calls) call calls
  | enter {e pred : PathEdge δ} (hl : s.links[e]? = some (some (.call pred))) :
      GoesBack s e [] pred []

/-- The walk back from a path edge ends after `n` path edges: at a seed, or where the fact was
generated from the zero fact. -/
inductive Walk (P : FlowProblem δ) (s : Tabulation δ) : PathEdge δ → List (PathEdge δ) → Nat → Prop
  | seed {e : PathEdge δ} {calls : List (PathEdge δ)} (hl : s.links[e]? = some (some .seed)) :
      Walk P s e calls 1
  | generated {e e' : PathEdge δ} {calls calls' : List (PathEdge δ)}
      (hback : s.GoesBack e calls e' calls') (hzero : e'.fact = P.zero) : Walk P s e calls 1
  | back {e e' : PathEdge δ} {calls calls' : List (PathEdge δ)} {n : Nat}
      (hback : s.GoesBack e calls e' calls') (hzero : e'.fact ≠ P.zero)
      (hwalk : Walk P s e' calls' n) : Walk P s e calls (n + 1)

variable {P : FlowProblem δ} {entries : List MethodRef} {s : Tabulation δ}

/-- There is one way back. -/
lemma GoesBack.unique {e e₁ e₂ : PathEdge δ} {calls calls₁ calls₂ : List (PathEdge δ)}
    (h₁ : s.GoesBack e calls e₁ calls₁) (h₂ : s.GoesBack e calls e₂ calls₂) :
    e₁ = e₂ ∧ calls₁ = calls₂ := by
  cases h₁ <;> cases h₂ <;> simp_all

/-- No step leads back from a seed. -/
lemma GoesBack.not_seed {e e' : PathEdge δ} {calls calls' : List (PathEdge δ)}
    (h : s.GoesBack e calls e' calls') : s.links[e]? ≠ some (some .seed) := by
  cases h <;> simp_all

/-- The walk back from a path edge has one length. -/
lemma Walk.unique {e : PathEdge δ} {calls : List (PathEdge δ)} {n n' : Nat}
    (h : Walk P s e calls n) (h' : Walk P s e calls n') : n' = n := by
  induction h generalizing n' with
  | seed hl =>
    cases h' with
    | seed => rfl
    | generated hback => exact absurd hl hback.not_seed
    | back hback => exact absurd hl hback.not_seed
  | generated hback hzero =>
    cases h' with
    | seed => rfl
    | generated => rfl
    | back hback' hzero' =>
      obtain ⟨rfl, -⟩ := hback.unique hback'
      exact absurd hzero hzero'
  | back hback hzero _ ih =>
    cases h' with
    | seed hl => exact absurd hl hback.not_seed
    | generated hback' hzero' =>
      obtain ⟨rfl, -⟩ := hback.unique hback'
      exact absurd hzero' hzero
    | back hback' _ hwalk' =>
      obtain ⟨rfl, rfl⟩ := hback.unique hback'
      rw [ih hwalk']

/-- A step back is the start of a walk, if the walk goes on from there unless the fact is zero. -/
lemma GoesBack.exists_walk {e e' : PathEdge δ} {calls calls' : List (PathEdge δ)}
    (h : s.GoesBack e calls e' calls') (hrest : e'.fact ≠ P.zero → ∃ n, Walk P s e' calls' n) :
    ∃ n, Walk P s e calls n := by
  by_cases hzero : e'.fact = P.zero
  · exact ⟨1, .generated h hzero⟩
  · obtain ⟨n, hwalk⟩ := hrest hzero
    exact ⟨n + 1, .back h hzero hwalk⟩

/-! ## The walk ends -/

/-- The walk from `e` ends whenever it ends from `e'` with the same open calls. -/
def LeadsTo (P : FlowProblem δ) (s : Tabulation δ) (e e' : PathEdge δ) : Prop :=
  ∀ calls, (∃ n, Walk P s e' calls n) → ∃ n, Walk P s e calls n

/-- The walk from `e` ends inside the method of `e`, or comes to the entry of the method with the
calls open that were open at `e`. This entry is at no later position than `i`. -/
def LeavesMethod (P : FlowProblem δ) (s : Tabulation δ) (i : Nat) (e : PathEdge δ) : Prop :=
  (∀ calls, ∃ n, Walk P s e calls n) ∨
    ∃ j ≤ i, ∃ e' pred, s.edges[j]? = some e' ∧ s.links[e']? = some (some (.call pred)) ∧
      LeadsTo P s e e'

/-- If one step leads back inside the method, the rest of the way is the one from there. -/
lemma LeavesMethod.of_goesBack {i j : Nat} {e e' : PathEdge δ} (hj : j < i)
    (hback : ∀ calls, s.GoesBack e calls e' calls)
    (h : e'.fact ≠ P.zero → LeavesMethod P s j e') : LeavesMethod P s i e := by
  by_cases hzero : e'.fact = P.zero
  · exact Or.inl fun calls => (hback calls).exists_walk fun hne => absurd hzero hne
  · rcases h hzero with hends | ⟨k, hk, e'', pred, hget, hl, hleads⟩
    · exact Or.inl fun calls => (hback calls).exists_walk fun _ => hends calls
    · exact Or.inr ⟨k, by omega, e'', pred, hget, hl, fun calls hwalk =>
        (hback calls).exists_walk fun _ => hleads calls hwalk⟩

/-- After a return the walk goes through the method that was left, and on from the call.

**Proof sketch.** With the call open, the walk from the exit ends or comes to the entry of the left
method. From there it goes to the call, with the calls open that were open before the return. -/
lemma LeavesMethod.of_ret {i j k : Nat} {e c x : PathEdge δ} (hk : k < i)
    (hl : s.links[e]? = some (some (.ret c x))) (hx : LeavesMethod P s j x)
    (hc : LeavesMethod P s k c) : LeavesMethod P s i e := by
  rcases hx with hends | ⟨-, -, entry, pred, -, hcall, hleads⟩
  · exact Or.inl fun calls => (GoesBack.ret hl).exists_walk fun _ => hends _
  -- from the exit the walk ends if it ends from the call
  have hthrough : ∀ calls, (c.fact ≠ P.zero → ∃ n, Walk P s c calls n) →
      ∃ n, Walk P s e calls n := by
    intro calls hrest
    refine (GoesBack.ret hl).exists_walk fun _ => hleads _ ?_
    exact (GoesBack.close hcall).exists_walk hrest
  rcases hc with hends | ⟨k', hk', entry', pred', hget, hcall', hleads'⟩
  · exact Or.inl fun calls => hthrough calls fun _ => hends calls
  · exact Or.inr ⟨k', by omega, entry', pred', hget, hcall', fun calls hwalk =>
      hthrough calls fun _ => hleads' calls hwalk⟩

/-- From every path edge the walk ends or leaves the method.

**Proof sketch.** Strong induction on the position. The premises that the link names are at earlier
positions, where the claim holds. -/
lemma Grounded.leavesMethod (h : Grounded P true entries s) (i : Nat) (e : PathEdge δ)
    (hi : s.edges[i]? = some e) : LeavesMethod P s i e := by
  induction i using Nat.strong_induction_on generalizing e with
  | _ i ih =>
    obtain ⟨l, hf, hl⟩ := h.justified i e hi
    rw [if_pos rfl] at hl
    cases hf with
    | seed => exact Or.inl fun calls => ⟨1, .seed hl⟩
    | intra hpred =>
      obtain ⟨j, hj, hget⟩ := exists_lt_of_mem_foundBefore hpred
      exact .of_goesBack hj (fun _ => .intra hl) fun _ => ih j hj _ hget
    | callToReturn hpred =>
      obtain ⟨j, hj, hget⟩ := exists_lt_of_mem_foundBefore hpred
      exact .of_goesBack hj (fun _ => .callToReturn hl) fun _ => ih j hj _ hget
    | call => exact Or.inr ⟨i, le_rfl, _, _, hi, hl, fun _ hwalk => hwalk⟩
    | ret hc hx =>
      obtain ⟨k, hk, hgetc⟩ := exists_lt_of_mem_foundBefore hc
      obtain ⟨j, hj, hgetx⟩ := exists_lt_of_mem_foundBefore hx
      exact .of_ret hk hl (ih j hj _ hgetx) (ih k hk _ hgetc)

/-- **The walk back from every path edge ends.**

**Proof sketch.** Strong induction on the position. The walk ends inside the method or comes to its
entry with no open call. From there it goes to the call that first entered the method, which is at
an earlier position. -/
lemma Grounded.exists_walk (h : Grounded P true entries s) (i : Nat) (e : PathEdge δ)
    (hi : s.edges[i]? = some e) : ∃ n, Walk P s e [] n := by
  induction i using Nat.strong_induction_on generalizing e with
  | _ i ih =>
    rcases h.leavesMethod i e hi with hends | ⟨j, hj, e', pred, hget, hcall, hleads⟩
    · exact hends []
    refine hleads [] ((GoesBack.enter hcall).exists_walk fun _ => ?_)
    obtain ⟨l, hf, hl⟩ := h.justified j e' hget
    rw [if_pos rfl, hcall] at hl
    obtain rfl : Link.call pred = l := Option.some.inj (Option.some.inj hl)
    cases hf with
    | call hpred =>
      obtain ⟨k, hk, hgetk⟩ := exists_lt_of_mem_foundBefore hpred
      exact ih k (by omega) pred hgetk

/-! ## The search for a trace -/

/-- One step of the search for a trace. -/
lemma traceFrom_succ_of_goesBack {e e' : PathEdge δ} {calls calls' : List (PathEdge δ)}
    (h : s.GoesBack e calls e' calls') (target : PathEdge δ) (fuel : Nat) (later : Trace δ) :
    P.traceFrom s target (fuel + 1) e calls later =
      if e'.fact = P.zero then .ok ((e'.site, e.fact) :: (e.site, e.fact) :: later)
      else P.traceFrom s target fuel e' calls' ((e.site, e.fact) :: later) := by
  rw [FlowProblem.traceFrom]
  cases h <;> simp [*]

/-- With fuel for the walk the search finds a trace. -/
lemma Walk.traceFrom_ok {e : PathEdge δ} {calls : List (PathEdge δ)} {n : Nat}
    (h : Walk P s e calls n) (target : PathEdge δ) {fuel : Nat} (hfuel : n ≤ fuel)
    (later : Trace δ) : ∃ t, P.traceFrom s target fuel e calls later = .ok t := by
  induction h generalizing fuel later with
  | @seed e calls hl =>
    obtain ⟨fuel, rfl⟩ : ∃ k, fuel = k + 1 := ⟨fuel - 1, by omega⟩
    exact ⟨(e.site, e.fact) :: later, by simp [FlowProblem.traceFrom, hl]⟩
  | generated hback hzero =>
    obtain ⟨fuel, rfl⟩ : ∃ k, fuel = k + 1 := ⟨fuel - 1, by omega⟩
    rw [traceFrom_succ_of_goesBack hback, if_pos hzero]
    exact ⟨_, rfl⟩
  | back hback hzero _ ih =>
    obtain ⟨fuel, rfl⟩ : ∃ k, fuel = k + 1 := ⟨fuel - 1, by omega⟩
    rw [traceFrom_succ_of_goesBack hback, if_neg hzero]
    exact ih (by omega) _

/-- With less fuel than the walk takes, the search gives up. -/
lemma Walk.traceFrom_cyclic {e : PathEdge δ} {calls : List (PathEdge δ)} {n : Nat}
    (h : Walk P s e calls n) (target : PathEdge δ) {fuel : Nat} (hfuel : fuel < n)
    (later : Trace δ) : P.traceFrom s target fuel e calls later = .error (.cyclic target) := by
  induction h generalizing fuel later with
  | seed =>
    obtain rfl : fuel = 0 := by omega
    rfl
  | generated =>
    obtain rfl : fuel = 0 := by omega
    rfl
  | back hback hzero _ ih =>
    cases fuel with
    | zero => rfl
    | succ fuel =>
      rw [traceFrom_succ_of_goesBack hback, if_neg hzero]
      exact ih (by omega) _

end Tabulation

namespace FlowProblem

/-- **When a path edge has a trace.** In a complete tabulation that retains links, the walk back
from every path edge ends, after a number of path edges that is determined by the path edge. The
trace of a path edge whose fact is not zero is found if and only if the walk takes at most one more
path edge than there are; otherwise the search gives up and reports a cycle, although there is
none. -/
theorem trace_ok_iff_walk_le (P : FlowProblem δ) (budget : Int) (cancelled : Bool)
    (entries : List MethodRef) (s : Tabulation δ)
    (h : P.solve true budget cancelled entries = (s, .complete)) (e : PathEdge δ)
    (he : s.reached e = true) (hzero : e.fact ≠ P.zero) :
    ∃ n, Tabulation.Walk P s e [] n ∧ (∀ n', Tabulation.Walk P s e [] n' → n' = n) ∧
      ((∃ t, P.trace true s e = .ok t) ↔ n ≤ s.edges.size + 1) ∧
      (s.edges.size + 1 < n → P.trace true s e = .error (.cyclic e)) := by
  have hg := (Tabulation.Invariant.of_solve h).toGrounded
  obtain ⟨i, hi, hget⟩ := Array.getElem_of_mem ((hg.reached_iff e).mp he)
  obtain ⟨n, hwalk⟩ := hg.exists_walk i e (by rw [Array.getElem?_eq_getElem hi, hget])
  have htrace : P.trace true s e = P.traceFrom s e (s.edges.size + 1) e [] [] := by
    simp [trace, hzero]
  have hcyclic : s.edges.size + 1 < n → P.trace true s e = .error (.cyclic e) := by
    intro hlt
    rw [htrace]
    exact hwalk.traceFrom_cyclic e hlt []
  refine ⟨n, hwalk, fun n' hwalk' => hwalk.unique hwalk', ⟨?_, ?_⟩, hcyclic⟩
  · rintro ⟨t, ht⟩
    by_contra hlt
    rw [hcyclic (by omega)] at ht
    exact absurd ht (by simp)
  · intro hle
    rw [htrace]
    exact hwalk.traceFrom_ok e hle []

end FlowProblem

/-- The way back from the end of a relay with three calls: it takes 13 path edges, since the body is
passed three times, and there are 11. -/
theorem relay_trace_ok_iff_walk_le :
    ∃ s n, (relay 3 2).solve true 0 false [relayMain] = (s, .complete) ∧
      s.reached ⟨relayMain, true, 3, true⟩ = true ∧
      Tabulation.Walk (relay 3 2) s ⟨relayMain, true, 3, true⟩ [] n ∧
      ((∃ t, (relay 3 2).trace true s ⟨relayMain, true, 3, true⟩ = .ok t) ↔
        n ≤ s.edges.size + 1) := by
  obtain ⟨s, hs, hreached⟩ := relayTabulation
  obtain ⟨n, hwalk, -, hiff, -⟩ :=
    FlowProblem.trace_ok_iff_walk_le (relay 3 2) 0 false _ _ hs _ hreached (by decide)
  exact ⟨s, n, hs, hreached, hwalk, hiff⟩

/-- The trace of a path edge is not always found: in a relay with three calls of a body of three
statements the tabulation is complete and retains links, the fact on entry reaches the end, and the
search for its trace gives up. -/
theorem relay_trace_cyclic :
    ∃ s, (relay 3 2).solve true 0 false [relayMain] = (s, .complete) ∧
      s.reached ⟨relayMain, true, 3, true⟩ = true ∧
      (⟨relayMain, true, 3, true⟩ : PathEdge Bool).fact ≠ (relay 3 2).zero ∧
      (relay 3 2).trace true s ⟨relayMain, true, 3, true⟩ =
        .error (.cyclic ⟨relayMain, true, 3, true⟩) := by
  obtain ⟨hs, hreached⟩ := relayTabulation.property
  exact ⟨_, hs, hreached, by decide, by cbv⟩

end JvmTaint
