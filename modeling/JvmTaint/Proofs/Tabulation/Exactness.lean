import JvmTaint.Proofs.Tabulation.Invariant
import Mathlib.Data.List.Permutation

set_option autoImplicit false
set_option relaxedAutoImplicit false

/-!
# Exactness of the tabulation

A tabulation that has come to its end holds exactly the least set of path edges that is closed
under the five rules. So what it finds depends neither on the order in which path edges are
processed, nor on the order and the repetition of entry methods, targets and facts.

## Main definitions

* `JvmTaint.relay`: a method that hands a fact through several calls of another one.

## Main results

* `JvmTaint.Tabulation.Invariant.closed`: when no path edge waits, the path edges are closed under
  the rules.
* `JvmTaint.Tabulation.Grounded.induction`: a property of path edges that the rules keep.
* `JvmTaint.Tabulation.Grounded.found_subset`: every path edge is in every closed set.
* `JvmTaint.FlowProblem.reached_isLeast_closed`: a complete tabulation is exact.

## Design

Closedness is read off the loop invariant, once every path edge is handled. The return rule has two
premises, a caller and an exit. Both are registered for the same method and fact, and the invariant
says that they have been combined. Minimality needs only that each path edge follows from earlier
ones, by induction on its position.
-/

namespace JvmTaint

variable {δ : Type} [DecidableEq δ] [Hashable δ]

namespace Tabulation

variable {P : FlowProblem δ} {retain : Bool} {entries : List MethodRef} {s : Tabulation δ}

/-- When no path edge waits, the path edges are closed under the rules.

**Proof sketch.** All premises of a rule are found, hence handled. For the first four rules this is
what being handled says. For a return, the caller is registered with the method that it entered and
the exit as a summary of it, under the same fact, so they have been combined. -/
lemma Invariant.closed (h : Invariant P retain entries s) (hpending : s.pending = 0) :
    P.Closed entries s.found := by
  have hall : ∀ e ∈ s.found, Handled P s e := by
    intro e he
    refine h.handled e ?_
    have hle : s.edges.size ≤ s.processed := by unfold pending at hpending; omega
    show e ∈ s.edges.toList.take s.processed
    rw [List.take_of_length_le (by simpa using hle)]
    exact Array.mem_toList_iff.mpr he
  intro e l hf
  cases hf with
  | seed hm hd => exact h.seeded _ hm _ hd
  | intra he hedge hkind hd => exact (hall _ he).intra _ hedge hkind _ hd
  | callToReturn hc hcall hedge hkind hd => exact (hall _ hc).callToReturn hcall _ hedge hkind _ hd
  | call hc henters => exact ((hall _ hc).entered _ _ henters).1
  | @ret c x edge d hc hx henters hexit hedge hkind hd =>
    have hcaller := ((hall c hc).entered _ _ henters).2
    have hsummary := (hall x hx).summarized hexit
    exact h.returned _ c hcaller x hsummary (c.along edge d, .ret c x)
      (FlowProblem.mem_returnItems.mpr ⟨edge, hedge, hkind, d, hd, rfl, rfl⟩)

/-- What follows by a rule from path edges that were found and have a property has the property as
well: then all path edges that were found have it.

**Proof sketch.** Strong induction on the position of the path edge. It follows from path edges at
earlier positions, which have the property. -/
lemma Grounded.induction (h : Grounded P retain entries s) {Q : PathEdge δ → Prop}
    (hQ : ∀ e l, P.Follows entries {e' | e' ∈ s.found ∧ Q e'} e l → Q e) : ∀ e ∈ s.found, Q e := by
  have hpos : ∀ (i : Nat) (e : PathEdge δ), s.edges[i]? = some e → Q e := by
    intro i
    induction i using Nat.strong_induction_on with
    | _ i ih =>
      intro e hi
      obtain ⟨l, hf, -⟩ := h.justified i e hi
      refine hQ e l (hf.mono ?_)
      intro e' he'
      obtain ⟨j, hj, hget⟩ := List.mem_take_iff_getElem.mp he'
      have hlt : j < i := by omega
      have hat : s.edges[j]? = some e' := by
        rw [← Array.getElem?_toList, List.getElem?_eq_getElem (by omega), hget]
      exact ⟨Array.mem_of_getElem? hat, ih j hlt e' hat⟩
  intro e he
  obtain ⟨i, hi, hget⟩ := Array.getElem_of_mem he
  exact hpos i e (by rw [Array.getElem?_eq_getElem hi, hget])

/-- Every path edge is in every set that is closed under the rules. -/
lemma Grounded.found_subset (h : Grounded P retain entries s) {S : Set (PathEdge δ)}
    (hS : P.Closed entries S) : s.found ⊆ S :=
  h.induction fun e l hf => hS e l (hf.mono fun _ he => he.2)

/-- The path edges of a complete tabulation are the least closed set. -/
lemma isLeast_found_of_solve {cancelled : Bool} {budget : Int}
    (h : P.solve retain budget cancelled entries = (s, .complete)) :
    IsLeast {S | P.Closed entries S} s.found := by
  have hinv := Invariant.of_solve h
  exact ⟨hinv.closed (pending_of_solve h), fun S hS => hinv.toGrounded.found_subset hS⟩

end Tabulation

namespace FlowProblem

/-- **Exactness of the tabulation.** The path edges that a complete tabulation reached are the least
set that is closed under the five rules. Hence another complete tabulation reaches the same path
edges, if its entry methods are the same up to order and repetition and so are the facts and the
targets that its problem gives. -/
theorem reached_isLeast_closed (P : FlowProblem δ) (retain : Bool) (budget : Int)
    (cancelled : Bool) (entries : List MethodRef) (s : Tabulation δ)
    (h : P.solve retain budget cancelled entries = (s, .complete)) :
    IsLeast {S | P.Closed entries S} {e | s.reached e = true} ∧
      ∀ (Q : FlowProblem δ) (retain' : Bool) (budget' : Int) (cancelled' : Bool)
        (entries' : List MethodRef) (s' : Tabulation δ), P.Equivalent Q →
        (∀ m, m ∈ entries ↔ m ∈ entries') →
        Q.solve retain' budget' cancelled' entries' = (s', .complete) →
        ∀ e, s'.reached e = s.reached e := by
  have hset : ∀ {Q : FlowProblem δ} {retain : Bool} {entries : List MethodRef} {s : Tabulation δ},
      Tabulation.Grounded Q retain entries s → {e | s.reached e = true} = s.found :=
    fun hg => Set.ext fun e => hg.reached_iff e
  have hg := (Tabulation.Invariant.of_solve h).toGrounded
  have hleast := Tabulation.isLeast_found_of_solve h
  refine ⟨by rw [hset hg]; exact hleast, ?_⟩
  intro Q retain' budget' cancelled' entries' s' hPQ hentries h' e
  have hg' := (Tabulation.Invariant.of_solve h').toGrounded
  have hleast' := Tabulation.isLeast_found_of_solve h'
  have hclosed : {S | P.Closed entries S} = {S | Q.Closed entries' S} :=
    Set.ext fun S => closed_iff_of_equivalent hPQ hentries S
  have hfound : s'.found = s.found := hleast'.unique (hclosed ▸ hleast)
  rw [Bool.eq_iff_iff, hg'.reached_iff, hg.reached_iff, hfound]

end FlowProblem

/-! ## A problem -/

/-- The method that hands a fact on. -/
def relayMain : MethodRef := ⟨"Relay", "main", "()V"⟩

/-- The method that is called for it. -/
def relayBody : MethodRef := ⟨"Relay", "body", "()V"⟩

/-- A flow graph that runs through some statements of the same action and returns. -/
def straightLine (ref : MethodRef) (length : Nat) (action : Action Nat) : FlowGraph where
  ref
  modifiers := default
  params := []
  statements := (List.replicate length { offset := 0, action } ++
    [{ offset := 0, action := .ret none }] : List Statement).toArray
  succs := ((List.range length).map (fun i =>
    [{ source := i, target := i + 1, kind := .normal }]) ++ [[]] : List (List Edge)).toArray
  exits := [length]

/-- A method calls another one `calls` times, which runs through `steps` statements before it
returns. The fact `true` holds on entry and goes through each call; `false` is the zero fact and
passes the calls. -/
def relay (calls steps : Nat) : FlowProblem Bool where
  zero := false
  graph m :=
    if m = relayBody then straightLine relayBody steps .nop
    else straightLine relayMain calls (.invoke none ⟨.static, relayBody, none, []⟩)
  callees _ _ := some [relayBody]
  initial _ := [true]
  normal _ _ _ d := [d]
  callToReturn _ _ _ _ d := if d then [] else [d]
  enter _ _ _ d := if d then [d] else []
  leave _ _ _ _ _ d := [d]

/-- A tabulation that ends with an outcome is the pair of its state and this outcome. -/
lemma solve_eq_of_snd {P : FlowProblem δ} {retain cancelled : Bool} {budget : Int}
    {entries : List MethodRef} {outcome : SolveOutcome}
    (h : (P.solve retain budget cancelled entries).2 = outcome) :
    P.solve retain budget cancelled entries =
      ((P.solve retain budget cancelled entries).1, outcome) := by
  rw [← h]

/-- The tabulation of the relay with three calls: it is complete, and the fact on entry reaches its
end. -/
def relayTabulation : { s : Tabulation Bool //
    (relay 3 2).solve true 0 false [relayMain] = (s, .complete) ∧
      s.reached ⟨relayMain, true, 3, true⟩ = true } :=
  ⟨((relay 3 2).solve true 0 false [relayMain]).1, by
    have hrun : (fun r : Tabulation Bool × SolveOutcome =>
        (r.2, r.1.reached ⟨relayMain, true, 3, true⟩))
        ((relay 3 2).solve true 0 false [relayMain]) = (.complete, true) := by
      cbv
    obtain ⟨hcomplete, hreached⟩ := Prod.mk.inj hrun
    exact ⟨solve_eq_of_snd hcomplete, hreached⟩⟩

/-- The relay with three calls of a body of three statements: its path edges are the least closed
set, and naming the entry method twice changes nothing. -/
theorem relay_reached_isLeast_closed :
    ∃ s s', (relay 3 2).solve true 0 false [relayMain] = (s, .complete) ∧
      (relay 3 2).solve false 20 false [relayMain, relayMain] = (s', .complete) ∧
      IsLeast {S | (relay 3 2).Closed [relayMain] S} {e | s.reached e = true} ∧
      ∀ e, s'.reached e = s.reached e := by
  have h' : ((relay 3 2).solve false 20 false [relayMain, relayMain]).2 = .complete := by cbv
  obtain ⟨s, hs, -⟩ := relayTabulation
  have hs' := solve_eq_of_snd h'
  obtain ⟨hleast, hsame⟩ := FlowProblem.reached_isLeast_closed (relay 3 2) true 0 false _ _ hs
  exact ⟨_, _, hs, hs', hleast, hsame _ _ _ _ _ _ (.refl _) (by simp) hs'⟩

end JvmTaint
