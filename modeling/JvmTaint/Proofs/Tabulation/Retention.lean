import JvmTaint.Tabulation.Trace
import Mathlib.Tactic.Lemma

set_option autoImplicit false
set_option relaxedAutoImplicit false

/-!
# Retaining what path edges were derived from

A tabulation may record what each path edge was derived from, or only that it was found. No step
reads what was recorded: a step asks whether a path edge was found, which calls entered a method
with a fact, and which summaries that method has. So two tabulations, one that records and one that
does not, find the same path edges in the same order.

## Main definitions

* `JvmTaint.Tabulation.Alike`: two tabulations agree but in what they recorded.

## Main results

* `JvmTaint.Tabulation.Alike.step`, `JvmTaint.Tabulation.Alike.run`: a step and a run of either
  keep them alike.
* `JvmTaint.FlowProblem.solve_alike`: a problem is tabulated alike with and without records.
* `JvmTaint.Tabulation.Alike.factsAt_eq`, `JvmTaint.Tabulation.Alike.statistics_eq`: tabulations
  that are alike say the same.
-/

namespace JvmTaint

variable {δ : Type} [DecidableEq δ] [Hashable δ]

namespace Tabulation

/-- The tabulations agree but in what they recorded path edges to be derived from. -/
structure Alike (s t : Tabulation δ) : Prop where
  edges : s.edges = t.edges
  processed : s.processed = t.processed
  incoming : s.incoming = t.incoming
  summaries : s.summaries = t.summaries
  summaryCount : s.summaryCount = t.summaryCount
  reached : ∀ e, s.reached e = t.reached e

namespace Alike

variable {P : FlowProblem δ} {retain retain' : Bool} {s t : Tabulation δ}

/-- Every tabulation is like itself. -/
lemma refl (s : Tabulation δ) : s.Alike s := ⟨rfl, rfl, rfl, rfl, rfl, fun _ => rfl⟩

/-! ## Adding path edges -/

/-- A path edge is added to both or to none, whatever is recorded of it. -/
lemma propagate (retain retain' : Bool) (h : s.Alike t) (e : PathEdge δ) (l : Link δ) :
    (s.propagate retain e l).Alike (t.propagate retain' e l) := by
  unfold Tabulation.propagate
  rw [h.reached e]
  split
  · exact h
  · refine ⟨by rw [h.edges], h.processed, h.incoming, h.summaries, h.summaryCount, fun e' => ?_⟩
    have hreached := h.reached e'
    unfold Tabulation.reached at hreached ⊢
    rw [Std.HashMap.contains_insert, Std.HashMap.contains_insert, hreached]

/-- The same path edges are added to both. -/
lemma propagateAll (h : s.Alike t) (items : List (PathEdge δ × Link δ)) :
    (s.propagateAll retain items).Alike (t.propagateAll retain' items) :=
  List.foldl_rel h fun item _ _ _ hst => hst.propagate retain retain' item.1 item.2

/-! ## Processing path edges -/

/-- Both enter a method with a fact from a call, and use the summaries that are there. -/
lemma enterWith (h : s.Alike t) (e : PathEdge δ) (callee : MethodRef) (d : δ) :
    (P.enterWith retain e callee s d).Alike (P.enterWith retain' e callee t d) := by
  unfold FlowProblem.enterWith
  dsimp only
  have hentered : ({ s with incoming := addTo s.incoming ⟨callee, d⟩ e } : Tabulation δ).Alike
      { t with incoming := addTo t.incoming ⟨callee, d⟩ e } :=
    ⟨h.edges, h.processed, by rw [h.incoming], h.summaries, h.summaryCount, h.reached⟩
  have hentry := hentered.propagate retain retain'
    ⟨callee, d, (P.graph callee).entry, d⟩ (.call e)
  rw [hentry.summaries]
  exact hentry.propagateAll _

/-- Both process a call. -/
lemma processCall (h : s.Alike t) (g : FlowGraph) (e : PathEdge δ) :
    (P.processCall retain s g e).Alike (P.processCall retain' t g e) := by
  unfold FlowProblem.processCall
  dsimp only
  refine List.foldl_rel (h.propagateAll _) fun callee _ s t hst => ?_
  exact List.foldl_rel hst fun d _ s t hst => hst.enterWith e callee d

/-- Both process an exit, unless it is a summary already. -/
lemma processExit (h : s.Alike t) (e : PathEdge δ) :
    (P.processExit retain s e).Alike (P.processExit retain' t e) := by
  unfold FlowProblem.processExit
  dsimp only
  rw [h.summaries, h.incoming]
  split
  · exact h
  · have hleft : ({ s with
        incoming := t.incoming
        summaries := addTo t.summaries ⟨e.method, e.startFact⟩ e
        summaryCount := s.summaryCount + 1 } : Tabulation δ).Alike
        { t with
          summaries := addTo t.summaries ⟨e.method, e.startFact⟩ e
          summaryCount := t.summaryCount + 1 } :=
      ⟨h.edges, h.processed, rfl, rfl, by rw [h.summaryCount], h.reached⟩
    exact hleft.propagateAll _

/-- Both process a path edge. -/
lemma process (h : s.Alike t) (e : PathEdge δ) :
    (P.process retain s e).Alike (P.process retain' t e) := by
  unfold FlowProblem.process
  dsimp only
  split
  · exact h.processCall _ e
  · split
    · exact h.processExit e
    · exact h.propagateAll _

/-! ## Steps and runs -/

/-- The same path edge is next, if one waits. -/
lemma next?_eq (h : s.Alike t) : s.next? = t.next? := by
  unfold next?
  rw [h.edges, h.processed]

lemma pending_eq (h : s.Alike t) : s.pending = t.pending := by
  unfold pending
  rw [h.edges, h.processed]

/-- A step of both keeps them alike. -/
lemma step (h : s.Alike t) : (P.step retain s).Alike (P.step retain' t) := by
  unfold FlowProblem.step
  rw [h.next?_eq]
  cases t.next? with
  | none => exact h
  | some e =>
    have hnext : ({ s with processed := s.processed + 1 } : Tabulation δ).Alike
        { t with processed := t.processed + 1 } :=
      ⟨h.edges, by rw [h.processed], h.incoming, h.summaries, h.summaryCount, h.reached⟩
    exact hnext.process e

/-- A run of both keeps them alike. -/
lemma run (retain retain' : Bool) (n : Nat) (h : s.Alike t) :
    (P.run retain n s).Alike (P.run retain' n t) := by
  induction n generalizing s t with
  | zero => exact h
  | succ n ih =>
    rw [FlowProblem.run, FlowProblem.run, h.pending_eq]
    split
    · exact h
    · exact ih h.step

/-! ## What tabulations say -/

/-- The same facts are found before a statement, in the same order. -/
lemma factsAt_eq (h : s.Alike t) (n : Site) : s.factsAt n = t.factsAt n := by
  unfold factsAt
  rw [h.edges]

/-- The same calls were processed. -/
lemma processedCalls_eq (h : s.Alike t) : P.processedCalls s = P.processedCalls t := by
  unfold FlowProblem.processedCalls
  rw [h.edges, h.processed]

lemma statistics_eq (h : s.Alike t) : P.statistics s = P.statistics t := by
  unfold FlowProblem.statistics
  rw [h.edges, h.processed, h.summaryCount, h.processedCalls_eq]

end Alike

end Tabulation

namespace FlowProblem

/-- A problem is tabulated alike with and without records, and with the same outcome. -/
lemma solve_alike (P : FlowProblem δ) (retain retain' : Bool) (budget : Int) (cancelled : Bool)
    (entries : List MethodRef) :
    (P.solve retain budget cancelled entries).1.Alike
        (P.solve retain' budget cancelled entries).1 ∧
      (P.solve retain budget cancelled entries).2 =
        (P.solve retain' budget cancelled entries).2 := by
  have hstart : (P.start retain entries).Alike (P.start retain' entries) :=
    (Tabulation.Alike.refl {}).propagateAll (P.seeds entries)
  unfold solve
  dsimp only
  rw [hstart.pending_eq]
  split
  · exact ⟨hstart, rfl⟩
  · split
    · exact ⟨hstart, rfl⟩
    · have hrun := hstart.run (P := P) retain retain'
        (if budget > 0 then budget.toNat else unlimited)
      exact ⟨hrun, by rw [hrun.pending_eq]⟩

end FlowProblem

end JvmTaint
