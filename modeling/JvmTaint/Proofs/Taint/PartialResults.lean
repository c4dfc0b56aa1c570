import JvmTaint.Proofs.Tabulation.Budget
import JvmTaint.Proofs.Taint.HeapTaint

set_option autoImplicit false
set_option relaxedAutoImplicit false

/-!
# Analyses with a budget

A positive budget bounds the number of path edges that are processed. Whether it is used up depends
only on the number of path edges of the problem: a tabulation is complete if these are at most as
many as the budget, and then it is the tabulation without a budget. Otherwise it has processed
exactly as many path edges as the budget says and found a beginning of what the tabulation without a
budget finds, and the analysis gives a partial result without flows.

## Main results

* `JvmTaint.Session.analyze_of_budget`: the result of an analysis with a budget.
* `JvmTaint.FlowProblem.budget_decides_completion`: what a budget does to a tabulation and to an
  analysis.
-/

namespace JvmTaint

namespace Session

/-- An analysis that is not refused ends as its tabulation says. -/
lemma analyze_of_accepted (s : Session) (runId : String) (entries : List MethodRef)
    {rules : RuleSet} {o : RunOptions} (hdepth : checkDepth o.bound = true)
    (hrules : rules.isEmpty = false) :
    ∃ s' : Session, (s.analyze runId entries (some rules) o false).2 =
      s'.conclusion (s.problem rules o) o runId (s.tabulate entries rules o false) := by
  obtain ⟨s', hanalyze⟩ := s.analyze_eq runId entries rules o false
  have hgraph := (callGraph_false s entries).2
  rw [← Option.not_isNone, Bool.not_eq_true'] at hgraph
  refine ⟨s', ?_⟩
  simp [hanalyze, hdepth, hrules, hgraph]

/-- **The result of an analysis with a budget.** It comes without an error if the problem has at
most as many path edges as the budget allows. Otherwise it is partial, has no flows and comes with
an error that names the budget. The statistics count the path edges that were processed. -/
lemma analyze_of_budget (s : Session) (runId : String) (entries : List MethodRef)
    {rules : RuleSet} {o : RunOptions} (hdepth : checkDepth o.bound = true)
    (hrules : rules.isEmpty = false) (hbudget : 0 < o.budget) :
    let n := ((s.problem rules o).flowProblem.pathEdges (s.roots entries)).encard
    (n ≤ o.budget.toNat → ∃ result,
      (s.analyze runId entries (some rules) o false).2 = (some result, none) ∧
        result.isPartial = false ∧ (result.statistics.pathEdges : ℕ∞) = n) ∧
    (o.budget.toNat < n → ∃ result pending,
      (s.analyze runId entries (some rules) o false).2 =
          (some result, some (.incomplete rules.name o.budget.toNat pending)) ∧
        result.isPartial = true ∧ result.flows = [] ∧
        result.statistics.pathEdges = o.budget.toNat) := by
  intro n
  obtain ⟨s', hanalyze⟩ := s.analyze_of_accepted runId entries hdepth hrules
  set P := (s.problem rules o).flowProblem
  set t := P.run o.provenance o.budget.toNat (P.start o.provenance (s.roots entries))
  have htab : s.tabulate entries rules o false =
      (t, if t.pending = 0 then .complete else .overBudget o.budget.toNat t.pending) :=
    FlowProblem.solve_of_budget hbudget
  have hiff : t.pending = 0 ↔ n ≤ o.budget.toNat := FlowProblem.pending_run_start_iff ..
  rw [hanalyze, htab]
  constructor
  · intro hle
    rw [if_pos (hiff.mpr hle)]
    exact ⟨_, rfl, rfl, FlowProblem.processed_run_eq_encard (hiff.mpr hle)⟩
  · intro hlt
    have hpending : t.pending ≠ 0 := fun h => (hiff.mp h).not_gt hlt
    rw [if_neg hpending]
    exact ⟨_, _, rfl, rfl, rfl,
      (P.pending_run_or_processed o.provenance _ o.budget.toNat).resolve_left hpending⟩

end Session

namespace FlowProblem

/-- **Budgets.** The tabulation without a budget finds the path edges of a problem one after the
other, each of them once. A tabulation with a budget is complete exactly if there are at most as
many, and then it finds the same path edges in the same order. Otherwise it has processed exactly as
many path edges as the budget says while others wait, and what it has found is a beginning of the
sequence. An analysis then gives a partial result without flows. -/
theorem budget_decides_completion {δ : Type} [DecidableEq δ] [Hashable δ] (P : FlowProblem δ)
    (retain : Bool) (entries : List MethodRef) (budget : Int) (hbudget : 0 < budget) :
    (∀ e, e ∈ P.pathEdges entries ↔ ∃! i, P.sequence retain entries i = some e) ∧
    ((P.solve retain budget false entries).2 = .complete ↔
      (P.pathEdges entries).encard ≤ budget.toNat) ∧
    ((P.pathEdges entries).encard ≤ budget.toNat →
      (∀ i, (P.solve retain budget false entries).1.edges[i]? = P.sequence retain entries i) ∧
      ∀ unbounded ≤ 0, (P.pathEdges entries).encard ≤ unlimited →
        P.solve retain unbounded false entries = P.solve retain budget false entries) ∧
    (budget.toNat < (P.pathEdges entries).encard →
      let s := (P.solve retain budget false entries).1
      (P.solve retain budget false entries).2 = .overBudget budget.toNat s.pending ∧
        0 < s.pending ∧ s.processed = budget.toNat ∧
        (∀ i < s.edges.size, s.edges[i]? = P.sequence retain entries i) ∧
        ∀ unbounded ≤ 0, budget.toNat ≤ unlimited →
          s.edges.toList <+: (P.solve retain unbounded false entries).1.edges.toList) ∧
    ∀ (s : Session) (runId : String) (roots : List MethodRef) (rules : RuleSet) (o : RunOptions),
      checkDepth o.bound = true → rules.isEmpty = false → o.budget = budget →
      let n := ((s.problem rules o).flowProblem.pathEdges (s.roots roots)).encard
      (n ≤ budget.toNat → ∃ result,
        (s.analyze runId roots (some rules) o false).2 = (some result, none) ∧
          result.isPartial = false ∧ (result.statistics.pathEdges : ℕ∞) = n) ∧
      (budget.toNat < n → ∃ result pending,
        (s.analyze runId roots (some rules) o false).2 =
            (some result, some (.incomplete rules.name budget.toNat pending)) ∧
          result.isPartial = true ∧ result.flows = [] ∧
          result.statistics.pathEdges = budget.toNat) := by
  rw [solve_of_budget hbudget]
  have hiff := P.pending_run_start_iff retain entries budget.toNat
  dsimp only
  refine ⟨?_, ?_, ?_, ?_, ?_⟩
  · intro e
    rw [P.mem_pathEdges_iff_sequence retain]
    exact ⟨fun ⟨i, hi⟩ => ⟨i, hi, fun j hj => sequence_injective hj hi⟩, fun ⟨i, hi, _⟩ => ⟨i, hi⟩⟩
  · rw [← hiff]
    split
    · exact iff_of_true rfl ‹_›
    · exact iff_of_false nofun ‹_›
  · intro hle
    have hpending := hiff.mpr hle
    refine ⟨getElem?_run_of_pending hpending, ?_⟩
    intro unbounded hunbounded hfew
    have hpending' := (P.pending_run_start_iff retain entries _).mpr hfew
    -- both runs have come to their end, so the longer one ends where the shorter one does
    have hsame : P.run retain unlimited (P.start retain entries) =
        P.run retain budget.toNat (P.start retain entries) := by
      rcases Nat.le_total budget.toNat unlimited with hshort | hshort
      · exact run_eq_of_le retain hshort hpending
      · exact (run_eq_of_le retain hshort hpending').symm
    rw [solve_of_nonpos hunbounded, hsame]
    simp [hpending]
  · intro hlt
    have hpending : (P.run retain budget.toNat (P.start retain entries)).pending ≠ 0 :=
      fun h => (hiff.mp h).not_gt hlt
    refine ⟨if_neg hpending, Nat.pos_of_ne_zero hpending,
      (P.pending_run_or_processed retain entries budget.toNat).resolve_left hpending,
      fun i hi => getElem?_run_eq_sequence hi, ?_⟩
    intro unbounded hunbounded hle
    rw [solve_of_nonpos hunbounded]
    exact P.edges_run_of_le retain entries hle
  · rintro s runId roots rules o hdepth hrules rfl
    exact s.analyze_of_budget runId roots hdepth hrules hbudget

end FlowProblem

/-! ## Budgets around the number of path edges -/

/-- Eleven path edges are not enough for the taint of the field `f` in the program of the jar. -/
lemma jarSession_overBudget :
    (jarSession.tabulate [jarMainRef] (fieldRules "f") { budget := 11 } false).2 =
      .overBudget 11 3 := by
  have hagrees : CodeBase.Agrees jarSession.code ({ code := jarCode } : Session).code :=
    jarCode_agrees
  rw [hagrees.tabulate_eq]
  cbv

/-- The relay with three calls has eleven path edges: a budget of eleven lets its tabulation come to
its end, and a budget of ten leaves one path edge waiting. The program that loses taint has more
path edges than that, so its analysis with the same budget gives a partial result. -/
theorem relay_budget_decides_completion :
    (0 : Int) < 10 ∧ (0 : Int) < 11 ∧ ((relay 3 2).pathEdges [relayMain]).encard = 11 ∧
      ((relay 3 2).solve true 11 false [relayMain]).2 = .complete ∧
      (relay 3 2).solve true 0 false [relayMain] = (relay 3 2).solve true 11 false [relayMain] ∧
      ((relay 3 2).solve true 10 false [relayMain]).2 = .overBudget 10 1 ∧
      ((relay 3 2).solve true 10 false [relayMain]).1.processed = 10 ∧
      ((relay 3 2).solve true 10 false [relayMain]).1.edges.toList <+:
        ((relay 3 2).solve true 0 false [relayMain]).1.edges.toList ∧
      ∃ result pending,
        (jarSession.analyze "run" [jarMainRef] (some (fieldRules "f")) { budget := 11 } false).2 =
            (some result, some (.incomplete "field" 11 pending)) ∧
          result.isPartial = true ∧ result.flows = [] ∧ result.statistics.pathEdges = 11 := by
  have hdone : ((relay 3 2).solve true 11 false [relayMain]).2 = .complete := by cbv
  have hover : ((relay 3 2).solve true 10 false [relayMain]).2 = .overBudget 10 1 := by cbv
  obtain ⟨-, hiff, hcomplete, -, hanalyze⟩ :=
    FlowProblem.budget_decides_completion (relay 3 2) true [relayMain] 11 (by decide)
  obtain ⟨-, hiff', -, hpartial, -⟩ :=
    FlowProblem.budget_decides_completion (relay 3 2) true [relayMain] 10 (by decide)
  have hle := hiff.mp hdone
  have hlt := not_le.mp (mt hiff'.mpr (by simp [hover]))
  have hcard : ((relay 3 2).pathEdges [relayMain]).encard = 11 :=
    le_antisymm hle (Order.add_one_le_of_lt hlt)
  obtain ⟨-, -, hprocessed, -, hbeginning⟩ := hpartial hlt
  have hmany : 11 < ((jarSession.problem (fieldRules "f") { budget := 11 }).flowProblem.pathEdges
      (jarSession.roots [jarMainRef])).encard := by
    have hrun : (jarSession.tabulate [jarMainRef] (fieldRules "f") { budget := 11 } false).2 ≠
        .complete := by
      simp [jarSession_overBudget]
    obtain ⟨-, hjar, -⟩ := FlowProblem.budget_decides_completion
      (jarSession.problem (fieldRules "f") { budget := 11 }).flowProblem false
      (jarSession.roots [jarMainRef]) 11 (by decide)
    exact not_le.mp (mt hjar.mpr hrun)
  refine ⟨by decide, by decide, hcard, hdone, (hcomplete hle).2 0 le_rfl ?_, hover, hprocessed,
    hbeginning 0 le_rfl (by decide), ?_⟩
  · rw [hcard]
    exact_mod_cast (by decide : 11 ≤ FlowProblem.unlimited)
  · exact (hanalyze jarSession "run" [jarMainRef] (fieldRules "f") { budget := 11 } (by decide)
      (by decide) rfl).2 hmany

end JvmTaint
