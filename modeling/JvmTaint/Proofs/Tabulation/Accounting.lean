import JvmTaint.Proofs.Tabulation.Worklist

set_option autoImplicit false
set_option relaxedAutoImplicit false

/-!
# The accounts of the worklist

What the tables of the worklist say agrees at every iteration. The path edges that were processed
and those that wait are the ones that were reached, in the order of their numbers, and the problem
was told of each of them once. A path edge starts at the entry of its method, where its start fact
was found to hold before. The callers of a method and a fact are the path edges whose processing has
entered the method with the fact, the exits are those that have left it, and none is listed twice.

The tables are not followed through the operations again: they hold what a tabulation holds, and the
loop invariant of the tabulation says the rest.

## Main definitions

* `JvmTaint.Worklist.Accounts`: the tables agree.

## Main results

* `JvmTaint.Tabulation.Grounded.exists_entryEdge`: a path edge is found after the one at the entry.
* `JvmTaint.Worklist.Represents.mem_callers_iff`, `JvmTaint.Worklist.Represents.mem_exits_iff`: the
  callers and the exits of a method and a fact.
* `JvmTaint.Worklist.solve_agrees`: a run on the tables says what the tabulation says.
* `JvmTaint.Worklist.accounts_loop`: the tables agree after any number of iterations.
-/

namespace JvmTaint

variable {δ : Type} [DecidableEq δ] [Hashable δ] {P : FlowProblem δ} {retain : Bool}
  {entries : List MethodRef} {s : Tabulation δ}

/-- A path edge is not found before the one at the entry of its method with the same start fact.

**Proof sketch.** Strong induction on the position. A path edge that enters a method is the one at
its entry, and each other one has the method and the start fact of one that was found earlier. -/
lemma Tabulation.Grounded.exists_entryEdge (h : Grounded P retain entries s) {i : Nat}
    {e : PathEdge δ} (hi : s.edges[i]? = some e) :
    ∃ j ≤ i, s.edges[j]? = some (P.entryEdge e.method e.startFact) := by
  induction i using Nat.strong_induction_on generalizing e with
  | _ i ih =>
    have inherited : ∀ e' ∈ s.foundBefore i,
        ∃ j ≤ i, s.edges[j]? = some (P.entryEdge e'.method e'.startFact) := by
      intro e' he'
      obtain ⟨k, hk, hget⟩ := exists_lt_of_mem_foundBefore he'
      obtain ⟨j, hj, hentry⟩ := ih k hk hget
      exact ⟨j, by omega, hentry⟩
    obtain ⟨l, hf, -⟩ := h.justified i e hi
    cases hf with
    | seed => exact ⟨i, le_rfl, hi⟩
    | call => exact ⟨i, le_rfl, hi⟩
    | intra he => exact (inherited _ he :)
    | callToReturn hc => exact (inherited _ hc :)
    | ret hc => exact (inherited _ hc :)

namespace Worklist

variable {done : List (SiteEdge δ)} {w : Worklist δ}

/-- What the tables say agrees, when the path edges `done` have been processed. -/
structure Accounts (P : FlowProblem δ) (done : List (SiteEdge δ)) (w : Worklist δ) : Prop where
  /-- The problem was told of the path edges that were processed, and then of those that wait. -/
  visited : done ++ w.waiting.toList = w.visits.toList
  /-- It was told of no path edge twice. -/
  nodup : w.visits.toList.Nodup
  /-- It was told of the path edges that were reached, in the order of their numbers from 0 on. -/
  numbered : ∀ i e, w.visits[i]? = some e ↔ ∃ m : Mark δ, w.reached[e]? = some m ∧ m.number = i
  /-- The path edges that were processed are counted. -/
  processed : w.pathEdges = done.length
  /-- As many path edges were reached as were processed or wait. -/
  counted : w.pathEdges + w.waiting.length = w.reached.size
  /-- A path edge starts at the entry of its method. -/
  starts : ∀ e, w.reached.contains e = true → e.start = P.entrySite e.node.method
  /-- The path edge from the entry to itself was reached before, or it is this one. -/
  entered : ∀ (e : SiteEdge δ) (m : Mark δ), w.reached[e]? = some m → ∃ m' : Mark δ,
    w.reached[SiteEdge.atStart e.start e.startFact]? = some m' ∧ m'.number ≤ m.number
  /-- The callers of a method and a fact are the path edges that were reached and processed at calls
  which enter the method with the fact. -/
  callers : ∀ key c, c ∈ (w.callers key).order ↔
    (w.reached.contains c = true ∧ c ∈ done) ∧ P.Enters c.node c.fact key.method key.fact
  callers_nodup : ∀ key, (w.callers key).order.toList.Nodup
  /-- The exits of a method and a fact are the path edges that were reached and processed at exits
  of the method and start with the fact. -/
  exits : ∀ key x, x ∈ (w.exits key).order ↔ (w.reached.contains x = true ∧ x ∈ done) ∧
    P.AtExit x.node ∧ x.node.method = key.method ∧ x.startFact = key.fact
  exits_nodup : ∀ key, (w.exits key).order.toList.Nodup
  /-- The exits are counted. -/
  summaryEdges : w.summaryEdges = (w.summaries.toList.map fun (_, l) => l.order.size).sum

/-- What is noted of the path edges that were reached. -/
lemma contains_reached_iff {e : SiteEdge δ} :
    w.reached.contains e = true ↔ ∃ m : Mark δ, w.reached[e]? = some m := by
  rw [Std.HashMap.contains_eq_isSome_getElem?, Option.isSome_iff_exists]

namespace Represents

/-- The problem was told of no path edge twice. -/
lemma nodup_visits (h : Represents P done w s) (hs : s.Grounded P retain entries) :
    w.visits.toList.Nodup := by
  rw [h.visits, Array.toList_map]
  exact hs.nodup.map P.placed_injective

/-- A path edge that was found was reached. -/
lemma contains_placed (h : Represents P done w s) (hs : s.Grounded P retain entries)
    {e : PathEdge δ} (he : e ∈ s.found) : w.reached.contains (P.placed e) = true := by
  rw [h.reached_eq, hs.reached_iff]
  exact he

/-- The position of a path edge is its number.

**Proof sketch.** A path edge that was reached is at the position of its number. Conversely the one
at a position was reached, and there is no other position for it. -/
lemma getElem?_visits (h : Represents P done w s) (hs : s.Grounded P retain entries) (i : Nat)
    (e : SiteEdge δ) :
    w.visits[i]? = some e ↔ ∃ m : Mark δ, w.reached[e]? = some m ∧ m.number = i := by
  constructor
  · intro hi
    have hmem : e ∈ s.edges.map P.placed := h.visits ▸ Array.mem_of_getElem? hi
    obtain ⟨p, hp, rfl⟩ := Array.mem_map.mp hmem
    obtain ⟨m, hm⟩ := contains_reached_iff.mp (h.contains_placed hs hp)
    have hnumber := h.numbered _ m hm
    rw [← Array.getElem?_toList] at hi hnumber
    obtain ⟨hlt, -⟩ := List.getElem?_eq_some_iff.mp hnumber
    exact ⟨m, hm, (List.getElem?_inj hlt (h.nodup_visits hs)).mp (hnumber.trans hi.symm)⟩
  · rintro ⟨m, hm, rfl⟩
    exact h.numbered e m hm

/-- A path edge that was reached is one of the tabulation. -/
lemma exists_placed (h : Represents P done w s) {e : SiteEdge δ} {m : Mark δ}
    (hm : w.reached[e]? = some m) : ∃ p, s.edges[m.number]? = some p ∧ e = P.placed p := by
  have hthere := h.numbered e m hm
  rw [h.visits, Array.getElem?_map, Option.map_eq_some_iff] at hthere
  obtain ⟨p, hp, heq⟩ := hthere
  exact ⟨p, hp, heq.symm⟩

/-- A path edge that was processed is one of the tabulation, and was handled there. -/
lemma exists_handled (h : Represents P done w s) (hs : s.Invariant P retain entries)
    {e : SiteEdge δ} (he : e ∈ done) : ∃ p ∈ s.found, s.Handled P p ∧ e = P.placed p := by
  rw [h.done_eq] at he
  obtain ⟨p, hp, rfl⟩ := List.mem_map.mp he
  exact ⟨p, Array.mem_toList_iff.mp (List.mem_of_mem_take hp), hs.handled p hp, rfl⟩

/-- The callers of a method and a fact are the processed path edges that enter it.

**Proof sketch.** A caller of the tabulation enters the method, and it was being processed when it
was added. Conversely a path edge that was processed has been added wherever it enters. -/
lemma mem_callers_iff (h : Represents P done w s) (hs : s.Invariant P retain entries)
    (key : EntryFact δ) (c : SiteEdge δ) : c ∈ (w.callers key).order ↔
      (w.reached.contains c = true ∧ c ∈ done) ∧
        P.Enters c.node c.fact key.method key.fact := by
  unfold Worklist.callers
  constructor
  · intro hc
    have hdone := h.incoming.mem_done key c hc
    rw [h.incoming.order, Array.mem_map] at hc
    obtain ⟨p, hp, rfl⟩ := hc
    obtain ⟨hfound, henters⟩ := hs.toGrounded.entered key p hp
    exact ⟨⟨h.contains_placed hs.toGrounded hfound, hdone⟩, henters⟩
  · rintro ⟨⟨-, hdone⟩, henters⟩
    obtain ⟨p, -, hhandled, rfl⟩ := h.exists_handled hs hdone
    rw [h.incoming.order]
    exact Array.mem_map_of_mem (hhandled.entered key.method key.fact henters).2

/-- The exits of a method and a fact are the processed path edges at its exits. -/
lemma mem_exits_iff (h : Represents P done w s) (hs : s.Invariant P retain entries)
    (key : EntryFact δ) (x : SiteEdge δ) : x ∈ (w.exits key).order ↔
      (w.reached.contains x = true ∧ x ∈ done) ∧
        P.AtExit x.node ∧ x.node.method = key.method ∧ x.startFact = key.fact := by
  unfold Worklist.exits
  constructor
  · intro hx
    have hdone := h.summaries.mem_done key x hx
    rw [h.summaries.order, Array.mem_map] at hx
    obtain ⟨p, hp, rfl⟩ := hx
    obtain ⟨hfound, hexit, hmethod, hstart⟩ := hs.toGrounded.left key p hp
    exact ⟨⟨h.contains_placed hs.toGrounded hfound, hdone⟩, hexit, hmethod, hstart⟩
  · rintro ⟨⟨-, hdone⟩, hexit, hmethod, hstart⟩
    obtain ⟨p, -, hhandled, rfl⟩ := h.exists_handled hs hdone
    obtain rfl : (⟨p.method, p.startFact⟩ : EntryFact δ) = key := by
      cases key
      exact congrArg₂ EntryFact.mk hmethod hstart
    rw [h.summaries.order]
    exact Array.mem_map_of_mem (hhandled.summarized hexit)

/-- The tables agree if they hold what a tabulation holds whose loop invariant holds. -/
lemma accounts (h : Represents P done w s) (hs : s.Invariant P retain entries) :
    Accounts P done w where
  visited := h.in_order
  nodup := h.nodup_visits hs.toGrounded
  numbered := h.getElem?_visits hs.toGrounded
  processed := h.pathEdges.trans h.length_done.symm
  counted := by
    rw [h.pathEdges, h.processed_add_waiting, h.size, h.visits, Array.size_map]
  starts e he := by
    obtain ⟨m, hm⟩ := contains_reached_iff.mp he
    obtain ⟨p, -, rfl⟩ := h.exists_placed hm
    rfl
  entered e m hm := by
    obtain ⟨p, hp, rfl⟩ := h.exists_placed hm
    obtain ⟨j, hj, hentry⟩ := hs.toGrounded.exists_entryEdge hp
    have hvisited : w.visits[j]? = some (P.placed (P.entryEdge p.method p.startFact)) := by
      rw [h.visits, Array.getElem?_map, hentry]
      rfl
    obtain ⟨m', hm', rfl⟩ := (h.getElem?_visits hs.toGrounded _ _).mp hvisited
    exact ⟨m', hm', hj⟩
  callers := h.mem_callers_iff hs
  callers_nodup key := (h.incoming.sound key).nodup
  exits := h.mem_exits_iff hs
  exits_nodup key := (h.summaries.sound key).nodup
  summaryEdges := h.total_summaries

/-- The path edges that were reached are those that the problem was told of. -/
lemma mem_visits (h : Represents P done w s) (hs : s.Grounded P retain entries) {e : SiteEdge δ} :
    e ∈ w.visits.toList ↔ ∃ m : Mark δ, w.reached[e]? = some m := by
  rw [Array.mem_toList_iff, Array.mem_iff_getElem?]
  simp only [h.getElem?_visits hs]
  exact ⟨fun ⟨_, m, hm, _⟩ => ⟨m, hm⟩, fun ⟨m, hm⟩ => ⟨_, m, hm, rfl⟩⟩

/-- Sorting path edges that were reached by their numbers gives the order in which the problem was
told of them.

**Proof sketch.** Both lists hold the same path edges, and in both the numbers increase. -/
lemma map_mergeSort_reached (h : Represents P done w s) (hs : s.Grounded P retain entries)
    (keep : SiteEdge δ → Bool) :
    ((w.reached.toList.filter fun p => keep p.1).mergeSort
        fun a b => a.2.number ≤ b.2.number).map (·.1) = w.visits.toList.filter keep := by
  set kept := w.reached.toList.filter fun p => keep p.1 with hkept
  set sorted := kept.mergeSort fun a b => a.2.number ≤ b.2.number with hsorted
  set number : SiteEdge δ → Nat := fun e => ((w.reached[e]?).map (·.number)).getD 0 with hnumber
  have hmem : ∀ {e : SiteEdge δ} {m : Mark δ}, (e, m) ∈ sorted ↔
      w.reached[e]? = some m ∧ keep e = true := by
    intro e m
    rw [hsorted, List.mem_mergeSort, hkept, List.mem_filter,
      Std.HashMap.mem_toList_iff_getElem?_eq_some]
  have hnumbers : (kept.map (·.2.number)).Nodup := by
    refine List.Nodup.sublist (List.filter_sublist.map _) ?_
    refine (nodup_toList w.reached).map_on ?_
    rintro ⟨e, m⟩ hm ⟨e', m'⟩ hm' heq
    rw [Std.HashMap.mem_toList_iff_getElem?_eq_some] at hm hm'
    obtain rfl : e = e' :=
      Option.some.inj ((h.numbered e m hm).symm.trans (heq ▸ h.numbered e' m' hm'))
    rw [Option.some.inj (hm.symm.trans hm')]
  have hleft : (sorted.map (·.1)).Pairwise fun a b => number a < number b := by
    have hlt : sorted.Pairwise fun a b => a.2.number < b.2.number :=
      pairwise_lt_mergeSort (fun _ _ => rfl) hnumbers
    rw [List.pairwise_map]
    refine hlt.imp_of_mem fun {a b} ha hb hlt => ?_
    simp only [hnumber, (hmem.mp ha).1, (hmem.mp hb).1, Option.map_some, Option.getD_some]
    exact hlt
  have hright : (w.visits.toList.filter keep).Pairwise fun a b => number a < number b := by
    refine List.Pairwise.filter _ (List.pairwise_iff_getElem.mpr fun i j hi hj hij => ?_)
    have at_position : ∀ k (hk : k < w.visits.toList.length), number w.visits.toList[k] = k := by
      intro k hk
      obtain ⟨m, hm, hk⟩ := (h.getElem?_visits hs k w.visits.toList[k]).mp (by simp)
      simp only [hnumber, hm, Option.map_some, Option.getD_some, hk]
    rwa [at_position i hi, at_position j hj]
  have nodup : ∀ {xs : List (SiteEdge δ)}, (xs.Pairwise fun a b => number a < number b) →
      xs.Nodup := fun hxs => hxs.imp fun hlt heq => by simp [heq] at hlt
  refine List.Perm.eq_of_pairwise (fun a b _ _ hab hba => absurd hab hba.asymm) hleft hright ?_
  refine (List.perm_ext_iff_of_nodup (nodup hleft) (nodup hright)).mpr fun e => ?_
  rw [List.mem_filter, h.mem_visits hs, List.mem_map]
  constructor
  · rintro ⟨⟨e', m⟩, hp, rfl⟩
    exact ⟨⟨m, (hmem.mp hp).1⟩, (hmem.mp hp).2⟩
  · rintro ⟨⟨m, hm⟩, hkeep⟩
    exact ⟨(e, m), hmem.mpr ⟨hm, hkeep⟩, rfl⟩

/-- The facts before a statement are the same, in the same order. -/
lemma factsAt_eq (h : Represents P done w s) (hs : s.Grounded P retain entries) (n : Site) :
    w.factsAt n = s.factsAt n := by
  have hsorted := congrArg (List.map (·.fact))
    (h.map_mergeSort_reached hs fun e => e.node == n)
  rw [List.map_map, h.visits, Array.toList_map, List.filter_map, List.map_map] at hsorted
  unfold Worklist.factsAt Tabulation.factsAt
  exact congrArg List.eraseDups hsorted

end Represents

/-- **The worklist and the tabulation agree.** The run on the tables ends as the tabulation does,
after some iterations, with the same statistics and the same facts before each statement. -/
lemma solve_agrees (P : FlowProblem δ) (retain : Bool) (budget : Int) (cancelled : Bool)
    (entries : List MethodRef) :
    let r := solve P retain budget cancelled entries
    let t := P.solve retain budget cancelled entries
    (∃ n, r.1 = ((start P retain entries).loop P retain n).2) ∧ r.2 = t.2 ∧
      r.1.statistics = P.statistics t.1 ∧ ∀ n, r.1.factsAt n = t.1.factsAt n := by
  have agrees : ∀ n, let w := ((start P retain entries).loop P retain n).2
      let s := P.run retain n (P.start retain entries)
      (∃ n, w = ((start P retain entries).loop P retain n).2) ∧
        w.waiting.length = s.pending ∧ w.statistics = P.statistics s ∧
        ∀ site, w.factsAt site = s.factsAt site := by
    intro n
    have hn := represents_loop P retain entries n
    have hnone : ∀ call, (start P retain entries).unresolved.contains call = true ↔
        UnresolvedAmong P [] call := by
      intro call
      rw [start, unresolved_propagateAll]
      simp [UnresolvedAmong]
    exact ⟨⟨n, rfl⟩, hn.pending_eq.symm, hn.statistics_eq (unresolved_loop n hnone),
      hn.factsAt_eq (P.invariant_run retain entries n).toGrounded⟩
  obtain ⟨hn₀, hwaiting, hsame₀⟩ := agrees 0
  change (start P retain entries).waiting.length = (P.start retain entries).pending at hwaiting
  unfold solve FlowProblem.solve
  dsimp only
  rw [hwaiting]
  by_cases hpending : (P.start retain entries).pending = 0
  · rw [if_pos hpending, if_pos hpending]
    exact ⟨hn₀, rfl, hsame₀⟩
  rw [if_neg hpending, if_neg hpending]
  cases cancelled with
  | true => exact ⟨hn₀, rfl, hsame₀⟩
  | false =>
    obtain ⟨hn, hwaiting, hsame⟩ := agrees (if budget > 0 then budget.toNat else
      FlowProblem.unlimited)
    refine ⟨hn, ?_, hsame⟩
    simp only [Bool.false_eq_true, if_false, hwaiting]

/-- **The accounts of the worklist.** Whatever the problem and the entry methods are, the tables
agree after any number of iterations. Whatever the budget is, and whether or not it is cancelled, a
run ends after some iterations, and says what the tabulation says. -/
theorem accounts_loop (P : FlowProblem δ) (retain : Bool) (entries : List MethodRef) :
    (∀ n, Accounts P ((start P retain entries).loop P retain n).1
      ((start P retain entries).loop P retain n).2) ∧
    ∀ budget cancelled, let r := solve P retain budget cancelled entries
      let t := P.solve retain budget cancelled entries
      (∃ n, r.1 = ((start P retain entries).loop P retain n).2) ∧ r.2 = t.2 ∧
        r.1.statistics = P.statistics t.1 ∧ ∀ n, r.1.factsAt n = t.1.factsAt n := by
  refine ⟨fun n => ?_, fun budget cancelled => solve_agrees P retain budget cancelled entries⟩
  exact (represents_loop P retain entries n).accounts (P.invariant_run retain entries n)

end Worklist

end JvmTaint
