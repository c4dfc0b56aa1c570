import JvmTaint.Proofs.Lists
import JvmTaint.Proofs.Queues
import JvmTaint.Proofs.Tabulation.Budget
import JvmTaint.Tabulation.Worklist

set_option autoImplicit false
set_option relaxedAutoImplicit false

/-!
# The worklist and the tabulation

The tables of the worklist hold what the tabulation holds. Its path edges start at the entries of
their methods, so those of the tabulation, which do not say where they start, determine them. Each
operation on the tables has its counterpart on the tabulation, and the two lead to tables and a
tabulation that belong together again.

## Main definitions

* `JvmTaint.FlowProblem.placed`: a path edge with the entry of its method.
* `JvmTaint.EdgeList.Sound`: a list of path edges holds each of them once.
* `JvmTaint.Worklist.Represents`: the tables hold what a tabulation holds.

## Main results

* `JvmTaint.Worklist.Represents.propagate`, `JvmTaint.Worklist.Represents.process`: one lemma for
  each operation.
* `JvmTaint.Worklist.Represents.step_cases`, `JvmTaint.Worklist.Represents.loop`: steps and runs.
* `JvmTaint.Worklist.represents_loop`, `JvmTaint.Worklist.unresolved_loop`: the iterations from some
  entry methods.
* `JvmTaint.Worklist.Represents.statistics_eq`: the statistics are the same.
-/

namespace JvmTaint

variable {δ : Type}

/-! ## Path edges with their starts -/

/-- The path edge with the entry of its method. -/
def FlowProblem.placed (P : FlowProblem δ) (e : PathEdge δ) : SiteEdge δ :=
  ⟨P.entrySite e.method, e.startFact, e.site, e.fact⟩

namespace FlowProblem

variable {P : FlowProblem δ}

@[simp] lemma pathEdge_placed (P : FlowProblem δ) (e : PathEdge δ) : (P.placed e).pathEdge = e :=
  rfl

@[simp] lemma node_placed (P : FlowProblem δ) (e : PathEdge δ) : (P.placed e).node = e.site := rfl

@[simp] lemma startFact_placed (P : FlowProblem δ) (e : PathEdge δ) :
    (P.placed e).startFact = e.startFact := rfl

lemma placed_entryEdge (P : FlowProblem δ) (m : MethodRef) (d : δ) :
    P.placed (P.entryEdge m d) = .atStart (P.entrySite m) d := rfl

lemma placed_injective (P : FlowProblem δ) : Function.Injective P.placed :=
  Function.LeftInverse.injective (pathEdge_placed P)

lemma placed_beq [DecidableEq δ] (P : FlowProblem δ) (e e' : PathEdge δ) :
    (P.placed e == P.placed e') = (e == e') := by
  rw [Bool.eq_iff_iff, beq_iff_eq, beq_iff_eq]
  exact P.placed_injective.eq_iff

/-- The items of a tabulation, with the entries of their methods. -/
def placedItems (P : FlowProblem δ) (items : List (PathEdge δ × Link δ)) :
    List (SiteEdge δ × Link δ) :=
  items.map fun (e, l) => (P.placed e, l)

end FlowProblem

section

variable {P : FlowProblem δ}

/-- What follows from a path edge inside its method starts where it starts. -/
lemma Worklist.localItems_placed (g : FlowGraph) (targets : Option (List MethodRef))
    (e : PathEdge δ) :
    Worklist.localItems P g targets (P.placed e) = P.placedItems (P.localItems g targets e) := by
  simp only [Worklist.localItems, FlowProblem.placedItems, FlowProblem.localItems,
    List.map_flatMap, FlowProblem.pathEdge_placed]
  refine congrArg (List.flatMap · _) (funext fun edge => ?_)
  cases targets with
  | none =>
    dsimp only
    rw [List.map_map, List.map_map]
    rfl
  | some callees =>
    dsimp only
    split <;> (rw [List.map_map, List.map_map]; rfl)

/-- What follows after a call starts where the path edge at the call starts. -/
lemma Worklist.returnItems_placed (c x : PathEdge δ) :
    Worklist.returnItems P (P.placed c) (P.placed x) = P.placedItems (P.returnItems c x) := by
  simp only [Worklist.returnItems, FlowProblem.placedItems, FlowProblem.returnItems,
    List.map_flatMap, FlowProblem.pathEdge_placed, List.map_map]
  rfl

/-- What holds on entry to an entry method starts there. -/
lemma Worklist.seeds_eq (entries : List MethodRef) :
    Worklist.seeds P entries = P.placedItems (P.seeds entries) := by
  simp only [Worklist.seeds, FlowProblem.placedItems, FlowProblem.seeds, List.map_flatMap,
    List.map_map]
  rfl

end

/-! ## Entries of a table -/

section

variable {κ β : Type} [DecidableEq κ] [Hashable κ] (table : Std.HashMap κ β)

/-- A table has one entry for each key. -/
lemma nodup_toList : table.toList.Nodup :=
  Std.HashMap.distinct_keys_toList.imp fun {a b} hab heq => by simp [heq] at hab

/-- The entries for a key: one if the table has the key, and none if not. -/
lemma filter_toList_key (key : κ) :
    table.toList.filter (fun p => key == p.1) = ((table[key]?).map (key, ·)).toList := by
  have hmem : ∀ p, p ∈ table.toList.filter (fun p => key == p.1) ↔
      key = p.1 ∧ table[key]? = some p.2 := by
    rintro ⟨key', b⟩
    rw [List.mem_filter, Std.HashMap.mem_toList_iff_getElem?_eq_some, beq_iff_eq, and_comm]
    exact and_congr_right fun heq => by rw [heq]
  cases hkey : table[key]? with
  | none =>
    refine List.eq_nil_iff_forall_not_mem.mpr fun p hp => ?_
    rw [hmem, hkey] at hp
    cases hp.2
  | some b =>
    refine List.perm_singleton.mp ((List.perm_ext_iff_of_nodup
      ((nodup_toList table).filter _) (List.nodup_singleton _)).mpr ?_)
    rintro ⟨key', b'⟩
    rw [hmem, hkey, List.mem_singleton, Prod.mk.injEq, Option.some.injEq, eq_comm,
      eq_comm (a := b)]

end

variable [DecidableEq δ] [Hashable δ]

/-! ## Lists of path edges -/

namespace EdgeList

variable {l : EdgeList δ}

/-- The list holds each of its members once. -/
structure Sound (l : EdgeList δ) : Prop where
  nodup : l.order.toList.Nodup
  mem_iff : ∀ e, l.members.contains e = true ↔ e ∈ l.order

lemma sound_empty : ({} : EdgeList δ).Sound := ⟨by simp, by simp⟩

/-- A path edge is added behind the others, unless it is one of them. -/
lemma Sound.add_cases (h : l.Sound) (e : SiteEdge δ) :
    (e ∈ l.order ∧ l.add e = (l, false)) ∨
      (e ∉ l.order ∧ ∃ l', l.add e = (l', true) ∧ l'.order = l.order.push e ∧ l'.Sound) := by
  unfold add
  split
  · exact .inl ⟨(h.mem_iff e).mp ‹_›, rfl⟩
  · rename_i hnew
    rw [h.mem_iff] at hnew
    refine .inr ⟨hnew, _, rfl, rfl, ?_, fun e' => ?_⟩
    · rw [Array.toList_push, List.nodup_append]
      refine ⟨h.nodup, by simp, fun a ha b hb => ?_⟩
      rintro rfl
      exact hnew (Array.mem_toList_iff.mp (List.mem_singleton.mp hb ▸ ha))
    · rw [Std.HashSet.contains_insert, Bool.or_eq_true, beq_iff_eq, h.mem_iff, Array.mem_push,
        or_comm, eq_comm]

end EdgeList

namespace Worklist

/-- The total length of the lists of a table. -/
def total (table : Std.HashMap (EntryFact δ) (EdgeList δ)) : Nat :=
  (table.toList.map fun (_, l) => l.order.size).sum

/-- The total length after a list has been put in the place of another one.

**Proof sketch.** The entries for the other keys are the same before and after. -/
lemma total_insert (table : Std.HashMap (EntryFact δ) (EdgeList δ)) (key : EntryFact δ)
    (l : EdgeList δ) : total (table.insert key l) + (table.getD key {}).order.size =
      total table + l.order.size := by
  set size : EntryFact δ × EdgeList δ → Nat := fun (_, l) => l.order.size with hsize
  set others := table.toList.filter fun p => !(key == p.1) with hothers
  have hafter : total (table.insert key l) = l.order.size + (others.map size).sum := by
    have hperm := (Std.HashMap.toList_insert_perm (m := table) (k := key) (v := l)).map size
    simp only [Bool.not_eq_true, Bool.decide_eq_false] at hperm
    exact hperm.sum_eq
  have hbefore : total table = (table.getD key {}).order.size + (others.map size).sum := by
    have hsplit := (List.filter_append_perm (fun p => key == p.1) table.toList).map size
    rw [total, ← hsplit.sum_eq, List.map_append, List.sum_append, filter_toList_key,
      Std.HashMap.getD_eq_getD_getElem?]
    cases table[key]? <;> rfl
  omega

/-! ## Tables and tabulations -/

/-- The lists of a table hold the path edges of a table of a tabulation, which are among the path
edges `done`. -/
structure ListsRepresent (P : FlowProblem δ) (done : List (SiteEdge δ))
    (lists : Std.HashMap (EntryFact δ) (EdgeList δ))
    (table : Std.HashMap (EntryFact δ) (Array (PathEdge δ))) : Prop where
  sound : ∀ key, (lists.getD key {}).Sound
  order : ∀ key, (lists.getD key {}).order = (table.getD key #[]).map P.placed
  mem_done : ∀ key, ∀ e ∈ (lists.getD key {}).order, e ∈ done

/-- The tables hold what a tabulation holds, when the path edges `done` have been processed. They
are followed by those that wait, the problem was told of all of them, and the number of each is its
position. -/
structure Represents (P : FlowProblem δ) (done : List (SiteEdge δ)) (w : Worklist δ)
    (s : Tabulation δ) : Prop where
  fits : w.waiting.Fits
  in_order : done ++ w.waiting.toList = w.visits.toList
  length_done : done.length = s.processed
  pathEdges : w.pathEdges = s.processed
  visits : w.visits = s.edges.map P.placed
  links : ∀ e, (w.reached[P.placed e]?).map (·.link) = s.links[e]?
  numbered : ∀ e (m : Mark δ), w.reached[e]? = some m → w.visits[m.number]? = some e
  size : w.reached.size = w.visits.size
  incoming : ListsRepresent P done w.incoming s.incoming
  summaries : ListsRepresent P done w.summaries s.summaries
  summaryEdges : w.summaryEdges = s.summaryCount
  total_summaries : w.summaryEdges = total w.summaries
  methods : ∀ m, w.methods.contains m = true ↔ ∃ e ∈ s.edges, e.method = m

variable {P : FlowProblem δ} {retain : Bool} {done : List (SiteEdge δ)} {w : Worklist δ}
  {s : Tabulation δ} {lists : Std.HashMap (EntryFact δ) (EdgeList δ)}
  {table : Std.HashMap (EntryFact δ) (Array (PathEdge δ))}

/-- What is among some path edges is among them and another one. -/
lemma ListsRepresent.append (h : ListsRepresent P done lists table) (e : SiteEdge δ) :
    ListsRepresent P (done ++ [e]) lists table :=
  { h with mem_done := fun key x hx => List.mem_append_left _ (h.mem_done key x hx) }

/-- A path edge is added to the lists exactly if it is added to the table. -/
lemma ListsRepresent.add_cases (h : ListsRepresent P done lists table) (key : EntryFact δ)
    {e : PathEdge δ} (he : P.placed e ∈ done) :
    ∃ l isNew, (lists.getD key {}).add (P.placed e) = (l, isNew) ∧
      (isNew = !(table.getD key #[]).contains e) ∧
      l.order.size = (lists.getD key {}).order.size + isNew.toNat ∧
      ListsRepresent P done (lists.insert key l) (Tabulation.addTo table key e) := by
  have hmem : P.placed e ∈ (lists.getD key {}).order ↔ e ∈ table.getD key #[] := by
    rw [h.order, Array.mem_map]
    constructor
    · rintro ⟨e', he', heq⟩
      rwa [← P.placed_injective heq]
    · exact fun he => ⟨e, he, rfl⟩
  rcases (h.sound key).add_cases (P.placed e) with ⟨hknown, hadd⟩ | ⟨hnew, l, hadd, hpush, hl⟩
  · have hcontains : (table.getD key #[]).contains e = true :=
      Array.contains_iff_mem.mpr (hmem.mp hknown)
    have hsame : ∀ key', (lists.insert key (lists.getD key {})).getD key' {} =
        lists.getD key' {} := by
      intro key'
      rw [Std.HashMap.getD_insert]
      split
      · rename_i heq
        rw [beq_iff_eq.mp heq]
      · rfl
    refine ⟨_, _, hadd, by rw [hcontains]; rfl, rfl, ?_, ?_, ?_⟩
    · exact fun key' => hsame key' ▸ h.sound key'
    · intro key'
      rw [hsame, Tabulation.addTo, if_pos hcontains]
      exact h.order key'
    · exact fun key' => hsame key' ▸ h.mem_done key'
  · have hcontains : (table.getD key #[]).contains e = false := by
      rw [Bool.eq_false_iff, ne_eq, Array.contains_iff_mem, ← hmem]
      exact hnew
    refine ⟨_, _, hadd, by rw [hcontains]; rfl, ?_, ?_, ?_, ?_⟩
    · rw [hpush, Array.size_push]
      rfl
    · intro key'
      rw [Std.HashMap.getD_insert]
      split
      · exact hl
      · exact h.sound key'
    · intro key'
      rw [Tabulation.addTo, if_neg (by rw [hcontains]; exact Bool.false_ne_true),
        Std.HashMap.getD_insert, Std.HashMap.getD_insert]
      split
      · rw [hpush, h.order, Array.map_push]
      · exact h.order key'
    · intro key' x hx
      rw [Std.HashMap.getD_insert] at hx
      split at hx
      · rw [hpush, Array.mem_push] at hx
        rcases hx with hx | rfl
        · exact h.mem_done key x hx
        · exact he
      · exact h.mem_done key' x hx

namespace Represents

/-- The same path edges were reached. -/
lemma reached_eq (h : Represents P done w s) (e : PathEdge δ) :
    w.reached.contains (P.placed e) = s.reached e := by
  unfold Tabulation.reached
  rw [Std.HashMap.contains_eq_isSome_getElem?, Std.HashMap.contains_eq_isSome_getElem?, ← h.links,
    Option.isSome_map]

/-! ## Adding path edges -/

/-- A path edge is added to both or to none. -/
lemma propagate (retain : Bool) (h : Represents P done w s) (e : PathEdge δ) (l : Link δ) :
    Represents P done (w.propagate retain (P.placed e) l) (s.propagate retain e l) := by
  unfold Worklist.propagate Tabulation.propagate
  rw [h.reached_eq]
  split
  · exact h
  rename_i hnew
  rw [← h.reached_eq] at hnew
  refine { h with
    fits := h.fits.push _, in_order := ?_, visits := ?_, links := fun e' => ?_,
    numbered := fun e' m hm => ?_, size := ?_, methods := fun m => ?_ }
  · rw [h.fits.toList_push, ← List.append_assoc, h.in_order, Array.toList_push]
  · rw [h.visits, Array.map_push]
  · rw [Std.HashMap.getElem?_insert, Std.HashMap.getElem?_insert, P.placed_beq]
    split
    · rfl
    · exact h.links e'
  · rw [Std.HashMap.getElem?_insert] at hm
    rw [Array.getElem?_push]
    split at hm
    · rename_i heq
      rw [← Option.some.inj hm, ← beq_iff_eq.mp heq, if_pos h.size]
    · have hthere := h.numbered e' m hm
      obtain ⟨hlt, -⟩ := Array.getElem?_eq_some_iff.mp hthere
      rw [if_neg (by omega), hthere]
  · rw [Std.HashMap.size_insert, if_neg (by rwa [Std.HashMap.mem_iff_contains])]
    simpa using h.size
  · rw [Std.HashSet.contains_insert, Bool.or_eq_true, beq_iff_eq, h.methods]
    simp only [Array.mem_push]
    constructor
    · rintro (hm | ⟨e', he', hm⟩)
      · exact ⟨e, .inr rfl, hm⟩
      · exact ⟨e', .inl he', hm⟩
    · rintro ⟨e', he' | rfl, hm⟩
      · exact .inr ⟨e', he', hm⟩
      · exact .inl hm

/-- The same path edges are added to both. -/
lemma propagateAll (retain : Bool) (h : Represents P done w s)
    (items : List (PathEdge δ × Link δ)) :
    Represents P done (w.propagateAll retain (P.placedItems items))
      (s.propagateAll retain items) := by
  unfold Worklist.propagateAll Tabulation.propagateAll FlowProblem.placedItems
  rw [List.foldl_map]
  exact List.foldl_rel h fun item _ _ _ h => h.propagate retain item.1 item.2

/-! ## Processing path edges -/

/-- Both return from an exit to a call. -/
lemma applyReturn (h : Represents P done w s) (c x : PathEdge δ) :
    Represents P done (w.applyReturn P retain (P.placed c) (P.placed x))
      (s.propagateAll retain (P.returnItems c x)) := by
  unfold Worklist.applyReturn
  rw [returnItems_placed]
  exact h.propagateAll retain _

/-- Both enter a method with a fact from a call. -/
lemma enterWith (h : Represents P done w s) {e : PathEdge δ} (he : P.placed e ∈ done)
    (callee : MethodRef) (d : δ) :
    Represents P done (Worklist.enterWith P retain (P.placed e) callee w d)
      (P.enterWith retain e callee s d) := by
  obtain ⟨callers, isNew, hadd, -, -, hincoming⟩ := h.incoming.add_cases ⟨callee, d⟩ he
  have hentered : Represents P done { w with incoming := w.incoming.insert ⟨callee, d⟩ callers }
      { s with incoming := Tabulation.addTo s.incoming ⟨callee, d⟩ e } :=
    { h with incoming := hincoming }
  have hentry := hentered.propagate retain (P.entryEdge callee d) (.call e)
  rw [P.placed_entryEdge] at hentry
  have hexits := hentry.summaries.order ⟨callee, d⟩
  unfold FlowProblem.entrySite at hentry hexits
  unfold Worklist.enterWith FlowProblem.enterWith Worklist.callers Worklist.exits
  dsimp only
  rw [hadd, P.pathEdge_placed, hexits, Tabulation.propagateAll, List.foldl_flatMap,
    Array.toList_map, List.foldl_map]
  exact List.foldl_rel hentry fun x _ _ _ h => h.applyReturn e x

/-- Both process a path edge at a call. -/
lemma processCall (h : Represents P done w s) {e : PathEdge δ} (he : P.placed e ∈ done) :
    Represents P done (w.processCall P retain (P.placed e))
      (P.processCall retain s (P.graph e.method) e) := by
  unfold Worklist.processCall FlowProblem.processCall
  dsimp only
  have hnoted : Represents P done
      (if (P.callees (P.graph e.method) e.node).isNone then
        { w with unresolved := w.unresolved.insert e.site } else w) s := by
    split
    · exact { h with }
    · exact h
  have hlocal := hnoted.propagateAll retain
    (P.localItems (P.graph e.method) (some ((P.callees (P.graph e.method) e.node).getD [])) e)
  rw [← localItems_placed] at hlocal
  refine List.foldl_rel hlocal fun callee _ _ _ h => ?_
  exact List.foldl_rel h fun d _ _ _ h => h.enterWith he callee d

/-- Both process a path edge at an exit, unless it is a summary already. -/
lemma processExit (h : Represents P done w s) {e : PathEdge δ} (he : P.placed e ∈ done) :
    Represents P done (w.processExit P retain (P.placed e)) (P.processExit retain s e) := by
  set key : EntryFact δ := ⟨e.method, e.startFact⟩ with hkey
  obtain ⟨exits, isNew, hadd, hnew, hsize, hsummaries⟩ := h.summaries.add_cases key he
  have htotal := total_insert w.summaries key exits
  unfold Worklist.processExit FlowProblem.processExit Worklist.exits Worklist.callers
  dsimp only [FlowProblem.node_placed, FlowProblem.startFact_placed, PathEdge.site]
  rw [← hkey, hadd]
  cases isNew with
  | false =>
    have hknown : (s.summaries.getD key #[]).contains e = true := by simpa using hnew
    rw [Tabulation.addTo, if_pos hknown] at hsummaries
    rw [if_neg Bool.false_ne_true, if_pos hknown]
    exact { h with
      summaries := hsummaries
      total_summaries := by
        have := h.total_summaries
        simp only [Bool.toNat_false] at hsize
        dsimp only
        omega }
  | true =>
    have hfresh : ¬ (s.summaries.getD key #[]).contains e = true := by simpa using hnew
    rw [if_pos rfl, if_neg hfresh]
    have hleft : Represents P done
        { w with
          summaries := w.summaries.insert key exits
          summaryEdges := w.summaryEdges + 1 }
        { s with
          summaries := Tabulation.addTo s.summaries key e
          summaryCount := s.summaryCount + 1 } :=
      { h with
        summaries := hsummaries
        summaryEdges := congrArg (· + 1) h.summaryEdges
        total_summaries := by
          have := h.total_summaries
          simp only [Bool.toNat_true] at hsize
          dsimp only
          omega }
    rw [h.incoming.order key, Tabulation.propagateAll, List.foldl_flatMap, Array.toList_map,
      List.foldl_map]
    exact List.foldl_rel hleft fun c _ _ _ h => h.applyReturn c e

/-- What is done with a path edge depends on its statement. -/
lemma process_placed (w : Worklist δ) (e : PathEdge δ) :
    w.process P retain (P.placed e) =
      if FlowProblem.isCall (P.graph e.method) e.node then w.processCall P retain (P.placed e)
      else if (P.graph e.method).isExit e.node then w.processExit P retain (P.placed e)
      else w.propagateAll retain (localItems P (P.graph e.method) none (P.placed e)) :=
  rfl

/-- Both process a path edge. -/
lemma process (h : Represents P done w s) {e : PathEdge δ} (he : P.placed e ∈ done) :
    Represents P done (w.process P retain (P.placed e)) (P.process retain s e) := by
  rw [process_placed]
  unfold FlowProblem.process
  dsimp only
  by_cases hcall : FlowProblem.isCall (P.graph e.method) e.node = true
  · rw [if_pos hcall, if_pos hcall]
    exact h.processCall he
  rw [if_neg hcall, if_neg hcall]
  by_cases hexit : (P.graph e.method).isExit e.node = true
  · rw [if_pos hexit, if_pos hexit]
    exact h.processExit he
  · rw [if_neg hexit, if_neg hexit, localItems_placed]
    exact h.propagateAll retain _

/-! ## Steps and runs -/

/-- The path edges are those that were processed and those that wait. -/
lemma processed_add_waiting (h : Represents P done w s) :
    s.processed + w.waiting.length = s.edges.size := by
  have := congrArg List.length h.in_order
  rwa [List.length_append, h.length_done, ← Queue.length_eq, h.visits, Array.toList_map,
    List.length_map, Array.length_toList] at this

/-- As many path edges wait in both. -/
lemma pending_eq (h : Represents P done w s) : s.pending = w.waiting.length := by
  have := h.processed_add_waiting
  unfold Tabulation.pending
  omega

/-- Nothing waits in both, or both process the same path edge.

**Proof sketch.** The path edges that the problem was told of are those of the tabulation. The ones
that have been processed are as many in both, so what waits first in the queue is what is next in
the tabulation. -/
lemma step_cases (retain : Bool) (h : Represents P done w s) :
    (s.pending = 0 ∧ w.step P retain = none) ∨
      (s.pending ≠ 0 ∧ ∃ e w', w.step P retain = some (P.placed e, w') ∧
        Represents P (done ++ [P.placed e]) w' (P.step retain s)) := by
  have hsize := h.processed_add_waiting
  have hpending := h.pending_eq
  rw [Queue.length_eq] at hsize hpending
  unfold Worklist.step
  rcases h.fits.pop?_cases with ⟨hnil, hnone⟩ | ⟨x, waiting, hcons, hsome, hfits⟩
  · rw [hnone]
    rw [hnil] at hpending
    exact .inl ⟨hpending, rfl⟩
  rw [hsome]
  rw [hcons, List.length_cons] at hsize hpending
  refine .inr ⟨by omega, ?_⟩
  have hlt : s.processed < s.edges.size := by omega
  have hnext : s.next? = some s.edges[s.processed] := Array.getElem?_eq_getElem hlt
  have hfirst : x = P.placed s.edges[s.processed] := by
    have hget : w.visits.toList[s.processed]? = some x := by
      rw [← h.in_order, List.getElem?_append_right (by rw [h.length_done]), h.length_done,
        Nat.sub_self, hcons]
      rfl
    rw [h.visits, Array.getElem?_toList, Array.getElem?_map, Array.getElem?_eq_getElem hlt] at hget
    exact (Option.some.inj hget).symm
  subst hfirst
  have hpopped : Represents P (done ++ [P.placed s.edges[s.processed]])
      { w with waiting, pathEdges := w.pathEdges + 1 } { s with processed := s.processed + 1 } :=
    { h with
      fits := hfits
      in_order := by rw [List.append_assoc, ← h.in_order, hcons]; rfl
      length_done := by rw [List.length_append, h.length_done]; rfl
      pathEdges := congrArg (· + 1) h.pathEdges
      incoming := h.incoming.append _
      summaries := h.summaries.append _ }
  refine ⟨_, _, rfl, ?_⟩
  unfold FlowProblem.step
  rw [hnext]
  exact hpopped.process (by simp)

/-- The same path edges are processed by as many iterations. -/
lemma loop (n : Nat) (h : Represents P done w s) :
    Represents P (done ++ (w.loop P retain n).1) (w.loop P retain n).2 (P.run retain n s) := by
  induction n generalizing done w s with
  | zero =>
    rw [Worklist.loop, List.append_nil]
    exact h
  | succ n ih =>
    rw [FlowProblem.run, Worklist.loop]
    rcases h.step_cases retain with ⟨hpending, hstep⟩ | ⟨hpending, e, w', hstep, hnext⟩
    · rw [if_pos hpending, hstep]
      dsimp only
      rwa [List.append_nil]
    · rw [if_neg hpending, hstep]
      have hrest := ih hnext
      rw [List.append_assoc] at hrest
      exact hrest

end Represents

/-- The tables before the first iteration. -/
lemma represents_start (P : FlowProblem δ) (retain : Bool) (entries : List MethodRef) :
    Represents P [] (start P retain entries) (P.start retain entries) := by
  have hlists : ListsRepresent P [] (∅ : Std.HashMap (EntryFact δ) (EdgeList δ)) ∅ :=
    ⟨fun key => by simp [EdgeList.sound_empty], fun key => by simp, fun key e he => by simp at he⟩
  have hempty : Represents P [] ({} : Worklist δ) ({} : Tabulation δ) := {
    fits := Queue.fits_empty
    in_order := rfl
    length_done := rfl
    pathEdges := rfl
    visits := by simp
    links := fun e => by simp
    numbered := fun e m hm => by simp at hm
    size := by simp
    incoming := hlists
    summaries := hlists
    summaryEdges := rfl
    total_summaries := by simp [total]
    methods := fun m => by simp }
  unfold start FlowProblem.start
  rw [seeds_eq]
  exact hempty.propagateAll retain _

/-- The tables after some iterations, and the path edges that these have processed. -/
lemma represents_loop (P : FlowProblem δ) (retain : Bool) (entries : List MethodRef) (n : Nat) :
    Represents P ((start P retain entries).loop P retain n).1
      ((start P retain entries).loop P retain n).2 (P.run retain n (P.start retain entries)) :=
  (represents_start P retain entries).loop n

/-! ## Calls without a known target -/

/-- Calls are noted as unresolved only when they are processed. -/
lemma unresolved_foldl {α : Type} {f : Worklist δ → α → Worklist δ}
    (hf : ∀ w x, (f w x).unresolved = w.unresolved) (xs : List α) (w : Worklist δ) :
    (xs.foldl f w).unresolved = w.unresolved := by
  induction xs generalizing w with
  | nil => rfl
  | cons x xs ih => exact (ih (f w x)).trans (hf w x)

lemma unresolved_propagate (w : Worklist δ) (e : SiteEdge δ) (l : Link δ) :
    (w.propagate retain e l).unresolved = w.unresolved := by
  unfold propagate
  split <;> rfl

lemma unresolved_propagateAll (w : Worklist δ) (items : List (SiteEdge δ × Link δ)) :
    (w.propagateAll retain items).unresolved = w.unresolved :=
  unresolved_foldl (fun w (e, l) => w.unresolved_propagate e l) items w

lemma unresolved_applyReturn (w : Worklist δ) (c x : SiteEdge δ) :
    (w.applyReturn P retain c x).unresolved = w.unresolved :=
  w.unresolved_propagateAll _

lemma unresolved_enterWith (w : Worklist δ) (e : SiteEdge δ) (callee : MethodRef) (d : δ) :
    (enterWith P retain e callee w d).unresolved = w.unresolved := by
  unfold enterWith
  dsimp only
  rw [unresolved_foldl fun w x => w.unresolved_applyReturn e x, unresolved_propagate]

lemma unresolved_processExit (w : Worklist δ) (e : SiteEdge δ) :
    (w.processExit P retain e).unresolved = w.unresolved := by
  unfold processExit
  dsimp only
  split
  · rw [unresolved_foldl fun w c => w.unresolved_applyReturn c e]
  · rfl

/-- Processing a path edge at a call without a known target notes the call. -/
lemma unresolved_process (w : Worklist δ) (e : SiteEdge δ) :
    (w.process P retain e).unresolved =
      if FlowProblem.isCall (P.graph e.node.method) e.node.index ∧
        (P.callees (P.graph e.node.method) e.node.index).isNone then w.unresolved.insert e.node
      else w.unresolved := by
  unfold process
  dsimp only
  by_cases hcall : FlowProblem.isCall (P.graph e.node.method) e.node.index = true
  · rw [if_pos hcall]
    unfold processCall
    dsimp only
    rw [unresolved_foldl fun w callee => unresolved_foldl (fun w d => unresolved_enterWith ..) ..,
      unresolved_propagateAll]
    simp only [hcall, true_and]
    split <;> rfl
  · simp only [hcall, Bool.false_eq_true, if_false, false_and]
    split
    · exact unresolved_processExit w e
    · exact unresolved_propagateAll w _

/-- The calls without a known target among some path edges. -/
def UnresolvedAmong (P : FlowProblem δ) (done : List (SiteEdge δ)) (n : Site) : Prop :=
  P.AtCall n ∧ (P.callees (P.graph n.method) n.index).isNone ∧ ∃ e ∈ done, e.node = n

omit [DecidableEq δ] [Hashable δ] in
lemma unresolvedAmong_append (e : SiteEdge δ) (call : Site) :
    UnresolvedAmong P (done ++ [e]) call ↔ UnresolvedAmong P done call ∨
      (P.AtCall e.node ∧ (P.callees (P.graph e.node.method) e.node.index).isNone) ∧
        e.node = call := by
  simp only [UnresolvedAmong, List.mem_append, List.mem_singleton]
  constructor
  · rintro ⟨hcall, hnone, e', he' | rfl, rfl⟩
    · exact .inl ⟨hcall, hnone, e', he', rfl⟩
    · exact .inr ⟨⟨hcall, hnone⟩, rfl⟩
  · rintro (⟨hcall, hnone, e', he', rfl⟩ | ⟨⟨hcall, hnone⟩, rfl⟩)
    · exact ⟨hcall, hnone, e', .inl he', rfl⟩
    · exact ⟨hcall, hnone, e, .inr rfl, rfl⟩

/-- The calls without a known target that were processed are noted. -/
lemma unresolved_loop (n : Nat)
    (h : ∀ call, w.unresolved.contains call = true ↔ UnresolvedAmong P done call) (call : Site) :
    (w.loop P retain n).2.unresolved.contains call = true ↔
      UnresolvedAmong P (done ++ (w.loop P retain n).1) call := by
  induction n generalizing done w with
  | zero =>
    rw [loop, List.append_nil]
    exact h call
  | succ n ih =>
    rw [loop]
    cases hpop : w.waiting.pop? with
    | none =>
      simp only [step, hpop, List.append_nil]
      exact h call
    | some popped =>
      obtain ⟨e, waiting⟩ := popped
      simp only [step, hpop]
      have hnext : ∀ call,
          ({ w with waiting, pathEdges := w.pathEdges + 1 }.process P retain e).unresolved.contains
            call = true ↔ UnresolvedAmong P (done ++ [e]) call := by
        intro call
        rw [unresolved_process, unresolvedAmong_append, ← h]
        split
        · rename_i hthis
          rw [Std.HashSet.contains_insert, Bool.or_eq_true, beq_iff_eq, or_comm]
          exact or_congr_right (iff_and_self.mpr fun _ => hthis)
        · rename_i hthis
          exact (or_iff_left fun hand => hthis hand.1).symm
      have hrest := ih hnext
      rwa [List.append_assoc] at hrest

/-! ## What a run says -/

/-- A set has as many elements as a list without its repetitions. -/
lemma size_eq_length_eraseDups {α : Type} [DecidableEq α] [Hashable α] {xs : List α}
    {set : Std.HashSet α} (h : ∀ x, set.contains x = true ↔ x ∈ xs) :
    set.size = xs.eraseDups.length := by
  rw [← Std.HashSet.length_toList]
  refine ((List.perm_ext_iff_of_nodup ?_ (nodup_eraseDups xs)).mpr fun x => ?_).length_eq
  · exact Std.HashSet.distinct_toList.imp fun {a b} hab heq => by simp [heq] at hab
  · rw [Std.HashSet.mem_toList, List.mem_eraseDups, ← h, Std.HashSet.mem_iff_contains]

namespace Represents

/-- The path edges that were processed. -/
lemma done_eq (h : Represents P done w s) :
    done = (s.edges.toList.take s.processed).map P.placed := by
  rw [List.map_take, ← Array.toList_map, ← h.visits, ← h.in_order, ← h.length_done,
    List.take_left]

/-- The statistics are the same. -/
lemma statistics_eq (h : Represents P done w s)
    (hunresolved : ∀ call, w.unresolved.contains call = true ↔ UnresolvedAmong P done call) :
    w.statistics = P.statistics s := by
  have hmethods : w.methods.size = (s.edges.toList.map (·.method)).eraseDups.length := by
    refine size_eq_length_eraseDups fun m => ?_
    rw [h.methods, List.mem_map]
    simp only [Array.mem_toList_iff]
  have hcalls : w.unresolved.size = (((P.processedCalls s).filter fun e =>
      (P.callees (P.graph e.method) e.node).isNone).map (·.site)).eraseDups.length := by
    refine size_eq_length_eraseDups fun call => ?_
    rw [hunresolved, UnresolvedAmong, h.done_eq]
    simp only [FlowProblem.processedCalls, List.mem_map, List.mem_filter, FlowProblem.AtCall]
    constructor
    · rintro ⟨hcall, hnone, _, ⟨e, he, rfl⟩, rfl⟩
      exact ⟨e, ⟨⟨he, hcall⟩, hnone⟩, rfl⟩
    · rintro ⟨e, ⟨⟨he, hcall⟩, hnone⟩, rfl⟩
      exact ⟨hcall, hnone, P.placed e, ⟨e, he, rfl⟩, rfl⟩
  unfold Worklist.statistics FlowProblem.statistics
  rw [h.pathEdges, h.size, h.visits, Array.size_map, h.summaryEdges, hmethods, hcalls]

end Represents

end Worklist

end JvmTaint
