import JvmTaint.Flow.Graph
import JvmTaint.Proofs.Graph.LowLinks
import Mathlib.Algebra.BigOperators.Group.Finset.Basic
import Mathlib.Algebra.BigOperators.Intervals

set_option autoImplicit false
set_option relaxedAutoImplicit false

/-!
# Back edges

The depth-first search for back edges closes every node that can be reached. Each edge out of a
closed node was found to be a back edge, or leads to a node that was closed before. So a way without
back edges goes back in the order in which the nodes were closed, and does not come round.

## Main definitions

* `JvmTaint.Successors.targets`: the nodes to which edges lead.
* `JvmTaint.Successors.Fits`: edges are listed at their sources and join nodes.
* `JvmTaint.DepthFirst.Settled`: edges lead to nodes closed before, but for back edges.
* `JvmTaint.DepthFirst.Sound`: the invariant of the search.

## Main results

* `JvmTaint.DepthFirst.exists_sound_backEdgesFrom`: the search comes to the end of its path.
* `JvmTaint.exists_settled_backEdges`: what the search for back edges finds.
* `JvmTaint.DepthFirst.Settled.not_transGen`: no way without back edges comes round.
-/

namespace JvmTaint

/-- The nodes to which the edges out of a node lead. -/
def Successors.targets (succs : Successors) (i : Nat) : List Nat := (succs.getD i []).map (·.target)

/-- Edges are listed at their sources and join nodes, among which is the first one. -/
structure Successors.Fits (succs : Successors) : Prop where
  pos : 0 < succs.size
  source_eq : ∀ i, ∀ e ∈ succs.getD i [], e.source = i
  target_lt : ∀ i, ∀ e ∈ succs.getD i [], e.target < succs.size

namespace DepthFirst

variable {succs : Successors} {progress : Array Progress} {path : List (Nat × List Edge)}
  {found : List Edge} {closed : List Nat} {n : Nat} {e : Edge} {es : List Edge}

/-- Each edge out of a closed node, the last closed one first, was found or leads to a node that was
closed before. -/
def Settled (succs : Successors) (found : List Edge) : List Nat → Prop
  | [] => True
  | n :: before =>
    (∀ e ∈ succs.getD n [], e ∈ found ∨ e.target ∈ before) ∧ Settled succs found before

/-- Each edge out of a node on the path is still to be followed, was found, or leads to a node that
will have been closed before: a closed one or one that comes behind on the path. -/
def Followed (succs : Successors) (found : List Edge) : List Nat → List (Nat × List Edge) → Prop
  | _, [] => True
  | before, (n, es) :: path =>
    (∀ e ∈ succs.getD n [], e ∈ es ∨ e ∈ found ∨ e.target ∈ before) ∧
      Followed succs found (n :: before) path

lemma Settled.mono {found' : List Edge} (h : Settled succs found closed)
    (hfound : ∀ e ∈ found, e ∈ found') : Settled succs found' closed := by
  induction closed with
  | nil => trivial
  | cons n before ih => exact ⟨fun e he => (h.1 e he).imp_left (hfound e), ih h.2⟩

lemma Followed.mono {found' : List Edge} {before before' : List Nat}
    (h : Followed succs found before path) (hfound : ∀ e ∈ found, e ∈ found')
    (hbefore : ∀ n ∈ before, n ∈ before') : Followed succs found' before' path := by
  induction path generalizing before before' with
  | nil => trivial
  | cons p path ih =>
    refine ⟨fun e he => (h.1 e he).imp_right (.imp (hfound e) (hbefore e.target)), ih h.2 ?_⟩
    intro m hm
    rcases List.mem_cons.mp hm with rfl | hm
    · exact List.mem_cons_self
    · exact List.mem_cons_of_mem _ (hbefore m hm)

/-- An edge out of a closed node that was not found leads to a closed node. -/
lemma Settled.mem_target (h : Settled succs found closed) (hn : n ∈ closed)
    (he : e ∈ succs.getD n []) (hne : e ∉ found) : e.target ∈ closed := by
  induction closed with
  | nil => cases hn
  | cons k before ih =>
    rcases List.mem_cons.mp hn with rfl | hn
    · exact List.mem_cons_of_mem _ ((h.1 e he).resolve_left hne)
    · exact List.mem_cons_of_mem _ (ih h.2 hn)

/-- A way through edges that were not found does not leave the closed nodes. -/
lemma Settled.mem_of_transGen (h : Settled succs found closed) {m : Nat}
    (htrans : Relation.TransGen
      (fun i j => ∃ e ∈ succs.getD i [], e ∉ found ∧ e.target = j) n m) (hn : n ∈ closed) :
    m ∈ closed := by
  induction htrans with
  | single hedge =>
    obtain ⟨e, he, hne, rfl⟩ := hedge
    exact h.mem_target hn he hne
  | tail _ hedge ih =>
    obtain ⟨e, he, hne, rfl⟩ := hedge
    exact h.mem_target ih he hne

/-- **No way round.** No way from a closed node comes round through edges that were not found.

**Proof sketch.** Induction on the closed nodes: the first step of a way from the node that was
closed last leads to one closed before, and all others do not leave those. -/
lemma Settled.not_transGen (h : Settled succs found closed) (hnodup : closed.Nodup)
    (hn : n ∈ closed) : ¬ Relation.TransGen
      (fun i j => ∃ e ∈ succs.getD i [], e ∉ found ∧ e.target = j) n n := by
  induction closed with
  | nil => cases hn
  | cons k before ih =>
    obtain ⟨hk, hnodup⟩ := List.nodup_cons.mp hnodup
    rcases List.mem_cons.mp hn with rfl | hn
    · intro htrans
      obtain ⟨m, ⟨e, he, hne, rfl⟩, hrest⟩ := Relation.TransGen.head'_iff.mp htrans
      have htarget : e.target ∈ before := (h.1 e he).resolve_left hne
      rcases Relation.reflTransGen_iff_eq_or_transGen.mp hrest with heq | hrest
      · exact hk (heq ▸ htarget)
      · exact hk (h.2.mem_of_transGen hrest htarget)
    · exact ih h.2 hnodup hn

/-! ## The invariant -/

/-- The invariant of the search. The last closed node comes first. -/
structure Sound (succs : Successors) (progress : Array Progress) (path : List (Nat × List Edge))
    (found : List Edge) (closed : List Nat) : Prop where
  size_eq : progress.size = succs.size
  open_iff : ∀ n, progress[n]? = some .open ↔ n ∈ path.map (·.1)
  closed_iff : ∀ n, progress[n]? = some .closed ↔ n ∈ closed
  nodup_path : (path.map (·.1)).Nodup
  nodup_closed : closed.Nodup
  entered : 0 ∈ path.map (·.1) ∨ 0 ∈ closed
  pending : ∀ p ∈ path, ∀ e ∈ p.2, e ∈ succs.getD p.1 []
  /-- The nodes on the path reach those behind them. -/
  leads : (path.map (·.1)).Pairwise fun n m => Reaches succs.targets m n
  reached : ∀ n ∈ path.map (·.1), Reaches succs.targets 0 n
  found_back : ∀ e ∈ found,
    Reaches succs.targets 0 e.source ∧ Reaches succs.targets e.target e.source
  found_seen : ∀ e ∈ found, e.target ∈ path.map (·.1) ∨ e.target ∈ closed
  followed : Followed succs found closed path
  settled : Settled succs found closed

/-- At first, the path is the first node. -/
lemma sound_start (hfits : succs.Fits) :
    Sound succs ((Array.replicate succs.size Progress.unseen).setIfInBounds 0 .open)
      [(0, succs.getD 0 [])] [] [] where
  size_eq := by simp
  open_iff n := by
    rw [Array.getElem?_setIfInBounds, Array.getElem?_replicate]
    have hpos := hfits.pos
    by_cases hn : n = 0
    · simp [hn, hpos]
    · simp [hn, Ne.symm hn]
  closed_iff n := by
    rw [Array.getElem?_setIfInBounds, Array.getElem?_replicate]
    split <;> simp
  nodup_path := by simp
  nodup_closed := List.nodup_nil
  entered := .inl (by simp)
  pending := by simp
  leads := by simp
  reached := by simp [Relation.ReflTransGen.refl]
  found_back := by simp
  found_seen := by simp
  followed := ⟨fun e he => .inl he, trivial⟩
  settled := trivial

namespace Sound

/-- A node without edges that are still to be followed is closed. -/
lemma close (h : Sound succs progress ((n, []) :: path) found closed) :
    Sound succs (progress.setIfInBounds n .closed) path found (n :: closed) := by
  have hopen : progress[n]? = some .open := (h.open_iff n).mpr List.mem_cons_self
  have hlt : n < progress.size := (Array.getElem?_eq_some_iff.mp hopen).1
  have hnpath : n ∉ path.map (·.1) := (List.nodup_cons.mp h.nodup_path).1
  have hnclosed : n ∉ closed := by
    rw [← h.closed_iff, hopen]
    simp
  constructor
  case size_eq => rw [Array.size_setIfInBounds, h.size_eq]
  case open_iff =>
    intro m
    rw [Array.getElem?_setIfInBounds]
    split
    · rename_i heq
      subst heq
      simpa [hlt] using hnpath
    · rename_i hne
      rw [h.open_iff, List.map_cons, List.mem_cons]
      simp [Ne.symm hne]
  case closed_iff =>
    intro m
    rw [Array.getElem?_setIfInBounds]
    split
    · rename_i heq
      subst heq
      simp
    · rename_i hne
      rw [h.closed_iff, List.mem_cons]
      simp [Ne.symm hne]
  case nodup_path => exact (List.nodup_cons.mp h.nodup_path).2
  case nodup_closed => exact List.nodup_cons.mpr ⟨hnclosed, h.nodup_closed⟩
  case entered =>
    rcases h.entered with hzero | hzero
    · rcases List.mem_cons.mp hzero with hzero | hzero
      · exact .inr (List.mem_cons.mpr (.inl hzero))
      · exact .inl hzero
    · exact .inr (List.mem_cons_of_mem _ hzero)
  case pending => exact fun p hp => h.pending p (List.mem_cons_of_mem _ hp)
  case leads => exact (List.pairwise_cons.mp h.leads).2
  case reached => exact fun m hm => h.reached m (List.mem_cons_of_mem _ hm)
  case found_back => exact h.found_back
  case found_seen =>
    intro e he
    rcases h.found_seen e he with hseen | hseen
    · rcases List.mem_cons.mp hseen with hseen | hseen
      · exact .inr (List.mem_cons.mpr (.inl hseen))
      · exact .inl hseen
    · exact .inr (List.mem_cons_of_mem _ hseen)
  case followed => exact h.followed.2
  case settled => exact ⟨fun e he => (h.followed.1 e he).resolve_left List.not_mem_nil, h.settled⟩

/-- An edge of the last node of the path is an edge. -/
lemma mem_of_next (h : Sound succs progress ((n, e :: es) :: path) found closed) :
    e ∈ succs.getD n [] :=
  h.pending _ List.mem_cons_self e List.mem_cons_self

/-- All nodes on the path reach its last node. -/
lemma reaches_last (h : Sound succs progress ((n, es) :: path) found closed) {m : Nat}
    (hm : m ∈ ((n, es) :: path).map (·.1)) : Reaches succs.targets m n := by
  rcases List.mem_cons.mp hm with rfl | hm
  · exact .refl
  · exact (List.pairwise_cons.mp h.leads).1 m hm

/-- An edge leads to a target. -/
lemma reaches_target (h : Sound succs progress ((n, e :: es) :: path) found closed) :
    Reaches succs.targets n e.target :=
  .single (List.mem_map.mpr ⟨e, h.mem_of_next, rfl⟩)

/-- An edge is followed that is found or leads to a node that is closed. -/
lemma follow (h : Sound succs progress ((n, e :: es) :: path) found closed) {found' : List Edge}
    (hfound : ∀ a ∈ found, a ∈ found')
    (hmem : ∀ a ∈ found', a ∈ found ∨
      a.source = n ∧ a.target ∈ ((n, e :: es) :: path).map (·.1))
    (hdone : e ∈ found' ∨ e.target ∈ closed) :
    Sound succs progress ((n, es) :: path) found' closed := by
  constructor
  case size_eq => exact h.size_eq
  case open_iff => exact h.open_iff
  case closed_iff => exact h.closed_iff
  case nodup_path => exact h.nodup_path
  case nodup_closed => exact h.nodup_closed
  case entered => exact h.entered
  case pending =>
    intro p hp a ha
    rcases List.mem_cons.mp hp with rfl | hp
    · exact h.pending _ List.mem_cons_self a (List.mem_cons_of_mem _ ha)
    · exact h.pending p (List.mem_cons_of_mem _ hp) a ha
  case leads => exact h.leads
  case reached => exact h.reached
  case found_back =>
    intro a ha
    rcases hmem a ha with hfound | ⟨hsource, htarget⟩
    · exact h.found_back a hfound
    · rw [hsource]
      exact ⟨h.reached n List.mem_cons_self, h.reaches_last htarget⟩
  case found_seen =>
    intro a ha
    rcases hmem a ha with hfound | ⟨-, htarget⟩
    · exact h.found_seen a hfound
    · exact .inl htarget
  case followed =>
    refine ⟨fun a ha => ?_, h.followed.2.mono hfound fun _ hm => hm⟩
    rcases h.followed.1 a ha with ha | ha | ha
    · rcases List.mem_cons.mp ha with rfl | ha
      · exact .inr hdone
      · exact .inl ha
    · exact .inr (.inl (hfound a ha))
    · exact .inr (.inr ha)
  case settled => exact h.settled.mono hfound

/-- An edge to a node that has not been seen is followed, and the node comes last on the path. -/
lemma enter (h : Sound succs progress ((n, e :: es) :: path) found closed)
    (hunseen : progress[e.target]? = some .unseen) :
    Sound succs (progress.setIfInBounds e.target .open)
      ((e.target, succs.getD e.target []) :: (n, es) :: path) found closed := by
  have hlt : e.target < progress.size := (Array.getElem?_eq_some_iff.mp hunseen).1
  have hnpath : e.target ∉ n :: path.map (·.1) := by
    intro hmem
    have hopen := (h.open_iff e.target).mpr hmem
    rw [hunseen] at hopen
    cases hopen
  have hnclosed : e.target ∉ closed := by
    rw [← h.closed_iff, hunseen]
    simp
  constructor
  case size_eq => rw [Array.size_setIfInBounds, h.size_eq]
  case open_iff =>
    intro m
    rw [Array.getElem?_setIfInBounds]
    split
    · rename_i heq
      subst heq
      simp
    · rename_i hne
      rw [h.open_iff]
      simp [Ne.symm hne]
  case closed_iff =>
    intro m
    rw [Array.getElem?_setIfInBounds]
    split
    · rename_i heq
      subst heq
      simpa [hlt] using hnclosed
    · exact h.closed_iff m
  case nodup_path => exact List.nodup_cons.mpr ⟨hnpath, h.nodup_path⟩
  case nodup_closed => exact h.nodup_closed
  case entered => exact h.entered.imp_left (List.mem_cons_of_mem _)
  case pending =>
    intro p hp a ha
    rcases List.mem_cons.mp hp with rfl | hp
    · exact ha
    · rcases List.mem_cons.mp hp with rfl | hp
      · exact h.pending _ List.mem_cons_self a (List.mem_cons_of_mem _ ha)
      · exact h.pending p (List.mem_cons_of_mem _ hp) a ha
  case leads =>
    exact List.pairwise_cons.mpr ⟨fun m hm => (h.reaches_last hm).trans h.reaches_target, h.leads⟩
  case reached =>
    intro m hm
    rcases List.mem_cons.mp hm with rfl | hm
    · exact (h.reached n List.mem_cons_self).trans h.reaches_target
    · exact h.reached m hm
  case found_back => exact h.found_back
  case found_seen => exact fun a ha => (h.found_seen a ha).imp_left (List.mem_cons_of_mem _)
  case followed =>
    refine ⟨fun a ha => .inl ha, fun a ha => ?_, h.followed.2.mono (fun _ ha => ha) ?_⟩
    · rcases h.followed.1 a ha with ha | ha | ha
      · rcases List.mem_cons.mp ha with rfl | ha
        · exact .inr (.inr List.mem_cons_self)
        · exact .inl ha
      · exact .inr (.inl ha)
      · exact .inr (.inr (List.mem_cons_of_mem _ ha))
    · intro m hm
      rcases List.mem_cons.mp hm with rfl | hm
      · exact List.mem_cons_self
      · exact List.mem_cons_of_mem _ (List.mem_cons_of_mem _ hm)
  case settled => exact h.settled

/-- When the path has come to its end, all nodes that can be reached are closed. -/
lemma mem_closed (h : Sound succs progress [] found closed) {m : Nat}
    (hm : Reaches succs.targets 0 m) : m ∈ closed := by
  refine hm.mem_of_closed (p := (· ∈ closed)) (fun i hi j hj => ?_) (by simpa using h.entered)
  obtain ⟨e, he, rfl⟩ := List.mem_map.mp hj
  by_cases hfound : e ∈ found
  · simpa using h.found_seen e hfound
  · exact h.settled.mem_target hi he hfound

end Sound

/-! ## The end of the search -/

/-- The nodes that have not been seen. -/
def unseen (succs : Successors) (progress : Array Progress) : Finset Nat :=
  {i ∈ Finset.range succs.size | progress[i]? = some .unseen}

/-- How many steps the search can still take. -/
def weight (succs : Successors) (progress : Array Progress) (path : List (Nat × List Edge)) : Nat :=
  (path.map fun p => p.2.length + 1).sum +
    ∑ i ∈ unseen succs progress, ((succs.getD i []).length + 1)

lemma unseen_setIfInBounds {p : Progress} (hp : p ≠ .unseen) (h : n < progress.size) :
    unseen succs (progress.setIfInBounds n p) = (unseen succs progress).erase n := by
  ext m
  simp only [unseen, Finset.mem_filter, Finset.mem_erase, Array.getElem?_setIfInBounds]
  by_cases heq : n = m
  · simp [heq ▸ h, heq, hp]
  · simp [heq, Ne.symm heq]

/-- Closing a node is a step. -/
lemma weight_close (h : progress[n]? = some .open) :
    weight succs (progress.setIfInBounds n .closed) path + 1 =
      weight succs progress ((n, []) :: path) := by
  have hlt : n < progress.size := (Array.getElem?_eq_some_iff.mp h).1
  have hn : n ∉ unseen succs progress := by simp [unseen, h]
  rw [weight, weight, unseen_setIfInBounds (by simp) hlt, Finset.erase_eq_of_notMem hn]
  simp only [List.map_cons, List.sum_cons, List.length_nil]
  omega

/-- Coming to a node is a step. -/
lemma weight_enter (hsize : progress.size = succs.size)
    (h : progress[e.target]? = some .unseen) :
    weight succs (progress.setIfInBounds e.target .open)
      ((e.target, succs.getD e.target []) :: (n, es) :: path) + 1 =
        weight succs progress ((n, e :: es) :: path) := by
  have hlt : e.target < progress.size := (Array.getElem?_eq_some_iff.mp h).1
  have hmem : e.target ∈ unseen succs progress := by
    simp only [unseen, Finset.mem_filter, Finset.mem_range, h, ← hsize, hlt, and_self]
  have hsum := Finset.add_sum_erase (unseen succs progress)
    (fun i => (succs.getD i []).length + 1) hmem
  rw [weight, weight, unseen_setIfInBounds (by simp) hlt, ← hsum]
  simp only [List.map_cons, List.sum_cons, List.length_cons]
  omega

/-- **Searches.** With enough fuel, the search comes to the end of its path.

**Proof sketch.** Induction on the fuel: every step closes a node or follows an edge. -/
lemma exists_sound_backEdgesFrom (hfits : succs.Fits) (fuel : Nat)
    (h : Sound succs progress path found closed) (hfuel : weight succs progress path ≤ fuel) :
    ∃ progress' closed',
      Sound succs progress' [] (backEdgesFrom succs fuel progress path found) closed' := by
  induction fuel generalizing progress path found closed with
  | zero =>
    cases path with
    | nil => exact ⟨progress, closed, h⟩
    | cons p path =>
      simp only [weight, List.map_cons, List.sum_cons] at hfuel
      omega
  | succ fuel ih =>
    match path with
    | [] => exact ⟨progress, closed, h⟩
    | (n, []) :: path =>
      have hweight : weight succs (progress.setIfInBounds n .closed) path + 1 =
          weight succs progress ((n, []) :: path) :=
        weight_close ((h.open_iff n).mpr List.mem_cons_self)
      exact ih h.close (by omega)
    | (n, e :: es) :: path =>
      have hless : weight succs progress ((n, es) :: path) + 1 =
          weight succs progress ((n, e :: es) :: path) := by
        simp only [weight, List.map_cons, List.sum_cons, List.length_cons]
        omega
      have hlt : e.target < progress.size := h.size_eq ▸ hfits.target_lt n e h.mem_of_next
      rw [backEdgesFrom]
      split
      · rename_i hunseen
        have hweight : weight succs (progress.setIfInBounds e.target .open)
            ((e.target, succs.getD e.target []) :: (n, es) :: path) + 1 =
              weight succs progress ((n, e :: es) :: path) :=
          weight_enter h.size_eq hunseen
        exact ih (h.enter hunseen) (by omega)
      · rename_i hopen
        refine ih (h.follow (fun a ha => List.mem_cons_of_mem _ ha) (fun a ha => ?_)
          (.inl List.mem_cons_self)) (by omega)
        rcases List.mem_cons.mp ha with rfl | ha
        · exact .inr ⟨hfits.source_eq n a h.mem_of_next, (h.open_iff a.target).mp hopen⟩
        · exact .inl ha
      · rename_i hnunseen hnopen
        have hclosed : progress[e.target]? = some .closed := by
          rw [Array.getElem?_eq_getElem hlt] at hnunseen hnopen ⊢
          cases hprogress : progress[e.target] with
          | unseen => exact absurd (congrArg some hprogress) hnunseen
          | «open» => exact absurd (congrArg some hprogress) hnopen
          | closed => rfl
        exact ih (h.follow (fun a ha => ha) (fun a ha => .inl ha)
          (.inr ((h.closed_iff e.target).mp hclosed))) (by omega)

lemma sum_length_add_one (l : List (List Edge)) :
    ∑ i ∈ Finset.range l.length, ((l.getD i []).length + 1) =
      l.length + sumOf (l.map List.length) := by
  induction l with
  | nil => rfl
  | cons out l ih =>
    rw [List.length_cons, Finset.sum_range_succ', List.map_cons, sumOf]
    simp only [List.getD_cons_succ, List.getD_cons_zero, ih]
    omega

/-- As many steps can be taken at first as there are nodes and edges. -/
lemma weight_start_le (hfits : succs.Fits) :
    weight succs ((Array.replicate succs.size Progress.unseen).setIfInBounds 0 .open)
      [(0, succs.getD 0 [])] ≤ succs.size + sumOf (succs.toList.map List.length) + 1 := by
  have hall : unseen succs (Array.replicate succs.size Progress.unseen) =
      Finset.range succs.size := by
    refine Finset.filter_true_of_mem fun i hi => ?_
    simp [Finset.mem_range.mp hi]
  have hsplit := Finset.add_sum_erase (Finset.range succs.size)
    (fun i => (succs.getD i []).length + 1) (Finset.mem_range.mpr hfits.pos)
  have htotal : ∑ i ∈ Finset.range succs.size, ((succs.getD i []).length + 1) =
      succs.size + sumOf (succs.toList.map List.length) := by
    simpa [Array.getD_eq_getD_getElem?] using sum_length_add_one succs.toList
  rw [weight, unseen_setIfInBounds (by simp) (by simpa using hfits.pos), hall]
  simp only [List.map_cons, List.map_nil, List.sum_cons, List.sum_nil]
  omega

end DepthFirst

/-- **Back edges.** The search for back edges finds edges back along ways from the first node, and
closes all nodes that can be reached in an order in which no other edge leads on. -/
lemma exists_settled_backEdges {succs : Successors} (hfits : succs.Fits) :
    (∀ e ∈ backEdges succs,
      Reaches succs.targets 0 e.source ∧ Reaches succs.targets e.target e.source) ∧
    ∃ closed : List Nat, closed.Nodup ∧ (∀ i, Reaches succs.targets 0 i → i ∈ closed) ∧
      DepthFirst.Settled succs (backEdges succs) closed := by
  obtain ⟨progress, closed, h⟩ := DepthFirst.exists_sound_backEdgesFrom hfits _
    (DepthFirst.sound_start hfits) (DepthFirst.weight_start_le hfits)
  exact ⟨h.found_back, closed, h.nodup_closed, fun i hi => h.mem_closed hi, h.settled⟩

end JvmTaint
