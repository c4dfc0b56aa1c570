import JvmTaint.Graph.Cycles
import Mathlib.Data.List.Chain
import Mathlib.Data.List.Perm.Subperm
import Mathlib.Tactic.Tauto

set_option autoImplicit false
set_option relaxedAutoImplicit false

/-!
# The search for cycles through a node

A search for ways back to a start does not enter blocked nodes. A node stays blocked, after it has
been left without success, until one of its successors is unblocked; so each successor of such a
node is blocked itself, and is not the start, and the node waits for it. Hence no way leads from a
blocked node to the start around the path of the search, and no cycle is missed.

## Main definitions

* `JvmTaint.Digraph.IsRound`: a way through different nodes and back to the first one.
* `JvmTaint.Digraph.CycleSearch.Unblocks`: what it is to unblock a node.
* `JvmTaint.Digraph.CycleSearch.Sound`: the invariant of the search.
* `JvmTaint.Digraph.CycleSearch.Searched`: what a search from a node does.

## Main results

* `JvmTaint.Digraph.CycleSearch.unblock_unblocks`: the nodes that wait for a node are unblocked.
* `JvmTaint.Digraph.CycleSearch.Sound.not_isRound`: no way leads around the path from a blocked
  node.
* `JvmTaint.Digraph.CycleSearch.circuit_searched`: a search finds every way back once.
-/

namespace JvmTaint

namespace Digraph

/-- A way through different nodes from which an edge leads back to the start. -/
structure IsRound (g : Digraph) (start : Int) (way : List Int) : Prop where
  nodup : way.Nodup
  chain : (way ++ [start]).IsChain fun a b => b ∈ g.successors a

namespace CycleSearch

variable {g : Digraph} {start v : Int} {path : List Int} {s t u : CycleSearch}

/-! ## Unblocking -/

/-- What it is to unblock a node, and with a node the nodes that wait for it. -/
structure Unblocks (v : Int) (s t : CycleSearch) : Prop where
  cycles_eq : t.cycles = s.cycles
  sublist : t.blocked.Sublist s.blocked
  not_mem : v ∉ t.blocked
  /-- Nobody waits any more for a node that has been unblocked. -/
  mem_waiting_iff : ∀ w x, (w, x) ∈ t.waiting ↔
    (w, x) ∈ s.waiting ∧ (w ∈ s.blocked → w ∈ t.blocked)
  freed : ∀ w x, (w, x) ∈ s.waiting → w ∈ s.blocked → w ∉ t.blocked → x ∉ t.blocked
  /-- Only the node is unblocked, and what waits for it through others. -/
  least : ∀ p : Int → Prop, p v → (∀ w x, p w → (w, x) ∈ s.waiting → p x) →
    ∀ x ∈ s.blocked, x ∉ t.blocked → p x

/-- A node is being unblocked: the nodes of `done`, which wait for it, have been unblocked. -/
structure Unblocking (v : Int) (done : List Int) (s t : CycleSearch) : Prop where
  cycles_eq : t.cycles = s.cycles
  sublist : t.blocked.Sublist s.blocked
  not_mem : v ∉ t.blocked
  mem_waiting_iff : ∀ w x, (w, x) ∈ t.waiting ↔
    (w, x) ∈ s.waiting ∧ (w ≠ v → w ∈ s.blocked → w ∈ t.blocked)
  freed : ∀ w x, (w, x) ∈ s.waiting → w ≠ v → w ∈ s.blocked → w ∉ t.blocked → x ∉ t.blocked
  done_free : ∀ x ∈ done, x ∉ t.blocked
  least : ∀ p : Int → Prop, p v → (∀ w x, p w → (w, x) ∈ s.waiting → p x) →
    ∀ x ∈ s.blocked, x ∉ t.blocked → p x

namespace Unblocking

variable {done : List Int} {w : Int}

/-- At first, only the node itself is unblocked. -/
lemma first (v : Int) (s : CycleSearch) :
    Unblocking v [] s { s with blocked := s.blocked.filter (· != v) } where
  cycles_eq := rfl
  sublist := List.filter_sublist
  not_mem := by simp
  mem_waiting_iff w x := by
    refine (and_iff_left fun hne hw => ?_).symm
    exact List.mem_filter.mpr ⟨hw, by simpa using hne⟩
  freed w x _ hne hw hfree := by
    exact absurd (List.mem_filter.mpr ⟨hw, by simpa using hne⟩) hfree
  done_free := by simp
  least p hp _ x hx hfree := by
    have hxv : x = v := by
      by_contra hne
      exact hfree (List.mem_filter.mpr ⟨hx, by simpa using hne⟩)
    rwa [hxv]

/-- A node that waits is unblocked. -/
lemma next (h : Unblocking v done s t) (hwait : (v, w) ∈ s.waiting)
    (hu : Unblocks w t u) : Unblocking v (done ++ [w]) s u where
  cycles_eq := hu.cycles_eq.trans h.cycles_eq
  sublist := hu.sublist.trans h.sublist
  not_mem hmem := h.not_mem (hu.sublist.subset hmem)
  mem_waiting_iff a x := by
    rw [hu.mem_waiting_iff, h.mem_waiting_iff]
    have hsub : a ∈ u.blocked → a ∈ t.blocked := fun hmem => hu.sublist.subset hmem
    have hsub' : a ∈ t.blocked → a ∈ s.blocked := fun hmem => h.sublist.subset hmem
    have hv : a = v → a ∉ t.blocked := fun heq => heq ▸ h.not_mem
    tauto
  freed a x hax hne ha hfree := by
    by_cases hat : a ∈ t.blocked
    · exact hu.freed a x ((h.mem_waiting_iff a x).mpr ⟨hax, fun _ _ => hat⟩) hat hfree
    · exact fun hx => h.freed a x hax hne ha hat (hu.sublist.subset hx)
  done_free x hx := by
    rcases List.mem_append.mp hx with hx | hx
    · exact fun hmem => h.done_free x hx (hu.sublist.subset hmem)
    · exact List.mem_singleton.mp hx ▸ hu.not_mem
  least p hp hclosed x hx hfree := by
    by_cases hxt : x ∈ t.blocked
    · refine hu.least p (hclosed v w hp hwait) (fun a b ha hab => ?_) x hxt hfree
      exact hclosed a b ha ((h.mem_waiting_iff a b).mp hab).1
    · exact h.least p hp hclosed x hx hxt

/-- A node that waits but is not blocked is passed over. -/
lemma skip (h : Unblocking v done s t) (hw : w ∉ t.blocked) : Unblocking v (done ++ [w]) s t :=
  { h with
    done_free := fun x hx => by
      rcases List.mem_append.mp hx with hx | hx
      · exact h.done_free x hx
      · exact List.mem_singleton.mp hx ▸ hw }

/-- When all nodes that wait for it have been unblocked, a node has been unblocked. -/
lemma finish (h : Unblocking v ((s.waiting.filter (·.1 == v)).map (·.2)) s t)
    (hv : v ∈ s.blocked) :
    Unblocks v s { t with waiting := t.waiting.filter (·.1 != v) } where
  cycles_eq := h.cycles_eq
  sublist := h.sublist
  not_mem := h.not_mem
  mem_waiting_iff w x := by
    show (w, x) ∈ t.waiting.filter (·.1 != v) ↔ _ ∧ (_ → w ∈ t.blocked)
    rw [List.mem_filter, h.mem_waiting_iff]
    have hfree := h.not_mem
    by_cases hwv : w = v
    · subst hwv
      simp [hv, hfree]
    · simp [hwv]
  freed w x hwx hw hfree := by
    by_cases hwv : w = v
    · refine h.done_free x (List.mem_map.mpr ⟨(w, x), List.mem_filter.mpr ⟨hwx, ?_⟩, rfl⟩)
      simpa using hwv
    · exact h.freed w x hwx hwv hw hfree
  least := h.least

/-- The nodes that wait are unblocked one after the other, by any way to unblock a node. -/
lemma unblockAll (fuel : Nat) (hunblock : ∀ (w : Int) (t : CycleSearch), w ∈ t.blocked →
      t.blocked.length ≤ fuel → Unblocks w t (unblock fuel w t)) :
    ∀ (rest done : List Int) (t : CycleSearch),
      (s.waiting.filter (·.1 == v)).map (·.2) = done ++ rest → Unblocking v done s t →
      t.blocked.length ≤ fuel →
      Unblocking v (done ++ rest) s
        (rest.foldl (fun s w => if s.blocked.contains w then unblock fuel w s else s) t) := by
  intro rest
  induction rest with
  | nil => exact fun done t _ ht _ => by simpa using ht
  | cons w rest ih =>
    intro done t hdone ht hlen
    rw [List.foldl_cons, List.append_cons]
    have hwait : (v, w) ∈ s.waiting := by
      have hw : w ∈ (s.waiting.filter (·.1 == v)).map (·.2) := by simp [hdone]
      obtain ⟨⟨a, b⟩, hab, rfl⟩ := List.mem_map.mp hw
      obtain ⟨hab, ha⟩ := List.mem_filter.mp hab
      rwa [show v = a from (beq_iff_eq.mp ha).symm]
    split
    · rename_i hw
      have hu := hunblock w t (List.contains_iff_mem.mp hw) hlen
      exact ih _ _ (by simp [hdone]) (ht.next hwait hu) (Nat.le_trans hu.sublist.length_le hlen)
    · rename_i hw
      have hw : w ∉ t.blocked := fun hmem => hw (List.contains_iff_mem.mpr hmem)
      exact ih _ _ (by simp [hdone]) (ht.skip hw) hlen

end Unblocking

/-- **Unblocking.** A blocked node is unblocked, and with every node the blocked nodes that wait for
it.

**Proof sketch.** Induction on the fuel, which exceeds the number of blocked nodes: it decreases
with every node that is unblocked. -/
lemma unblock_unblocks (fuel : Nat) {v : Int} {s : CycleSearch} (hv : v ∈ s.blocked)
    (hfuel : s.blocked.length ≤ fuel) : Unblocks v s (unblock fuel v s) := by
  induction fuel generalizing v s with
  | zero =>
    have := List.length_pos_of_mem hv
    omega
  | succ fuel ih =>
    have hless : (s.blocked.filter (· != v)).length < s.blocked.length :=
      List.length_filter_lt_length_iff_exists.mpr ⟨v, hv, by simp⟩
    have h := Unblocking.unblockAll fuel (fun w t => ih) _ [] _ rfl (.first v s)
      (by show (s.blocked.filter (· != v)).length ≤ fuel; omega)
    exact Unblocking.finish h hv

/-! ## The invariant -/

/-- The invariant of a search, `path` being the way from the start. -/
structure Sound (g : Digraph) (start : Int) (path : List Int) (s : CycleSearch) : Prop where
  nodup : s.blocked.Nodup
  within : ∀ x ∈ s.blocked, x ∈ g.keys
  path_blocked : ∀ x ∈ path, x ∈ s.blocked
  waiting_blocked : ∀ w x, (w, x) ∈ s.waiting → w ∈ s.blocked
  /-- A blocked node behind the search waits for its successors. -/
  stuck : ∀ x ∈ s.blocked, x ∉ path → ∀ w ∈ g.successors x, w ≠ x →
    w ≠ start ∧ w ∈ s.blocked ∧ (w, x) ∈ s.waiting

/-- **Blocked nodes.** No way leads from a blocked node back to the start around the path.

**Proof sketch.** Induction on the way: all nodes on it are blocked, so none of them has an edge to
the start. -/
lemma Sound.not_isRound (h : s.Sound g start path) (hstart : start ∈ path) {w : Int}
    (hw : w ∈ s.blocked) (rest : List Int)
    (hpath : ∀ x ∈ w :: rest, x ∉ path) : ¬ g.IsRound start (w :: rest) := by
  induction rest generalizing w with
  | nil =>
    intro hround
    have hedge : start ∈ g.successors w := (List.isChain_cons_cons.mp hround.chain).1
    have hne : start ≠ w := fun heq => hpath w List.mem_cons_self (heq ▸ hstart)
    exact (h.stuck w hw (hpath w List.mem_cons_self) start hedge hne).1 rfl
  | cons x rest ih =>
    intro hround
    obtain ⟨hedge, hchain⟩ := List.isChain_cons_cons.mp hround.chain
    obtain ⟨hfresh, hnodup⟩ := List.nodup_cons.mp hround.nodup
    have hne : x ≠ w := fun heq => hfresh (heq ▸ List.mem_cons_self)
    have hx := (h.stuck w hw (hpath w List.mem_cons_self) x hedge hne).2.1
    exact ih hx (fun y hy => hpath y (List.mem_cons_of_mem _ hy)) ⟨hnodup, hchain⟩

/-! ## What is found -/

/-- Between two states, exactly the ways with a property are found, each once. -/
def Finds (start : Int) (s t : CycleSearch) (p : List Int → Prop) : Prop :=
  ∃ ways : List (List Int), t.cycles = s.cycles ++ ways.map (· ++ [start]) ∧ ways.Nodup ∧
    ∀ way, way ∈ ways ↔ p way

lemma Finds.none {p : List Int → Prop} (h : t.cycles = s.cycles) (hp : ∀ way, ¬ p way) :
    Finds start s t p :=
  ⟨[], by simpa using h, List.nodup_nil, by simpa using hp⟩

lemma Finds.congr {p q : List Int → Prop} (h : Finds start s t p) (hpq : ∀ way, p way ↔ q way) :
    Finds start s t q := by
  obtain ⟨ways, hcycles, hnodup, hmem⟩ := h
  exact ⟨ways, hcycles, hnodup, fun way => (hmem way).trans (hpq way)⟩

lemma Finds.cycles_congr {s' t' : CycleSearch} {p : List Int → Prop} (h : Finds start s t p)
    (hs : s'.cycles = s.cycles) (ht : t'.cycles = t.cycles) : Finds start s' t' p := by
  obtain ⟨ways, hcycles, hnodup, hmem⟩ := h
  exact ⟨ways, by rw [ht, hs, hcycles], hnodup, hmem⟩

/-- What is found one after the other is found. -/
lemma Finds.trans {p q : List Int → Prop} (h : Finds start s t p) (h' : Finds start t u q)
    (hpq : ∀ way, p way → ¬ q way) : Finds start s u fun way => p way ∨ q way := by
  obtain ⟨ways, hcycles, hnodup, hmem⟩ := h
  obtain ⟨ways', hcycles', hnodup', hmem'⟩ := h'
  refine ⟨ways ++ ways', by rw [hcycles', hcycles]; simp, ?_, fun way => ?_⟩
  · refine List.nodup_append.mpr ⟨hnodup, hnodup', ?_⟩
    rintro way hway _ hway' rfl
    exact hpq way ((hmem way).mp hway) ((hmem' way).mp hway')
  · rw [List.mem_append, hmem, hmem']

/-- A way of at least two nodes that goes on from a path and back to the start. -/
structure Completes (g : Digraph) (start : Int) (path way : List Int) : Prop where
  isPrefix : path <+: way
  length : 2 ≤ way.length
  isRound : g.IsRound start way

/-- A way that goes on from a path to the node `w`, which may be the start. -/
structure GoesOn (g : Digraph) (start : Int) (path : List Int) (w : Int) (way : List Int) :
    Prop where
  isPrefix : path ++ [w] <+: way ++ [start]
  length : 2 ≤ way.length
  isRound : g.IsRound start way

namespace GoesOn

variable {w : Int} {way : List Int}

lemma completes (h : GoesOn g start path w way) (hw : w ≠ start) :
    Completes g start (path ++ [w]) way := by
  refine ⟨?_, h.length, h.isRound⟩
  refine (List.prefix_concat_iff.mp h.isPrefix).resolve_left fun heq => hw ?_
  exact List.singleton_inj.mp (List.append_inj' heq rfl).2

lemma eq_of_start (h : GoesOn g start path start way) (hstart : start ∈ path) : way = path := by
  rcases List.prefix_concat_iff.mp h.isPrefix with heq | ⟨rest, rfl⟩
  · exact (List.append_inj' heq rfl).1.symm
  · have hnodup := (List.nodup_append.mp h.isRound.nodup).1
    exact absurd rfl ((List.nodup_append.mp hnodup).2.2 start hstart start List.mem_cons_self)

/-- A way goes on in one direction. -/
lemma unique {w' : Int} (h : GoesOn g start path w way) (h' : GoesOn g start path w' way) :
    w = w' := by
  have hle : (path ++ [w]).length = (path ++ [w']).length := by simp
  have heq := (List.prefix_of_prefix_length_le h.isPrefix h'.isPrefix hle.le).eq_of_length hle
  exact List.singleton_inj.mp (List.append_inj' heq rfl).2

end GoesOn

/-- A way completes a path if it goes on to a successor of the last node of the path. -/
lemma completes_iff_goesOn {way : List Int} :
    Completes g start (path ++ [v]) way ↔
      ∃ w ∈ g.successors v, GoesOn g start (path ++ [v]) w way := by
  constructor
  · rintro ⟨⟨rest, rfl⟩, hlength, hround⟩
    obtain ⟨w, more, hmore⟩ := List.exists_cons_of_ne_nil (show rest ++ [start] ≠ [] by simp)
    have hway : path ++ [v] ++ rest ++ [start] = path ++ [v] ++ w :: more := by
      rw [List.append_assoc, hmore]
    refine ⟨w, ?_, ⟨more, by rw [hway]; simp⟩, hlength, hround⟩
    have hchain := hround.chain
    rw [hway, List.append_assoc] at hchain
    exact (List.isChain_cons_cons.mp (List.isChain_append.mp hchain).2.1).1
  · rintro ⟨w, -, hprefix, hlength, hround⟩
    refine ⟨?_, hlength, hround⟩
    rcases List.prefix_concat_iff.mp hprefix with heq | hprefix
    · exact (List.append_inj' heq rfl).1 ▸ List.prefix_rfl
    · exact (List.prefix_append _ [w]).trans hprefix

/-! ## Searching -/

/-- A search can start from a node. -/
structure Ready (g : Digraph) (start : Int) (path : List Int) (v : Int) (s : CycleSearch) :
    Prop where
  sound : s.Sound g start path
  not_mem : v ∉ s.blocked
  mem_keys : v ∈ g.keys
  nodup : path.Nodup
  chain : (path ++ [v]).IsChain fun a b => b ∈ g.successors a
  head : (path ++ [v]).head? = some start

/-- What a search from a node does: it finds every way that completes the path. A node from which
none was found stays blocked, and what was blocked before stays blocked in any case. -/
structure Searched (g : Digraph) (start : Int) (path : List Int) (v : Int) (s : CycleSearch)
    (r : Bool × CycleSearch) : Prop where
  sound : r.2.Sound g start path
  keeps : ∀ x ∈ s.blocked, x ∈ r.2.blocked
  waiting : ∀ w x, (w, x) ∈ r.2.waiting → (w, x) ∈ s.waiting ∨ x ∉ s.blocked
  blocked : r.1 = false → v ∈ r.2.blocked
  finds : Finds start s r.2 (Completes g start (path ++ [v]))

/-- A search from a node has followed its successors in `done`. -/
structure Following (g : Digraph) (start : Int) (path : List Int) (v : Int) (s : CycleSearch)
    (done : List Int) (r : Bool × CycleSearch) : Prop where
  sound : r.2.Sound g start (path ++ [v])
  keeps : ∀ x ∈ s.blocked, x ∈ r.2.blocked
  waiting : ∀ w x, (w, x) ∈ r.2.waiting → (w, x) ∈ s.waiting ∨ x ∉ s.blocked
  blocked : r.1 = false → ∀ w ∈ done, w ≠ v → w ≠ start ∧ w ∈ r.2.blocked
  finds : Finds start s r.2 fun way => ∃ w ∈ done, GoesOn g start (path ++ [v]) w way

/-- How a search from `v` goes on with a successor. -/
def follow (g : Digraph) (start : Int) (fuel : Nat) (path : List Int) (v : Int)
    (r : Bool × CycleSearch) (w : Int) : Bool × CycleSearch :=
  if w = v then r
  else if w = start then
    (true, { r.2 with cycles := r.2.cycles ++ [path ++ [v] ++ [w]] })
  else if r.2.blocked.contains w then r
  else
    let r' := circuit g start fuel (path ++ [v]) w r.2
    (r.1 || r'.1, r'.2)

lemma circuit_succ (fuel : Nat) (path : List Int) (v : Int) (s : CycleSearch) :
    circuit g start (fuel + 1) path v s =
      let r := (g.successors v).foldl (follow g start fuel path v)
        (false, { s with blocked := v :: s.blocked })
      if r.1 then (true, unblock (g.keys.length + 1) v r.2)
      else (false, { r.2 with waiting := r.2.waiting ++ (g.successors v).map fun w => (w, v) }) :=
  rfl

namespace Ready

variable (h : Ready g start path v s)

include h

lemma start_mem : start ∈ path ++ [v] := List.mem_of_mem_head? h.head

lemma nodup_concat : (path ++ [v]).Nodup := by
  refine List.nodup_append.mpr ⟨h.nodup, by simp, ?_⟩
  rintro x hx y hy rfl
  exact h.not_mem (List.mem_singleton.mp hy ▸ h.sound.path_blocked x hx)

/-- The path has fewer nodes than the graph. -/
lemma length_lt : path.length < g.keys.length := by
  have hsub : path ++ [v] ⊆ g.keys := by
    intro x hx
    rcases List.mem_append.mp hx with hx | hx
    · exact h.sound.within x (h.sound.path_blocked x hx)
    · exact List.mem_singleton.mp hx ▸ h.mem_keys
  have hle := (List.subperm_of_subset h.nodup_concat hsub).length_le
  rw [List.length_append, List.length_singleton] at hle
  exact hle

omit h in
/-- Only the path without nodes leads to the start. -/
lemma path_eq_nil {path : List Int} (h : Ready g start path start s) : path = [] := by
  cases path with
  | nil => rfl
  | cons x xs =>
    have hx : x = start := by simpa using h.head
    have hnodup := h.nodup_concat
    simp [hx] at hnodup

lemma chain_concat {w : Int} (hw : w ∈ g.successors v) :
    (path ++ [v] ++ [w]).IsChain fun a b => b ∈ g.successors a := by
  refine List.isChain_append.mpr ⟨h.chain, by simp, fun x hx y hy => ?_⟩
  obtain rfl : v = x := by simpa using hx
  obtain rfl : w = y := by simpa using hy
  exact hw

/-- At first, no successor has been followed. -/
lemma following :
    Following g start path v s [] (false, { s with blocked := v :: s.blocked }) where
  sound := {
    nodup := List.nodup_cons.mpr ⟨h.not_mem, h.sound.nodup⟩
    within := fun x hx => by
      rcases List.mem_cons.mp hx with rfl | hx
      · exact h.mem_keys
      · exact h.sound.within x hx
    path_blocked := fun x hx => by
      rcases List.mem_append.mp hx with hx | hx
      · exact List.mem_cons_of_mem _ (h.sound.path_blocked x hx)
      · exact List.mem_singleton.mp hx ▸ List.mem_cons_self
    waiting_blocked := fun w x hwx => List.mem_cons_of_mem _ (h.sound.waiting_blocked w x hwx)
    stuck := fun x hx hpath w hw hne => by
      rw [List.mem_append, List.mem_singleton, not_or] at hpath
      have hx := (List.mem_cons.mp hx).resolve_left hpath.2
      obtain ⟨hstart, hblocked, hwait⟩ := h.sound.stuck x hx hpath.1 w hw hne
      exact ⟨hstart, List.mem_cons_of_mem _ hblocked, hwait⟩ }
  keeps x hx := List.mem_cons_of_mem _ hx
  waiting w x hwx := .inl hwx
  blocked := by simp
  finds := Finds.none rfl (by simp)

end Ready

namespace Following

variable {done : List Int} {w : Int} {r : Bool × CycleSearch}

/-- The ways that go on to one more successor. -/
lemma exists_mem_concat_iff {way : List Int} :
    (∃ a ∈ done ++ [w], GoesOn g start (path ++ [v]) a way) ↔
      (∃ a ∈ done, GoesOn g start (path ++ [v]) a way) ∨ GoesOn g start (path ++ [v]) w way := by
  simp only [List.mem_append, List.mem_singleton, or_and_right, exists_or, exists_eq_left]

/-- No way goes on to a node of the path other than the start, nor from the start to itself. -/
lemma not_goesOn_of_mem (h : Ready g start path v s) (hw : w ∈ path ++ [v])
    (hstart : w = start → v = start) (way : List Int) : ¬ GoesOn g start (path ++ [v]) w way := by
  intro hway
  by_cases hws : w = start
  · have hv := hstart hws
    subst hws hv
    have hlength := hway.length
    rw [hway.eq_of_start hw, h.path_eq_nil] at hlength
    simp at hlength
  · obtain ⟨rest, hrest⟩ := (hway.completes hws).isPrefix
    have hnodup := hway.isRound.nodup
    rw [← hrest] at hnodup
    have hnodup := (List.nodup_append.mp hnodup).1
    exact (List.nodup_append.mp hnodup).2.2 w hw w List.mem_cons_self rfl

/-- No way goes on to a blocked node. -/
lemma not_goesOn_of_blocked (h : Ready g start path v s)
    (hr : Following g start path v s done r) (hws : w ≠ start) (hw : w ∈ r.2.blocked)
    (way : List Int) : ¬ GoesOn g start (path ++ [v]) w way := by
  intro hway
  obtain ⟨rest, hrest⟩ := (hway.completes hws).isPrefix
  have hround := hway.isRound
  rw [← hrest, List.append_assoc, List.singleton_append] at hround
  obtain ⟨-, hnodup, hapart⟩ := List.nodup_append.mp hround.nodup
  have hchain := hround.chain
  rw [List.append_assoc] at hchain
  exact hr.sound.not_isRound h.start_mem hw rest (fun x hx hpath => hapart x hpath x hx rfl)
    ⟨hnodup, (List.isChain_append.mp hchain).2.1⟩

section

variable (hr : Following g start path v s done r)

include hr

/-- A successor is passed over. -/
lemma skip (hnone : ∀ way, ¬ GoesOn g start (path ++ [v]) w way)
    (hblocked : w ≠ v → w ≠ start ∧ w ∈ r.2.blocked) :
    Following g start path v s (done ++ [w]) r where
  sound := hr.sound
  keeps := hr.keeps
  waiting := hr.waiting
  blocked hfound a ha hne := by
    rcases List.mem_append.mp ha with ha | ha
    · exact hr.blocked hfound a ha hne
    · obtain rfl := List.mem_singleton.mp ha
      exact hblocked hne
  finds := hr.finds.congr fun way => by simp [hnone]

/-- The start is a successor: a way has been found. -/
lemma close (h : Ready g start path v s) (hne : start ≠ v) (hedge : start ∈ g.successors v)
    (hnew : start ∉ done) : Following g start path v s (done ++ [start])
      (true, { r.2 with cycles := r.2.cycles ++ [path ++ [v] ++ [start]] }) where
  sound := ⟨hr.sound.nodup, hr.sound.within, hr.sound.path_blocked, hr.sound.waiting_blocked,
    hr.sound.stuck⟩
  keeps := hr.keeps
  waiting := hr.waiting
  blocked := by simp
  finds := by
    have hgoes : ∀ way, way = path ++ [v] ↔ GoesOn g start (path ++ [v]) start way := by
      refine fun way => ⟨?_, fun hway => hway.eq_of_start h.start_mem⟩
      rintro rfl
      refine ⟨List.prefix_rfl, ?_, h.nodup_concat, h.chain_concat hedge⟩
      have hpath : path ≠ [] := by
        rintro rfl
        exact hne (by simpa using h.head.symm)
      have := List.length_pos_iff.mpr hpath
      simp only [List.length_append, List.length_singleton]
      omega
    refine (hr.finds.trans (q := fun way => way = path ++ [v])
      ⟨[path ++ [v]], by simp, by simp, by simp⟩ ?_).congr fun way => ?_
    · rintro way ⟨a, ha, hway⟩ heq
      exact hnew (hway.unique ((hgoes way).mp heq) ▸ ha)
    · rw [exists_mem_concat_iff, hgoes]

/-- A search goes on from a successor that is not blocked. -/
lemma ready (h : Ready g start path v s) (hedge : w ∈ g.successors v) (hkeys : w ∈ g.keys)
    (hfree : w ∉ r.2.blocked) : Ready g start (path ++ [v]) w r.2 where
  sound := hr.sound
  not_mem := hfree
  mem_keys := hkeys
  nodup := h.nodup_concat
  chain := h.chain_concat hedge
  head := by
    rw [List.head?_append, h.head]
    rfl

/-- A successor has been searched from. -/
lemma next (hws : w ≠ start) (hnew : w ∉ done) {r' : Bool × CycleSearch}
    (hr' : Searched g start (path ++ [v]) w r.2 r') :
    Following g start path v s (done ++ [w]) (r.1 || r'.1, r'.2) where
  sound := hr'.sound
  keeps x hx := hr'.keeps x (hr.keeps x hx)
  waiting a x hax := by
    rcases hr'.waiting a x hax with hax | hx
    · exact hr.waiting a x hax
    · exact .inr fun hmem => hx (hr.keeps x hmem)
  blocked hfound a ha hne := by
    obtain ⟨hfound, hfound'⟩ := Bool.or_eq_false_iff.mp hfound
    rcases List.mem_append.mp ha with ha | ha
    · have := hr.blocked hfound a ha hne
      exact ⟨this.1, hr'.keeps a this.2⟩
    · obtain rfl := List.mem_singleton.mp ha
      exact ⟨hws, hr'.blocked hfound'⟩
  finds := by
    have hgoes : ∀ way, Completes g start (path ++ [v] ++ [w]) way ↔
        GoesOn g start (path ++ [v]) w way := fun way =>
      ⟨fun hway => ⟨hway.isPrefix.trans (List.prefix_append _ _), hway.length, hway.isRound⟩,
        fun hway => hway.completes hws⟩
    refine (hr.finds.trans hr'.finds ?_).congr fun way => ?_
    · rintro way ⟨a, ha, hway⟩ hway'
      exact hnew (hway.unique ((hgoes way).mp hway') ▸ ha)
    · rw [exists_mem_concat_iff, hgoes]

end

/-- A successor is followed. -/
lemma step (h : Ready g start path v s) (hr : Following g start path v s done r) (fuel : Nat)
    (hsearch : ∀ w t, Ready g start (path ++ [v]) w t →
      Searched g start (path ++ [v]) w t (circuit g start fuel (path ++ [v]) w t))
    (hedge : w ∈ g.successors v) (hkeys : w ∈ g.keys) (hnew : w ∉ done) :
    Following g start path v s (done ++ [w]) (follow g start fuel path v r w) := by
  unfold follow
  split
  · rename_i hwv
    subst hwv
    exact hr.skip (not_goesOn_of_mem h (by simp) id) (absurd rfl)
  · split
    · rename_i hwv hws
      subst hws
      exact hr.close h hwv hedge hnew
    · rename_i hws
      split
      · rename_i hw
        have hw := List.contains_iff_mem.mp hw
        exact hr.skip (hr.not_goesOn_of_blocked h hws hw) fun _ => ⟨hws, hw⟩
      · rename_i hw
        have hw : w ∉ r.2.blocked := fun hmem => hw (List.contains_iff_mem.mpr hmem)
        exact hr.next hws hnew (hsearch w r.2 (hr.ready h hedge hkeys hw))

/-- All successors are followed. -/
lemma run (h : Ready g start path v s) (fuel : Nat)
    (hsearch : ∀ w t, Ready g start (path ++ [v]) w t →
      Searched g start (path ++ [v]) w t (circuit g start fuel (path ++ [v]) w t))
    (hkeys : ∀ w ∈ g.successors v, w ∈ g.keys) (hnodup : (g.successors v).Nodup) :
    ∀ (rest done : List Int) (r : Bool × CycleSearch), g.successors v = done ++ rest →
      Following g start path v s done r →
      Following g start path v s (g.successors v) (rest.foldl (follow g start fuel path v) r) := by
  intro rest
  induction rest with
  | nil =>
    intro done r hdone hr
    rwa [hdone, List.append_nil]
  | cons w rest ih =>
    intro done r hdone hr
    have hedge : w ∈ g.successors v := by simp [hdone]
    have hnew : w ∉ done := by
      rw [hdone] at hnodup
      exact fun hw => (List.nodup_append.mp hnodup).2.2 w hw w List.mem_cons_self rfl
    exact ih (done ++ [w]) _ (by simp [hdone]) (hr.step h fuel hsearch hedge (hkeys w hedge) hnew)

/-- A node from which nothing was found stays blocked and waits for its successors. -/
lemma searched_of_not_found (h : Ready g start path v s)
    (hr : Following g start path v s (g.successors v) r) (hfound : r.1 = false) :
    Searched g start path v s
      (false, { r.2 with waiting := r.2.waiting ++ (g.successors v).map fun w => (w, v) }) := by
  have hv : v ∈ r.2.blocked := hr.sound.path_blocked v (by simp)
  have hwaiting : ∀ w x, (w, x) ∈ r.2.waiting ++ (g.successors v).map (fun w => (w, v)) ↔
      (w, x) ∈ r.2.waiting ∨ w ∈ g.successors v ∧ v = x := by simp
  refine ⟨⟨hr.sound.nodup, hr.sound.within, ?_, ?_, ?_⟩, hr.keeps, ?_, fun _ => hv, ?_⟩
  · exact fun x hx => hr.sound.path_blocked x (List.mem_append_left _ hx)
  · intro w x hwx
    rcases (hwaiting w x).mp hwx with hwx | ⟨hw, rfl⟩
    · exact hr.sound.waiting_blocked w x hwx
    · by_cases hwv : w = v
      · exact hwv ▸ hv
      · exact (hr.blocked hfound w hw hwv).2
  · intro x hx hpath w hw hne
    by_cases hxv : x = v
    · subst hxv
      obtain ⟨hws, hwb⟩ := hr.blocked hfound w hw hne
      exact ⟨hws, hwb, (hwaiting w x).mpr (.inr ⟨hw, rfl⟩)⟩
    · obtain ⟨hws, hwb, hwx⟩ := hr.sound.stuck x hx (by simp [hpath, hxv]) w hw hne
      exact ⟨hws, hwb, (hwaiting w x).mpr (.inl hwx)⟩
  · intro w x hwx
    rcases (hwaiting w x).mp hwx with hwx | ⟨-, rfl⟩
    · exact hr.waiting w x hwx
    · exact .inr h.not_mem
  · exact (hr.finds.congr fun way => completes_iff_goesOn.symm).cycles_congr rfl rfl

/-- A node from which something was found is unblocked.

**Proof sketch.** What waits for it, directly or through others, was not blocked before: a blocked
node that waits for a second one has done so since before the second one was unblocked. So the path
stays blocked, and a blocked node behind the search still waits for its successors, all of which are
blocked. -/
lemma searched_of_found (h : Ready g start path v s)
    (hr : Following g start path v s (g.successors v) r) (ht : Unblocks v r.2 t) :
    Searched g start path v s (true, t) := by
  have hkeeps : ∀ x ∈ s.blocked, x ∈ t.blocked := by
    intro x hx
    by_contra hfree
    refine ht.least (· ∉ s.blocked) h.not_mem (fun a b ha hab => ?_) x (hr.keeps x hx) hfree hx
    exact (hr.waiting a b hab).resolve_left fun hab => ha (h.sound.waiting_blocked a b hab)
  refine ⟨⟨?_, ?_, ?_, ?_, ?_⟩, hkeeps, ?_, by simp, ?_⟩
  · exact hr.sound.nodup.sublist ht.sublist
  · exact fun x hx => hr.sound.within x (ht.sublist.subset hx)
  · exact fun x hx => hkeeps x (h.sound.path_blocked x hx)
  · intro w x hwx
    obtain ⟨hwx, hw⟩ := (ht.mem_waiting_iff w x).mp hwx
    exact hw (hr.sound.waiting_blocked w x hwx)
  · intro x hx hpath w hw hne
    have hxv : x ≠ v := fun heq => ht.not_mem (heq ▸ hx)
    obtain ⟨hws, hwb, hwx⟩ :=
      hr.sound.stuck x (ht.sublist.subset hx) (by simp [hpath, hxv]) w hw hne
    have hwt : w ∈ t.blocked := by
      by_contra hfree
      exact ht.freed w x hwx hwb hfree hx
    exact ⟨hws, hwt, (ht.mem_waiting_iff w x).mpr ⟨hwx, fun _ => hwt⟩⟩
  · exact fun w x hwx => hr.waiting w x ((ht.mem_waiting_iff w x).mp hwx).1
  · exact (hr.finds.congr fun way => completes_iff_goesOn.symm).cycles_congr rfl ht.cycles_eq

end Following

/-- **Searches.** A search from a node finds every way back to the start that goes on from the path,
and finds it once.

**Proof sketch.** Induction on the fuel, which exceeds the number of nodes that are not on the path.
-/
lemma circuit_searched (hkeys : ∀ v w, w ∈ g.successors v → w ∈ g.keys)
    (hnodup : ∀ v, (g.successors v).Nodup) (fuel : Nat) {path : List Int} {v : Int}
    {s : CycleSearch} (h : Ready g start path v s) (hfuel : g.keys.length ≤ fuel + path.length) :
    Searched g start path v s (circuit g start fuel path v s) := by
  induction fuel generalizing path v s with
  | zero =>
    have := h.length_lt
    omega
  | succ fuel ih =>
    have hlonger : g.keys.length ≤ fuel + (path ++ [v]).length := by
      rw [List.length_append, List.length_singleton]
      omega
    have hr := Following.run h fuel (fun w t hready => ih hready hlonger) (hkeys v) (hnodup v)
      (g.successors v) [] _ rfl h.following
    rw [circuit_succ]
    dsimp only
    split
    · have hv := hr.sound.path_blocked v (by simp)
      have hlen := (List.subperm_of_subset hr.sound.nodup hr.sound.within).length_le
      exact Following.searched_of_found h hr (unblock_unblocks _ hv (by omega))
    · rename_i hfound
      exact Following.searched_of_not_found h hr (by simpa using hfound)

end CycleSearch

end Digraph

end JvmTaint
