import JvmTaint.Graph.Components
import Mathlib.Data.List.Perm.Subperm
import Mathlib.Data.Set.Finite.Basic
import Mathlib.Logic.Relation

set_option autoImplicit false
set_option relaxedAutoImplicit false

/-!
# Low links

The invariant of the depth-first search for strongly connected components. At every moment the found
nodes are open, and then on the stack in the order of their numbers, or closed. An open node reaches
all open nodes with greater numbers, and it reaches some node with a smaller number whose successors
are still being followed. The low link of a node is the number of an open node that it reaches, and
no edge out of the nodes found since the node leads to an open node with a smaller number. So if the
low link of a node is its own number, no edge leads out of the nodes found since, except to closed
components, and these nodes are one component.

## Main definitions

* `JvmTaint.Reaches`, `JvmTaint.reachedFrom`: what can be reached along successors.
* `JvmTaint.AreComponents`: lists are the strongly connected components of some nodes.
* `JvmTaint.Components.Search.Sound`: the invariant of the search.
* `JvmTaint.Components.Search.Extends`, `JvmTaint.Components.Search.LowLink`,
  `JvmTaint.Components.Search.Visited`: what a visit of a node does.

## Main results

* `JvmTaint.Components.Search.Following.sound_close`: what is closed is a component.
* `JvmTaint.Components.visit_visited`: a visit finds a node and what can be reached from it.
* `JvmTaint.Components.visit_eq`: a visit does not depend on the fuel if there is enough.
-/

namespace JvmTaint

section

variable {α : Type}

/-- One node can be reached from another along successors. -/
abbrev Reaches (next : α → List α) : α → α → Prop := Relation.ReflTransGen fun a b => b ∈ next a

/-- The nodes that can be reached from those of a list. -/
def reachedFrom (next : α → List α) (nodes : List α) : Set α := {v | ∃ r ∈ nodes, Reaches next r v}

/-- Two nodes that reach each other. -/
def StronglyConnected (next : α → List α) (x y : α) : Prop := Reaches next x y ∧ Reaches next y x

/-- The lists are the strongly connected components of a set of nodes: every node is in exactly one
of them, together with the nodes that it reaches and that reach it. -/
structure AreComponents (next : α → List α) (nodes : Set α) (cs : List (List α)) : Prop where
  ne_nil : ∀ c ∈ cs, c ≠ []
  nodup : cs.flatten.Nodup
  mem_flatten_iff : ∀ v, v ∈ cs.flatten ↔ v ∈ nodes
  mem_iff : ∀ c ∈ cs, ∀ x ∈ c, ∀ y ∈ nodes, y ∈ c ↔ StronglyConnected next x y

lemma StronglyConnected.symm {next : α → List α} {x y : α} (h : StronglyConnected next x y) :
    StronglyConnected next y x :=
  ⟨h.2, h.1⟩

lemma StronglyConnected.trans {next : α → List α} {x y z : α} (h : StronglyConnected next x y)
    (h' : StronglyConnected next y z) : StronglyConnected next x z :=
  ⟨h.1.trans h'.1, h'.2.trans h.2⟩

/-- Nodes that reach a node reach its successors, as does the node itself. -/
lemma reaches_next {next : α → List α} {path : List α} {v w : α}
    (hpath : ∀ x ∈ path, Reaches next x v) (hw : w ∈ next v) :
    ∀ x ∈ v :: path, Reaches next x w := by
  intro x hx
  rcases List.mem_cons.mp hx with rfl | hx
  · exact .single hw
  · exact (hpath x hx).tail hw

/-- A set that is closed under successors is not left. -/
lemma Reaches.mem_of_closed {next : α → List α} {p : α → Prop}
    (hp : ∀ x, p x → ∀ y ∈ next x, p y) {x y : α} (h : Reaches next x y) (hx : p x) : p y := by
  induction h with
  | refl => exact hx
  | tail _ hy ih => exact hp _ ih _ hy

end

namespace Components

variable {α : Type} [BEq α] [Hashable α] {next : α → List α} {all path : List α} {v : α}

namespace Search

variable {s t u : Search α}

/-- The number of a node that has been found. -/
def num (s : Search α) (v : α) : Nat := s.index.getD v 0

/-! ## The invariant -/

/-- The invariant of a search among the nodes `all`. The nodes on `path` are those whose successors
are still being followed. -/
structure Sound (next : α → List α) (all path : List α) (s : Search α) : Prop where
  /-- The nodes that have been found are open or closed. -/
  mem_index_iff : ∀ v, v ∈ s.index ↔ v ∈ s.stack ∨ v ∈ s.closed.flatten
  nodup : (s.stack ++ s.closed.flatten).Nodup
  within : ∀ v ∈ s.index, v ∈ all
  num_lt : ∀ v ∈ s.index, s.num v < s.index.size
  sorted : s.stack.Pairwise fun x y => s.num y < s.num x
  path_open : ∀ v ∈ path, v ∈ s.stack
  followed : ∀ v ∈ s.index, v ∉ path → ∀ w ∈ next v, w ∈ s.index
  /-- Open nodes reach those found later. -/
  reaches_later : ∀ x ∈ s.stack, ∀ y ∈ s.stack, s.num x ≤ s.num y → Reaches next x y
  /-- Open nodes reach the path at a node found earlier. -/
  reaches_path : ∀ x ∈ s.stack, ∃ y ∈ path, s.num y ≤ s.num x ∧ Reaches next x y
  closed_ne_nil : ∀ c ∈ s.closed, c ≠ []
  closed_iff : ∀ c ∈ s.closed, ∀ x ∈ c, ∀ y, y ∈ c ↔ StronglyConnected next x y
  closed_followed : ∀ x ∈ s.closed.flatten, ∀ y ∈ next x, y ∈ s.closed.flatten
  /-- No component reaches one that was closed later. -/
  ordered : s.closed.Pairwise fun c d => ∀ x ∈ d, ∀ y ∈ c, ¬ Reaches next x y

namespace Sound

lemma mem_index_of_stack (h : s.Sound next all path) {x : α} (hx : x ∈ s.stack) : x ∈ s.index :=
  (h.mem_index_iff x).mpr (.inl hx)

lemma not_mem_closed (h : s.Sound next all path) {x : α} (hx : x ∈ s.stack) :
    x ∉ s.closed.flatten :=
  fun hx' => (List.nodup_append.mp h.nodup).2.2 x hx x hx' rfl

/-- The path from which a search starts is empty, and nothing has been found. -/
lemma start : (({} : Search α)).Sound next all [] := by
  constructor <;> simp

/-- There are more nodes than have been found if there is one that has not been found. -/
lemma size_lt [LawfulBEq α] (h : s.Sound next all path) (hv : v ∈ all) (hnew : v ∉ s.index) :
    s.index.size < all.length := by
  have hnodup : (v :: s.index.keys).Nodup :=
    List.nodup_cons.mpr ⟨fun hmem => hnew (Std.HashMap.mem_keys.mp hmem), Std.HashMap.nodup_keys⟩
  have hsub : v :: s.index.keys ⊆ all := by
    intro x hx
    rcases List.mem_cons.mp hx with rfl | hx
    · exact hv
    · exact h.within x (Std.HashMap.mem_keys.mp hx)
  have hle := (List.subperm_of_subset hnodup hsub).length_le
  rw [List.length_cons, Std.HashMap.length_keys] at hle
  exact hle

/-- Low links are not part of the invariant. -/
lemma lower (h : s.Sound next all path) (x : α) (n : Nat) :
    (s.lower x n).Sound next all path :=
  ⟨h.mem_index_iff, h.nodup, h.within, h.num_lt, h.sorted, h.path_open, h.followed,
    h.reaches_later, h.reaches_path, h.closed_ne_nil, h.closed_iff, h.closed_followed, h.ordered⟩

end Sound

/-! ## Steps of a search -/

/-- A search has gone on from `s` to `t`: it has kept what it knows of the nodes found, and the
nodes found since have greater numbers. -/
structure Extends (s t : Search α) : Prop where
  mem : ∀ x ∈ s.index, x ∈ t.index
  num_eq : ∀ x ∈ s.index, t.num x = s.num x
  low_eq : ∀ x ∈ s.index, t.low[x]? = s.low[x]?
  suffix : s.stack <:+ t.stack
  num_ge : ∀ x ∈ t.index, x ∉ s.index → s.index.size ≤ t.num x
  size_le : s.index.size ≤ t.index.size

lemma Extends.trans (h : s.Extends t) (h' : t.Extends u) : s.Extends u where
  mem x hx := h'.mem x (h.mem x hx)
  num_eq x hx := (h'.num_eq x (h.mem x hx)).trans (h.num_eq x hx)
  low_eq x hx := (h'.low_eq x (h.mem x hx)).trans (h.low_eq x hx)
  suffix := h.suffix.trans h'.suffix
  num_ge x hx hnew := by
    by_cases hxt : x ∈ t.index
    · rw [h'.num_eq x hxt]
      exact h.num_ge x hxt hnew
    · exact Nat.le_trans h.size_le (h'.num_ge x hx hxt)
  size_le := Nat.le_trans h.size_le h'.size_le

/-! ## Low links -/

/-- The low link of a node, found on the way from `s` to `t`, of whose successors only those of
`done` count: it is the number of the node itself or of an older open node that it reaches, and the
new open nodes have no edge to an older open node with a smaller number. -/
structure LowLink (next : α → List α) (s t : Search α) (v : α) (done : List α) (m : Nat) :
    Prop where
  low_eq : t.low[v]? = some m
  attained : m = t.num v ∨ ∃ y ∈ s.stack, Reaches next v y ∧ s.num y = m
  le : ∀ x ∈ t.stack, x ∉ s.stack → ∀ y ∈ next x, (x = v → y ∈ done) → y ∈ s.stack → m ≤ s.num y

/-- What a visit of a node does. -/
structure Visited (next : α → List α) (all path : List α) (v : α) (s t : Search α) : Prop where
  sound : t.Sound next all path
  extended : s.Extends t
  mem : v ∈ t.index
  low : ∃ m, LowLink next s t v (next v) m

/-- The state in which the successors of a node in `done` have been followed. -/
structure Following (next : α → List α) (all path : List α) (v : α) (s : Search α) (done : List α)
    (t : Search α) : Prop where
  sound : t.Sound next all (v :: path)
  extended : s.Extends t
  size_lt : s.index.size < t.index.size
  num_eq : t.num v = s.index.size
  suffix : v :: s.stack <:+ t.stack
  mem : ∀ w ∈ done, w ∈ t.index
  low : ∃ m, LowLink next s t v done m

/-- No low link exceeds the number of its node. -/
lemma LowLink.le_num {done : List α} {m : Nat} (h : LowLink next s t v done m)
    (hnum : ∀ y ∈ s.stack, s.num y < t.num v) : m ≤ t.num v := by
  rcases h.attained with rfl | ⟨y, hy, -, rfl⟩
  · exact Nat.le_refl _
  · exact Nat.le_of_lt (hnum y hy)

namespace Following

section

variable {done : List α} (h : Following next all path v s done t)

include h

lemma mem_stack : v ∈ t.stack := h.suffix.subset List.mem_cons_self

lemma mem_stack_of_mem {x : α} (hx : x ∈ s.stack) : x ∈ t.stack :=
  h.suffix.subset (List.mem_cons_of_mem _ hx)

/-- The open nodes found since have greater numbers than the node. -/
lemma num_le {x : α} (hx : x ∈ t.stack) (hxs : x ∉ s.stack) : t.num v ≤ t.num x := by
  obtain ⟨new, hnew⟩ := h.suffix
  have hsorted := h.sound.sorted
  rw [← hnew] at hsorted hx
  rcases List.mem_append.mp hx with hx | hx
  · exact Nat.le_of_lt ((List.pairwise_append.mp hsorted).2.2 x hx v List.mem_cons_self)
  · obtain rfl := (List.mem_cons.mp hx).resolve_right hxs
    exact Nat.le_refl _

/-- The open nodes found before have smaller numbers than the node. -/
lemma num_lt (hs : s.Sound next all path) {x : α} (hx : x ∈ s.stack) : s.num x < t.num v := by
  rw [h.num_eq]
  exact hs.num_lt x (hs.mem_index_of_stack hx)

lemma num_stack (hs : s.Sound next all path) {x : α} (hx : x ∈ s.stack) : t.num x = s.num x :=
  h.extended.num_eq x (hs.mem_index_of_stack hx)

/-- A successor that is closed is followed. -/
lemma skipNext {w : α} (hwt : w ∈ t.index) (hclosed : w ∉ t.stack) :
    Following next all path v s (done ++ [w]) t where
  sound := h.sound
  extended := h.extended
  size_lt := h.size_lt
  num_eq := h.num_eq
  suffix := h.suffix
  mem x hx := by
    rcases List.mem_append.mp hx with hx | hx
    · exact h.mem x hx
    · exact List.mem_singleton.mp hx ▸ hwt
  low := by
    obtain ⟨m, hm⟩ := h.low
    refine ⟨m, hm.low_eq, hm.attained, fun x hx hxs y hy hdone hys => ?_⟩
    refine hm.le x hx hxs y hy (fun hxv => ?_) hys
    refine (List.mem_append.mp (hdone hxv)).resolve_right fun hyw => hclosed ?_
    exact List.mem_singleton.mp hyw ▸ h.mem_stack_of_mem hys

/-- A node and an open node found since reach each other. -/
lemma connected (hpath : ∀ x ∈ path, Reaches next x v) {x : α} (hx : x ∈ t.stack)
    (hxs : x ∉ s.stack) : StronglyConnected next v x := by
  refine ⟨h.sound.reaches_later v h.mem_stack x hx (h.num_le hx hxs), ?_⟩
  obtain ⟨y, hy, -, hreach⟩ := h.sound.reaches_path x hx
  rcases List.mem_cons.mp hy with rfl | hy
  · exact hreach
  · exact hreach.trans (hpath y hy)

end

/-! ## Closing components -/

section

variable (hs : s.Sound next all path) (h : Following next all path v s (next v) t)

include hs h

omit hs in
/-- When all successors of a node have been followed, it does not belong to the path any more. -/
lemma followed {x : α} (hx : x ∈ t.index) (hpath : x ∉ path) : ∀ w ∈ next x, w ∈ t.index := by
  by_cases hxv : x = v
  · subst hxv
    exact h.mem
  · exact h.sound.followed x hx (by simp [hxv, hpath])

/-- No edge leads out of the nodes found since, except to closed nodes, if the low link of a node is
its own number. -/
lemma next_mem (hlow : LowLink next s t v (next v) (t.num v)) {x : α} (hx : x ∈ t.stack)
    (hxs : x ∉ s.stack) {y : α} (hy : y ∈ next x) :
    (y ∈ t.stack ∧ y ∉ s.stack) ∨ y ∈ t.closed.flatten := by
  have hpath : x ∉ path := fun hmem => hxs (hs.path_open x hmem)
  have hyt := h.followed (h.sound.mem_index_of_stack hx) hpath y hy
  refine ((h.sound.mem_index_iff y).mp hyt).imp_left fun hyt => ⟨hyt, fun hys => ?_⟩
  exact Nat.not_lt.mpr (hlow.le x hx hxs y hy (fun heq => heq ▸ hy) hys) (h.num_lt hs hys)

/-- A node whose low link is smaller than its number stays open, as it reaches the path. -/
lemma sound_keep (hpath : ∀ x ∈ path, Reaches next x v) {m : Nat}
    (hlow : LowLink next s t v (next v) m) (hne : m ≠ t.num v) : t.Sound next all path := by
  obtain ⟨z, hz, hvz, rfl⟩ := hlow.attained.resolve_left hne
  constructor
  case path_open => exact fun x hx => h.mem_stack_of_mem (hs.path_open x hx)
  case followed => exact fun x hx hxp => h.followed hx hxp
  case reaches_path =>
    intro x hx
    by_cases hxs : x ∈ s.stack
    · obtain ⟨y, hy, hle, hreach⟩ := hs.reaches_path x hxs
      refine ⟨y, hy, ?_, hreach⟩
      rwa [h.num_stack hs hxs, h.num_stack hs (hs.path_open y hy)]
    · obtain ⟨y, hy, hle, hreach⟩ := hs.reaches_path z hz
      refine ⟨y, hy, ?_, ((h.connected hpath hx hxs).2.trans hvz).trans hreach⟩
      have hlt := h.num_lt hs hz
      have hge := h.num_le hx hxs
      rw [h.num_stack hs (hs.path_open y hy)]
      omega
  case mem_index_iff => exact h.sound.mem_index_iff
  case nodup => exact h.sound.nodup
  case within => exact h.sound.within
  case num_lt => exact h.sound.num_lt
  case sorted => exact h.sound.sorted
  case reaches_later => exact h.sound.reaches_later
  case closed_ne_nil => exact h.sound.closed_ne_nil
  case closed_iff => exact h.sound.closed_iff
  case closed_followed => exact h.sound.closed_followed
  case ordered => exact h.sound.ordered

/-- **Components.** If the low link of a node is its own number, the nodes found since are its
component.

**Proof sketch.** They reach the node and are reached from it. No edge leads out of them except to
closed nodes, and these do not reach the node, as it is open. -/
lemma sound_close (hpath : ∀ x ∈ path, Reaches next x v)
    (hlow : LowLink next s t v (next v) (t.num v)) {new : List α}
    (hstack : t.stack = new ++ v :: s.stack) :
    ({ t with stack := s.stack, closed := (new ++ [v]) :: t.closed } : Search α).Sound next all
      path := by
  have hnodup := h.sound.nodup
  rw [hstack, show new ++ v :: s.stack = (new ++ [v]) ++ s.stack by simp] at hnodup
  have hmem : ∀ x, x ∈ t.stack ↔ x ∈ new ++ [v] ∨ x ∈ s.stack := by
    intro x
    rw [hstack]
    simp [or_assoc]
  have hnew : ∀ x, x ∈ new ++ [v] ↔ x ∈ t.stack ∧ x ∉ s.stack := by
    intro x
    refine ⟨fun hx => ⟨(hmem x).mpr (.inl hx), fun hxs => ?_⟩, fun hx => ?_⟩
    · exact (List.nodup_append.mp (List.nodup_append.mp hnodup).1).2.2 x hx x hxs rfl
    · exact ((hmem x).mp hx.1).resolve_right hx.2
  have hopen : ∀ x, x ∈ new ++ [v] → x ∉ t.closed.flatten :=
    fun x hx => h.sound.not_mem_closed ((hnew x).mp hx).1
  have hleave : ∀ x, x ∈ t.closed.flatten → ∀ y, Reaches next x y → y ∈ t.closed.flatten :=
    fun x hx y hreach => hreach.mem_of_closed h.sound.closed_followed hx
  have hconnected : ∀ x ∈ new ++ [v], StronglyConnected next v x :=
    fun x hx => h.connected hpath ((hnew x).mp hx).1 ((hnew x).mp hx).2
  have hnext : ∀ x, x ∈ new ++ [v] ∨ x ∈ t.closed.flatten → ∀ y ∈ next x,
      y ∈ new ++ [v] ∨ y ∈ t.closed.flatten := by
    rintro x (hx | hx) y hy
    · obtain ⟨hxt, hxs⟩ := (hnew x).mp hx
      exact (h.next_mem hs hlow hxt hxs hy).imp_left (hnew y).mpr
    · exact .inr (h.sound.closed_followed x hx y hy)
  constructor
  case mem_index_iff =>
    intro x
    have hflatten : x ∈ ((new ++ [v]) :: t.closed).flatten ↔
        x ∈ new ++ [v] ∨ x ∈ t.closed.flatten := by
      rw [List.flatten_cons, List.mem_append]
    show x ∈ t.index ↔ x ∈ s.stack ∨ x ∈ ((new ++ [v]) :: t.closed).flatten
    rw [h.sound.mem_index_iff, hmem, hflatten]
    tauto
  case nodup =>
    show (s.stack ++ ((new ++ [v]) :: t.closed).flatten).Nodup
    rw [List.flatten_cons, ← List.append_assoc]
    exact (List.perm_append_comm.append_right _).nodup_iff.mp hnodup
  case within => exact h.sound.within
  case num_lt => exact h.sound.num_lt
  case sorted => exact h.sound.sorted.sublist ((List.suffix_cons v _).trans h.suffix).sublist
  case path_open => exact hs.path_open
  case followed => exact fun x hx hxp => h.followed hx hxp
  case reaches_later =>
    exact fun x hx y hy =>
      h.sound.reaches_later x (h.mem_stack_of_mem hx) y (h.mem_stack_of_mem hy)
  case reaches_path =>
    intro x hx
    obtain ⟨y, hy, hle, hreach⟩ := hs.reaches_path x hx
    refine ⟨y, hy, ?_, hreach⟩
    show t.num y ≤ t.num x
    rwa [h.num_stack hs hx, h.num_stack hs (hs.path_open y hy)]
  case closed_ne_nil =>
    intro c hc
    rcases List.mem_cons.mp hc with rfl | hc
    · simp
    · exact h.sound.closed_ne_nil c hc
  case closed_iff =>
    intro c hc x hx y
    rcases List.mem_cons.mp hc with rfl | hc
    · refine ⟨fun hy => (hconnected x hx).symm.trans (hconnected y hy), fun hxy => ?_⟩
      refine (hxy.1.mem_of_closed hnext (.inl hx)).resolve_right fun hy => ?_
      exact hopen x hx (hleave y hy x hxy.2)
    · exact h.sound.closed_iff c hc x hx y
  case closed_followed =>
    intro x hx y hy
    rw [List.flatten_cons] at hx ⊢
    exact List.mem_append.mpr (hnext x (List.mem_append.mp hx) y hy)
  case ordered =>
    refine List.pairwise_cons.mpr ⟨fun d hd x hx y hy hreach => ?_, h.sound.ordered⟩
    exact hopen y hy (hleave x (List.mem_flatten.mpr ⟨d, hd, hx⟩) y hreach)

end

end Following

/-! ## Finding nodes -/

variable [LawfulBEq α]

/-- Lowering the low link of a new node changes nothing for the others. -/
lemma Extends.lower (h : s.Extends t) (hv : v ∉ s.index) (n : Nat) : s.Extends (t.lower v n) where
  mem := h.mem
  num_eq := h.num_eq
  low_eq x hx := by
    have hne : ¬ (v == x) = true := fun heq => hv (beq_iff_eq.mp heq ▸ hx)
    show (t.low.insert v _)[x]? = _
    rw [Std.HashMap.getElem?_insert, if_neg hne]
    exact h.low_eq x hx
  suffix := h.suffix
  num_ge := h.num_ge
  size_le := h.size_le

lemma mem_index_enter {x : α} : x ∈ (s.enter v).index ↔ x = v ∨ x ∈ s.index := by
  show x ∈ s.index.insert v _ ↔ _
  rw [Std.HashMap.mem_insert, beq_iff_eq, eq_comm]

lemma num_enter_self : (s.enter v).num v = s.index.size := by
  simp [enter, num]

lemma num_enter_of_ne {x : α} (h : x ≠ v) : (s.enter v).num x = s.num x := by
  simp [enter, num, Std.HashMap.getD_insert, h.symm]

lemma size_enter (h : v ∉ s.index) : (s.enter v).index.size = s.index.size + 1 := by
  simp [enter, Std.HashMap.size_insert, h]

/-- A search goes on by finding a node. -/
lemma extends_enter (hv : v ∉ s.index) : s.Extends (s.enter v) where
  mem x hx := mem_index_enter.mpr (.inr hx)
  num_eq x hx := num_enter_of_ne fun heq => hv (heq ▸ hx)
  low_eq x hx := by
    have hne : ¬ (v == x) = true := fun heq => hv (beq_iff_eq.mp heq ▸ hx)
    show (s.low.insert v _)[x]? = _
    rw [Std.HashMap.getElem?_insert, if_neg hne]
  suffix := List.suffix_cons v s.stack
  num_ge x hx hnew := by
    obtain rfl := (mem_index_enter.mp hx).resolve_right hnew
    exact Nat.le_of_eq num_enter_self.symm
  size_le := by
    rw [size_enter hv]
    exact Nat.le_succ _

/-- Finding a node that the path reaches keeps the invariant. -/
lemma Sound.enter (h : s.Sound next all path) (hv : v ∉ s.index) (hall : v ∈ all)
    (hpath : ∀ x ∈ path, Reaches next x v) : (s.enter v).Sound next all (v :: path) := by
  have hne : ∀ x ∈ s.index, x ≠ v := fun x hx heq => hv (heq ▸ hx)
  have hnum : ∀ x ∈ s.index, (s.enter v).num x = s.num x := fun x hx => num_enter_of_ne (hne x hx)
  have hstack : ∀ x ∈ s.stack, (s.enter v).num x = s.num x :=
    fun x hx => hnum x (h.mem_index_of_stack hx)
  have hlt : ∀ x ∈ s.stack, s.num x < s.index.size :=
    fun x hx => h.num_lt x (h.mem_index_of_stack hx)
  constructor
  case mem_index_iff =>
    intro x
    rw [mem_index_enter, h.mem_index_iff]
    show x = v ∨ _ ↔ x ∈ v :: s.stack ∨ _
    rw [List.mem_cons, or_assoc]
    rfl
  case nodup =>
    refine List.nodup_cons.mpr ⟨fun hmem => hv ?_, h.nodup⟩
    exact (h.mem_index_iff v).mpr (List.mem_append.mp hmem)
  case within =>
    intro x hx
    rcases mem_index_enter.mp hx with rfl | hx
    · exact hall
    · exact h.within x hx
  case num_lt =>
    intro x hx
    rw [size_enter hv]
    rcases mem_index_enter.mp hx with rfl | hx
    · rw [num_enter_self]
      exact Nat.lt_succ_self _
    · rw [hnum x hx]
      exact Nat.lt_succ_of_lt (h.num_lt x hx)
  case sorted =>
    refine List.pairwise_cons.mpr ⟨fun x hx => ?_, h.sorted.imp_of_mem fun hx hy hlt => ?_⟩
    · rw [num_enter_self, hstack x hx]
      exact hlt x hx
    · rwa [hstack _ hx, hstack _ hy]
  case path_open =>
    intro x hx
    rcases List.mem_cons.mp hx with rfl | hx
    · exact List.mem_cons_self
    · exact List.mem_cons_of_mem _ (h.path_open x hx)
  case followed =>
    intro x hx hpath' w hw
    rw [List.mem_cons, not_or] at hpath'
    have hx' := (mem_index_enter.mp hx).resolve_left hpath'.1
    exact mem_index_enter.mpr (.inr (h.followed x hx' hpath'.2 w hw))
  case reaches_later =>
    intro x hxs y hys hle
    rcases List.mem_cons.mp hxs with rfl | hx
    · rcases List.mem_cons.mp hys with rfl | hy
      · exact .refl
      · rw [num_enter_self, hstack y hy] at hle
        exact absurd (hlt y hy) (Nat.not_lt.mpr hle)
    · rcases List.mem_cons.mp hys with rfl | hy
      · obtain ⟨g, hg, -, hreach⟩ := h.reaches_path x hx
        exact hreach.trans (hpath g hg)
      · rw [hstack x hx, hstack y hy] at hle
        exact h.reaches_later x hx y hy hle
  case reaches_path =>
    intro x hx
    rcases List.mem_cons.mp hx with rfl | hx
    · exact ⟨x, List.mem_cons_self, Nat.le_refl _, .refl⟩
    · obtain ⟨g, hg, hle, hreach⟩ := h.reaches_path x hx
      refine ⟨g, List.mem_cons_of_mem _ hg, ?_, hreach⟩
      rwa [hstack x hx, hstack g (h.path_open g hg)]
  case closed_ne_nil => exact h.closed_ne_nil
  case closed_iff => exact h.closed_iff
  case closed_followed => exact h.closed_followed
  case ordered => exact h.ordered

/-! ## Following successors -/

/-- The low link of a node is lowered by the number `k`. -/
lemma LowLink.lower {done done' : List α} {m k : Nat} (h : LowLink next s t v done m)
    (hle : m ≤ t.num v) (hlow : u.low[v]? = t.low[v]?) (hnum : u.num v = t.num v)
    (hk : t.num v ≤ k ∨ ∃ y ∈ s.stack, Reaches next v y ∧ s.num y = k)
    (hnew : ∀ x ∈ u.stack, x ∉ s.stack → ∀ y ∈ next x, (x = v → y ∈ done') → y ∈ s.stack →
      m ≤ s.num y ∨ k ≤ s.num y) : LowLink next s (u.lower v k) v done' (min m k) where
  low_eq := by
    have hgetD : u.low.getD v k = m := by
      rw [Std.HashMap.getD_eq_getD_getElem?, hlow, h.low_eq]
      rfl
    simp [Search.lower, hgetD]
  attained := by
    show min m k = u.num v ∨ _
    rw [hnum]
    rcases le_total m k with hmk | hkm
    · rw [Nat.min_eq_left hmk]
      exact h.attained
    · rw [Nat.min_eq_right hkm]
      rcases hk with hk | hk
      · exact .inl (Nat.le_antisymm (Nat.le_trans hkm hle) hk)
      · exact .inr hk
  le := by
    intro x hx hxs y hy hdone hys
    have := hnew x hx hxs y hy hdone hys
    omega

namespace Following

variable {done : List α} {w : α}

/-- At first, no successor of a node has been followed. -/
lemma start (h : s.Sound next all path) (hv : v ∉ s.index) (hall : v ∈ all)
    (hpath : ∀ x ∈ path, Reaches next x v) : Following next all path v s [] (s.enter v) where
  sound := h.enter hv hall hpath
  extended := extends_enter hv
  size_lt := by
    rw [size_enter hv]
    exact Nat.lt_succ_self _
  num_eq := num_enter_self
  suffix := List.suffix_refl _
  mem := by simp
  low := by
    refine ⟨s.index.size, by simp [Search.enter], .inl num_enter_self.symm, ?_⟩
    intro x hx hxs y _ hdone _
    have hxv : x = v := (List.mem_cons.mp hx).resolve_right hxs
    exact absurd (hdone hxv) List.not_mem_nil

section

variable (h : Following next all path v s done t)

include h

/-- A successor is followed by a visit. -/
lemma visitNext (hs : s.Sound next all path) (hv : v ∉ s.index) (hw : w ∈ next v)
    (hnew : w ∉ t.index) (hvisited : Visited next all (v :: path) w t u) (n : Nat) :
    Following next all path v s (done ++ [w]) (u.lower v (u.low.getD w n)) := by
  have hvt : v ∈ t.index := h.sound.mem_index_of_stack h.mem_stack
  have hnum : u.num v = t.num v := hvisited.extended.num_eq v hvt
  obtain ⟨m, hm⟩ := h.low
  obtain ⟨k, hk⟩ := hvisited.low
  have hgetD : u.low.getD w n = k := by
    rw [Std.HashMap.getD_eq_getD_getElem?, hk.low_eq]
    rfl
  rw [hgetD]
  constructor
  case sound => exact hvisited.sound.lower v k
  case extended => exact (h.extended.trans hvisited.extended).lower hv k
  case size_lt => exact Nat.lt_of_lt_of_le h.size_lt hvisited.extended.size_le
  case num_eq => exact hnum.trans h.num_eq
  case suffix => exact h.suffix.trans hvisited.extended.suffix
  case mem =>
    intro x hx
    rcases List.mem_append.mp hx with hx | hx
    · exact hvisited.extended.mem x (h.mem x hx)
    · exact List.mem_singleton.mp hx ▸ hvisited.mem
  case low =>
    refine ⟨min m k, hm.lower (hm.le_num fun y hy => h.num_lt hs hy)
      (hvisited.extended.low_eq v hvt) hnum ?_ ?_⟩
    · rcases hk.attained with rfl | ⟨y, hy, hreach, rfl⟩
      · have hge := hvisited.extended.num_ge w hvisited.mem hnew
        have hsize := h.size_lt
        have hv := h.num_eq
        exact .inl (by omega)
      · by_cases hys : y ∈ s.stack
        · exact .inr ⟨y, hys, hreach.head hw, (h.num_stack hs hys).symm⟩
        · exact .inl (h.num_le hy hys)
    · intro x hx hxs y hy hdone hys
      by_cases hxt : x ∈ t.stack
      · refine .inl (hm.le x hxt hxs y hy (fun hxv => ?_) hys)
        -- the successor is new and not an open node found before
        refine (List.mem_append.mp (hdone hxv)).resolve_right fun hyw => hnew ?_
        rw [← List.mem_singleton.mp hyw]
        exact h.sound.mem_index_of_stack (h.mem_stack_of_mem hys)
      · right
        rw [← h.num_stack hs hys]
        exact hk.le x hx hxt y hy (fun heq => heq ▸ hy) (h.mem_stack_of_mem hys)

/-- A successor that is open is followed. -/
lemma lowerNext (hs : s.Sound next all path) (hv : v ∉ s.index) (hw : w ∈ next v)
    (hwt : w ∈ t.stack) :
    Following next all path v s (done ++ [w]) (t.lower v (t.num w)) := by
  obtain ⟨m, hm⟩ := h.low
  constructor
  case sound => exact h.sound.lower v _
  case extended => exact h.extended.lower hv _
  case size_lt => exact h.size_lt
  case num_eq => exact h.num_eq
  case suffix => exact h.suffix
  case mem =>
    intro x hx
    rcases List.mem_append.mp hx with hx | hx
    · exact h.mem x hx
    · rw [List.mem_singleton.mp hx]
      exact h.sound.mem_index_of_stack hwt
  case low =>
    refine ⟨min m (t.num w), hm.lower (hm.le_num fun y hy => h.num_lt hs hy) rfl rfl ?_ ?_⟩
    · by_cases hws : w ∈ s.stack
      · exact .inr ⟨w, hws, .single hw, (h.num_stack hs hws).symm⟩
      · exact .inl (h.num_le hwt hws)
    · intro x hx hxs y hy hdone hys
      by_cases hyw : y = w
      · subst hyw
        exact .inr (Nat.le_of_eq (h.num_stack hs hys))
      · refine .inl (hm.le x hx hxs y hy (fun hxv => ?_) hys)
        exact (List.mem_append.mp (hdone hxv)).resolve_right (by simpa using hyw)

end

end Following

/-! ## Visits -/

/-- The component of a node is closed if its low link is its number. -/
lemma leave_of_eq {n : Nat} (hlow : t.low[v]? = some n) (hindex : t.index[v]? = some n)
    {new below : List α} (hstack : t.stack = new ++ v :: below) (hnew : v ∉ new) :
    t.leave v = { t with stack := below, closed := (new ++ [v]) :: t.closed } := by
  have habove : t.stack.takeWhile (· != v) = new := by
    rw [hstack, List.takeWhile_append_of_pos]
    · simp
    · intro x hx
      exact bne_iff_ne.mpr fun heq => hnew (heq ▸ hx)
  have hbelow : t.stack.drop (new.length + 1) = below := by
    rw [hstack, List.drop_append]
    simp
  unfold leave
  rw [if_pos (by simp [hlow, hindex])]
  dsimp only
  rw [habove, hbelow]

/-- When all successors of a node have been followed, its visit comes to its end. -/
lemma Following.visited (hs : s.Sound next all path) (h : Following next all path v s (next v) t)
    (hpath : ∀ x ∈ path, Reaches next x v) : Visited next all path v s (t.leave v) := by
  have hvt := h.sound.mem_index_of_stack h.mem_stack
  have hindex : t.index[v]? = some (t.num v) := Std.HashMap.getElem?_eq_some_getD hvt
  obtain ⟨m, hm⟩ := h.low
  by_cases hclose : m = t.num v
  · subst hclose
    obtain ⟨new, hnew⟩ := h.suffix
    have hv : v ∉ new := by
      have hnodup := (List.nodup_append.mp h.sound.nodup).1
      rw [← hnew] at hnodup
      exact fun hmem => (List.nodup_append.mp hnodup).2.2 v hmem v List.mem_cons_self rfl
    rw [leave_of_eq hm.low_eq hindex hnew.symm hv]
    refine ⟨h.sound_close hs hpath hm hnew.symm, ?_, hvt, t.num v, hm.low_eq, .inl rfl, ?_⟩
    · exact ⟨h.extended.mem, h.extended.num_eq, h.extended.low_eq, List.suffix_refl _,
        h.extended.num_ge, h.extended.size_le⟩
    · exact fun x hx hxs => absurd hx hxs
  · have hleave : t.leave v = t := by
      unfold leave
      rw [if_neg (by simpa [hm.low_eq, hindex] using hclose)]
    rw [hleave]
    exact ⟨h.sound_keep hs hpath hm hclose, h.extended, hvt, m, hm⟩

end Search

open Search

variable [LawfulBEq α] {s t : Search α}

/-- How a visit of `v` goes on with a successor. -/
def follow (next : α → List α) (fuel : Nat) (v : α) (s : Search α) (w : α) : Search α :=
  match s.index[w]? with
  | none =>
    let s := visit next fuel w s
    s.lower v (s.low.getD w s.index.size)
  | some n => if s.stack.contains w then s.lower v n else s

omit [LawfulBEq α] in
lemma visit_succ (fuel : Nat) (s : Search α) :
    visit next (fuel + 1) v s = ((next v).foldl (follow next fuel v) (s.enter v)).leave v := rfl

/-- A successor is followed, by a visit if it has not been found. -/
lemma Search.Following.followNext {fuel : Nat} {path done : List α} {v w : α}
    (hs : s.Sound next all path) (hv : v ∉ s.index) (h : Following next all path v s done t)
    (hw : w ∈ next v)
    (hvisit : w ∉ t.index → Visited next all (v :: path) w t (visit next fuel w t)) :
    Following next all path v s (done ++ [w]) (follow next fuel v t w) := by
  unfold Components.follow
  split
  · rename_i hnone
    have hnew : w ∉ t.index := by
      simp [Std.HashMap.mem_iff_isSome_getElem?, hnone]
    exact h.visitNext hs hv hw hnew (hvisit hnew) _
  · rename_i n hn
    have hmem : w ∈ t.index := Std.HashMap.mem_iff_isSome_getElem?.mpr (by simp [hn])
    obtain rfl : t.num w = n := by
      rw [num, Std.HashMap.getD_eq_getD_getElem?, hn]
      rfl
    split
    · rename_i hstack
      exact h.lowerNext hs hv hw (List.contains_iff_mem.mp hstack)
    · rename_i hstack
      exact h.skipNext hmem fun hmem' => hstack (List.contains_iff_mem.mpr hmem')

/-- **Visits.** A visit of a node that has not been found finds it and all that can be reached from
it, and closes the components that are complete.

**Proof sketch.** Induction on the fuel, which exceeds the number of nodes that have not been found,
and within a visit on the successors that have been followed. -/
lemma visit_visited (hnext : ∀ x ∈ all, ∀ y ∈ next x, y ∈ all) (fuel : Nat) {path : List α} {v : α}
    {s : Search α} (hs : s.Sound next all path) (hv : v ∉ s.index) (hall : v ∈ all)
    (hpath : ∀ x ∈ path, Reaches next x v) (hfuel : all.length ≤ fuel + s.index.size) :
    Visited next all path v s (visit next fuel v s) := by
  induction fuel generalizing path v s with
  | zero =>
    have := hs.size_lt hall hv
    omega
  | succ fuel ih =>
    have hfollow : ∀ (rest done : List α) (t : Search α), next v = done ++ rest →
        Following next all path v s done t →
        Following next all path v s (next v) (rest.foldl (follow next fuel v) t) := by
      intro rest
      induction rest with
      | nil =>
        intro done t hdone ht
        rwa [hdone, List.append_nil]
      | cons w rest ihrest =>
        intro done t hdone ht
        have hw : w ∈ next v := by simp [hdone]
        refine ihrest (done ++ [w]) _ (by simp [hdone]) (ht.followNext hs hv hw fun hnew => ?_)
        have hsize := ht.size_lt
        exact ih ht.sound hnew (hnext v hall w hw) (reaches_next hpath hw) (by omega)
    rw [visit_succ]
    exact (hfollow (next v) [] _ rfl (.start hs hv hall hpath)).visited hs hpath

/-- With enough fuel, a visit does not depend on it.

**Proof sketch.** Induction on the fuel, and within a visit on the successors that have been
followed: by `visit_visited`, there is enough fuel for all of them. -/
lemma visit_eq (hnext : ∀ x ∈ all, ∀ y ∈ next x, y ∈ all) (fuel fuel' : Nat) {path : List α} {v : α}
    {s : Search α} (hs : s.Sound next all path) (hv : v ∉ s.index) (hall : v ∈ all)
    (hpath : ∀ x ∈ path, Reaches next x v) (hfuel : all.length ≤ fuel + s.index.size)
    (hfuel' : all.length ≤ fuel' + s.index.size) :
    visit next fuel v s = visit next fuel' v s := by
  have hsize := hs.size_lt hall hv
  induction fuel generalizing fuel' path v s with
  | zero => omega
  | succ fuel ih =>
    obtain ⟨fuel', rfl⟩ : ∃ n, fuel' = n + 1 := ⟨fuel' - 1, by omega⟩
    have hfollow : ∀ (rest done : List α) (t : Search α), next v = done ++ rest →
        Following next all path v s done t →
        rest.foldl (follow next fuel v) t = rest.foldl (follow next fuel' v) t := by
      intro rest
      induction rest with
      | nil => exact fun _ _ _ _ => rfl
      | cons w rest ihrest =>
        intro done t hdone ht
        have hw : w ∈ next v := by simp [hdone]
        have hsize' := ht.size_lt
        have hvisit : w ∉ t.index → visit next fuel w t = visit next fuel' w t := fun hnew =>
          ih fuel' ht.sound hnew (hnext v hall w hw) (reaches_next hpath hw) (by omega) (by omega)
            (ht.sound.size_lt (hnext v hall w hw) hnew)
        have hstep : follow next fuel v t w = follow next fuel' v t w := by
          unfold follow
          split
          · rename_i hnone
            rw [hvisit (by simp [Std.HashMap.mem_iff_isSome_getElem?, hnone])]
          · rfl
        rw [List.foldl_cons, List.foldl_cons, ← hstep]
        refine ihrest (done ++ [w]) _ (by simp [hdone]) (ht.followNext hs hv hw fun hnew => ?_)
        exact visit_visited hnext fuel ht.sound hnew (hnext v hall w hw) (reaches_next hpath hw)
          (by omega)
    rw [visit_succ, visit_succ, hfollow (next v) [] _ rfl (.start hs hv hall hpath)]

end Components

end JvmTaint
