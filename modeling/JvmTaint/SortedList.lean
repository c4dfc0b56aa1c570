set_option autoImplicit false
set_option relaxedAutoImplicit false

/-!
# Sorted lists

An element is looked for in a sorted list by halving the part of the list where it can be. The
position where the search ends is that of the element, if it is there, and otherwise the one where
it is inserted, so that the list stays sorted.

## Main definitions

* `JvmTaint.lowerBound`: the search between two positions.
* `JvmTaint.binarySearch`, `JvmTaint.insertAmong`, `JvmTaint.insertSorted`: membership and insertion
  by means of the search.
* `JvmTaint.SortedList`: a strictly increasing list, with `SortedList.contains` and
  `SortedList.insert`.

## Main results

* `JvmTaint.binarySearch_iff`: the search finds what is in a sorted list.
* `JvmTaint.pairwise_insertSorted`: insertion keeps a list strictly increasing.
-/

namespace JvmTaint

section

variable {α : Type} [LT α] [DecidableLT α]

/-- The first position from `low` on, and before `high`, at which a sorted list has an element that
is not smaller than the given one; `high` if there is none. -/
def lowerBound (xs : List α) (x : α) (low high : Nat) (hhigh : high ≤ xs.length) : Nat :=
  if hlow : low < high then
    have hmiddle : (low + high) / 2 < xs.length := by omega
    if xs[(low + high) / 2] < x then lowerBound xs x ((low + high) / 2 + 1) high hhigh
    else lowerBound xs x low ((low + high) / 2) (by omega)
  else low
termination_by high - low

/-- The position of an element in a sorted list, or the one where it is inserted. -/
def insertionPoint (xs : List α) (x : α) : Nat := lowerBound xs x 0 xs.length (Nat.le_refl _)

/-- Whether an element is found in a sorted list. -/
def binarySearch [BEq α] (xs : List α) (x : α) : Bool := xs[insertionPoint xs x]? == some x

/-- Inserts an element into a sorted list, also if it is there. -/
def insertAmong (x : α) (xs : List α) : List α :=
  xs.take (insertionPoint xs x) ++ x :: xs.drop (insertionPoint xs x)

/-- Inserts an element into a sorted list unless it is there. -/
def insertSorted [BEq α] (x : α) (xs : List α) : List α :=
  if binarySearch xs x then xs else insertAmong x xs

variable {xs : List α} {x y : α}

/-! ## What is found and what is inserted -/

/-- What is found is there, whether the list is sorted or not. -/
theorem mem_of_binarySearch [BEq α] [LawfulBEq α] (h : binarySearch xs x = true) : x ∈ xs :=
  List.mem_of_getElem? (eq_of_beq h)

theorem mem_insertAmong : y ∈ insertAmong x xs ↔ y = x ∨ y ∈ xs := by
  rw [insertAmong, List.mem_append, List.mem_cons, or_left_comm, ← List.mem_append,
    List.take_append_drop]

theorem mem_insertSorted [BEq α] [LawfulBEq α] : y ∈ insertSorted x xs ↔ y = x ∨ y ∈ xs := by
  rw [insertSorted]
  split
  · rename_i hx
    refine ⟨.inr, ?_⟩
    rintro (rfl | hy)
    · exact mem_of_binarySearch hx
    · exact hy
  · exact mem_insertAmong

/-! ## The order -/

variable [LE α] [Std.IsLinearOrder α] [Std.LawfulOrderLT α]

/-- Every element before the position that is found is smaller, and every other one is not, if that
is so outside of the two positions of the search.

**Proof sketch.** Induction on the search. The element in the middle decides about the half of the
list that is left out, because the list is sorted. -/
theorem lowerBound_spec (hxs : xs.Pairwise (· ≤ ·)) {low high : Nat} (hhigh : high ≤ xs.length)
    (hle : low ≤ high) (hbefore : ∀ i, (hi : i < xs.length) → i < low → xs[i] < x)
    (hafter : ∀ i, (hi : i < xs.length) → high ≤ i → x ≤ xs[i]) :
    (∀ i, (hi : i < xs.length) → i < lowerBound xs x low high hhigh → xs[i] < x) ∧
      ∀ i, (hi : i < xs.length) → lowerBound xs x low high hhigh ≤ i → x ≤ xs[i] := by
  have hmono : ∀ i j, (hi : i < xs.length) → (hj : j < xs.length) → i ≤ j → xs[i] ≤ xs[j] := by
    intro i j hi hj hij
    rcases Nat.lt_or_eq_of_le hij with hlt | rfl
    · exact List.pairwise_iff_getElem.mp hxs i j hi hj hlt
    · exact Std.le_refl _
  fun_induction lowerBound xs x low high hhigh with
  | case1 low high hhigh hlow hmiddle hlt ih =>
    refine ih (by omega) (fun i hi hle => ?_) hafter
    exact Std.lt_of_le_of_lt (hmono i ((low + high) / 2) hi hmiddle (by omega)) hlt
  | case2 low high hhigh hlow hmiddle hge ih =>
    refine ih (by omega) hbefore fun i hi hle => ?_
    exact Std.le_trans (Std.not_lt.mp hge) (hmono ((low + high) / 2) i hmiddle hi hle)
  | case3 low high hhigh hlow =>
    obtain rfl : low = high := by omega
    exact ⟨hbefore, hafter⟩

/-- The elements before the position of an element are smaller, and the others are not. -/
theorem insertionPoint_spec (hxs : xs.Pairwise (· ≤ ·)) (x : α) :
    (∀ y ∈ xs.take (insertionPoint xs x), y < x) ∧
      ∀ y ∈ xs.drop (insertionPoint xs x), x ≤ y := by
  obtain ⟨hbefore, hafter⟩ := lowerBound_spec (x := x) hxs (Nat.le_refl _) (Nat.zero_le _)
    (fun i _ hlt => absurd hlt (Nat.not_lt_zero i)) fun i hi hle => absurd hi (Nat.not_lt.mpr hle)
  constructor
  · intro y hy
    obtain ⟨i, hi, rfl⟩ := List.mem_take_iff_getElem.mp hy
    exact hbefore i (by omega) (Nat.lt_of_lt_of_le hi (Nat.min_le_left _ _))
  · intro y hy
    obtain ⟨i, hi, rfl⟩ := List.mem_drop_iff_getElem.mp hy
    exact hafter (insertionPoint xs x + i) (by omega) (Nat.le_add_right _ _)

/-- Inserting a new element keeps a list strictly increasing. -/
theorem pairwise_insertAmong (h : xs.Pairwise (· < ·)) (hx : x ∉ xs) :
    (insertAmong x xs).Pairwise (· < ·) := by
  obtain ⟨hbefore, hle⟩ := insertionPoint_spec (h.imp Std.le_of_lt) x
  have hafter : ∀ y ∈ xs.drop (insertionPoint xs x), x < y := by
    intro y hy
    have hne : x ≠ y := fun heq => hx (heq ▸ List.mem_of_mem_drop hy)
    exact Std.lt_of_le_of_ne (hle y hy) hne
  refine List.pairwise_append.mpr ⟨h.sublist (List.take_sublist _ _),
    List.pairwise_cons.mpr ⟨hafter, h.sublist (List.drop_sublist _ _)⟩, fun y hy z hz => ?_⟩
  rcases List.mem_cons.mp hz with rfl | hz
  · exact hbefore y hy
  · exact Std.lt_trans (hbefore y hy) (hafter z hz)

variable [BEq α] [LawfulBEq α]

/-- **Search.** An element is found in a sorted list exactly if it is there.

**Proof sketch.** An element that is there is not before its position, since it is not smaller than
itself. So the position is one of the list, and the element that is there is the first one that is
not smaller. -/
theorem binarySearch_iff (hxs : xs.Pairwise (· ≤ ·)) : binarySearch xs x = true ↔ x ∈ xs := by
  refine ⟨mem_of_binarySearch, fun hx => ?_⟩
  obtain ⟨hbefore, hafter⟩ := insertionPoint_spec hxs x
  rw [← List.take_append_drop (insertionPoint xs x) xs, List.mem_append] at hx
  have hdrop : x ∈ xs.drop (insertionPoint xs x) := by
    rcases hx with hx | hx
    · exact absurd (hbefore x hx) Std.lt_irrefl
    · exact hx
  cases hrest : xs.drop (insertionPoint xs x) with
  | nil => simp [hrest] at hdrop
  | cons y ys =>
    have hle : x ≤ y := hafter y (hrest ▸ List.mem_cons_self)
    have hsorted : (y :: ys).Pairwise (· ≤ ·) := hrest ▸ hxs.sublist (List.drop_sublist _ _)
    have hge : y ≤ x := by
      rw [hrest] at hdrop
      rcases List.mem_cons.mp hdrop with rfl | hx
      · exact Std.le_refl _
      · exact List.rel_of_pairwise_cons hsorted hx
    have hget : xs[insertionPoint xs x]? = some y := by
      rw [← Nat.add_zero (insertionPoint xs x), ← List.getElem?_drop, hrest]
      rfl
    rw [binarySearch, hget, Std.le_antisymm hge hle]
    exact BEq.rfl

/-- Inserting keeps a list strictly increasing. -/
theorem pairwise_insertSorted (h : xs.Pairwise (· < ·)) :
    (insertSorted x xs).Pairwise (· < ·) := by
  rw [insertSorted]
  split
  · exact h
  · rename_i hx
    exact pairwise_insertAmong h fun hmem => hx ((binarySearch_iff (h.imp Std.le_of_lt)).mpr hmem)

end

/-! ## Lists that stay sorted -/

/-- A strictly increasing list. -/
structure SortedList (α : Type) [LT α] where
  toList : List α := []
  sorted : toList.Pairwise (· < ·) := by simp

namespace SortedList

variable {α : Type} [LT α] [DecidableLT α] [LE α] [Std.IsLinearOrder α] [Std.LawfulOrderLT α]
variable [BEq α] [LawfulBEq α] {s : SortedList α} {x y : α}

/-- Whether an element is there. -/
def contains (s : SortedList α) (x : α) : Bool := binarySearch s.toList x

/-- Adds an element, unless it is there. -/
def insert (s : SortedList α) (x : α) : SortedList α :=
  { toList := insertSorted x s.toList, sorted := pairwise_insertSorted s.sorted }

theorem contains_iff : s.contains x = true ↔ x ∈ s.toList :=
  binarySearch_iff (s.sorted.imp Std.le_of_lt)

theorem mem_toList_insert : y ∈ (s.insert x).toList ↔ y = x ∨ y ∈ s.toList := mem_insertSorted

end SortedList

end JvmTaint
