import JvmTaint.Queue
import Mathlib.Tactic.Lemma

set_option autoImplicit false
set_option relaxedAutoImplicit false

/-!
# Queues behave as lists

Whatever is pushed and popped, a queue gives the same answers as a list that grows at its end and
shrinks at its front. Neither clearing the array nor moving its elements can be seen. The elements
are moved in place, from the front on: an element is overwritten only after it has been moved.

## Main definitions

* `JvmTaint.Queue.Fits`: the head of a queue lies within its array, and not far from its front.
* `JvmTaint.Queue.Operation`: what is done to a queue; `Queue.perform` does it.
* `JvmTaint.Queue.Operation.performOnList`: what the operation does to a list.
* `JvmTaint.Queue.stateAfter`, `JvmTaint.Queue.answers`: what some operations lead to, and what they
  answer.

## Main results

* `JvmTaint.Queue.getElem?_moveDown`: moving elements in place copies them.
* `JvmTaint.Queue.toList_push`, `JvmTaint.Queue.Fits.pop?_cases`: the operations on lists.
* `JvmTaint.Queue.behaves_as_list`: a queue cannot be told from a list.
* `JvmTaint.Queue.size_items_lt`: the array is not much larger than the queue.
-/

namespace JvmTaint

namespace Queue

variable {α : Type} {q : Queue α} {x : α} {items : Array α} {head n : Nat}

/-! ## Moving elements -/

lemma moveDown_succ (items : Array α) (head n : Nat) : moveDown items head (n + 1) =
    match (moveDown items head n)[head + n]? with
    | some x => (moveDown items head n).setIfInBounds n x
    | none => moveDown items head n := by
  unfold moveDown
  rw [List.range_succ, List.foldl_append]
  rfl

/-- Moving elements does not change the size of the array. -/
lemma size_moveDown (items : Array α) (head n : Nat) :
    (moveDown items head n).size = items.size := by
  induction n with
  | zero => rfl
  | succ n ih =>
    rw [moveDown_succ]
    split
    · rw [Array.size_setIfInBounds, ih]
    · exact ih

/-- Moving elements in place copies them: the first ones become those behind the head, and the
others stay. The element that is moved next has not been overwritten, since the position that was
written last is not behind the one it is read from. -/
lemma getElem?_moveDown (h : head + n ≤ items.size) (i : Nat) :
    (moveDown items head n)[i]? = if i < n then items[head + i]? else items[i]? := by
  induction n generalizing i with
  | zero => rfl
  | succ n ih =>
    have hread : (moveDown items head n)[head + n]? = some items[head + n] := by
      rw [ih (by omega), if_neg (by omega), Array.getElem?_eq_getElem (by omega)]
    have hn : n < (moveDown items head n).size := by
      rw [size_moveDown]
      omega
    rw [moveDown_succ, hread]
    dsimp only
    rw [Array.getElem?_setIfInBounds, ih (by omega)]
    rcases Nat.lt_trichotomy i n with hlt | rfl | hgt
    · rw [if_neg (by omega), if_pos hlt, if_pos (by omega)]
    · rw [if_pos rfl, if_pos hn, if_pos (Nat.lt_succ_self i), Array.getElem?_eq_getElem]
    · rw [if_neg (by omega), if_neg (by omega), if_neg (by omega)]

/-- The elements behind the head are left when they have all been moved and the rest is cut off. -/
lemma toList_take_moveDown (h : head ≤ items.size) :
    ((moveDown items head (items.size - head)).take (items.size - head)).toList =
      items.toList.drop head := by
  refine List.ext_getElem? fun i => ?_
  rw [Array.getElem?_toList, Array.take_eq_extract, Array.getElem?_extract,
    getElem?_moveDown (by omega), size_moveDown, List.getElem?_drop, Array.getElem?_toList,
    Nat.zero_add, Nat.sub_zero, Nat.min_eq_left (Nat.sub_le ..)]
  split
  · rfl
  · rw [Array.getElem?_eq_none (by omega)]

/-! ## The operations on lists -/

/-- The head of the queue lies within its array or at its end, and the elements that have been
popped are few: fewer than those below which the array is left alone, or fewer than the queue
has. -/
structure Fits (q : Queue α) : Prop where
  head_le : q.head ≤ q.items.size
  few_popped : q.head < minCompaction ∨ q.head < q.length

lemma fits_empty : ({} : Queue α).Fits :=
  ⟨Nat.le_refl _, .inl (show 0 < minCompaction by decide)⟩

/-- The length of a queue is that of its list. -/
lemma length_eq (q : Queue α) : q.length = q.toList.length := by
  simp [length, toList]

lemma Fits.push (h : q.Fits) (x : α) : (q.push x).Fits := by
  have hhead := h.head_le
  have hfew := h.few_popped
  unfold length at hfew
  constructor
  · simp only [Queue.push, Array.size_push]
    omega
  · simp only [Queue.push, length, Array.size_push]
    omega

/-- An element that is pushed is the last one. -/
lemma Fits.toList_push (h : q.Fits) (x : α) : (q.push x).toList = q.toList ++ [x] := by
  rw [toList, Queue.push, Array.toList_push,
    List.drop_append_of_le_length (by simpa using h.head_le)]
  rfl

/-- A queue fits after it has been advanced: if nothing is moved, then not many elements have been
popped, or they do not make up half of the array. -/
lemma fits_advance (h : q.head < q.items.size) : q.advance.Fits := by
  unfold advance
  dsimp only
  split
  · exact fits_empty
  · split
    · exact ⟨Nat.zero_le _, .inl (show 0 < minCompaction by decide)⟩
    · rename_i hfew
      refine ⟨h, ?_⟩
      simp only [length]
      omega

/-- Advancing drops the first element, whether or not the array is cleared or its elements are
moved. -/
lemma toList_advance (h : q.head < q.items.size) : q.advance.toList = q.toList.tail := by
  have htail : q.toList.tail = q.items.toList.drop (q.head + 1) := by
    rw [toList, List.tail_drop]
  rw [htail]
  unfold advance
  dsimp only
  split
  · rename_i hlast
    rw [hlast, ← Array.length_toList, List.drop_length]
    rfl
  · split
    · exact toList_take_moveDown h
    · rfl

/-- Popping fails on an empty queue, and on another one it gives the first element and leaves the
others. -/
lemma Fits.pop?_cases (h : q.Fits) :
    (q.toList = [] ∧ q.pop? = none) ∨
      ∃ x q', q.toList = x :: q'.toList ∧ q.pop? = some (x, q') ∧ q'.Fits := by
  rcases Nat.lt_or_eq_of_le h.head_le with hlt | heq
  · refine .inr ⟨q.items[q.head], q.advance, ?_, ?_, fits_advance hlt⟩
    · rw [toList_advance hlt, toList, List.drop_eq_getElem_cons (by simpa using hlt)]
      rfl
    · rw [pop?, Array.getElem?_eq_getElem hlt]
  · refine .inl ⟨?_, ?_⟩
    · rw [toList, heq, ← Array.length_toList, List.drop_length]
    · rw [pop?, heq, Array.getElem?_eq_none (Nat.le_refl _)]

/-! ## Sequences of operations -/

/-- What is done to a queue. -/
inductive Operation (α : Type) where
  | push (x : α)
  | pop
  deriving DecidableEq, Repr

/-- Performs an operation. A pop gives the element that it removes; one that fails gives none and
leaves the queue as it is. -/
def perform (q : Queue α) : Operation α → Queue α × Option α
  | .push x => (q.push x, none)
  | .pop =>
    match q.pop? with
    | none => (q, none)
    | some (x, q') => (q', some x)

/-- Performs an operation on a list: what is pushed becomes the last element, and a pop removes the
first one. -/
def Operation.performOnList (xs : List α) : Operation α → List α × Option α
  | .push x => (xs ++ [x], none)
  | .pop => (xs.tail, xs.head?)

section

variable {σ : Type} (act : σ → Operation α → σ × Option α) (len : σ → Nat)

/-- The state that some operations lead to. -/
def stateAfter (s : σ) (ops : List (Operation α)) : σ := ops.foldl (fun s op => (act s op).1) s

/-- What some operations answer in turn: the element that is removed, if one is, and the length
afterwards. -/
def answers (s : σ) : List (Operation α) → List (Option α × Nat)
  | [] => []
  | op :: ops => ((act s op).2, len (act s op).1) :: answers (act s op).1 ops

end

/-- An operation on a queue and on its list leaves a queue and its list, with the same answer. -/
lemma Fits.perform_eq (h : q.Fits) (op : Operation α) :
    (q.perform op).1.Fits ∧ (q.perform op).1.toList = (op.performOnList q.toList).1 ∧
      (q.perform op).2 = (op.performOnList q.toList).2 := by
  cases op with
  | push x => exact ⟨h.push x, h.toList_push x, rfl⟩
  | pop =>
    unfold Queue.perform
    rcases h.pop?_cases with ⟨hnil, hnone⟩ | ⟨x, q', hcons, hsome, hfits⟩
    · simp only [hnone]
      exact ⟨h, by simp [Operation.performOnList, hnil]⟩
    · simp only [hsome]
      exact ⟨hfits, by simp [Operation.performOnList, hcons]⟩

/-- Operations on a queue and on its list lead to a queue and its list. -/
lemma Fits.stateAfter_eq (h : q.Fits) (ops : List (Operation α)) :
    (stateAfter perform q ops).Fits ∧
      (stateAfter perform q ops).toList = stateAfter Operation.performOnList q.toList ops := by
  induction ops generalizing q with
  | nil => exact ⟨h, rfl⟩
  | cons op ops ih =>
    obtain ⟨hfits, hstate, -⟩ := h.perform_eq op
    have hrest := ih hfits
    rw [hstate] at hrest
    exact hrest

/-- Operations on a queue and on its list give the same answers. -/
lemma Fits.answers_eq (h : q.Fits) (ops : List (Operation α)) :
    answers perform length q ops =
      answers Operation.performOnList List.length q.toList ops := by
  induction ops generalizing q with
  | nil => rfl
  | cons op ops ih =>
    obtain ⟨hfits, hstate, hanswer⟩ := h.perform_eq op
    rw [answers, answers, ih hfits, hstate, hanswer, length_eq, hstate]

/-- The array never holds many more elements than the queue: fewer than twice as many, or not as
many more as those below which it is left alone. -/
lemma size_items_lt (ops : List (Operation α)) :
    let q := stateAfter perform ({} : Queue α) ops
    q.items.size < q.length + minCompaction ∨ q.items.size < 2 * q.length := by
  obtain ⟨hhead, hfew⟩ := (fits_empty.stateAfter_eq ops).1
  unfold length at hfew ⊢
  omega

/-- **A queue behaves as a list.** Whatever operations are performed on a queue that was empty, they
give the same elements and lengths as on a list. Afterwards the queue holds the elements of the
list, its head lies within the array, and popping fails exactly if the list is empty. -/
theorem behaves_as_list (ops : List (Operation α)) :
    answers perform length {} ops = answers Operation.performOnList List.length [] ops ∧
      let q := stateAfter perform ({} : Queue α) ops
      let xs := stateAfter Operation.performOnList [] ops
      q.toList = xs ∧ q.length = xs.length ∧ q.head ≤ q.items.size ∧
        (q.pop? = none ↔ xs = []) := by
  obtain ⟨hfits, hlist⟩ := fits_empty.stateAfter_eq ops
  refine ⟨fits_empty.answers_eq ops, hlist, ?_, hfits.head_le, ?_⟩
  · rw [length_eq, hlist]
    rfl
  · rcases hfits.pop?_cases with ⟨hnil, hnone⟩ | ⟨x, q', hcons, hsome, -⟩
    · exact iff_of_true hnone (hlist ▸ hnil)
    · refine iff_of_false (by simp [hsome]) ?_
      change stateAfter Operation.performOnList ({} : Queue α).toList ops ≠ []
      rw [← hlist, hcons]
      exact List.cons_ne_nil x q'.toList

end Queue

end JvmTaint
