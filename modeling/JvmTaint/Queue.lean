set_option autoImplicit false
set_option relaxedAutoImplicit false

/-!
# Queues

First-in first-out queues over an array. Popping moves a head index; the array is cleared when it
has been popped entirely, and the popped elements are dropped once there are many of them and they
make up half of the array, so that the array never holds much more than the queue.

## Main definitions

* `JvmTaint.Queue`: a queue, with `Queue.push`, `Queue.pop?` and `Queue.length`.
* `JvmTaint.Queue.toList`: the elements of a queue, the first one in front.
-/

namespace JvmTaint

/-- A first-in first-out queue. -/
structure Queue (α : Type) where
  /-- The elements, those before `head` being popped. -/
  items : Array α := #[]
  /-- The position of the first element. -/
  head : Nat := 0

namespace Queue

variable {α : Type}

/-- The number of popped elements below which the array is left alone. -/
def minCompaction : Nat := 64

/-- The number of elements. -/
def length (q : Queue α) : Nat := q.items.size - q.head

/-- The elements, the first one in front. -/
def toList (q : Queue α) : List α := q.items.toList.drop q.head

/-- Adds an element at the back. -/
def push (q : Queue α) (x : α) : Queue α := { q with items := q.items.push x }

/-- Moves `n` elements, from the position `head` on, to the front of the array, one after the other
in place. The places that they come from may be among those that they go to. -/
def moveDown (items : Array α) (head n : Nat) : Array α :=
  (List.range n).foldl
    (fun items i => match items[head + i]? with
      | some x => items.setIfInBounds i x
      | none => items)
    items

/-- Moves the head behind the first element. An array that has been popped entirely is cleared. The
elements are moved to the front if many have been popped and these make up half of the array.

Two writes are left out, since nothing reads what they write: the zero value that releases the slot
of the popped element at once, and the clearing of the slots behind the elements that were moved. -/
def advance (q : Queue α) : Queue α :=
  let head := q.head + 1
  if head = q.items.size then { items := #[], head := 0 }
  else if minCompaction ≤ head ∧ q.items.size ≤ 2 * head then
    let n := q.items.size - head
    { items := (moveDown q.items head n).take n, head := 0 }
  else { q with head }

/-- Removes the first element; there is none in an empty queue. -/
def pop? (q : Queue α) : Option (α × Queue α) :=
  match q.items[q.head]? with
  | none => none
  | some x => some (x, q.advance)

end Queue

end JvmTaint
