set_option autoImplicit false
set_option relaxedAutoImplicit false

/-!
# Closure under successors

The elements reached from a list by following successors, in breadth-first order. The list of
elements seen so far is its own queue: the first ones have been followed, the others have not.

## Main definitions

* `JvmTaint.appendNew`: appends the elements that a list does not have yet.
* `JvmTaint.closure`: the elements reached.
-/

namespace JvmTaint

/-- Appends to `seen` the elements of a list that it does not have yet. -/
def appendNew {α : Type} [BEq α] (seen : List α) : List α → List α
  | [] => seen
  | x :: xs => if seen.contains x then appendNew seen xs else appendNew (seen ++ [x]) xs

/-- The elements reached from those of `seen` by following successors. The first `done` elements
have been followed; the fuel bounds the number of elements still to be followed. -/
def closure {α : Type} [BEq α] (next : α → List α) : Nat → Nat → List α → List α
  | 0, _, seen => seen
  | fuel + 1, done, seen =>
    match seen[done]? with
    | none => seen
    | some x => closure next fuel (done + 1) (appendNew seen (next x))

end JvmTaint
