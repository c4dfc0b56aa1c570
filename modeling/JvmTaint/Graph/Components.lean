import Std.Data.HashMap

set_option autoImplicit false
set_option relaxedAutoImplicit false

/-!
# Strongly connected components

Components of a graph given by a list of nodes and a successor function, by one depth-first search
with low links. A node is closed when its low link is its own index: the nodes above it on the
stack, and itself, are then one component. Components come out successors first.

## Main definitions

* `JvmTaint.Components.Search`: the state of the search.
* `JvmTaint.stronglyConnectedComponents`: the components, successors first.
* `JvmTaint.cyclicComponents`: the components with a cycle.
-/

namespace JvmTaint

namespace Components

/-- The state of a depth-first search. -/
structure Search (α : Type) [BEq α] [Hashable α] where
  /-- The order in which nodes were found. -/
  index : Std.HashMap α Nat := ∅
  /-- The smallest index known to be reached from a node within its component. -/
  low : Std.HashMap α Nat := ∅
  /-- The found nodes whose component is open, the last one first. -/
  stack : List α := []
  /-- The closed components, the last one first. -/
  closed : List (List α) := []

variable {α : Type} [BEq α] [Hashable α]

namespace Search

/-- Lowers the low link of a node. -/
def lower (s : Search α) (v : α) (n : Nat) : Search α :=
  { s with low := s.low.insert v (min (s.low.getD v n) n) }

/-- Finds a node. -/
def enter (s : Search α) (v : α) : Search α :=
  let n := s.index.size
  { s with index := s.index.insert v n, low := s.low.insert v n, stack := v :: s.stack }

/-- Closes the component of a node if the node is the first one found of it. -/
def leave (s : Search α) (v : α) : Search α :=
  if s.low[v]? == s.index[v]? then
    let above := s.stack.takeWhile (· != v)
    let below := s.stack.drop (above.length + 1)
    { s with stack := below, closed := (above ++ [v]) :: s.closed }
  else s

end Search

/-- Searches from a node that has not been found. The fuel bounds the depth of the search. -/
def visit (next : α → List α) : Nat → α → Search α → Search α
  | 0, _, s => s
  | fuel + 1, v, s =>
    let s := (next v).foldl
      (fun s w =>
        match s.index[w]? with
        | none =>
          let s := visit next fuel w s
          s.lower v (s.low.getD w s.index.size)
        | some n => if s.stack.contains w then s.lower v n else s)
      (s.enter v)
    s.leave v

end Components

variable {α : Type} [BEq α] [Hashable α]

/-- The strongly connected components of the nodes reached from a list, successors first. `bound` is
at least the number of these nodes. -/
def stronglyConnectedComponents (bound : Nat) (nodes : List α) (next : α → List α) :
    List (List α) :=
  (nodes.foldl
    (fun s v => if s.index.contains v then s else Components.visit next bound v s)
    ({} : Components.Search α)).closed.reverse

/-- The components with more than one node, and the nodes that are their own successor. -/
def cyclicComponents (bound : Nat) (nodes : List α) (next : α → List α) : List (List α) :=
  (stronglyConnectedComponents bound nodes next).filter fun
    | [v] => (next v).contains v
    | _ => true

end JvmTaint
