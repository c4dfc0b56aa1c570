import JvmTaint.Calls.CallGraph
import Std.Data.HashSet

set_option autoImplicit false
set_option relaxedAutoImplicit false

/-!
# Ledgers of work

Flow graphs and call resolutions are asked for many times and computed once. A ledger records what
has been asked for: which method graphs were built, which calls were resolved, how often an answer
was at hand, and how many method bodies were looked up.

## Main definitions

* `JvmTaint.Ledger`: what has been asked for.
* `JvmTaint.Ledger.request`, `JvmTaint.Ledger.resolve`: asking for a graph and for a resolution.
* `JvmTaint.Ledger.explore`: asking for all that a call graph needs.
-/

namespace JvmTaint

/-- What has been asked for. -/
structure Ledger where
  /-- The methods whose graph was asked for. -/
  built : Std.HashSet MethodRef := ∅
  /-- The calls that were resolved. -/
  resolved : Std.HashSet CallKey := ∅
  /-- The number of times a resolution was at hand. -/
  hits : Nat := 0
  /-- The number of resolutions computed. -/
  misses : Nat := 0
  /-- The number of method bodies looked up. -/
  lookups : Nat := 0

namespace Ledger

/-- Asks for the flow graph of a method. -/
def request (l : Ledger) (ref : MethodRef) : Ledger :=
  if l.built.contains ref then l
  else { l with built := l.built.insert ref, lookups := l.lookups + 1 }

/-- Asks for the resolution of a call. -/
def resolve (t : ClassTable) (l : Ledger) (k : CallKey) : Ledger :=
  if l.resolved.contains k then { l with hits := l.hits + 1 }
  else
    { l with
      resolved := l.resolved.insert k
      misses := l.misses + 1
      lookups := l.lookups + t.resolveLookups k }

/-- Asks for the graph of a method and for the resolutions of all its calls. -/
def exploreMethod (c : CodeBase) (l : Ledger) (ref : MethodRef) : Ledger :=
  match c.graph ref with
  | .ok g => (g.calls.map (·.1.key)).foldl (resolve c.table) (l.request ref)
  | .error _ => l.request ref

/-- Asks for all that a call graph needs. -/
def explore (c : CodeBase) (l : Ledger) (g : CallGraph) : Ledger :=
  g.methods.foldl (exploreMethod c) l

/-- The methods asked for that have no flow graph, sorted. -/
def failures (c : CodeBase) (l : Ledger) : List MethodRef :=
  (l.built.toList.filter fun ref =>
    match c.graph ref with
    | .ok _ => false
    | .error _ => true).mergeSort MethodRef.le

end Ledger

end JvmTaint
