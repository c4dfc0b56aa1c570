import JvmTaint.Calls.CallGraph

set_option autoImplicit false
set_option relaxedAutoImplicit false

/-!
# Memos and the type hierarchy

A memo keeps the answers to questions about a program, so that each of them is computed once. The
neighbours of classes are kept, and their transitive supertypes and subtypes. The searches for these
ask for the neighbours of one class after the other.

## Main definitions

* `JvmTaint.Memo`: the answers that are kept, with a record of the work done.
* `JvmTaint.Memo.memoized`: an answer that is kept, or is computed and kept.
* `JvmTaint.closureM`: closure under successors that are asked for.
* `JvmTaint.Memo.entryOf`: the neighbours of a class.
* `JvmTaint.Memo.supertypes`, `JvmTaint.Memo.subtypes`, `JvmTaint.Memo.isSubtype`,
  `JvmTaint.Memo.concreteSubtypes`: questions about the type hierarchy.
-/

namespace JvmTaint

/-- The answers that are kept. -/
structure Memo where
  /-- The neighbours of classes; `none` for classes that are not known. -/
  types : Std.HashMap String (Option TypeEntry) := ∅
  /-- The transitive supertypes of classes. -/
  supers : Std.HashMap String (List String) := ∅
  /-- The transitive subtypes of the classes that have some. -/
  subs : Std.HashMap String (List String) := ∅
  /-- The targets of calls. -/
  resolutions : Std.HashMap CallKey (Except UnresolvedCall Resolution) := ∅
  /-- The flow graphs of methods. -/
  graphs : Std.HashMap MethodRef (Except GraphError FlowGraph) := ∅
  /-- The number of times the targets of a call were at hand. -/
  hits : Nat := 0
  /-- The number of times they were computed. -/
  misses : Nat := 0
  /-- The number of method bodies looked up. -/
  lookups : Nat := 0

/-- The elements reached from those of `seen` by following successors that are asked for. -/
def closureM {m : Type → Type} [Monad m] {α : Type} [BEq α] (next : α → m (List α)) :
    Nat → Nat → List α → m (List α)
  | 0, _, seen => return seen
  | fuel + 1, done, seen =>
    match seen[done]? with
    | none => return seen
    | some x => do
      let found ← next x
      closureM next fuel (done + 1) (appendNew seen found)

namespace Memo

/-- The answer that a table keeps for `key`. If there is none it is computed, and `keep` adds it. -/
def memoized {κ β : Type} [BEq κ] [Hashable κ] (table : Memo → Std.HashMap κ β)
    (keep : κ → β → Memo → Memo) (compute : κ → StateM Memo β) (key : κ) : StateM Memo β := do
  match (table (← get))[key]? with
  | some answer => return answer
  | none =>
    let answer ← compute key
    modify (keep key answer)
    return answer

variable (t : ClassTable)

/-- The neighbours of a class. -/
def entryOf : String → StateM Memo (Option TypeEntry) :=
  memoized types (fun cls e m => { m with types := m.types.insert cls e })
    fun cls => return t.typeEntry? cls

/-- Whether a class is known. -/
def knows (cls : String) : StateM Memo Bool := return (← entryOf t cls).isSome

/-- Whether a class is a declared interface. -/
def isInterface (cls : String) : StateM Memo Bool :=
  return (← entryOf t cls).any (·.modifiers.has .interface)

/-- The direct supertypes of a class. -/
def directSupertypes (cls : String) : StateM Memo (List String) :=
  return ((← entryOf t cls).map (·.supertypes)).getD []

/-- The direct subtypes of a class. -/
def directSubtypes (cls : String) : StateM Memo (List String) :=
  return ((← entryOf t cls).map (·.subtypes)).getD []

/-- The transitive supertypes of a class, without the class itself, the nearest first. -/
def supertypes : String → StateM Memo (List String) :=
  memoized supers (fun cls found m => { m with supers := m.supers.insert cls found }) fun cls => do
    let found ← closureM (directSupertypes t) t.nameBound 0 [cls]
    return found.drop 1

/-- The transitive subtypes of a class, without the class itself, sorted. That there are none is
found out each time. -/
def subtypes : String → StateM Memo (List String) :=
  memoized subs
    (fun cls found m => if found.isEmpty then m else { m with subs := m.subs.insert cls found })
    fun cls => do
      let found ← closureM (directSubtypes t) t.nameBound 0 [cls]
      return (found.drop 1).mergeSort (· ≤ ·)

/-- Whether `super` is `sub` or one of its transitive supertypes. -/
def isSubtype (sub super : String) : StateM Memo Bool :=
  if sub == super || super == javaLangObject then return true
  else return (← supertypes t sub).contains super

/-- Whether a class can have instances. -/
def isConcrete (cls : String) : StateM Memo Bool :=
  return (← entryOf t cls).any fun e =>
    e.cls != "" && !e.modifiers.has .abstract && !e.modifiers.has .interface &&
      (e.super != "" || cls == javaLangObject)

/-- The class and its transitive subtypes that can have instances, sorted. -/
def concreteSubtypes (cls : String) : StateM Memo (List String) := do
  let found ← (cls :: (← subtypes t cls)).filterM (isConcrete t)
  return found.mergeSort (· ≤ ·)

end Memo

end JvmTaint
