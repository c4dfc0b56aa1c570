import JvmTaint.Memo.Types

set_option autoImplicit false
set_option relaxedAutoImplicit false

/-!
# Memos of call resolutions

The targets of calls are kept. To find them, the superclasses and the interfaces of classes are
searched for a method one after the other, until one of them has it.

## Main definitions

* `JvmTaint.Memo.searchChain`, `JvmTaint.Memo.searchInterfaces`: the search for a method.
* `JvmTaint.Memo.select?`, `JvmTaint.Memo.nearest?`: the method that a class uses.
* `JvmTaint.Memo.resolve`: the targets of a call.
-/

namespace JvmTaint

namespace Memo

/-- Looks up the body of a method in a class, to see whether the class is accepted. -/
def lookup (accepts : String → Bool) (cls : String) : StateM Memo Bool := do
  modify fun m => { m with lookups := m.lookups + 1 }
  return accepts cls

variable (t : ClassTable)

/-- The first class that is accepted among a class and its superclasses. The fuel bounds the number
of classes. -/
def searchChain (accepts : String → Bool) : Nat → String → StateM Memo (Option String)
  | 0, _ => return none
  | fuel + 1, cls =>
    if cls = "" then return none
    else do
      if ← lookup accepts cls then return some cls
      else
        match ← entryOf t cls with
        | none => return none
        | some e => searchChain accepts fuel e.super

/-- The first interface that is accepted. -/
def searchInterfaces (accepts : String → Bool) : List String → StateM Memo (Option String)
  | [] => return none
  | cls :: rest => do
    if ← isInterface t cls then
      if ← lookup accepts cls then return some cls
      else searchInterfaces accepts rest
    else searchInterfaces accepts rest

/-- The nearest declaration in a class and its superclasses. -/
def nearest? (sig : Signature) (cls : String) : StateM Memo (Option MethodRef) := do
  let found ← searchChain t (t.declares sig) (t.order.length + 2) cls
  return found.map sig.inClass

/-- The implementation that a class uses for a signature. -/
def select? (sig : Signature) (cls : String) : StateM Memo (Option MethodRef) := do
  match ← searchChain t (t.implements sig) (t.order.length + 2) cls with
  | some found => return some (sig.inClass found)
  | none =>
    let found ← searchInterfaces t (t.implements sig) (← supertypes t cls)
    return found.map sig.inClass

/-- The implementations that the possible receivers of a call use; for a class without any, the one
that the class itself would use. -/
def implementations (sig : Signature) (cls : String) : StateM Memo (List MethodRef) := do
  let selected ← (← concreteSubtypes t cls).mapM (select? t sig)
  match selected.reduceOption with
  | [] => return (← select? t sig cls).toList
  | refs => return refs.eraseDups

/-- Searches for the possible targets of a call. -/
def searchTargets (k : CallKey) : StateM Memo (Except UnresolvedCall Resolution) := do
  let sig := k.target.signature
  match k.kind with
  | .static | .special =>
    match ← nearest? t sig k.target.cls with
    | some ref => return .ok ⟨[ref], .exact⟩
    | none => return .error ⟨k⟩
  | .virtual | .interface =>
    match (← implementations t sig k.target.cls).mergeSort MethodRef.le with
    | [] => return .error ⟨k⟩
    | [ref] =>
      let others ← subtypes t k.target.cls
      return .ok ⟨[ref], if others.isEmpty then .exact else .hierarchy⟩
    | refs => return .ok ⟨refs, .hierarchy⟩
  | .dynamic => return .error ⟨k⟩

/-- The possible targets of a call. -/
def resolve (k : CallKey) : StateM Memo (Except UnresolvedCall Resolution) := do
  modify fun m =>
    if m.resolutions.contains k then { m with hits := m.hits + 1 }
    else { m with misses := m.misses + 1 }
  memoized resolutions (fun k r m => { m with resolutions := m.resolutions.insert k r })
    (searchTargets t) k

end Memo

end JvmTaint
