import JvmTaint.Lowering.CodeBase
import JvmTaint.Sum

set_option autoImplicit false
set_option relaxedAutoImplicit false

/-!
# Call resolution

The possible targets of a call by the class hierarchy. A static or special call goes to the nearest
declaration in the superclasses of the named class. A virtual or interface call goes, for every
class that the receiver can have, to the nearest implementation in its superclasses or else in its
interfaces.

## Main definitions

* `JvmTaint.CallKey`: what the resolution of a call depends on.
* `JvmTaint.ClassTable.select?`: the method that a class uses for a signature.
* `JvmTaint.Resolution`, `JvmTaint.ClassTable.resolve`: the targets of a call.
* `JvmTaint.ClassTable.resolveLookups`: the number of body lookups that a resolution takes.
-/

namespace JvmTaint

/-- What the resolution of a call depends on. -/
structure CallKey where
  kind : InvokeKind
  target : MethodRef
  deriving DecidableEq, Hashable, Repr, Inhabited

/-- The key of a call. -/
def Call.key (c : Call) : CallKey := ⟨c.kind, c.target⟩

/-- How the targets of a call were determined. -/
inductive Dispatch where
  /-- There is one possible target. -/
  | exact
  /-- The target is one of the implementations visible from the named class. -/
  | hierarchy
  deriving DecidableEq, Repr, Inhabited

/-- The name of a way to determine targets. -/
def Dispatch.name : Dispatch → String
  | exact => "exact"
  | hierarchy => "hierarchy"

/-- The possible targets of a call, sorted. -/
structure Resolution where
  callees : List MethodRef
  dispatch : Dispatch
  deriving DecidableEq, Repr, Inhabited

/-- A call without a possible target. -/
structure UnresolvedCall where
  key : CallKey
  deriving DecidableEq, Repr

/-- The message about a call without a target. -/
def UnresolvedCall.message (u : UnresolvedCall) : String :=
  "unresolved callee: " ++ u.key.kind.name ++ " " ++ u.key.target.render

namespace ClassTable

/-- Whether a class declares a method that is not abstract. -/
def implements (t : ClassTable) (sig : Signature) (cls : String) : Bool :=
  match t.body (sig.inClass cls) with
  | .ok body => !body.modifiers.has .abstract
  | .error _ => false

/-- Whether a class declares a method. -/
def declares (t : ClassTable) (sig : Signature) (cls : String) : Bool :=
  match t.body (sig.inClass cls) with
  | .ok _ => true
  | .error _ => false

/-- Where an implementation for a class is looked for: in the class and its superclasses, then in
its interfaces. -/
def implementationOrder (t : ClassTable) (cls : String) : List String :=
  t.superclassChain cls ++ (t.transitiveSupertypes cls).filter t.isInterface

/-- The implementation that a class uses for a signature. -/
def select? (t : ClassTable) (sig : Signature) (cls : String) : Option MethodRef :=
  ((t.implementationOrder cls).find? (t.implements sig)).map sig.inClass

/-- The nearest declaration in a class and its superclasses. -/
def nearest? (t : ClassTable) (sig : Signature) (cls : String) : Option MethodRef :=
  ((t.superclassChain cls).find? (t.declares sig)).map sig.inClass

/-- The implementations that the possible receivers of a call use; for a class without any, the one
that the class itself would use. -/
def implementations (t : ClassTable) (sig : Signature) (cls : String) : List MethodRef :=
  match (t.concreteSubtypes cls).filterMap (t.select? sig) with
  | [] => (t.select? sig cls).toList
  | refs => refs.eraseDups

/-- The possible targets of a call. -/
def resolve (t : ClassTable) (k : CallKey) : Except UnresolvedCall Resolution :=
  let sig := k.target.signature
  match k.kind with
  | .static | .special =>
    match t.nearest? sig k.target.cls with
    | some ref => .ok ⟨[ref], .exact⟩
    | none => .error ⟨k⟩
  | .virtual | .interface =>
    match (t.implementations sig k.target.cls).mergeSort MethodRef.le with
    | [] => .error ⟨k⟩
    | [ref] =>
      .ok ⟨[ref], if (t.transitiveSubtypes k.target.cls).isEmpty then .exact else .hierarchy⟩
    | refs => .ok ⟨refs, .hierarchy⟩
  | .dynamic => .error ⟨k⟩

/-! ## Cost -/

/-- The number of elements of a list up to the first one with a property. -/
def searchLength {α : Type} (p : α → Bool) (l : List α) : Nat := min (l.findIdx p + 1) l.length

/-- The number of body lookups that a resolution takes. -/
def resolveLookups (t : ClassTable) (k : CallKey) : Nat :=
  let sig := k.target.signature
  let selection (cls : String) : Nat :=
    searchLength (t.implements sig) (t.implementationOrder cls)
  match k.kind with
  | .static | .special => searchLength (t.declares sig) (t.superclassChain k.target.cls)
  | .virtual | .interface =>
    let concrete := t.concreteSubtypes k.target.cls
    sumOf (concrete.map selection) +
      (if (concrete.filterMap (t.select? sig)).isEmpty then selection k.target.cls else 0)
  | .dynamic => 0

end ClassTable

end JvmTaint
