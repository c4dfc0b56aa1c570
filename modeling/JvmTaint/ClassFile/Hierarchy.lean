import JvmTaint.ClassFile.ClassTable
import JvmTaint.Graph.Closure
import JvmTaint.Sum

set_option autoImplicit false
set_option relaxedAutoImplicit false

/-!
# The type hierarchy

Transitive supertypes and subtypes of the classes of a table. Supertypes are followed upwards
through the declarations, subtypes downwards through the table's index of direct subtypes.

## Main definitions

* `JvmTaint.ClassTable.transitiveSupertypes`, `JvmTaint.ClassTable.transitiveSubtypes`: the
  transitive neighbours of a class.
* `JvmTaint.ClassTable.isSubtype`, `JvmTaint.ClassTable.concreteSubtypes`.
* `JvmTaint.ClassTable.superclassChain`: a class and its superclasses.
-/

namespace JvmTaint

namespace ClassTable

/-- Whether the class is declared, or named as a supertype by a declared class. -/
def knows (t : ClassTable) (cls : String) : Bool := (t.typeEntry? cls).isSome

/-- Whether the class is a declared interface. -/
def isInterface (t : ClassTable) (cls : String) : Bool :=
  match t.typeEntry? cls with
  | some e => e.modifiers.has .interface
  | none => false

/-- The direct supertypes of a class. -/
def directSupertypes (t : ClassTable) (cls : String) : List String :=
  match t.typeEntry? cls with
  | some e => e.supertypes
  | none => []

/-- More than the number of names that declarations of the table mention. -/
def nameBound (t : ClassTable) : Nat :=
  sumOf (t.order.map fun n => 2 + (t.directSupertypes n).length) + 1

/-- The transitive supertypes of a class, without the class itself, the nearest first. -/
def transitiveSupertypes (t : ClassTable) (cls : String) : List String :=
  (closure t.directSupertypes t.nameBound 0 [cls]).drop 1

/-- The transitive subtypes of a class, without the class itself, sorted. -/
def transitiveSubtypes (t : ClassTable) (cls : String) : List String :=
  ((closure t.directSubtypes t.nameBound 0 [cls]).drop 1).mergeSort (· ≤ ·)

/-- Whether `super` is `sub` or one of its transitive supertypes. Every class is a subtype of the
root class. -/
def isSubtype (t : ClassTable) (sub super : String) : Bool :=
  sub == super || super == javaLangObject || (t.transitiveSupertypes sub).contains super

/-- Whether a class can have instances: it is neither abstract nor an interface, and its superclass
is known unless it is the root. -/
def isConcrete (t : ClassTable) (cls : String) : Bool :=
  match t.typeEntry? cls with
  | none => false
  | some e =>
    e.cls != "" && !e.modifiers.has .abstract && !e.modifiers.has .interface &&
      (e.super != "" || cls == javaLangObject)

/-- The class and its transitive subtypes that can have instances, sorted. -/
def concreteSubtypes (t : ClassTable) (cls : String) : List String :=
  ((cls :: t.transitiveSubtypes cls).filter t.isConcrete).mergeSort (· ≤ ·)

/-- The class and its superclasses, up to the last one that is not known. The fuel bounds the length
of the chain. -/
def chainFrom (t : ClassTable) : Nat → String → List String
  | 0, _ => []
  | fuel + 1, cls =>
    if cls = "" then []
    else cls ::
      match t.typeEntry? cls with
      | none => []
      | some e => chainFrom t fuel e.super

/-- The class and its superclasses. -/
def superclassChain (t : ClassTable) (cls : String) : List String :=
  t.chainFrom (t.order.length + 2) cls

end ClassTable

end JvmTaint
