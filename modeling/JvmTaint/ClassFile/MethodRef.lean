import JvmTaint.ClassFile.FieldType

set_option autoImplicit false
set_option relaxedAutoImplicit false

/-!
# References to methods and fields

A method is named by its class, its name and its descriptor, written `Class.name(descriptor)`; a
field by its class, its name and its type.

## Main definitions

* `JvmTaint.Signature`: name and descriptor, which identify a method within a class.
* `JvmTaint.MethodRef`: a method, with `MethodRef.render`, `MethodRef.parse` and the order
  `MethodRef.lt` by class, name and descriptor.
* `JvmTaint.FieldRef`: a field.
-/

namespace JvmTaint

/-- A method within a class. -/
structure Signature where
  name : String
  descriptor : String
  deriving DecidableEq, Hashable, Repr, Inhabited

/-- The text of a signature. -/
def Signature.render (s : Signature) : String := s.name ++ s.descriptor

/-- A method: its class in internal form, its name and its descriptor. -/
structure MethodRef where
  cls : String
  name : String
  descriptor : String
  deriving DecidableEq, Hashable, Repr, Inhabited

/-- The method with a signature in a class. -/
def Signature.inClass (s : Signature) (cls : String) : MethodRef := ⟨cls, s.name, s.descriptor⟩

/-- Why a text names no method. -/
inductive MethodRefError where
  /-- The text has no opening parenthesis. -/
  | noDescriptor (text : String)
  /-- The class or the name is missing. -/
  | wrongForm (text : String)
  /-- The descriptor cannot be read. -/
  | badDescriptor (descriptor : String) (cause : DescriptorError)
  deriving DecidableEq, Repr

/-- The message of an error. -/
def MethodRefError.message : MethodRefError → String
  | noDescriptor s => "method reference " ++ Text.quote s ++ " has no descriptor"
  | wrongForm s =>
    "method reference " ++ Text.quote s ++ " should be of the form Class.name(descriptor)"
  | badDescriptor d e => e.message d

namespace MethodRef

/-- The name and the descriptor of a method. -/
def signature (m : MethodRef) : Signature := ⟨m.name, m.descriptor⟩

/-- Whether the method initializes an instance. -/
def isConstructor (m : MethodRef) : Bool := m.name == "<init>"

/-- Whether the method initializes a class. -/
def isStaticInitializer (m : MethodRef) : Bool := m.name == "<clinit>"

/-- The text `Class.name(descriptor)`. -/
def render (m : MethodRef) : String := m.cls ++ "." ++ m.name ++ m.descriptor

/-- The order by class, name and descriptor. -/
def lt (m o : MethodRef) : Bool :=
  if m.cls ≠ o.cls then m.cls < o.cls
  else if m.name ≠ o.name then m.name < o.name
  else m.descriptor < o.descriptor

/-- The weak order of `lt`, for sorting. -/
def le (m o : MethodRef) : Bool := !o.lt m

/-- Splits a list at the last element equal to `x`. -/
def splitLast? (x : Char) (cs : List Char) : Option (List Char × List Char) :=
  match cs.reverse.dropWhile (· ≠ x) with
  | [] => none
  | _ :: before => some (before.reverse, (cs.reverse.takeWhile (· ≠ x)).reverse)

/-- Reads a method written `Class.name(descriptor)`: the descriptor starts at the first
parenthesis, and the last dot before it ends the class. -/
def parse (s : String) : Except MethodRefError MethodRef :=
  let cs := s.toList
  match cs.dropWhile (· ≠ '(') with
  | [] => .error (.noDescriptor s)
  | descriptor =>
    match splitLast? '.' (cs.takeWhile (· ≠ '(')) with
    | some (c :: cls, n :: name) =>
      match MethodDescriptor.parseChars descriptor with
      | .error e => .error (.badDescriptor (String.ofList descriptor) e)
      | .ok _ =>
        .ok ⟨String.ofList (c :: cls), String.ofList (n :: name), String.ofList descriptor⟩
    | _ => .error (.wrongForm s)

end MethodRef

/-- A field: its class, its name and its type descriptor. -/
structure FieldRef where
  cls : String
  name : String
  descriptor : String
  deriving DecidableEq, Hashable, Repr, Inhabited

/-- The text `Class.name`. -/
def FieldRef.render (f : FieldRef) : String := f.cls ++ "." ++ f.name

end JvmTaint
