import JvmTaint.ClassFile.Program
import Std.Data.HashMap

set_option autoImplicit false
set_option relaxedAutoImplicit false

/-!
# Class tables

The classes and methods of a program, checked and ready to be looked up. A class without a
superclass extends the root class unless it is the root or an interface, methods of interfaces
without code are abstract, and instructions are in general form.

## Main definitions

* `JvmTaint.ProgramError`: why a program has no table.
* `JvmTaint.ClassTable`: the table, made by `ClassTable.ofProgram`.
* `JvmTaint.ClassTable.body`: the body of a method declared in a class.
* `JvmTaint.TypeEntry`, `JvmTaint.ClassTable.typeEntry?`: the direct neighbours of a class in the
  type hierarchy.
-/

namespace JvmTaint

/-- Why a program has no class table. -/
inductive ProgramError where
  | unnamedClass
  | duplicateClass (name : String)
  | badMethod (ref : MethodRef) (cause : DescriptorError)
  | duplicateMethod (ref : MethodRef)
  /-- An entry of the list of classes or of methods is null. -/
  | nullEntry
  deriving DecidableEq, Repr

/-- The message of an error. -/
def ProgramError.message : ProgramError → String
  | unnamedClass => "class without a name"
  | duplicateClass name => "class " ++ name ++ " is declared twice"
  | badMethod ref e => "method " ++ ref.render ++ ": " ++ e.message ref.descriptor
  | duplicateMethod ref => "method " ++ ref.render ++ " is declared twice"
  | nullEntry => "null entry"

/-- The neighbours of a class in the type hierarchy. -/
structure TypeEntry where
  cls : String
  modifiers : AccessFlags
  super : String
  interfaces : List String
  /-- The direct subclasses and subinterfaces, and the direct implementations of an interface. -/
  subtypes : List String
  deriving Inhabited

/-- The direct supertypes: the superclass first, then the interfaces. -/
def TypeEntry.supertypes (e : TypeEntry) : List String :=
  (if e.super = "" then [] else [e.super]) ++ e.interfaces

/-- The classes and methods of a program. -/
structure ClassTable where
  /-- The declared classes, by name. -/
  classes : Std.HashMap String ClassDecl
  /-- The names of the declared classes, in the order of declaration. -/
  order : List String
  /-- The bodies of the declared methods. -/
  bodies : Std.HashMap MethodRef MethodBody
  /-- The direct subtypes of a class, one for every declaration that names it, sorted. -/
  subtypes : Std.HashMap String (List String)

namespace ClassTable

/-- The table of no classes. -/
def empty : ClassTable := ⟨∅, [], ∅, ∅⟩

/-- Inserts a name into a sorted list of names. -/
def insertName (name : String) : List String → List String
  | [] => [name]
  | n :: ns => if name ≤ n then name :: n :: ns else n :: insertName name ns

/-- The superclass of a declared class. -/
def superclassOf (c : ClassDecl) : String :=
  if c.super = "" ∧ c.name ≠ javaLangObject ∧ ¬ c.flags.has .interface then javaLangObject
  else c.super

/-- The body of a method of a class. -/
def bodyOf (c : ClassDecl) (m : MethodDecl) : MethodBody where
  ref := ⟨c.name, m.name, m.descriptor⟩
  modifiers :=
    if c.flags.has .interface && (m.code.getD []).isEmpty && !m.flags.has .static then
      m.flags.insert .abstract
    else m.flags
  maxLocals := m.maxLocals
  code := (m.code.getD []).map Instruction.normalize
  handlers := m.handlers
  resources := m.resources

/-- Adds a method of a class. -/
def addMethod (c : ClassDecl) (t : ClassTable) (m : Option MethodDecl) :
    Except ProgramError ClassTable :=
  match m with
  | none => .error .nullEntry
  | some m =>
    let body := bodyOf c m
    match MethodDescriptor.parse m.descriptor with
    | .error e => .error (.badMethod body.ref e)
    | .ok _ =>
      if t.bodies.contains body.ref then .error (.duplicateMethod body.ref)
      else .ok { t with bodies := t.bodies.insert body.ref body }

/-- Records that a class names a supertype. -/
def addSubtype (name : String) (t : ClassTable) (super : String) : ClassTable :=
  if super = "" then t
  else { t with subtypes := t.subtypes.insert super (insertName name (t.subtypes.getD super [])) }

/-- Adds a class with its methods. -/
def addClass (t : ClassTable) (c : Option ClassDecl) : Except ProgramError ClassTable :=
  match c with
  | none => .error .nullEntry
  | some c =>
    if c.name = "" then .error .unnamedClass
    else if t.classes.contains c.name then .error (.duplicateClass c.name)
    else
      let c := { c with super := superclassOf c }
      let t := { t with classes := t.classes.insert c.name c, order := t.order ++ [c.name] }
      let t := (c.super :: c.interfaces).foldl (addSubtype c.name) t
      c.methods.foldlM (addMethod c) t

/-- The table of a program. -/
def ofProgram (p : Program) : Except ProgramError ClassTable :=
  (p.classes.getD []).foldlM addClass empty

/-- The names of the declared classes, sorted. -/
def classNames (t : ClassTable) : List String := t.order.mergeSort (· ≤ ·)

/-- The declared methods, sorted. -/
def methods (t : ClassTable) : List MethodRef := t.bodies.keys.mergeSort MethodRef.le

/-- The direct subtypes of a class, sorted. -/
def directSubtypes (t : ClassTable) (cls : String) : List String := t.subtypes.getD cls []

/-- The neighbours of a class. A class that is not declared is known if some declared class names it
as a supertype. -/
def typeEntry? (t : ClassTable) (cls : String) : Option TypeEntry :=
  match t.classes[cls]? with
  | some c => some ⟨cls, c.flags, c.super, c.interfaces, t.directSubtypes cls⟩
  | none =>
    match t.directSubtypes cls with
    | [] => none
    | subs => some ⟨cls, .empty, "", [], subs⟩

end ClassTable

/-- A program in which each class names its superclass. -/
def Program.withSuperclasses (p : Program) : Program :=
  { p with classes := p.classes.map fun cs => cs.map fun c => c.map fun c =>
      { c with super := ClassTable.superclassOf c } }

/-- Why a method has no body in a table. -/
inductive LookupError where
  | classNotFound (cls : String)
  | methodNotFound (ref : MethodRef)
  deriving DecidableEq, Repr

/-- The message of a failed lookup. -/
def LookupError.message : LookupError → String
  | classNotFound cls => "class not found: " ++ cls
  | methodNotFound ref => "method not found: " ++ ref.render

/-- The body of the method that a class itself declares. -/
def ClassTable.body (t : ClassTable) (ref : MethodRef) : Except LookupError MethodBody :=
  if t.classes.contains ref.cls then
    match t.bodies[ref]? with
    | some b => .ok b
    | none => .error (.methodNotFound ref)
  else .error (.classNotFound ref.cls)

end JvmTaint
