import JvmTaint.ClassFile.Instruction

set_option autoImplicit false
set_option relaxedAutoImplicit false

/-!
# Programs

A program file: classes with their methods, as declared. The records keep what a file can say: a
list may be left out, which is not the same as an empty list, and an entry of the lists of classes
and methods may be null.

## Main definitions

* `JvmTaint.MethodDecl`, `JvmTaint.ClassDecl`, `JvmTaint.Program`: the declarations of a file.
* `JvmTaint.javaLangObject`, `JvmTaint.javaLangThrowable`: classes that every program knows.
-/

namespace JvmTaint

/-- The root of the class hierarchy. -/
def javaLangObject : String := "java/lang/Object"

/-- The root of the exceptions. -/
def javaLangThrowable : String := "java/lang/Throwable"

/-- The declaration of a method. -/
structure MethodDecl where
  name : String := ""
  descriptor : String := ""
  flags : AccessFlags := .empty
  maxLocals : Int := 0
  /-- The code, `none` if the file gives none. -/
  code : Option (List Instruction) := none
  handlers : List HandlerEntry := []
  resources : List ResourceScope := []
  deriving DecidableEq, Repr, Inhabited

/-- The declaration of a class. -/
structure ClassDecl where
  name : String := ""
  super : String := ""
  interfaces : List String := []
  flags : AccessFlags := .empty
  methods : List (Option MethodDecl) := []
  deriving DecidableEq, Repr, Inhabited

/-- A program: a list of classes, `none` if the file gives none. -/
structure Program where
  classes : Option (List (Option ClassDecl)) := none
  deriving DecidableEq, Repr, Inhabited

end JvmTaint
