import JvmTaint.ClassFile.MethodRef
import JvmTaint.Pattern.Reader

set_option autoImplicit false
set_option relaxedAutoImplicit false

/-!
# Code identifiers

A code identifier names methods or fields by class, method, descriptor and field. An empty part is
left open. The parts other than the descriptor are patterns if all of them can be read as patterns,
and literal names otherwise.

## Main definitions

* `JvmTaint.CodeIdentifier`: a code identifier, or the names of one method or field.
* `JvmTaint.CodeMatcher`: a code identifier with its patterns, made by `CodeIdentifier.matcher`.
* `JvmTaint.CodeMatcher.admits`, `JvmTaint.CodeMatcher.selects`: whether names fit.
-/

namespace JvmTaint

/-- A code identifier. -/
structure CodeIdentifier where
  cls : String := ""
  method : String := ""
  descriptor : String := ""
  field : String := ""
  deriving DecidableEq, Repr, Inhabited

namespace CodeIdentifier

/-- The names of a method. -/
def ofMethod (ref : MethodRef) : CodeIdentifier :=
  { cls := ref.cls, method := ref.name, descriptor := ref.descriptor }

/-- The names of a field. -/
def ofField (ref : FieldRef) : CodeIdentifier := { cls := ref.cls, field := ref.name }

/-- The text of a code identifier: its parts that are not empty. -/
def render (i : CodeIdentifier) : String :=
  let part (key value : String) : List String := if value.isEmpty then [] else [key ++ value]
  "\x7b" ++ " ".intercalate (part "class:" i.cls ++ part "method:" i.method ++
    part "descriptor:" i.descriptor ++ part "field:" i.field) ++ "\x7d"

end CodeIdentifier

/-- The patterns of a code identifier. -/
structure CodePatterns where
  cls : Pattern
  method : Pattern
  field : Pattern
  deriving Repr, Inhabited

/-- A code identifier with its patterns; without patterns its parts are literal. -/
structure CodeMatcher where
  id : CodeIdentifier
  patterns : Option CodePatterns
  deriving Repr, Inhabited

/-- The pattern of a part, which has to match a whole name. -/
def Pattern.whole? (part : String) : Option Pattern :=
  (Pattern.parse ("^(?:" ++ part ++ ")$")).toOption

/-- Reads the patterns of a code identifier. -/
def CodeIdentifier.matcher (i : CodeIdentifier) : CodeMatcher where
  id := i
  patterns := do
    return { cls := ← Pattern.whole? i.cls, method := ← Pattern.whole? i.method,
             field := ← Pattern.whole? i.field }

namespace CodeMatcher

/-- Whether every part that is not open fits the corresponding name. -/
def admits (m : CodeMatcher) (names : CodeIdentifier) : Bool :=
  let fits (part : String) (pattern : Option Pattern) (name : String) : Bool :=
    part == "" || match pattern with
      | some p => p.found name
      | none => part == name
  fits m.id.descriptor none names.descriptor &&
    fits m.id.cls (m.patterns.map (·.cls)) names.cls &&
    fits m.id.method (m.patterns.map (·.method)) names.method &&
    fits m.id.field (m.patterns.map (·.field)) names.field

/-- Whether the names fit and are of the same sort: an identifier of fields selects fields only, and
one of methods selects methods only. -/
def selects (m : CodeMatcher) (names : CodeIdentifier) : Bool :=
  (m.id.field == "") == (names.field == "") && m.admits names

end CodeMatcher

end JvmTaint
