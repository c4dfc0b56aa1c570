import JvmTaint.ClassFile.MethodRef
import JvmTaint.Taint.AccessPath

set_option autoImplicit false
set_option relaxedAutoImplicit false

/-!
# Facts

What the taint analysis propagates: the zero fact, which holds wherever control can be, and tainted
access paths. A tainted path remembers the statement that generated the taint, and its mark, so the
same path tainted twice is two facts.

## Main definitions

* `JvmTaint.Site`: a statement, by its method and its position.
* `JvmTaint.Fact`: a fact.
-/

namespace JvmTaint

/-- A statement of the program. -/
structure Site where
  method : MethodRef
  index : Nat
  deriving DecidableEq, Hashable, Repr, Inhabited

/-- The text of a site. -/
def Site.render (s : Site) : String := s.method.render ++ "#" ++ toString s.index

/-- The order of sites: by method, then by position. -/
def Site.lt (s t : Site) : Bool :=
  s.method.lt t.method || (s.method == t.method && decide (s.index < t.index))

/-- A fact. -/
inductive Fact where
  /-- The fact that holds wherever control can be. -/
  | zero
  /-- The locations of `path` hold a value that `source` tainted with `mark`. -/
  | taint (path : AccessPath) (source : Site) (mark : String)
  deriving DecidableEq, Hashable, Repr, Inhabited

namespace Fact

/-- Whether this is the zero fact. -/
def isZero : Fact → Bool
  | zero => true
  | taint .. => false

/-- The path of a tainted path. -/
def path? : Fact → Option AccessPath
  | zero => none
  | taint path _ _ => some path

/-- The same taint on another path. -/
def withPath : Fact → AccessPath → Fact
  | zero, _ => zero
  | taint _ source mark, path => taint path source mark

/-- Whether the fact is about a variable or its fields. -/
def rootedAt : Fact → String → Bool
  | zero, _ => false
  | taint path _ _, name => path.rootedAt name

/-- The text of a fact. -/
def render : Fact → String
  | zero => "<0>"
  | taint path source mark =>
    path.render ++ " from " ++ source.render ++ (if mark.isEmpty then "" else " [" ++ mark ++ "]")

end Fact

end JvmTaint
