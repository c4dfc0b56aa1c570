import JvmTaint.Text.Split

set_option autoImplicit false
set_option relaxedAutoImplicit false

/-!
# Access paths

A variable or a static field followed by field selectors, `x.f.g`. The number of selectors is
bounded: a path that would grow over the bound keeps its first selectors and is marked truncated,
and then stands for every path that it begins.

## Main definitions

* `JvmTaint.AccessPath`: an access path; `AccessPath.ofVariable`, `AccessPath.ofStatic`.
* `JvmTaint.AccessPath.extend`, `JvmTaint.AccessPath.truncate`: growing and cutting within a bound.
* `JvmTaint.AccessPath.beginsWith`, `JvmTaint.AccessPath.subsumes`, `JvmTaint.AccessPath.mayAlias`:
  how two paths relate.
* `JvmTaint.AccessPath.substitute?`: a path moved from one root to another.
-/

namespace JvmTaint

/-- The selector of the elements of an array. -/
def arrayElement : String := "[]"

/-- An access path. -/
structure AccessPath where
  /-- The variable at the root, or the class of a static field. -/
  base : String := ""
  /-- The selectors. A selector is free of dots: a name with dots is as many selectors as it has
  parts. -/
  fields : List String := []
  /-- How often the path was extended, the field of a static path included. It is the number of
  selectors if no name had dots. -/
  depth : Int := 0
  /-- Whether the path starts with a static field. -/
  isStatic : Bool := false
  /-- Whether selectors were dropped from the path. -/
  truncated : Bool := false
  deriving DecidableEq, Hashable, Repr, Inhabited

namespace AccessPath

/-- The path of a variable. -/
def ofVariable (name : String) : AccessPath := { base := name }

/-- The path of a static field. -/
def ofStatic (owner field : String) : AccessPath :=
  { base := owner, fields := Text.split '.' field, depth := 1, isStatic := true }

/-- Whether a path has no root. -/
def isEmpty (p : AccessPath) : Bool := p.base == ""

/-- Whether a path starts at a variable. -/
def rootedAt (p : AccessPath) (name : String) : Bool := !p.isStatic && p.base == name

/-- The path `p.field`; a path that has `k` selectors already is truncated instead, and a truncated
path stays as it is. -/
def extend (p : AccessPath) (field : String) (k : Int) : AccessPath :=
  if p.truncated then p
  else if p.depth ≥ k then { p with truncated := true }
  else { p with fields := p.fields ++ Text.split '.' field, depth := p.depth + 1 }

/-- A path extended by some fields in turn. -/
def extendAll (p : AccessPath) (fields : List String) (k : Int) : AccessPath :=
  fields.foldl (fun p field => p.extend field k) p

/-- A path cut to at most `k` selectors. -/
def truncate (p : AccessPath) (k : Int) : AccessPath :=
  if p.depth ≤ k then p
  else { p with fields := p.fields.take k.toNat, depth := k, truncated := true }

/-- Whether the selectors of `q` begin those of `p` on the same root. A truncated `q` begins no
path longer than itself. -/
def beginsWith (p q : AccessPath) : Bool :=
  p.base == q.base && p.isStatic == q.isStatic && decide (q.depth ≤ p.depth) &&
    q.fields.isPrefixOf p.fields && (!q.truncated || (q.depth == p.depth && p.truncated))

/-- Whether `p` stands for every location that `q` stands for, and for more: `p` properly begins
`q`, or `p` is truncated and its selectors begin those of `q`. -/
def subsumes (p q : AccessPath) : Bool :=
  decide (p ≠ q) && q.beginsWith { p with truncated := false } &&
    (p.truncated || decide (p.depth < q.depth))

/-- Whether two paths may stand for overlapping locations. -/
def mayAlias (p q : AccessPath) : Bool :=
  decide (p = q) || p.beginsWith q || q.beginsWith p || p.subsumes q || q.subsumes p

/-- The path `p` moved from the root `source` to the root `target`: if `p` is `source.g.h` the
result is `target.g.h`, cut to `k` selectors. A truncated `p` that begins `source` may stand for it
and gives `target`, truncated. -/
def substitute? (p source target : AccessPath) (k : Int) : Option AccessPath :=
  if p.beginsWith source then
    let moved := target.extendAll (p.fields.drop source.fields.length) k
    some ({ moved with truncated := moved.truncated || p.truncated }.truncate k)
  else if p.truncated && p.subsumes source then
    some ({ target with truncated := true }.truncate k)
  else none

/-- The text of a path. A truncated path ends in `.*`. -/
def render (p : AccessPath) : String :=
  p.base ++ String.join (p.fields.map ("." ++ ·)) ++ (if p.truncated then ".*" else "")

end AccessPath

end JvmTaint
