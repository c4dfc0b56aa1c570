import JvmTaint.Taint.Rule

set_option autoImplicit false
set_option relaxedAutoImplicit false

/-!
# Rule sets

The rules of a taint problem, in the order in which they are declared.

## Main definitions

* `JvmTaint.RuleSet`: a rule set; `RuleSet.ofSpec` reads it and `RuleSet.with?` adds a rule.
* `JvmTaint.RuleSet.matchCall`, `JvmTaint.RuleSet.matchField`, `JvmTaint.RuleSet.matchEntry`: the
  rules about a call, a field access and an entry method.
* `JvmTaint.RuleSet.isFiltered`: the calls that are never analyzed.
-/

namespace JvmTaint

/-- The rules of a problem. -/
structure RuleSet where
  name : String := ""
  rules : List Rule := []
  filters : List CodeMatcher := []
  /-- The rule of null dereferences, if they are reported. -/
  dereference : Option Rule := none
  deriving Repr, Inhabited

/-- Why a problem has no rule set. -/
inductive RuleSetError where
  /-- Nothing could be reported. -/
  | empty (problem : String)
  | rule (problem : String) (kind : RuleKind) (id : CodeIdentifier) (e : RuleError)
  deriving DecidableEq, Repr

/-- The message of an error. -/
def RuleSetError.message : RuleSetError → String
  | empty problem =>
    "empty rule set: problem " ++ Text.quote problem ++ " needs sources and sinks"
  | rule problem kind id e =>
    "problem " ++ Text.quote problem ++ ": " ++ kind.name ++ " rule " ++ id.render ++ ": " ++
      e.message

namespace RuleSet

/-- The rules of a problem with their roles, in the order in which they are declared. -/
def specsOf (p : ProblemSpec) : List (RuleKind × RuleSpec) :=
  p.sources.map (.source, ·) ++ p.sinks.map (.sink, ·) ++ p.sanitizers.map (.sanitizer, ·) ++
    p.passThroughs.map (.passThrough, ·) ++ p.entryPoints.map (.entryPoint, ·)

/-- The rule that reports null dereferences. -/
def dereferenceRule (index : Nat) : Rule :=
  { kind := .dereference, matcher := ⟨{}, none⟩, mark := nullMark, cwe := [476],
    note := "null pointer dereference", index }

/-- Reads the rules of a problem. A problem without sinks, or with neither sources nor entry points,
is refused unless it reports null dereferences. -/
def ofSpec (p : ProblemSpec) : Except RuleSetError RuleSet := do
  if !p.nullDereference && (p.sinks.isEmpty || (p.sources.isEmpty && p.entryPoints.isEmpty)) then
    throw (.empty p.name)
  let rules ← (specsOf p).zipIdx.mapM fun ((kind, s), i) =>
    (Rule.ofSpec kind s i).mapError (.rule p.name kind s.id)
  return {
    name := p.name, rules, filters := p.filters.map (·.matcher)
    dereference := if p.nullDereference then some (dereferenceRule rules.length) else none }

/-- The rule set with another rule at its end. -/
def with? (rs : RuleSet) (kind : RuleKind) (s : RuleSpec) : Except RuleError RuleSet := do
  let r ← Rule.ofSpec kind s rs.rules.length
  return { rs with rules := rs.rules ++ [r] }

/-- The rules with a role. -/
def ofKind (rs : RuleSet) (kind : RuleKind) : List Rule := rs.rules.filter (·.kind == kind)

/-- Whether nothing can be reported. -/
def isEmpty (rs : RuleSet) : Bool := rs.rules.isEmpty && rs.dereference.isNone

/-- The rules about a call. -/
def matchCall (rs : RuleSet) (c : Call) : List Rule :=
  rs.rules.filter fun r => r.kind != .entryPoint && r.matchesCall c

/-- The rules about a field access. -/
def matchField (rs : RuleSet) (f : FieldRef) : List Rule := rs.rules.filter (·.matchesField f)

/-- The entry point rules about a method. -/
def matchEntry (rs : RuleSet) (ref : MethodRef) : List Rule :=
  rs.rules.filter fun r => r.kind == .entryPoint && r.matcher.selects (.ofMethod ref)

/-- Whether calls of a method are never analyzed. -/
def isFiltered (rs : RuleSet) (ref : MethodRef) : Bool := rs.filters.any (·.admits (.ofMethod ref))

end RuleSet

end JvmTaint
