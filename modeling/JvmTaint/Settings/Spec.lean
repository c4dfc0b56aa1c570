import JvmTaint.Document.Decoder
import JvmTaint.Settings.CodeIdentifier

set_option autoImplicit false
set_option relaxedAutoImplicit false

/-!
# Problem specifications

The rules of a taint problem as they are written in settings.

## Main definitions

* `JvmTaint.ConditionSpec`, `JvmTaint.RuleSpec`, `JvmTaint.ProblemSpec`: a condition, a rule and a
  problem, with their decoders.
-/

namespace JvmTaint

open Decoder

/-- A condition on the operands of a call. -/
structure ConditionSpec where
  /-- The position that has to be a constant. -/
  isConstant : String := ""
  /-- The pattern that the constant has to match. -/
  constantMatches : String := ""
  /-- The position, if `isConstant` gives none. -/
  position : String := ""
  /-- Whether the condition is negated. -/
  negated : Bool := false
  deriving DecidableEq, Repr, Inhabited

/-- A rule: a code identifier with the positions that it is about. -/
structure RuleSpec where
  id : CodeIdentifier := {}
  positions : List String := []
  /-- The positions that a pass-through takes taint from. -/
  sources : List String := []
  /-- The positions that a pass-through gives taint to. -/
  targets : List String := []
  mark : String := ""
  cwe : List Int := []
  note : String := ""
  conditions : List ConditionSpec := []
  deriving DecidableEq, Repr, Inhabited

/-- A taint problem. -/
structure ProblemSpec where
  name : String := ""
  sources : List RuleSpec := []
  sinks : List RuleSpec := []
  sanitizers : List RuleSpec := []
  passThroughs : List RuleSpec := []
  entryPoints : List RuleSpec := []
  /-- The methods that are never analyzed. -/
  filters : List CodeIdentifier := []
  /-- Whether dereferences of null are reported. -/
  nullDereference : Bool := false
  deriving DecidableEq, Repr, Inhabited

/-- The decoder of a part of a code identifier. -/
def CodeIdentifier.field? : String → Option (CodeIdentifier → Document → Decoder CodeIdentifier)
  | "class" => setter string fun i v => { i with cls := v }
  | "method" => setter string fun i v => { i with method := v }
  | "descriptor" => setter string fun i v => { i with descriptor := v }
  | "field" => setter string fun i v => { i with field := v }
  | _ => none

/-- A code identifier. -/
def CodeIdentifier.decode : Document → Decoder (Option CodeIdentifier) :=
  record "config.CodeIdentifier" false {} CodeIdentifier.field?

/-- A list of code identifiers. -/
def CodeIdentifier.decodeList : Document → Decoder (Option (List CodeIdentifier)) :=
  list "[]config.CodeIdentifier" CodeIdentifier.decode

/-- A condition. -/
def ConditionSpec.decode : Document → Decoder (Option ConditionSpec) :=
  record "config.ConditionSpec" false {} fun
    | "is-constant" => setter string fun c v => { c with isConstant := v }
    | "constant-matches" => setter string fun c v => { c with constantMatches := v }
    | "position" => setter string fun c v => { c with position := v }
    | "not" => setter bool fun c v => { c with negated := v }
    | _ => none

/-- A list of texts. -/
def decodeStrings : Document → Decoder (Option (List String)) := list "[]string" string

/-- A rule. The parts of its code identifier stand beside its other keys. -/
def RuleSpec.decode : Document → Decoder (Option RuleSpec) :=
  record "config.RuleSpec" false {} fun
    | "positions" => setter decodeStrings fun r v => { r with positions := v }
    | "from" => setter decodeStrings fun r v => { r with sources := v }
    | "to" => setter decodeStrings fun r v => { r with targets := v }
    | "mark" => setter string fun r v => { r with mark := v }
    | "cwe" => setter (list "[]int" (int64 "int")) fun r v => { r with cwe := v }
    | "note" => setter string fun r v => { r with note := v }
    | "conditions" =>
      setter (list "[]config.ConditionSpec" ConditionSpec.decode)
        fun r v => { r with conditions := v }
    | key => (CodeIdentifier.field? key).map fun set r d => return { r with id := ← set r.id d }

/-- A list of rules. -/
def RuleSpec.decodeList : Document → Decoder (Option (List RuleSpec)) :=
  list "[]config.RuleSpec" RuleSpec.decode

/-- A problem. -/
def ProblemSpec.decode : Document → Decoder (Option ProblemSpec) :=
  record "config.TaintSpec" false {} fun
    | "name" => setter string fun p v => { p with name := v }
    | "sources" => setter RuleSpec.decodeList fun p v => { p with sources := v }
    | "sinks" => setter RuleSpec.decodeList fun p v => { p with sinks := v }
    | "sanitizers" => setter RuleSpec.decodeList fun p v => { p with sanitizers := v }
    | "pass-throughs" => setter RuleSpec.decodeList fun p v => { p with passThroughs := v }
    | "entry-points" => setter RuleSpec.decodeList fun p v => { p with entryPoints := v }
    | "filters" => setter CodeIdentifier.decodeList fun p v => { p with filters := v }
    | "null-dereference" => setter bool fun p v => { p with nullDereference := v }
    | _ => none

namespace ProblemSpec

/-- Whether names match a filter of the problem. -/
def isFiltered (p : ProblemSpec) (names : CodeIdentifier) : Bool :=
  p.filters.any (·.matcher.admits names)

/-- The number of rules. -/
def ruleCount (p : ProblemSpec) : Nat :=
  p.sources.length + p.sinks.length + p.sanitizers.length + p.passThroughs.length +
    p.entryPoints.length

/-- The problem of a document; none or a null one is the empty problem. -/
def ofDocument (d : Option Document) : Except DecodeError ProblemSpec :=
  match d with
  | none => .ok {}
  | some d => (decode d).run.map (·.getD {})

end ProblemSpec

/-- The rule of a document; none or a null one is the empty rule. -/
def RuleSpec.ofDocument (d : Option Document) : Except DecodeError RuleSpec :=
  match d with
  | none => .ok {}
  | some d => (RuleSpec.decode d).run.map (·.getD {})

end JvmTaint
