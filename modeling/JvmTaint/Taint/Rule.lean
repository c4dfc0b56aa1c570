import JvmTaint.Settings.Spec
import JvmTaint.Taint.Fact
import JvmTaint.Taint.Position

set_option autoImplicit false
set_option relaxedAutoImplicit false

/-!
# Rules

A rule gives the calls or field accesses that a code identifier selects a role in a taint problem.

## Main definitions

* `JvmTaint.RuleKind`: the role of a rule.
* `JvmTaint.CallCondition`: a condition on the constants that a call passes.
* `JvmTaint.Rule`: a rule; `Rule.ofSpec` reads it.
* `JvmTaint.Rule.matchesCall`, `JvmTaint.Rule.matchesField`, `JvmTaint.Rule.appliesTo`: when a rule
  applies.
-/

namespace JvmTaint

/-- The role of a rule. -/
inductive RuleKind where
  /-- Taints its positions. -/
  | source
  /-- Reports taint at its positions. -/
  | sink
  /-- Removes the taint at its positions. -/
  | sanitizer
  /-- Carries taint between positions, in place of the analysis of the callee. -/
  | passThrough
  /-- Taints the parameters of entry methods. -/
  | entryPoint
  /-- Reports null values where they are dereferenced. -/
  | dereference
  deriving DecidableEq, Repr, Inhabited

namespace RuleKind

/-- The name of a role. -/
def name : RuleKind → String
  | source => "source"
  | sink => "sink"
  | sanitizer => "sanitizer"
  | passThrough => "pass-through"
  | entryPoint => "entry-point"
  | dereference => "null-dereference"

/-- The position of a rule that lists none. -/
def defaultPositions : RuleKind → List String
  | source | sanitizer => ["result"]
  | sink | entryPoint => ["any-arg"]
  | passThrough | dereference => []

end RuleKind

/-- The mark of values that may be null. Only rules restricted to it apply to them. -/
def nullMark : String := "null"

/-- The constant at `position` exists and matches `pattern`, or the negation of that. -/
structure CallCondition where
  position : Position
  /-- The pattern and its text. -/
  pattern : Option (String × Pattern)
  negated : Bool
  deriving Repr, Inhabited

/-- Why a rule is refused. -/
inductive RuleError where
  | position (e : PositionError)
  /-- Entry points are methods. -/
  | fieldEntryPoint
  | condition (e : PositionError)
  /-- Conditions are about receivers and arguments. -/
  | conditionPosition (p : Position)
  | pattern (e : PatternError)
  deriving DecidableEq, Repr

/-- The message of an error. -/
def RuleError.message : RuleError → String
  | position e => e.message
  | fieldEntryPoint => "entry points cannot be fields"
  | condition e => "invalid condition: " ++ e.message
  | conditionPosition p => "invalid condition position " ++ p.render
  | pattern e => "invalid condition regex: " ++ e.message

namespace CallCondition

/-- Reads a condition. -/
def ofSpec (c : ConditionSpec) : Except RuleError CallCondition := do
  let text := if c.isConstant.isEmpty then c.position else c.isConstant
  let position ← match Position.parse text with
    | .ok p => pure p
    | .error e => throw (.condition e)
  match position.operand with
  | .this | .arg _ => pure ()
  | _ => throw (.conditionPosition position)
  if c.constantMatches.isEmpty then return { position, pattern := none, negated := c.negated }
  match Pattern.parse c.constantMatches with
  | .ok p => return { position, pattern := some (c.constantMatches, p), negated := c.negated }
  | .error e => throw (.pattern e)

/-- The text that a literal stands for: that of a quoted text is what is quoted. -/
def literalText (literal : String) : String :=
  if literal.toList.head? == some '"' then (Text.unquote? literal).getD literal else literal

/-- Whether the condition holds at a call. -/
def holds (c : CallCondition) (call : Call) : Bool :=
  let value := match c.position.operand with
    | .this => call.receiver
    | .arg i => call.args[i]?
    | _ => none
  let found := match value with
    | some (.const literal _) => match c.pattern with
      | some (_, p) => p.found (literalText literal)
      | none => true
    | _ => false
  found != c.negated

end CallCondition

/-- A rule. -/
structure Rule where
  kind : RuleKind
  matcher : CodeMatcher
  positions : List Position := []
  /-- The positions that a pass-through takes taint from. -/
  sources : List Position := []
  /-- The positions that a pass-through gives taint to. -/
  targets : List Position := []
  mark : String := ""
  cwe : List Int := []
  note : String := ""
  conditions : List CallCondition := []
  /-- The place of the rule among the rules of its problem. -/
  index : Nat := 0
  deriving Repr, Inhabited

namespace Rule

/-- Reads some positions. -/
def parsePositions (texts default : List String) : Except RuleError (List Position) :=
  (if texts.isEmpty then default else texts).mapM fun s => (Position.parse s).mapError .position

/-- Reads a rule. -/
def ofSpec (kind : RuleKind) (s : RuleSpec) (index : Nat) : Except RuleError Rule := do
  let passes := kind = .passThrough
  let onField := s.id.field != ""
  let sources ← if passes then parsePositions s.sources ["any-arg"] else pure []
  let targets ← if passes then parsePositions s.targets ["result"] else pure []
  let positions ←
    if passes || onField then pure [] else parsePositions s.positions kind.defaultPositions
  if kind = .entryPoint && onField then throw .fieldEntryPoint
  let conditions ← s.conditions.mapM CallCondition.ofSpec
  return {
    kind, matcher := s.id.matcher, positions, sources, targets, mark := s.mark, cwe := s.cwe,
    note := s.note, conditions, index }

/-- Whether the rule is about field accesses. -/
def isField (r : Rule) : Bool := r.matcher.id.field != ""

/-- Whether the rule is about a call. -/
def matchesCall (r : Rule) (c : Call) : Bool :=
  !r.isField && r.matcher.selects (.ofMethod c.target) && r.conditions.all (·.holds c)

/-- Whether the rule is about an access to a field. -/
def matchesField (r : Rule) (f : FieldRef) : Bool :=
  r.isField && r.matcher.selects (.ofField f)

/-- Whether the rule is about taint with a mark: rules without a mark are about all marks but that
of null values. -/
def appliesTo (r : Rule) (mark : String) : Bool :=
  if mark == nullMark then r.mark == nullMark else r.mark == "" || r.mark == mark

/-- The name of a rule in reports. -/
def name (r : Rule) : String :=
  if r.kind = .dereference then r.kind.name else r.matcher.id.render

/-- The text of a rule. -/
def render (r : Rule) : String :=
  if r.kind = .dereference then r.kind.name else r.kind.name ++ " " ++ r.matcher.id.render

end Rule

end JvmTaint
