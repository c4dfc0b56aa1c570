import JvmTaint.Proofs.Lowering.Assignments
import JvmTaint.Proofs.Taint.Reports

set_option autoImplicit false
set_option relaxedAutoImplicit false

/-!
# Adding a rule

A rule that is added to a rule set comes last among the rules about a call, a field access or an
entry method, if it is about it. So each flow function that does not ask for rules of its role stays
the same.

## Main definitions

* `JvmTaint.TaintProblem.withRule`: the problem with another rule.

## Main results

* `JvmTaint.RuleSet.exists_ofSpec_of_with?`: a rule set with another rule.
* `JvmTaint.TaintProblem.withRule_callRules`, `JvmTaint.TaintProblem.withRule_matchField`: the rules
  about a call and a field access.
* `JvmTaint.TaintProblem.withRule_initial`, `JvmTaint.TaintProblem.withRule_normal`: only entry
  points change what holds on entry, and only sources what holds after a statement.
-/

namespace JvmTaint

/-- A rule has the role that it is read for. -/
lemma Rule.ofSpec_kind {kind : RuleKind} {spec : RuleSpec} {index : Nat} {r : Rule}
    (h : Rule.ofSpec kind spec index = .ok r) : r.kind = kind := by
  have hkind : Ensures (Rule.ofSpec kind spec index) fun r => r.kind = kind := by
    unfold ofSpec
    dsimp only
    -- whichever way the specification is read, the last step makes a rule with this role
    repeat' first
      | exact ensures_ok rfl
      | refine Ensures.of_bind fun _ => ?_
      | split
  exact hkind r h

/-- A rule set with another rule has the rule that is read at its end. -/
lemma RuleSet.exists_ofSpec_of_with? {rs rs' : RuleSet} {kind : RuleKind} {spec : RuleSpec}
    (h : rs.with? kind spec = .ok rs') :
    ∃ r, Rule.ofSpec kind spec rs.rules.length = .ok r ∧
      rs' = { rs with rules := rs.rules ++ [r] } := by
  unfold with? at h
  cases hr : Rule.ofSpec kind spec rs.rules.length with
  | error e => simp [hr, bind, Except.bind] at h
  | ok r =>
    rw [hr] at h
    cases h
    exact ⟨r, rfl, rfl⟩

/-- A rule set with another rule has it at its end. -/
lemma RuleSet.with?_eq_ok {rs rs' : RuleSet} {kind : RuleKind} {spec : RuleSpec}
    (h : rs.with? kind spec = .ok rs') :
    ∃ r : Rule, r.kind = kind ∧ rs' = { rs with rules := rs.rules ++ [r] } := by
  obtain ⟨r, hr, heq⟩ := exists_ofSpec_of_with? h
  exact ⟨r, Rule.ofSpec_kind hr, heq⟩

namespace TaintProblem

/-- The problem with another rule. -/
def withRule (p : TaintProblem) (r : Rule) : TaintProblem :=
  { p with rules := { p.rules with rules := p.rules.rules ++ [r] } }

variable {p : TaintProblem} {r : Rule}

/-- The added rule, if it is about the call and has the role. -/
def addedTo (r : Rule) (c : Call) (kind : RuleKind) : List Rule :=
  if r.kind = kind ∧ r.matchesCall c then [r] else []

/-- The added rule is the last one of its role about a call that it matches. -/
lemma withRule_callRules (hr : r.kind ≠ .entryPoint) (c : Call) :
    CallRules.of (p.withRule r).rules c =
      { sources := (CallRules.of p.rules c).sources ++ addedTo r c .source
        sinks := (CallRules.of p.rules c).sinks ++ addedTo r c .sink
        sanitizers := (CallRules.of p.rules c).sanitizers ++ addedTo r c .sanitizer
        passThroughs := (CallRules.of p.rules c).passThroughs ++ addedTo r c .passThrough
        filtered := (CallRules.of p.rules c).filtered } := by
  have hmatch : (p.withRule r).rules.matchCall c =
      p.rules.matchCall c ++ if r.matchesCall c then [r] else [] := by
    simp [withRule, RuleSet.matchCall, List.filter_append, List.filter_cons, hr]
  simp only [CallRules.of, hmatch, List.filter_append, addedTo]
  cases r.matchesCall c <;> simp [withRule, RuleSet.isFiltered, List.filter_singleton]

/-- The rules about a field access stay the same, but for the added one. -/
lemma withRule_matchField (f : FieldRef) {test : Rule → Bool} (htest : test r = false) :
    ((p.withRule r).rules.matchField f).filter test = (p.rules.matchField f).filter test := by
  simp [withRule, RuleSet.matchField, List.filter_append, List.filter_cons, htest]

/-- Only entry points change what holds on entry to an entry method. -/
lemma withRule_initial (hr : r.kind ≠ .entryPoint) {g : FlowGraph} :
    (p.withRule r).initial g = p.initial g := by
  have hmatch : (p.withRule r).rules.matchEntry g.ref = p.rules.matchEntry g.ref := by
    simp [withRule, RuleSet.matchEntry, List.filter_append, hr]
  unfold initial
  rw [hmatch]
  rfl

/-- Only sources change what holds after a statement that is no call. -/
lemma withRule_normal (hr : r.kind ≠ .source) {g : FlowGraph} {i : Nat} {e : Edge} (d : Fact) :
    (p.withRule r).normal g i e d = p.normal g i e d := by
  have hsources : ∀ site a, (p.withRule r).fieldSources site a = p.fieldSources site a := by
    intro site a
    unfold fieldSources
    have hfield : ∀ f, ((p.withRule r).rules.matchField f).filter (·.kind == .source) =
        (p.rules.matchField f).filter (·.kind == .source) :=
      fun f => withRule_matchField f (by simp [hr])
    simp only [hfield]
    rfl
  unfold normal
  simp only [hsources]
  rfl

end TaintProblem

end JvmTaint
