import JvmTaint.Calls.CallGraph
import JvmTaint.Tabulation.Basic
import JvmTaint.Taint.RuleSet

set_option autoImplicit false
set_option relaxedAutoImplicit false

/-!
# The taint problem of a rule set

The flow functions of tainted access paths. Assignments move taint with values, stores move it into
fields, calls bind it to parameters and returns bind it back. Rules generate taint, remove it and
carry it over calls that are not analyzed.

With null dereferences reported, a value that may be null is a taint of its own, with a mark that
only its own rules are about. A statement that dereferences a value completes only if the value is
not null.

## Main definitions

* `JvmTaint.TaintProblem`: a rule set for a program, with the bound of access paths.
* `JvmTaint.CallRules`: the rules about a call.
* `JvmTaint.TaintProblem.normal`, `JvmTaint.TaintProblem.callToReturn`,
  `JvmTaint.TaintProblem.enter`, `JvmTaint.TaintProblem.leave`: the flow functions.
* `JvmTaint.TaintProblem.flowProblem`: the data flow problem.
-/

namespace JvmTaint

/-- The rules about a call, by role. -/
structure CallRules where
  sources : List Rule
  sinks : List Rule
  sanitizers : List Rule
  passThroughs : List Rule
  filtered : Bool
  deriving Inhabited

namespace CallRules

/-- The rules of a set about a call. -/
def of (rs : RuleSet) (c : Call) : CallRules :=
  let found := rs.matchCall c
  let ofKind (kind : RuleKind) := found.filter (·.kind == kind)
  { sources := ofKind .source, sinks := ofKind .sink, sanitizers := ofKind .sanitizer,
    passThroughs := ofKind .passThrough, filtered := rs.isFiltered c.target }

/-- Whether the targets of the call are not analyzed, because rules say what the call does. -/
def isOpaque (r : CallRules) : Bool :=
  r.filtered || !r.sources.isEmpty || !r.sanitizers.isEmpty || !r.passThroughs.isEmpty

end CallRules

/-- The path of a value: that of a variable with its name. -/
def Value.path (v : Value) : AccessPath := AccessPath.ofVariable v.render

/-- Whether a value is a variable. -/
def Value.isVariable (v : Value) : Bool := v.var?.isSome

/-- Whether a value is the null constant. -/
def Value.isNull : Value → Bool
  | .const literal _ => literal == "null"
  | .var .. => false

namespace Fact

/-- The fact moved from the root `source` to the root `target`, if it is about `source`. -/
def moved (d : Fact) (source target : AccessPath) (k : Int) : List Fact :=
  match d with
  | zero => []
  | taint path origin mark =>
    ((path.substitute? source target k).map (taint · origin mark)).toList

/-- The mark of a fact, empty for the zero fact. -/
def mark : Fact → String
  | zero => ""
  | taint _ _ mark => mark

/-- Whether the fact says that the variable of `v` itself may be null. -/
def isNullOf (d : Fact) (v : Value) : Bool :=
  match d with
  | zero => false
  | taint path _ mark => mark == nullMark && v.isVariable && path == v.path

/-- The fact unless it is about what is assigned to. -/
def killedBy (d : Fact) (lhs : Option Value) : List Fact :=
  match lhs with
  | none => [d]
  | some v => if d.rootedAt v.render then [] else [d]

end Fact

/-- The variable that a condition compares with null. -/
def Condition.nullTested? (c : Condition) : Option Value :=
  match c.comparison with
  | .eq | .ne =>
    if c.right.isNull && c.left.isVariable then some c.left
    else if c.left.isNull && c.right.isVariable then some c.right
    else none
  | _ => none

/-- The edge taken when the variable compared with null is null. -/
def Condition.nullEdge (c : Condition) : EdgeKind :=
  if c.comparison = .eq then .onTrue else .onFalse

/-- The value that a statement dereferences. -/
def Action.dereferenced? : Action Nat → Option Value
  | .invoke _ c => c.receiver
  | .fieldRead _ base _ | .fieldWrite base _ _ => some base
  | .arrayRead _ base _ | .arrayWrite base _ _ => some base
  | .throw src | .monitor src => some src
  | .assign _ ⟨.length v, _⟩ => some v
  | _ => none

/-- A rule set for a program. -/
structure TaintProblem where
  code : CodeBase
  rules : RuleSet
  /-- The bound of access paths. -/
  k : Int

namespace TaintProblem

/-- The action of a statement. -/
def actionAt (g : FlowGraph) (i : Nat) : Action Nat :=
  ((g.statements[i]?).map (·.action)).getD .nop

/-- The path of a field of a value. -/
def fieldPath (p : TaintProblem) (base : Value) (field : String) : AccessPath :=
  base.path.extend field p.k

/-- Whether a fact says that the value which a statement dereferences is null. -/
def dereferenced (p : TaintProblem) (a : Action Nat) (d : Fact) : Bool :=
  p.rules.dereference.isSome && ((a.dereferenced?.map d.isNullOf).getD false)

/-- Whether a fact says that a variable is null, along an edge that is taken if it is not. -/
def refuted (a : Action Nat) (e : Edge) (d : Fact) : Bool :=
  match a with
  | .branch c _ => match c.nullTested? with
    | some v => e.kind != c.nullEdge && d.isNullOf v
    | none => false
  | _ => false

/-! ## Generated facts -/

/-- The facts that field rules generate at a field access. -/
def fieldSources (p : TaintProblem) (site : Site) (a : Action Nat) : List Fact :=
  let path? := match a with
    | .fieldRead lhs _ _ | .staticRead lhs _ => some lhs.path
    | .fieldWrite base f _ => if base.isVariable then some (p.fieldPath base f.name) else none
    | .staticWrite f _ => some (.ofStatic f.cls f.name)
    | _ => none
  match a.field?, path? with
  | some f, some path =>
    appendNew [] (((p.rules.matchField f).filter (·.kind == .source)).map
      fun r => .taint path site r.mark)
  | _, _ => []

/-- The locations that are null after a statement along an edge. -/
def nullLocation? (p : TaintProblem) (a : Action Nat) (e : Edge) : Option AccessPath :=
  match a with
  | .assign lhs ⟨.copy v, _⟩ | .assign lhs ⟨.cast v, _⟩ =>
    if v.isNull && lhs.isVariable then some lhs.path else none
  | .fieldWrite base f src =>
    if src.isNull && base.isVariable then some (p.fieldPath base f.name) else none
  | .staticWrite f src => if src.isNull then some (.ofStatic f.cls f.name) else none
  | .branch c _ => match c.nullTested? with
    | some v => if e.kind = c.nullEdge then some v.path else none
    | none => none
  | _ => none

/-- The null facts that a statement generates along an edge. -/
def nullSources (p : TaintProblem) (site : Site) (a : Action Nat) (e : Edge) : List Fact :=
  if p.rules.dereference.isSome then
    ((p.nullLocation? a e).map (Fact.taint · site nullMark)).toList
  else []

/-- The facts that hold on entry to an entry method. -/
def initial (p : TaintProblem) (g : FlowGraph) : List Fact :=
  appendNew [] ((p.rules.matchEntry g.ref).flatMap fun r =>
    r.positions.flatMap fun pos =>
      (pos.paramPaths g p.k).map fun path => .taint path ⟨g.ref, g.entry⟩ r.mark)

/-! ## Statements -/

/-- The facts after an assignment. A copied value keeps its fields; the result of an operation is
tainted if an operand itself is. -/
def assigned (p : TaintProblem) (lhs : Value) (rhs : Expr) (d : Fact) : List Fact :=
  let kept := d.killedBy (some lhs)
  match rhs.computation with
  | .copy v | .cast v =>
    if v.isVariable then appendNew kept (d.moved v.path lhs.path p.k) else kept
  | .binary .. | .negate _ | .convert .. =>
    if rhs.computation.operands.any fun v => v.isVariable && d.path? == some v.path then
      appendNew kept [d.withPath lhs.path]
    else kept
  | _ => kept

/-- The facts after a value was read from a location. -/
def loaded (p : TaintProblem) (lhs : Value) (location : AccessPath) (d : Fact) : List Fact :=
  appendNew (d.killedBy (some lhs)) (d.moved location lhs.path p.k)

/-- The facts after a value was written to a location. A strong update removes what the location
held. -/
def stored (p : TaintProblem) (location : AccessPath) (src : Value) (strong : Bool) (d : Fact) :
    List Fact :=
  let overwritten := strong && ((d.path?.map (·.beginsWith location)).getD false)
  let kept := if overwritten then [] else [d]
  if src.isVariable then appendNew kept (d.moved src.path location p.k) else kept

/-- The facts after a statement that follow from a tainted path before it. -/
def transfer (p : TaintProblem) (a : Action Nat) (d : Fact) : List Fact :=
  match a with
  | .assign lhs rhs => p.assigned lhs rhs d
  | .fieldRead lhs base f =>
    if base.isVariable then p.loaded lhs (p.fieldPath base f.name) d else d.killedBy (some lhs)
  | .staticRead lhs f => p.loaded lhs (.ofStatic f.cls f.name) d
  | .arrayRead lhs base _ =>
    if base.isVariable then p.loaded lhs (p.fieldPath base arrayElement) d
    else d.killedBy (some lhs)
  | .fieldWrite base f src =>
    if base.isVariable then p.stored (p.fieldPath base f.name) src true d else [d]
  | .staticWrite f src => p.stored (.ofStatic f.cls f.name) src true d
  | .arrayWrite base _ src =>
    -- the element that is written is not known
    if base.isVariable then p.stored (p.fieldPath base arrayElement) src false d else [d]
  | .receive lhs _ => d.killedBy (some lhs)
  | _ => [d]

/-- The facts after a statement along an edge. Along an exception edge the statement did not
complete. -/
def normal (p : TaintProblem) (g : FlowGraph) (i : Nat) (e : Edge) (d : Fact) : List Fact :=
  let a := actionAt g i
  let site : Site := ⟨g.ref, i⟩
  if e.kind = .exception then [d]
  else if d.isZero then appendNew (.zero :: p.fieldSources site a) (p.nullSources site a e)
  else if p.dereferenced a d || refuted a e d then []
  else p.transfer a d

/-! ## Calls -/

/-- Whether a sanitizer of a call removes taint with the mark of `d` from a path. -/
def sanitized (p : TaintProblem) (info : CallRules) (lhs : Option Value) (c : Call)
    (path : AccessPath) (d : Fact) : Bool :=
  info.sanitizers.any fun r => r.appliesTo d.mark && r.positions.any fun pos =>
    (pos.paths lhs c p.k).any fun sp => path.beginsWith sp || sp.subsumes path

/-- Whether a fact goes through the methods that a call is analyzed in: facts about static fields,
and about the fields of operands. -/
def handedOver (c : Call) (path : AccessPath) : Bool :=
  path.isStatic || c.operands.any fun v =>
    v.isVariable && path.rootedAt v.render && (decide (path.depth > 0) || path.truncated)

/-- The facts that the pass-through rules of a call give. Sanitizers come first. -/
def passedThrough (p : TaintProblem) (info : CallRules) (lhs : Option Value) (c : Call) (d : Fact) :
    List Fact :=
  (info.passThroughs.filter (·.appliesTo d.mark)).flatMap fun r =>
    r.sources.flatMap fun source => (source.paths lhs c p.k).flatMap fun sp =>
      r.targets.flatMap fun target => (target.paths lhs c p.k).flatMap fun tp =>
        (d.moved sp tp p.k).filter fun f => !p.sanitized info lhs c (f.path?.getD {}) d

/-- The facts after a call that do not go through the methods it is analyzed in. -/
def callToReturn (p : TaintProblem) (g : FlowGraph) (i : Nat) (_ : Edge) (callees : List MethodRef)
    (d : Fact) : List Fact :=
  match actionAt g i with
  | .invoke lhs c =>
    let info := CallRules.of p.rules c
    match d with
    | .zero =>
      appendNew [.zero] (info.sources.flatMap fun r => r.positions.flatMap fun pos =>
        (pos.paths lhs c p.k).map fun path => .taint path ⟨g.ref, i⟩ r.mark)
    | .taint path _ _ =>
      if p.dereferenced (actionAt g i) d then []
      else
        let kept :=
          if !callees.isEmpty && handedOver c path || p.sanitized info lhs c path d then []
          else d.killedBy lhs
        appendNew kept (p.passedThrough info lhs c d)
  | _ => [d]

/-- The facts on entry to a method that follow from a fact before a call of it. Taint of an operand
becomes taint of the parameter, and static fields are visible everywhere. -/
def enter (p : TaintProblem) (g : FlowGraph) (i : Nat) (callee : FlowGraph) (d : Fact) :
    List Fact :=
  match actionAt g i with
  | .invoke _ c =>
    let bound := c.operands.zip callee.params
    match d with
    | .zero =>
      if p.rules.dereference.isSome then
        appendNew [.zero] ((bound.filter fun (v, _) => v.isNull).map
          fun (_, param) => .taint param.path ⟨g.ref, i⟩ nullMark)
      else [.zero]
    | .taint path _ _ =>
      if path.isStatic then [d]
      else appendNew [] ((bound.filter fun (v, _) => v.isVariable && path.rootedAt v.render).flatMap
        fun (v, param) => d.moved v.path param.path p.k)
  | _ => []

/-- The facts after a call that follow from a fact at an exit of the method. Taint of the returned
value becomes taint of the result. Parameters are passed by value, so of theirs only the taint of
fields comes back. -/
def leave (p : TaintProblem) (g : FlowGraph) (i : Nat) (_ : Edge) (callee : FlowGraph) (exit : Nat)
    (d : Fact) : List Fact :=
  match actionAt g i with
  | .invoke lhs c =>
    let returned := match actionAt callee exit with
      | .ret src => src
      | _ => none
    match d with
    | .zero => match returned, lhs with
      | some v, some l =>
        if p.rules.dereference.isSome && v.isNull && l.isVariable then
          [.taint l.path ⟨callee.ref, exit⟩ nullMark]
        else []
      | _, _ => []
    | .taint path _ _ =>
      if path.isStatic then [d]
      else
        let result := match returned, lhs with
          | some v, some l =>
            if v.isVariable && path.rootedAt v.render then d.moved v.path l.path p.k else []
          | _, _ => []
        let fields :=
          if path.depth = 0 && !path.truncated then []
          else ((callee.params.zip c.operands).filter fun (param, v) =>
              path.rootedAt param.render && v.isVariable &&
                !(lhs.map (·.render) == some v.render)).flatMap
            fun (param, v) => d.moved param.path v.path p.k
        appendNew [] (result ++ fields)
  | _ => []

/-! ## The problem -/

/-- The flow graph of a method, one without statements if it has none. -/
def graph (p : TaintProblem) (ref : MethodRef) : FlowGraph :=
  match p.code.graph ref with
  | .ok g => g
  | .error _ => default

/-- The methods that a call is analyzed in: its possible targets with a flow graph, unless rules say
what the call does. -/
def callees (p : TaintProblem) (g : FlowGraph) (i : Nat) : Option (List MethodRef) :=
  match actionAt g i with
  | .invoke _ c =>
    if (CallRules.of p.rules c).isOpaque then some []
    else match p.code.table.resolve c.key with
      | .ok r => some (r.callees.filter fun ref => (p.code.graph ref).toOption.isSome)
      | .error _ => none
  | _ => some []

/-- The data flow problem. -/
def flowProblem (p : TaintProblem) : FlowProblem Fact where
  zero := .zero
  graph := p.graph
  callees := p.callees
  initial := p.initial
  normal := p.normal
  callToReturn := p.callToReturn
  enter := p.enter
  leave := p.leave

end TaintProblem

end JvmTaint
