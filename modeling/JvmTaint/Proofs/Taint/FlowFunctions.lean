import JvmTaint.Proofs.Graph.Closure
import JvmTaint.Proofs.Taint.AccessPaths
import JvmTaint.Taint.Problem
import Mathlib.Tactic.Tauto

set_option autoImplicit false
set_option relaxedAutoImplicit false

/-!
# What the flow functions give

Each flow function is described by the facts that it gives for a fact. From a tainted path, a
statement keeps the path unless it overwrites it, moves it with a value, or computes with it; a call
keeps it unless it goes through a method or a sanitizer removes it, and hands it on by pass-through
rules; entering and leaving a method keep static paths and rebind the others. From the zero fact,
statements generate taint.

All taint that is not kept is at a location that the statement names: a variable, a field of one, a
static field or a position of a rule.

## Main definitions

* `JvmTaint.TaintProblem.move?`, `JvmTaint.TaintProblem.overwrites`,
  `JvmTaint.Action.computedFrom`: how a statement treats a tainted path.
* `JvmTaint.TaintProblem.locations`: the locations that a statement gives taint to.
* `JvmTaint.Action.YieldsNull`: the statements that generate null facts.
* `JvmTaint.TaintProblem.Generates`: a statement generates taint with a mark.
* `JvmTaint.TaintProblem.Yields`: a fact follows from another one.

## Main results

* `JvmTaint.TaintProblem.mem_transfer`, `JvmTaint.TaintProblem.mem_callToReturn`,
  `JvmTaint.TaintProblem.mem_enter`, `JvmTaint.TaintProblem.mem_leave`: the facts that follow from a
  tainted path.
* `JvmTaint.TaintProblem.normal_yields`, `JvmTaint.TaintProblem.callToReturn_yields`,
  `JvmTaint.TaintProblem.enter_yields`, `JvmTaint.TaintProblem.leave_yields`: facts are kept, moved
  to a location or generated there.
-/

namespace JvmTaint

namespace Fact

variable {d d' : Fact} {path source target : AccessPath} {origin : Site} {m : String} {k : Int}

/-- The taint of a path that is moved between two roots. -/
@[simp] lemma mem_moved_taint : d' ∈ (taint path origin m).moved source target k ↔
    ∃ q, path.substitute? source target k = some q ∧ d' = taint q origin m := by
  simp [moved, eq_comm]

/-- A fact is kept unless it is about what is assigned to. -/
@[simp] lemma mem_killedBy {lhs : Option Value} :
    d' ∈ d.killedBy lhs ↔ d' = d ∧ ∀ v, lhs = some v → d.rootedAt v.render = false := by
  cases lhs with
  | none => simp [killedBy]
  | some v =>
    rw [killedBy]
    split <;> simp_all

/-- The fact holds in every method: it is the zero fact, or the taint of a static path. -/
def IsGlobal (d : Fact) : Prop := ∀ path, d.path? = some path → path.isStatic = true

end Fact

/-! ## Statements -/

namespace Action

/-- The variables that a statement computes a new value from. -/
def computedFrom : Action Nat → List Value
  | .assign _ ⟨.binary _ l r, _⟩ => [l, r].filter Value.isVariable
  | .assign _ ⟨.negate v, _⟩ | .assign _ ⟨.convert _ v, _⟩ => [v].filter Value.isVariable
  | _ => []

/-- The value that a statement returns. -/
def returned? : Action Nat → Option Value
  | .ret src => src
  | _ => none

/-- The values that a statement assigns to, or that are variables which it reads. -/
def values (a : Action Nat) : List Value := a.lhs?.toList ++ a.uses

/-- The statement names the null constant where it makes a location null: it assigns, stores, tests,
passes or returns it. -/
inductive YieldsNull : Action Nat → Prop
  | copy {lhs v : Value} {type : String} (h : v.isNull = true) :
      YieldsNull (.assign lhs ⟨.copy v, type⟩)
  | cast {lhs v : Value} {type : String} (h : v.isNull = true) :
      YieldsNull (.assign lhs ⟨.cast v, type⟩)
  | fieldWrite {base src : Value} {f : FieldRef} (h : src.isNull = true) :
      YieldsNull (.fieldWrite base f src)
  | staticWrite {f : FieldRef} {src : Value} (h : src.isNull = true) :
      YieldsNull (.staticWrite f src)
  | branch {c : Condition} {v : Value} {target : Nat} (h : c.nullTested? = some v) :
      YieldsNull (.branch c target)
  | invoke {lhs : Option Value} {c : Call} {v : Value} (hv : v ∈ c.operands)
      (h : v.isNull = true) : YieldsNull (.invoke lhs c)
  | ret {v : Value} (h : v.isNull = true) : YieldsNull (.ret (some v))

end Action

/-- A variable that is compared with null is a variable of the condition. -/
lemma Condition.nullTested?_eq_some {c : Condition} {v : Value} (h : c.nullTested? = some v) :
    v.isVariable = true ∧ (v = c.left ∨ v = c.right) := by
  unfold nullTested? at h
  split at h
  all_goals first
    | (split at h
       · rename_i hc
         cases h
         simp_all
       · split at h
         · rename_i hc
           cases h
           simp_all
         · cases h)
    | cases h

namespace TaintProblem

variable {p : TaintProblem} {g callee : FlowGraph} {i exit : Nat} {e : Edge} {a : Action Nat}
  {d d' : Fact} {path : AccessPath} {origin : Site} {m : String} {lhs : Option Value} {c : Call}
  {callees : List MethodRef}

/-- The locations between which a statement moves a value. -/
def move? (p : TaintProblem) : Action Nat → Option (AccessPath × AccessPath)
  | .assign lhs ⟨.copy v, _⟩ | .assign lhs ⟨.cast v, _⟩ =>
    if v.isVariable then some (v.path, lhs.path) else none
  | .fieldRead lhs base f =>
    if base.isVariable then some (p.fieldPath base f.name, lhs.path) else none
  | .staticRead lhs f => some (.ofStatic f.cls f.name, lhs.path)
  | .arrayRead lhs base _ =>
    if base.isVariable then some (p.fieldPath base arrayElement, lhs.path) else none
  | .fieldWrite base f src =>
    if base.isVariable && src.isVariable then some (src.path, p.fieldPath base f.name) else none
  | .staticWrite f src =>
    if src.isVariable then some (src.path, .ofStatic f.cls f.name) else none
  | .arrayWrite base _ src =>
    if base.isVariable && src.isVariable then some (src.path, p.fieldPath base arrayElement)
    else none
  | _ => none

/-- Whether a statement overwrites a path: it assigns to the variable at its root, or it stores to a
field that the path goes through. -/
def overwrites (p : TaintProblem) (a : Action Nat) (path : AccessPath) : Bool :=
  match a with
  | .fieldWrite base f _ => base.isVariable && path.beginsWith (p.fieldPath base f.name)
  | .staticWrite f _ => path.beginsWith (.ofStatic f.cls f.name)
  | .invoke .. => false
  | a => (a.lhs?.map fun l => path.rootedAt l.render).getD false

/-- A tainted path after a value was read from a location. -/
lemma mem_loaded {l : Value} {location : AccessPath} :
    d' ∈ p.loaded l location (.taint path origin m) ↔
      (d' = .taint path origin m ∧ path.rootedAt l.render = false) ∨
      ∃ q, path.substitute? location l.path p.k = some q ∧ d' = .taint q origin m := by
  simp [loaded, Fact.rootedAt]

/-- A tainted path after a value was written to a location. -/
lemma mem_stored {location : AccessPath} {src : Value} {strong : Bool} :
    d' ∈ p.stored location src strong (.taint path origin m) ↔
      (d' = .taint path origin m ∧ (strong && path.beginsWith location) = false) ∨
      src.isVariable = true ∧
        ∃ q, path.substitute? src.path location p.k = some q ∧ d' = .taint q origin m := by
  cases hover : strong && path.beginsWith location <;> simp [stored, Fact.path?, hover]

/-- A tainted path after an assignment. -/
lemma mem_assigned {l : Value} {rhs : Expr} :
    d' ∈ p.assigned l rhs (.taint path origin m) ↔
      (d' = .taint path origin m ∧ path.rootedAt l.render = false) ∨
      (∃ source target q, p.move? (.assign l rhs) = some (source, target) ∧
        path.substitute? source target p.k = some q ∧ d' = .taint q origin m) ∨
      ∃ v ∈ Action.computedFrom (.assign l rhs), path = v.path ∧ d' = .taint l.path origin m := by
  obtain ⟨computation, type⟩ := rhs
  cases computation <;>
    simp [assigned, move?, Action.computedFrom, Fact.rootedAt, Fact.path?, Fact.withPath,
      Computation.operands, or_and_right, exists_or, and_assoc]

/-- A tainted path after a statement is kept, moved with a value or computed with. -/
lemma mem_transfer : d' ∈ p.transfer a (.taint path origin m) ↔
    (d' = .taint path origin m ∧ p.overwrites a path = false) ∨
    (∃ source target q, p.move? a = some (source, target) ∧
      path.substitute? source target p.k = some q ∧ d' = .taint q origin m) ∨
    ∃ l v, a.lhs? = some l ∧ v ∈ a.computedFrom ∧ path = v.path ∧
      d' = .taint l.path origin m := by
  cases a with
  | assign l rhs => simp [transfer, mem_assigned, overwrites, Action.lhs?]
  | fieldRead l base f =>
    cases hb : base.isVariable <;>
      simp [transfer, mem_loaded, overwrites, move?, Action.lhs?, Action.computedFrom,
        Fact.rootedAt, hb]
  | arrayRead l base element =>
    cases hb : base.isVariable <;>
      simp [transfer, mem_loaded, overwrites, move?, Action.lhs?, Action.computedFrom,
        Fact.rootedAt, hb]
  | fieldWrite base f src =>
    cases hb : base.isVariable <;>
      simp [transfer, mem_stored, overwrites, move?, Action.lhs?, Action.computedFrom, hb]
  | arrayWrite base element src =>
    cases hb : base.isVariable <;>
      simp [transfer, mem_stored, overwrites, move?, Action.lhs?, Action.computedFrom, hb]
  | staticRead l f =>
    simp [transfer, mem_loaded, overwrites, move?, Action.lhs?, Action.computedFrom]
  | staticWrite f src =>
    simp [transfer, mem_stored, overwrites, move?, Action.lhs?, Action.computedFrom]
  | _ => simp [transfer, overwrites, move?, Action.lhs?, Action.computedFrom, Fact.rootedAt]

/-! ## Calls -/

/-- A pass-through rule of a call hands taint with a mark on from one path to another. -/
def PassesThrough (p : TaintProblem) (lhs : Option Value) (c : Call) (m : String)
    (path q : AccessPath) : Prop :=
  ∃ r ∈ (CallRules.of p.rules c).passThroughs, r.appliesTo m = true ∧
    ∃ source ∈ r.sources, ∃ sp ∈ source.paths lhs c p.k,
      ∃ target ∈ r.targets, ∃ tp ∈ target.paths lhs c p.k, path.substitute? sp tp p.k = some q

/-- A sanitizer of a call removes taint with a mark from a path. -/
def Sanitizes (p : TaintProblem) (lhs : Option Value) (c : Call) (m : String)
    (path : AccessPath) : Prop :=
  ∃ r ∈ (CallRules.of p.rules c).sanitizers, r.appliesTo m = true ∧
    ∃ pos ∈ r.positions, ∃ sp ∈ pos.paths lhs c p.k,
      path.beginsWith sp = true ∨ sp.subsumes path = true

/-- A fact is removed by the sanitizers of a call if one of them removes taint with its mark. -/
lemma sanitized_iff : p.sanitized (CallRules.of p.rules c) lhs c path d = true ↔
    p.Sanitizes lhs c d.mark path := by
  simp [sanitized, Sanitizes]

/-- The facts that the pass-through rules of a call give. -/
lemma mem_passedThrough :
    d' ∈ p.passedThrough (CallRules.of p.rules c) lhs c (.taint path origin m) ↔
      ∃ q, p.PassesThrough lhs c m path q ∧ ¬ p.Sanitizes lhs c m q ∧ d' = .taint q origin m := by
  simp only [passedThrough, List.mem_flatMap, List.mem_filter, Fact.mem_moved_taint,
    Bool.not_eq_true', ← Bool.not_eq_true, sanitized_iff, Fact.mark]
  constructor
  · rintro ⟨r, ⟨hr, happlies⟩, s, hs, sp, hsp, t, ht, tp, htp, ⟨q, hq, rfl⟩, hclean⟩
    exact ⟨q, ⟨r, hr, happlies, s, hs, sp, hsp, t, ht, tp, htp, hq⟩, hclean, rfl⟩
  · rintro ⟨q, ⟨r, hr, happlies, s, hs, sp, hsp, t, ht, tp, htp, hq⟩, hclean, rfl⟩
    exact ⟨r, ⟨hr, happlies⟩, s, hs, sp, hsp, t, ht, tp, htp, ⟨q, hq, rfl⟩, hclean⟩

/-- A tainted path after a call is kept, if it does not go through a method and is neither removed
nor assigned to, or it is handed on by a rule. -/
lemma mem_callToReturn (ha : actionAt g i = .invoke lhs c) :
    d' ∈ p.callToReturn g i e callees (.taint path origin m) ↔
      p.dereferenced (.invoke lhs c) (.taint path origin m) = false ∧
      ((d' = .taint path origin m ∧ (callees ≠ [] → handedOver c path = false) ∧
          ¬ p.Sanitizes lhs c m path ∧ ∀ v, lhs = some v → path.rootedAt v.render = false) ∨
        ∃ q, p.PassesThrough lhs c m path q ∧ ¬ p.Sanitizes lhs c m q ∧
          d' = .taint q origin m) := by
  simp only [callToReturn, ha]
  split
  · simp [*]
  · rename_i hderef
    rw [Bool.not_eq_true] at hderef
    simp only [hderef, mem_appendNew, mem_passedThrough, true_and]
    refine or_congr ?_ Iff.rfl
    split
    · rename_i hgone
      rw [Bool.or_eq_true, sanitized_iff] at hgone
      rcases hgone with hgone | hgone
      · simp_all
      · simp [Fact.mark] at hgone
        simp [hgone]
    · rename_i hstays
      rw [Bool.or_eq_true, sanitized_iff, not_or] at hstays
      obtain ⟨hthrough, hclean⟩ := hstays
      simp only [Fact.mark] at hclean
      simp_all [Fact.rootedAt]

/-- A tainted path on entry to a method: static paths are visible, those of operands are bound to
the parameters. -/
lemma mem_enter (ha : actionAt g i = .invoke lhs c) :
    d' ∈ p.enter g i callee (.taint path origin m) ↔
      (path.isStatic = true ∧ d' = .taint path origin m) ∨
      ∃ v param q, (v, param) ∈ c.operands.zip callee.params ∧ v.isVariable = true ∧
        path.rootedAt v.render = true ∧ path.substitute? v.path param.path p.k = some q ∧
        d' = .taint q origin m := by
  simp only [enter, ha]
  split
  · rename_i hstatic
    simp [hstatic, AccessPath.rootedAt]
  · rename_i hstatic
    simp [hstatic, and_assoc]

/-- The zero fact on entry to a method: it is kept, and if null dereferences are reported, parameters
that a null value is bound to are null. -/
lemma mem_enter_zero (ha : actionAt g i = .invoke lhs c) : d' ∈ p.enter g i callee .zero ↔
    d' = .zero ∨ p.rules.dereference.isSome = true ∧
      ∃ v param, (v, param) ∈ c.operands.zip callee.params ∧ v.isNull = true ∧
        d' = .taint param.path ⟨g.ref, i⟩ nullMark := by
  simp only [enter, ha]
  split
  · rename_i hon
    simp [hon, and_assoc, eq_comm (a := d')]
  · rename_i hoff
    simp [hoff]

/-- What a call makes of a tainted path at an exit of the method. -/
lemma leave_eq (ha : actionAt g i = .invoke lhs c) :
    p.leave g i e callee exit (.taint path origin m) =
      if path.isStatic then [.taint path origin m]
      else appendNew [] ((match (actionAt callee exit).returned?, lhs with
          | some v, some l => if v.isVariable && path.rootedAt v.render then
              (Fact.taint path origin m).moved v.path l.path p.k else []
          | _, _ => []) ++
        if path.depth = 0 && !path.truncated then []
        else ((callee.params.zip c.operands).filter fun (param, v) =>
            path.rootedAt param.render && v.isVariable &&
              !(lhs.map (·.render) == some v.render)).flatMap
          fun (param, v) => (Fact.taint path origin m).moved param.path v.path p.k) := by
  unfold leave
  rw [ha]
  rfl

/-- A tainted path after a call, from an exit of the method: static paths are visible, that of the
returned value is bound to the result, and the fields of parameters are those of the operands. -/
lemma mem_leave (ha : actionAt g i = .invoke lhs c) :
    d' ∈ p.leave g i e callee exit (.taint path origin m) ↔
      (path.isStatic = true ∧ d' = .taint path origin m) ∨
      (∃ v l q, (actionAt callee exit).returned? = some v ∧ lhs = some l ∧ v.isVariable = true ∧
        path.rootedAt v.render = true ∧ path.substitute? v.path l.path p.k = some q ∧
        d' = .taint q origin m) ∨
      ((path.depth = 0 → path.truncated = true) ∧
        ∃ param v q, (param, v) ∈ callee.params.zip c.operands ∧
          path.rootedAt param.render = true ∧ v.isVariable = true ∧
          (∀ l, lhs = some l → l.render ≠ v.render) ∧
          path.substitute? param.path v.path p.k = some q ∧ d' = .taint q origin m) := by
  rw [leave_eq ha]
  split
  · rename_i hstatic
    simp [hstatic, AccessPath.rootedAt]
  · rename_i hstatic
    simp only [mem_appendNew, List.mem_append, List.not_mem_nil, false_or, hstatic,
      Bool.false_eq_true, false_and]
    refine or_congr ?_ ?_
    · cases (actionAt callee exit).returned? <;> cases lhs <;> simp [and_assoc]
    · simp [and_assoc]

/-! ## Generated taint -/

/-- A statement generates taint with a mark: by a source rule about its call or its field access, or
as a null value. -/
inductive Generates (p : TaintProblem) : Action Nat → String → Prop
  | call {lhs : Option Value} {c : Call} {r : Rule} (hr : r ∈ p.rules.matchCall c)
      (hkind : r.kind = .source) : Generates p (.invoke lhs c) r.mark
  | field {a : Action Nat} {f : FieldRef} {r : Rule} (hf : a.field? = some f)
      (hr : r ∈ p.rules.matchField f) (hkind : r.kind = .source) : Generates p a r.mark
  | null {a : Action Nat} (hon : p.rules.dereference.isSome = true) (h : a.YieldsNull) :
      Generates p a nullMark

/-- The location that a field access gives the taint of field rules to. -/
def accessed? (p : TaintProblem) : Action Nat → Option AccessPath
  | .fieldRead l _ _ | .staticRead l _ => some l.path
  | .fieldWrite base f _ => if base.isVariable then some (p.fieldPath base f.name) else none
  | .staticWrite f _ => some (.ofStatic f.cls f.name)
  | _ => none

/-- Field rules apply to the statements that access a field. -/
lemma fieldSources_eq (site : Site) : p.fieldSources site a = match a.field?, p.accessed? a with
    | some f, some path => appendNew [] (((p.rules.matchField f).filter
        (·.kind == .source)).map fun r => .taint path site r.mark)
    | _, _ => [] := by
  cases a <;> rfl

/-- The facts that field rules generate. -/
lemma mem_fieldSources {site : Site} : d ∈ p.fieldSources site a ↔
    ∃ f path r, a.field? = some f ∧ p.accessed? a = some path ∧ r ∈ p.rules.matchField f ∧
      r.kind = .source ∧ d = .taint path site r.mark := by
  rw [fieldSources_eq]
  cases a.field? <;> cases p.accessed? a <;> simp [and_assoc, eq_comm (a := d)]

/-- The null fact that a statement generates, if null dereferences are reported. -/
lemma mem_nullSources {site : Site} : d ∈ p.nullSources site a e ↔
    p.rules.dereference.isSome = true ∧
      ∃ path, p.nullLocation? a e = some path ∧ d = .taint path site nullMark := by
  unfold nullSources
  split
  · rename_i hon
    simp [hon, eq_comm (a := d)]
  · rename_i hoff
    simp [hoff]

/-- The facts on entry to an entry method. -/
lemma mem_initial : d ∈ p.initial g ↔ ∃ r ∈ p.rules.matchEntry g.ref, ∃ pos ∈ r.positions,
    ∃ path ∈ pos.paramPaths g p.k, d = .taint path ⟨g.ref, g.entry⟩ r.mark := by
  simp [initial, eq_comm]

/-! ## Locations -/

/-- The locations that a statement gives taint to: the variables that it names, the field that it
writes and the positions of rules about it. -/
def locations (p : TaintProblem) (a : Action Nat) : List AccessPath :=
  a.values.map Value.path ++ match a with
    | .fieldWrite base f _ => if base.isVariable then [p.fieldPath base f.name] else []
    | .arrayWrite base _ _ => if base.isVariable then [p.fieldPath base arrayElement] else []
    | .staticWrite f _ => [.ofStatic f.cls f.name]
    | .invoke lhs c => p.rules.rules.flatMap fun r =>
      (r.positions ++ r.targets).flatMap fun pos => pos.paths lhs c p.k
    | _ => []

/-- A location at some values: a path from one of them, or a static field. -/
inductive LocatedAt (k : Int) (values : List Value) : AccessPath → Prop
  | value {v : Value} (hv : v ∈ values) (fields : List String) :
      LocatedAt k values (v.path.extendAll fields k)
  | static (owner field : String) : LocatedAt k values (.ofStatic owner field)

namespace LocatedAt

variable {k : Int} {values : List Value} {location : AccessPath}

/-- Locations are within every positive bound. -/
lemma bounded (h : LocatedAt k values location) (hk : 1 ≤ k) : location.Bounded k := by
  cases h with
  | value hv fields => exact (AccessPath.bounded_ofVariable _ (by omega)).extendAll fields
  | static owner field => exact AccessPath.bounded_ofStatic owner field hk

/-- The selectors of locations are free of dots. -/
lemma dotFree (h : LocatedAt k values location) : location.DotFree := by
  cases h with
  | value hv fields => exact (AccessPath.dotFree_ofVariable _).extendAll
  | static owner field => exact AccessPath.dotFree_ofStatic owner field

/-- A location that is not static is rooted at one of the values. -/
lemma exists_root (h : LocatedAt k values location) (hstatic : location.isStatic = false) :
    ∃ v ∈ values, location.base = v.render := by
  cases h with
  | value hv fields => exact ⟨_, hv, AccessPath.extendAll_base⟩
  | static owner field => simp [AccessPath.ofStatic] at hstatic

end LocatedAt

/-- The variable operands of a call are among the values that it names. -/
lemma operand_mem_values {v : Value} (hv : v ∈ c.operands) (hvar : v.isVariable = true) :
    v ∈ Action.values (.invoke lhs c) :=
  List.mem_append_right _ (List.mem_filter.mpr ⟨hv, hvar⟩)

/-- The paths of a position at some values. -/
lemma locatedAt_of_mem_pathFrom {pos : Position} {values : List Value} {k : Int}
    (h : path ∈ (values.filterMap Value.var?).map (pos.pathFrom k)) :
    ∃ v ∈ values, v.isVariable = true ∧ path = v.path.extendAll pos.fields k := by
  simp only [List.mem_map, List.mem_filterMap] at h
  obtain ⟨x, ⟨v, hv, hx⟩, rfl⟩ := h
  cases v with
  | var y type =>
    obtain rfl : y = x := by simpa [Value.var?] using hx
    exact ⟨_, hv, rfl, rfl⟩
  | const literal type => simp [Value.var?] at hx

/-- The paths of a position at a call are those of values that it names. -/
lemma exists_value_of_mem_paths {pos : Position} {k : Int} (h : path ∈ pos.paths lhs c k) :
    ∃ v ∈ Action.values (.invoke lhs c), path = v.path.extendAll pos.fields k := by
  obtain ⟨v, hv, hvar, rfl⟩ := locatedAt_of_mem_pathFrom h
  refine ⟨v, ?_, rfl⟩
  cases hop : pos.operand with
  | this =>
    rw [hop] at hv
    exact operand_mem_values (List.mem_append_left _ hv) hvar
  | result =>
    rw [hop] at hv
    exact List.mem_append_left _ hv
  | arg n =>
    rw [hop] at hv
    refine operand_mem_values (List.mem_append_right _ ?_) hvar
    exact List.mem_of_getElem? (Option.mem_toList.mp hv)
  | anyArg =>
    rw [hop] at hv
    exact operand_mem_values (List.mem_append_right _ hv) hvar

/-- A position on entry to a method names its receiver or its other parameters. -/
lemma mem_receiver_or_mem_args {operand : Operand} {v : Value} {receiver args : List Value}
    (h : v ∈ (match operand with
      | .this => receiver
      | .result => []
      | .arg n => (args[n]?).toList
      | .anyArg => args)) : v ∈ receiver ∨ v ∈ args := by
  cases operand with
  | this => exact Or.inl h
  | result => cases h
  | arg n => exact Or.inr (List.mem_of_getElem? (Option.mem_toList.mp h))
  | anyArg => exact Or.inr h

/-- The paths of a position on entry to a method are those of its parameters. -/
lemma exists_param_of_mem_paramPaths {pos : Position} {k : Int} (h : path ∈ pos.paramPaths g k) :
    ∃ v ∈ g.params, path = v.path.extendAll pos.fields k := by
  obtain ⟨v, hv, -, rfl⟩ := locatedAt_of_mem_pathFrom h
  refine ⟨v, ?_, rfl⟩
  rcases mem_receiver_or_mem_args hv with hv | hv
  all_goals
    cases hparams : g.params with
    | nil => simp [hparams] at hv
    | cons y rest =>
      simp only [hparams] at hv
      split at hv <;> simp_all

/-- The path of a value that a statement names is one of its locations. -/
lemma path_mem_locations {v : Value} (h : v ∈ a.values) : v.path ∈ p.locations a :=
  List.mem_append_left _ (List.mem_map_of_mem h)

/-- A statement moves values to its locations. -/
lemma move?_mem_locations {source target : AccessPath} (h : p.move? a = some (source, target)) :
    target ∈ p.locations a := by
  cases a with
  | assign l rhs =>
    have htarget : target = l.path := by
      obtain ⟨computation, type⟩ := rhs
      cases computation <;> simp_all [move?]
    rw [htarget]
    exact path_mem_locations (by simp [Action.values, Action.lhs?])
  | fieldRead l base f | staticRead l f | arrayRead l base element =>
    have htarget : target = l.path := by simp_all [move?]
    rw [htarget]
    exact path_mem_locations (by simp [Action.values, Action.lhs?])
  | fieldWrite base f src | arrayWrite base element src | staticWrite f src =>
    simp_all [move?, locations]
  | _ => simp [move?] at h

/-- The positions of rules about a call are among its locations. -/
lemma position_mem_locations {r : Rule} {pos : Position} (hr : r ∈ p.rules.rules)
    (hpos : pos ∈ r.positions ++ r.targets) (hpath : path ∈ pos.paths lhs c p.k) :
    path ∈ p.locations (.invoke lhs c) := by
  refine List.mem_append_right _ ?_
  exact List.mem_flatMap.mpr ⟨r, hr, List.mem_flatMap.mpr ⟨pos, hpos, hpath⟩⟩

/-- The locations of a statement are located at values that it names. -/
lemma locatedAt_of_mem_locations (h : path ∈ p.locations a) : LocatedAt p.k a.values path := by
  rcases List.mem_append.mp h with h | h
  · obtain ⟨v, hv, rfl⟩ := List.mem_map.mp h
    exact .value hv []
  · cases a with
    | fieldWrite base f src =>
      rw [List.mem_ite_nil_right, List.mem_singleton] at h
      obtain ⟨hbase, rfl⟩ := h
      have huse : base ∈ (Action.fieldWrite base f src : Action Nat).uses :=
        List.mem_filter.mpr ⟨List.mem_cons_self, hbase⟩
      exact .value (List.mem_append_right _ huse) [f.name]
    | arrayWrite base element src =>
      rw [List.mem_ite_nil_right, List.mem_singleton] at h
      obtain ⟨hbase, rfl⟩ := h
      have huse : base ∈ (Action.arrayWrite base element src : Action Nat).uses :=
        List.mem_filter.mpr ⟨List.mem_cons_self, hbase⟩
      exact .value (List.mem_append_right _ huse) [arrayElement]
    | staticWrite f src =>
      rw [List.mem_singleton.mp h]
      exact .static f.cls f.name
    | invoke lhs c =>
      simp only [List.mem_flatMap] at h
      obtain ⟨r, -, pos, -, hpath⟩ := h
      obtain ⟨v, hv, rfl⟩ := exists_value_of_mem_paths hpath
      exact .value hv pos.fields
    | _ => cases h

/-- Field rules generate taint at locations of the access. -/
lemma fieldSources_generated {site : Site} (h : d ∈ p.fieldSources site a) :
    ∃ path ∈ p.locations a, ∃ m, p.Generates a m ∧ d = .taint path site m := by
  obtain ⟨f, path, r, hf, hpath, hr, hkind, rfl⟩ := mem_fieldSources.mp h
  refine ⟨path, ?_, r.mark, .field hf hr hkind, rfl⟩
  cases a with
  | fieldRead l base f | staticRead l f =>
    obtain rfl : l.path = path := by simpa [accessed?] using hpath
    exact path_mem_locations (by simp [Action.values, Action.lhs?])
  | fieldWrite base f src | staticWrite f src => simp_all [locations, accessed?]
  | _ => simp [accessed?] at hpath

/-- What is null after a statement is one of its locations. -/
lemma nullLocation?_mem_locations (h : p.nullLocation? a e = some path) :
    path ∈ p.locations a ∧ a.YieldsNull := by
  cases a with
  | assign l rhs =>
    obtain ⟨computation, type⟩ := rhs
    have hpath : path = l.path ∧ Action.YieldsNull (.assign l ⟨computation, type⟩) := by
      cases computation with
      | copy v =>
        simp only [nullLocation?, Option.ite_none_right_eq_some, Bool.and_eq_true,
          Option.some_inj] at h
        exact ⟨h.2.symm, .copy h.1.1⟩
      | cast v =>
        simp only [nullLocation?, Option.ite_none_right_eq_some, Bool.and_eq_true,
          Option.some_inj] at h
        exact ⟨h.2.symm, .cast h.1.1⟩
      | _ => simp [nullLocation?] at h
    rw [hpath.1]
    exact ⟨path_mem_locations (by simp [Action.values, Action.lhs?]), hpath.2⟩
  | fieldWrite base f src =>
    simp only [nullLocation?, Option.ite_none_right_eq_some, Bool.and_eq_true,
      Option.some_inj] at h
    obtain ⟨⟨hnull, hbase⟩, rfl⟩ := h
    exact ⟨by simp [locations, hbase], .fieldWrite hnull⟩
  | staticWrite f src =>
    simp only [nullLocation?, Option.ite_none_right_eq_some, Option.some_inj] at h
    obtain ⟨hnull, rfl⟩ := h
    exact ⟨by simp [locations], .staticWrite hnull⟩
  | branch c target =>
    simp only [nullLocation?] at h
    split at h
    · rename_i v hv
      rw [Option.ite_none_right_eq_some, Option.some_inj] at h
      obtain ⟨hvar, hside⟩ := Condition.nullTested?_eq_some hv
      rw [← h.2]
      refine ⟨path_mem_locations (List.mem_append_right _ (List.mem_filter.mpr ⟨?_, hvar⟩)),
        .branch hv⟩
      rcases hside with rfl | rfl <;> simp [Action.operands]
    · cases h
  | _ => simp [nullLocation?] at h

/-! ## What follows from a fact -/

/-- How a fact `d'` follows from a fact `d`: it is the same fact, if that is kept; it is the taint
of `d`, given to a location; or it is generated from the zero fact, at a location, by the
statement `n` with the action `a`. -/
inductive Yields (p : TaintProblem) (kept : Fact → Prop) (locations : List AccessPath) (n : Site)
    (a : Action Nat) : Fact → Fact → Prop
  | keep {d : Fact} (h : kept d) : Yields p kept locations n a d d
  | move {path target q : AccessPath} {origin : Site} {m : String} (htarget : target ∈ locations)
      (h : path.MovesTo p.k target q) :
      Yields p kept locations n a (.taint path origin m) (.taint q origin m)
  | generate {path : AccessPath} {m : String} (hpath : path ∈ locations) (h : p.Generates a m) :
      Yields p kept locations n a .zero (.taint path n m)

/-- What holds after a statement is kept, moved to a location of the statement or generated by
it. -/
lemma normal_yields (h : d' ∈ p.normal g i e d) :
    p.Yields (fun _ => True) (p.locations (actionAt g i)) ⟨g.ref, i⟩ (actionAt g i) d d' := by
  unfold normal at h
  dsimp only at h
  split at h
  · rw [List.mem_singleton.mp h]
    exact .keep trivial
  cases d with
  | zero =>
    rcases mem_appendNew.mp h with h | h
    · rcases List.mem_cons.mp h with rfl | h
      · exact .keep trivial
      · obtain ⟨path, hpath, m, hgen, rfl⟩ := fieldSources_generated h
        exact .generate hpath hgen
    · obtain ⟨hon, path, hpath, rfl⟩ := mem_nullSources.mp h
      obtain ⟨hmem, hnull⟩ := nullLocation?_mem_locations hpath
      exact .generate hmem (.null hon hnull)
  | taint path origin m =>
    simp only [Fact.isZero, Bool.false_eq_true, ↓reduceIte] at h
    split at h
    · cases h
    · rcases mem_transfer.mp h with
        ⟨rfl, -⟩ | ⟨source, target, q, hmove, hq, rfl⟩ | ⟨l, v, hl, -, -, rfl⟩
      · exact .keep trivial
      · exact .move (move?_mem_locations hmove) (Or.inr ⟨source, hq⟩)
      · exact .move (path_mem_locations (by simp [Action.values, hl])) (Or.inl rfl)

/-- What holds after a call and did not go through a method is kept, moved to a location of the call
or generated by it. -/
lemma callToReturn_yields (h : d' ∈ p.callToReturn g i e callees d) :
    p.Yields (fun _ => True) (p.locations (actionAt g i)) ⟨g.ref, i⟩ (actionAt g i) d d' := by
  cases ha : actionAt g i with
  | invoke lhs c =>
    cases d with
    | zero =>
      simp only [callToReturn, ha, mem_appendNew, List.mem_singleton, List.mem_flatMap,
        List.mem_map] at h
      rcases h with rfl | ⟨r, hr, pos, hpos, path, hpath, rfl⟩
      · exact .keep trivial
      · simp only [CallRules.of, List.mem_filter, beq_iff_eq] at hr
        refine .generate (position_mem_locations (r := r) ?_ (List.mem_append_left _ hpos) hpath)
          (.call hr.1 hr.2)
        exact List.mem_of_mem_filter hr.1
    | taint path origin m =>
      obtain ⟨-, ⟨rfl, -⟩ | ⟨q, ⟨r, hr, -, -, -, sp, -, target, htarget, tp, htp, hq⟩, -, rfl⟩⟩ :=
        (mem_callToReturn ha).mp h
      · exact .keep trivial
      · refine .move (position_mem_locations (r := r) ?_ ?_ htp) (Or.inr ⟨sp, hq⟩)
        · exact List.mem_of_mem_filter (List.mem_of_mem_filter hr)
        · exact List.mem_append_right _ htarget
  | _ =>
    simp only [callToReturn, ha, List.mem_singleton] at h
    rw [h]
    exact .keep trivial

/-- What holds on entry to a method is global, moved to a parameter or generated by the call. -/
lemma enter_yields (h : d' ∈ p.enter g i callee d) :
    p.Yields Fact.IsGlobal (callee.params.map Value.path) ⟨g.ref, i⟩ (actionAt g i) d d' := by
  cases ha : actionAt g i with
  | invoke lhs c =>
    cases d with
    | zero =>
      rcases (mem_enter_zero ha).mp h with rfl | ⟨hon, v, param, hmem, hnull, rfl⟩
      · exact .keep (by simp [Fact.IsGlobal, Fact.path?])
      · obtain ⟨hv, hparam⟩ := List.of_mem_zip hmem
        exact .generate (List.mem_map_of_mem hparam) (.null hon (.invoke hv hnull))
    | taint path origin m =>
      rcases (mem_enter ha).mp h with ⟨hstatic, rfl⟩ | ⟨v, param, q, hmem, -, -, hq, rfl⟩
      · exact .keep (by simpa [Fact.IsGlobal, Fact.path?] using hstatic)
      · exact .move (List.mem_map_of_mem (List.of_mem_zip hmem).2) (Or.inr ⟨_, hq⟩)
  | _ => simp [enter, ha] at h

/-- What holds after a call and comes from an exit of the method is global, moved to a location of
the call or generated by the exit. -/
lemma leave_yields (h : d' ∈ p.leave g i e callee exit d) :
    p.Yields Fact.IsGlobal (p.locations (actionAt g i)) ⟨callee.ref, exit⟩ (actionAt callee exit)
      d d' := by
  cases ha : actionAt g i with
  | invoke lhs c =>
    cases d with
    | zero =>
      cases hx : actionAt callee exit with
      | ret src =>
        simp only [leave, ha, hx] at h
        split at h
        · rename_i v l hsrc
          subst hsrc
          rw [List.mem_ite_nil_right, List.mem_singleton] at h
          obtain ⟨hcond, rfl⟩ := h
          simp only [Bool.and_eq_true] at hcond
          refine .generate (path_mem_locations ?_) (.null hcond.1.1 (.ret hcond.1.2))
          simp [Action.values, Action.lhs?]
        · cases h
      | _ => simp [leave, ha, hx] at h
    | taint path origin m =>
      rcases (mem_leave ha).mp h with ⟨hstatic, rfl⟩ | ⟨v, l, q, -, hl, -, -, hq, rfl⟩ |
        ⟨-, param, v, q, hmem, -, hvar, -, hq, rfl⟩
      · exact .keep (by simpa [Fact.IsGlobal, Fact.path?] using hstatic)
      · refine .move (path_mem_locations (v := l) ?_) (Or.inr ⟨_, hq⟩)
        simp [Action.values, Action.lhs?, hl]
      · have hvalue : v ∈ Action.values (.invoke lhs c) :=
          operand_mem_values (List.of_mem_zip hmem).2 hvar
        exact .move (path_mem_locations hvalue) (Or.inr ⟨_, hq⟩)
  | _ => simp [leave, ha] at h

end TaintProblem

end JvmTaint
