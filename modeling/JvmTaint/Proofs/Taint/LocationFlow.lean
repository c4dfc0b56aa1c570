import JvmTaint.Proofs.Taint.Locations
import JvmTaint.Proofs.Taint.NullFacts

set_option autoImplicit false
set_option relaxedAutoImplicit false

/-!
# Statements as steps of locations

What a statement does to the locations that hold a tainted value, without a bound on their
selectors: a copy, a cast, a read or a write takes what is below one location to below another one,
and other locations keep what they hold unless the statement overwrites them. The flow function of
the statement follows these steps. It loses no location that a path stands for, whether the path is
truncated or gets truncated on the way; and for a path that is not truncated and has a selector to
spare it adds none.

## Main definitions

* `JvmTaint.Action.Carries`: the locations that a statement reads from and assigns to.
* `JvmTaint.Action.Overwrites`: a statement overwrites a location.
* `JvmTaint.Action.StepsTo`: the taint of one location becomes that of another one.

## Main results

* `JvmTaint.TaintProblem.exists_move?_of_carries`: the flow function moves paths between the
  locations that the statement reads from and assigns to.
* `JvmTaint.TaintProblem.overwrites_iff`: the flow function drops a path if the statement overwrites
  the location that it spells, and with it all that the path stands for.
* `JvmTaint.TaintProblem.exists_mem_normal_of_stepsTo`,
  `JvmTaint.TaintProblem.stepsTo_of_mem_normal`: no location is lost, and none is added.
* `JvmTaint.TaintProblem.normal_simulates_steps`: the flow function follows the steps.

## Design

A truncated path that lies above a field which is written stands for locations that are overwritten
and for others that are not. It is kept, so nothing is lost; that it is not exact is why the second
direction is about paths that are not truncated.
-/

namespace JvmTaint

/-! ## Steps of locations -/

/-- The location of a variable. -/
def Value.location (v : Value) : Location := ⟨v.render, false, []⟩

/-- The location of a static field. -/
def FieldRef.location (f : FieldRef) : Location := ⟨f.cls, true, [f.name]⟩

namespace Action

/-- The statement is a copy, a cast, a read or a write between variables: it takes the value of the
first location, with all that is below it, to the second one. -/
inductive Carries : Action Nat → Location → Location → Prop
  | copy {lhs v : Value} {type : String} (hlhs : lhs.isVariable = true)
      (hv : v.isVariable = true) :
      Carries (.assign lhs ⟨.copy v, type⟩) v.location lhs.location
  | cast {lhs v : Value} {type : String} (hlhs : lhs.isVariable = true)
      (hv : v.isVariable = true) :
      Carries (.assign lhs ⟨.cast v, type⟩) v.location lhs.location
  | fieldRead {lhs base : Value} {f : FieldRef} (hlhs : lhs.isVariable = true)
      (hbase : base.isVariable = true) :
      Carries (.fieldRead lhs base f) (base.location.below [f.name]) lhs.location
  | staticRead {lhs : Value} {f : FieldRef} (hlhs : lhs.isVariable = true) :
      Carries (.staticRead lhs f) f.location lhs.location
  | arrayRead {lhs base index : Value} (hlhs : lhs.isVariable = true)
      (hbase : base.isVariable = true) :
      Carries (.arrayRead lhs base index) (base.location.below [arrayElement]) lhs.location
  | fieldWrite {base src : Value} {f : FieldRef} (hbase : base.isVariable = true)
      (hsrc : src.isVariable = true) :
      Carries (.fieldWrite base f src) src.location (base.location.below [f.name])
  | staticWrite {f : FieldRef} {src : Value} (hsrc : src.isVariable = true) :
      Carries (.staticWrite f src) src.location f.location
  | arrayWrite {base index src : Value} (hbase : base.isVariable = true)
      (hsrc : src.isVariable = true) :
      Carries (.arrayWrite base index src) src.location (base.location.below [arrayElement])

/-- The field that the statement gives a new value. The element of an array that is written is not
known. -/
def updated? : Action Nat → Option Location
  | .fieldWrite base f _ => some (base.location.below [f.name])
  | .staticWrite f _ => some f.location
  | _ => none

/-- The statement overwrites a location: it is rooted at the variable that is assigned to, or it is
at or below the field that is written. -/
def Overwrites (a : Action Nat) (l : Location) : Prop :=
  (∃ v, a.lhs? = some v ∧ l.base = v.render ∧ l.isStatic = false) ∨
    ∃ field r, a.updated? = some field ∧ l = field.below r

/-- A statement that overwrites a location overwrites all that is below it. -/
lemma Overwrites.below {a : Action Nat} {l : Location} (h : a.Overwrites l) (r : List String) :
    a.Overwrites (l.below r) := by
  rcases h with ⟨v, hv, hbase, hstatic⟩ | ⟨field, s, hfield, rfl⟩
  · exact Or.inl ⟨v, hv, hbase, hstatic⟩
  · exact Or.inr ⟨field, s ++ r, hfield, Location.below_below⟩

/-- Taint of the first location before the statement is taint of the second one after it. -/
inductive StepsTo (a : Action Nat) : Location → Location → Prop
  | stay {l : Location} (h : ¬ a.Overwrites l) : StepsTo a l l
  | carry {source target : Location} (h : a.Carries source target) (r : List String) :
      StepsTo a (source.below r) (target.below r)

end Action

/-- The fact says that the location is tainted. -/
def Fact.Denotes (d : Fact) (l : Location) : Prop := ∃ path, d.path? = some path ∧ path.Denotes l

namespace TaintProblem

variable {p : TaintProblem} {g : FlowGraph} {i : Nat} {e : Edge} {a : Action Nat} {d' : Fact}
  {path : AccessPath} {origin : Site} {m : String} {source target l l' : Location}

/-! ## Paths of locations -/

/-- The path of a location as the flow functions name it: plain, not truncated, and of at most one
selector. -/
structure Names (q : AccessPath) (l : Location) : Prop where
  location_eq : q.location = l
  plain : q.Plain
  isOpen : q.truncated = false
  length_le : q.fields.length ≤ 1

/-- The path of a variable. -/
lemma names_path (v : Value) : Names v.path v.location :=
  ⟨rfl, AccessPath.plain_ofVariable _, rfl, by simp [Value.path, AccessPath.ofVariable]⟩

/-- The path of a static field. -/
lemma names_ofStatic (f : FieldRef) (hdots : '.' ∉ f.name.toList) :
    Names (.ofStatic f.cls f.name) f.location := by
  refine ⟨?_, AccessPath.plain_ofStatic _ hdots, rfl, ?_⟩ <;>
    simp [AccessPath.ofStatic, AccessPath.location, FieldRef.location,
      Text.split_eq_singleton hdots]

/-- The path of a field is not cut by a positive bound. -/
lemma names_fieldPath (hk : 1 ≤ p.k) (v : Value) {field : String} (hdots : '.' ∉ field.toList) :
    Names (p.fieldPath v field) (v.location.below [field]) := by
  have hroom : ¬ (0 : Int) ≥ p.k := by omega
  have heq : p.fieldPath v field =
      { base := v.render, fields := [field], depth := 1 } := by
    simp [fieldPath, Value.path, AccessPath.ofVariable, AccessPath.extend, hroom,
      Text.split_eq_singleton hdots]
  rw [heq]
  exact ⟨rfl, ⟨rfl, by simpa [AccessPath.DotFree] using hdots⟩, rfl, by simp⟩

/-- The flow function of a statement moves paths between the locations that the statement reads from
and assigns to. -/
lemma exists_move?_of_carries (hk : 1 ≤ p.k)
    (hdots : ∀ f, a.field? = some f → '.' ∉ f.name.toList) (h : a.Carries source target) :
    ∃ from' to', p.move? a = some (from', to') ∧ Names from' source ∧ Names to' target := by
  have harray : '.' ∉ arrayElement.toList := by decide
  cases h with
  | copy _ hv => exact ⟨_, _, by simp [move?, hv], names_path _, names_path _⟩
  | cast _ hv => exact ⟨_, _, by simp [move?, hv], names_path _, names_path _⟩
  | fieldRead _ hbase =>
    exact ⟨_, _, by simp [move?, hbase], names_fieldPath hk _ (hdots _ rfl), names_path _⟩
  | staticRead _ => exact ⟨_, _, rfl, names_ofStatic _ (hdots _ rfl), names_path _⟩
  | arrayRead _ hbase =>
    exact ⟨_, _, by simp [move?, hbase], names_fieldPath hk _ harray, names_path _⟩
  | fieldWrite hbase hsrc =>
    exact ⟨_, _, by simp [move?, hbase, hsrc], names_path _, names_fieldPath hk _ (hdots _ rfl)⟩
  | staticWrite hsrc =>
    exact ⟨_, _, by simp [move?, hsrc], names_path _, names_ofStatic _ (hdots _ rfl)⟩
  | arrayWrite hbase hsrc =>
    exact ⟨_, _, by simp [move?, hbase, hsrc], names_path _, names_fieldPath hk _ harray⟩

/-- A path begins with that of a location if it is at or below the location. -/
lemma Names.beginsWith_iff {q : AccessPath} (hq : Names q l) (hpath : path.Plain) :
    path.beginsWith q = true ↔ ∃ r, path.location = l.below r := by
  rw [hpath.regular.beginsWith_iff hq.plain.regular, hq.isOpen, ← hq.location_eq]
  have hbelow (r : List String) : path.location = q.location.below r ↔
      path.SameRoot q ∧ q.fields ++ r = path.fields := by
    rw [eq_comm, ← Location.below_nil (l := path.location), AccessPath.below_eq_below_iff,
      List.append_nil]
  simp only [hbelow, exists_and_left]
  simp [List.IsPrefix]

/-- The flow function drops a path exactly if the statement overwrites the location that the path
spells. -/
lemma overwrites_iff (hk : 1 ≤ p.k) (hdots : ∀ f, a.field? = some f → '.' ∉ f.name.toList)
    (h : a.Carries source target) (hpath : path.Plain) :
    p.overwrites a path = true ↔ a.Overwrites path.location := by
  cases h with
  | copy | cast | fieldRead | staticRead | arrayRead =>
    simp [overwrites, Action.Overwrites, Action.lhs?, Action.updated?, AccessPath.rootedAt,
      AccessPath.location, and_comm]
  | fieldWrite hbase =>
    simp [overwrites, Action.Overwrites, Action.lhs?, Action.updated?, hbase,
      (names_fieldPath hk _ (hdots _ rfl)).beginsWith_iff hpath]
  | staticWrite =>
    simp [overwrites, Action.Overwrites, Action.lhs?, Action.updated?,
      (names_ofStatic _ (hdots _ rfl)).beginsWith_iff hpath]
  | arrayWrite =>
    simp [overwrites, Action.Overwrites, Action.lhs?, Action.updated?]

/-! ## The flow function -/

/-- Taint that is not about a null value is kept, moved or dropped, whatever the statement
dereferences. -/
lemma normal_eq_transfer (p : TaintProblem) (g : FlowGraph) (i : Nat) (he : e.kind ≠ .exception)
    (hm : m ≠ nullMark) : p.normal g i e (.taint path origin m) =
      p.transfer (actionAt g i) (.taint path origin m) := by
  have htaint : (Fact.taint path origin m).isTaint = true := by
    simpa [Fact.isTaint, Fact.mark] using hm
  have hrefuted : refuted (actionAt g i) e (.taint path origin m) = false := by
    unfold refuted
    split
    · split
      · rw [isNullOf_of_isTaint htaint, Bool.and_false]
      · rfl
    · rfl
  simp [normal, he, Fact.isZero, dereferenced_of_isTaint htaint, hrefuted]

/-- A statement that carries a value computes no other one. -/
lemma computedFrom_of_carries (h : a.Carries source target) : a.computedFrom = [] := by
  cases h <;> rfl

section Carrying

variable (hk : 1 ≤ p.k) (hdots : ∀ f, (actionAt g i).field? = some f → '.' ∉ f.name.toList)
  (h : (actionAt g i).Carries source target) (he : e.kind ≠ .exception) (hm : m ≠ nullMark)
  (hpath : path.Plain)

include hk hdots h he hm hpath

/-- The facts that a statement which carries a value makes of a tainted path: the path itself unless
it is overwritten, and the path moved from what the statement reads to what it assigns. -/
lemma mem_normal_of_carries (origin : Site) : ∃ source' target', Names source' source ∧
    Names target' target ∧ ∀ d, d ∈ p.normal g i e (.taint path origin m) ↔
      (d = .taint path origin m ∧ ¬ (actionAt g i).Overwrites path.location) ∨
      ∃ q, path.substitute? source' target' p.k = some q ∧ d = .taint q origin m := by
  obtain ⟨source', target', hmove, hsource, htarget⟩ := exists_move?_of_carries hk hdots h
  refine ⟨source', target', hsource, htarget, fun d => ?_⟩
  rw [normal_eq_transfer p g i he hm, mem_transfer, ← overwrites_iff hk hdots h hpath,
    Bool.not_eq_true, computedFrom_of_carries h]
  simp [hmove]

/-- The flow function loses no location: whatever a location that the path stands for steps to is
denoted by a fact that the flow function gives. -/
lemma exists_mem_normal_of_stepsTo (hl : path.Denotes l) (hstep : (actionAt g i).StepsTo l l') :
    ∃ d ∈ p.normal g i e (.taint path origin m), d.Denotes l' := by
  cases hstep with
  | stay hkept =>
    obtain ⟨_, _, -, -, hmem⟩ :=
      mem_normal_of_carries hk hdots h he hm hpath origin
    refine ⟨_, (hmem _).mpr (Or.inl ⟨rfl, fun hover => hkept ?_⟩), path, rfl, hl⟩
    obtain ⟨r, rfl, -⟩ := hl
    exact hover.below r
  | carry h' r =>
    obtain ⟨source', target', hsource, htarget, hmem⟩ :=
      mem_normal_of_carries hk hdots h' he hm hpath origin
    rw [← hsource.location_eq] at hl
    rcases hpath.substitute?_eq hsource.plain htarget.plain hsource.isOpen (by omega : 0 ≤ p.k) with
      ⟨-, hnone⟩ | ⟨hq, -⟩
    · exact absurd ⟨r, hl⟩ hnone
    · refine ⟨_, (hmem _).mpr (Or.inr ⟨_, hq, rfl⟩), _, rfl, ?_⟩
      rw [← htarget.location_eq]
      exact AccessPath.denotes_below_of_substitute? hpath hsource.plain htarget.plain
        hsource.isOpen (by omega) hq hl

/-- The flow function adds no location to a path that is not truncated and has a selector to spare:
what its facts denote are steps of the location that the path spells.

**Proof sketch.** What is assigned to has one selector at most, so the path that is moved there is
within the bound and spells the image of the location. -/
lemma stepsTo_of_mem_normal (hopen : path.truncated = false)
    (hshort : (path.fields.length : Int) < p.k)
    (hd : d' ∈ p.normal g i e (.taint path origin m)) (hl' : d'.Denotes l') :
    (actionAt g i).StepsTo path.location l' := by
  obtain ⟨source', target', hsource, htarget, hmem⟩ :=
    mem_normal_of_carries hk hdots h he hm hpath origin
  rcases (hmem d').mp hd with ⟨rfl, hkept⟩ | ⟨q, hq, rfl⟩
  · obtain ⟨_, ⟨⟩, hl'⟩ := hl'
    rw [AccessPath.denotes_iff_of_open hopen] at hl'
    rw [hl']
    exact .stay hkept
  · obtain ⟨_, ⟨⟩, hl'⟩ := hl'
    have hcut : q.truncated = false := by
      have hlength := htarget.length_le
      refine (AccessPath.open_iff_of_substitute? hpath hsource.plain htarget.plain
        hsource.isOpen (by omega) hq).mpr ⟨hopen, htarget.isOpen, ?_⟩
      omega
    obtain ⟨r, hread, hassigned⟩ := AccessPath.exists_location_of_substitute? hpath hsource.plain
      htarget.plain hsource.isOpen (by omega) hq hcut
    rw [AccessPath.denotes_iff_of_open hcut, hassigned, htarget.location_eq] at hl'
    rw [hread, hsource.location_eq, hl']
    exact .carry h r

end Carrying

/-- **Statements follow the steps of locations.** Consider a positive bound, a copy, cast, read or
write between variables, with a field whose name has no dots, along an edge that is not that of an
exception, and a tainted path that is not about a null value. Whatever a location that the path
stands for steps to is denoted by a fact that the flow function gives, and these facts are of the
same taint. If the path is not truncated and has fewer selectors than the bound, they denote nothing
else. -/
theorem normal_simulates_steps (p : TaintProblem) (hk : 1 ≤ p.k) (g : FlowGraph) (i : Nat)
    (source target : Location) (h : (actionAt g i).Carries source target)
    (hdots : ∀ f, (actionAt g i).field? = some f → '.' ∉ f.name.toList) (e : Edge)
    (he : e.kind ≠ .exception) (path : AccessPath) (hpath : path.Plain) (origin : Site) (m : String)
    (hm : m ≠ nullMark) :
    (∀ l l', path.Denotes l → (actionAt g i).StepsTo l l' →
      ∃ d ∈ p.normal g i e (.taint path origin m), d.Denotes l') ∧
    (∀ d ∈ p.normal g i e (.taint path origin m), ∃ q, d = .taint q origin m) ∧
    (path.truncated = false → (path.fields.length : Int) < p.k →
      ∀ d ∈ p.normal g i e (.taint path origin m), ∀ l', d.Denotes l' →
        ∃ l, path.Denotes l ∧ (actionAt g i).StepsTo l l') := by
  refine ⟨fun l l' hl hstep => ?_, fun d hd => ?_, fun hopen hshort d hd l' hl' => ?_⟩
  · exact exists_mem_normal_of_stepsTo hk hdots h he hm hpath hl hstep
  · obtain ⟨_, _, -, -, hmem⟩ :=
      mem_normal_of_carries hk hdots h he hm hpath origin
    rcases (hmem d).mp hd with ⟨rfl, -⟩ | ⟨q, -, rfl⟩
    · exact ⟨path, rfl⟩
    · exact ⟨q, rfl⟩
  · exact ⟨path.location, (AccessPath.denotes_iff_of_open hopen).mpr rfl,
      stepsTo_of_mem_normal hk hdots h he hm hpath hopen hshort hd hl'⟩

/-- The argument of a method that stores it in a field of itself. -/
def knot : Value := .var (.arg 0) "LKnot;"

/-- The field that the argument is stored in. -/
def knotField : FieldRef := ⟨"Knot", "f", "LKnot;"⟩

/-- The flow graph of the method. -/
def knotGraph : FlowGraph where
  ref := ⟨"Knot", "tie", "(LKnot;)V"⟩
  modifiers := .empty
  params := [knot]
  statements := #[⟨0, .fieldWrite knot knotField knot, false⟩, ⟨1, .ret none, false⟩]
  succs := #[[⟨0, 1, .normal, "", false⟩], []]
  exits := [1]

/-- The taint of all that is below the field stays below it and is taken one field further, although
the bound has no room for it. -/
theorem normal_simulates_steps_knot :
    let p : TaintProblem := ⟨.ofTable .empty, {}, 1⟩
    let path : AccessPath := { base := "arg0", fields := ["g"], depth := 1, truncated := true }
    (actionAt knotGraph 0).Carries knot.location (knot.location.below ["f"]) ∧ path.Plain ∧
      path.Denotes (knot.location.below ["g", "h"]) ∧
      ∃ d ∈ p.normal knotGraph 0 ⟨0, 1, .normal, "", false⟩ (.taint path ⟨knotGraph.ref, 0⟩ ""),
        d.Denotes (knot.location.below ["f", "g", "h"]) := by
  have hcarries : (actionAt knotGraph 0).Carries knot.location (knot.location.below ["f"]) :=
    .fieldWrite rfl rfl
  have hplain : AccessPath.Plain
      { base := "arg0", fields := ["g"], depth := 1, truncated := true } :=
    ⟨rfl, by simp [AccessPath.DotFree]⟩
  have hdenotes : AccessPath.Denotes
      { base := "arg0", fields := ["g"], depth := 1, truncated := true }
      (knot.location.below ["g", "h"]) :=
    ⟨["h"], rfl, fun hopen => Bool.noConfusion hopen⟩
  refine ⟨hcarries, hplain, hdenotes, ?_⟩
  refine (normal_simulates_steps ⟨.ofTable .empty, {}, 1⟩ (by decide) knotGraph 0 _ _ hcarries ?_ _
    (by decide) _ hplain _ "" (by decide)).1 _ _ hdenotes (.carry hcarries ["g", "h"])
  rintro f ⟨⟩
  decide

end TaintProblem

end JvmTaint
