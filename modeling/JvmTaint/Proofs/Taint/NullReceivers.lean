import JvmTaint.Proofs.Lowering.Receivers
import JvmTaint.Proofs.Taint.HandOver
import JvmTaint.Proofs.Taint.NullDereferences
import JvmTaint.Proofs.Taint.PathComparison

set_option autoImplicit false
set_option relaxedAutoImplicit false

/-!
# Null values of receivers

Where an instance method starts, its receiver may have a null fact only because a call handed a null
value over as the first operand: the null constant, or a variable with a null fact. A method that
does not store to local variable 0 and does not compare its receiver with null does not give the
fact itself. Its statements and calls assign to other variables, and a method that is called does
not give it back, since of a parameter only what is reached through its fields comes back.

At the call a null receiver is reported, and its fact is not kept behind the call. It is
nevertheless handed over to the methods that the call is analyzed in, so that they report their
receiver again.

## Main definitions

* `JvmTaint.AccessPath.Counted`: the depth of a path counts selectors only.
* `JvmTaint.FlowGraph.TestsNoReceiver`: no statement compares the receiver with null.
* `JvmTaint.TaintProblem.GivesNull`: a rule gives a path in a method the mark of null values.
* `JvmTaint.TaintProblem.HandsNull`: a call hands a null value over as its first operand.

## Main results

* `JvmTaint.TaintProblem.eq_of_mem_normal`, `JvmTaint.TaintProblem.eq_of_mem_callToReturn`,
  `JvmTaint.TaintProblem.not_mem_leave`: what keeps a fact about a variable.
* `JvmTaint.TaintProblem.handsNull_of_found`: the null fact of the receiver comes from calls.
* `JvmTaint.Session.null_receiver_enters`: what is reported of null receivers.
* `JvmTaint.leafProgram_null_receiver_reported`: a null receiver in the method that is called.
-/

namespace JvmTaint

/-! ## Paths of variables -/

namespace AccessPath

variable {p q source target : AccessPath} {k : Int} {name field : String} {fields : List String}

/-- The depth of the path counts selectors only. -/
def Counted (p : AccessPath) : Prop := p.depth ≤ p.fields.length

/-- Extending a path by a name adds a selector for it at least. -/
lemma Counted.extend (h : p.Counted) : (p.extend field k).Counted := by
  unfold AccessPath.extend
  split <;> [exact h; split]
  · exact h
  · have hne : Text.split '.' field ≠ [] := by
      simp [Text.split, Text.splitChars_ne_nil]
    have hpos := List.length_pos_iff.mpr hne
    unfold Counted at h ⊢
    simp only [List.length_append, Nat.cast_add]
    omega

lemma Counted.extendAll (h : p.Counted) : (p.extendAll fields k).Counted := by
  induction fields generalizing p with
  | nil => exact h
  | cons f fields ih => exact ih h.extend

/-- A path that is moved to a location counts selectors only, if the location does. -/
lemma MovesTo.counted (h : MovesTo k p target q) (hle : target.depth ≤ k)
    (htarget : target.Counted) : q.Counted := by
  obtain ⟨n, truncated, rfl⟩ := h.cases hle
  exact Counted.extendAll htarget

/-- Extending a path gives it a selector or marks it. -/
lemma extend_fields_ne_nil (htruncated : (p.extend field k).truncated = false) :
    (p.extend field k).fields ≠ [] := by
  unfold extend at htruncated ⊢
  split at htruncated
  · simp_all
  · split at htruncated
    · simp at htruncated
    · rw [if_neg ‹_›, if_neg ‹_›]
      simp [Text.split, Text.splitChars_ne_nil]

/-- A path without selectors and without a mark was not extended. -/
lemma eq_nil_of_extendAll (hfields : (p.extendAll fields k).fields = [])
    (htruncated : (p.extendAll fields k).truncated = false) : fields = [] := by
  induction fields generalizing p with
  | nil => rfl
  | cons f fields ih =>
    obtain rfl := ih hfields htruncated
    exact absurd hfields (extend_fields_ne_nil htruncated)

/-- A path that is extended is not that of a variable. -/
lemma extend_ne_ofVariable : p.extend field k ≠ ofVariable name := by
  intro h
  have htruncated : (p.extend field k).truncated = false := congrArg AccessPath.truncated h
  exact extend_fields_ne_nil htruncated (congrArg AccessPath.fields h)

/-- What is moved to the path of a variable is moved to the variable, and it has the selectors of
the source and no mark. -/
lemma eq_of_substitute?_eq_ofVariable (hle : target.depth ≤ k)
    (h : p.substitute? source target k = some (ofVariable name)) :
    target = ofVariable name ∧ p.beginsWith source = true ∧ p.fields = source.fields ∧
      p.truncated = false := by
  unfold substitute? at h
  split at h
  · rename_i hbegins
    rw [Option.some_inj, truncate, if_pos (extendAll_depth_le hle)] at h
    have hfields : (target.extendAll (p.fields.drop source.fields.length) k).fields = [] :=
      congrArg AccessPath.fields h
    have htruncated : ((target.extendAll (p.fields.drop source.fields.length) k).truncated ||
        p.truncated) = false := congrArg AccessPath.truncated h
    rw [Bool.or_eq_false_iff] at htruncated
    have hnil := eq_nil_of_extendAll hfields htruncated.1
    rw [hnil, extendAll_nil] at h htruncated
    refine ⟨?_, hbegins, ?_, htruncated.2⟩
    · rw [← h, htruncated.2, Bool.or_false]
    · simp only [beginsWith, Bool.and_eq_true, List.isPrefixOf_iff_prefix] at hbegins
      obtain ⟨rest, hrest⟩ := hbegins.1.2
      rw [← hrest, List.drop_left] at hnil
      rw [← hrest, hnil, List.append_nil]
  · split at h
    · rw [Option.some_inj, truncate, if_pos hle] at h
      exact absurd (congrArg AccessPath.truncated h) (by simp [ofVariable])
    · cases h

/-- Only the path of a variable is moved from a variable to the path of another one. -/
lemma eq_ofVariable_of_substitute? {name' : String} (hle : target.depth ≤ k) (hnonneg : 0 ≤ p.depth)
    (hcounted : p.Counted)
    (h : p.substitute? (ofVariable name') target k = some (ofVariable name)) :
    p = ofVariable name' ∧ target = ofVariable name := by
  obtain ⟨htarget, hbegins, hfields, htruncated⟩ := eq_of_substitute?_eq_ofVariable hle h
  refine ⟨?_, htarget⟩
  obtain ⟨base, fields, depth, isStatic, truncated⟩ := p
  simp only [beginsWith, ofVariable, Bool.and_eq_true, beq_iff_eq] at hbegins
  simp_all [Counted, ofVariable]
  omega

end AccessPath

/-- The path of the receiver of a method. -/
def thisPath : AccessPath := .ofVariable "this"

/-- The depth of the path of the fact counts selectors only. -/
def Fact.Counted (d : Fact) : Prop :=
  ∀ path origin m, d = .taint path origin m → 0 ≤ path.depth ∧ path.Counted

/-! ## What gives a fact about a variable -/

/-- No statement compares the receiver with null. -/
def FlowGraph.TestsNoReceiver (g : FlowGraph) : Prop :=
  ∀ st ∈ g.statements, ∀ c target v, st.action = .branch c target → c.nullTested? = some v →
    v.render ≠ "this"

namespace TaintProblem

variable {p : TaintProblem} {g callee : FlowGraph} {i exit : Nat} {e : Edge} {a : Action Nat}
  {d : Fact} {name m : String} {origin : Site} {lhs : Option Value} {c : Call} {source : AccessPath}
  {callees : List MethodRef}

/-- A rule about a call gives the mark of null values to a path: it is a source there, or it passes
null values on to it. -/
def CallGivesNull (p : TaintProblem) (lhs : Option Value) (c : Call) (path : AccessPath) : Prop :=
  ∃ r ∈ p.rules.matchCall c, r.mark = nullMark ∧
    ((r.kind = .source ∧ ∃ pos ∈ r.positions, path ∈ pos.paths lhs c p.k) ∨
      (r.kind = .passThrough ∧ ∃ pos ∈ r.targets, path ∈ pos.paths lhs c p.k))

/-- A rule gives the mark of null values to a path in a method: on entry to it, or at a call. -/
def GivesNull (p : TaintProblem) (g : FlowGraph) (path : AccessPath) : Prop :=
  (∃ r ∈ p.rules.matchEntry g.ref, r.mark = nullMark ∧
    ∃ pos ∈ r.positions, path ∈ pos.paramPaths g p.k) ∨
  ∃ i lhs c, actionAt g i = .invoke lhs c ∧ p.CallGivesNull lhs c path

/-- The path of a value has its name. -/
lemma render_eq_of_path {v : Value} (h : v.path = .ofVariable name) : v.render = name :=
  congrArg AccessPath.base h

/-- The path of a static field is not that of a variable. -/
lemma ofStatic_ne_ofVariable {owner field : String} :
    AccessPath.ofStatic owner field ≠ .ofVariable name := fun h => by
  cases congrArg AccessPath.isStatic h

/-- A value is moved to a variable only where the statement assigns to it. -/
lemma exists_lhs_of_move? (h : p.move? a = some (source, .ofVariable name)) :
    ∃ l, a.lhs? = some l ∧ l.render = name := by
  cases a with
  | assign l rhs =>
    refine ⟨l, rfl, render_eq_of_path ?_⟩
    obtain ⟨computation, type⟩ := rhs
    cases computation <;> simp_all [move?]
  | fieldRead l base f | staticRead l f | arrayRead l base index =>
    refine ⟨l, rfl, render_eq_of_path ?_⟩
    simp_all [move?]
  | fieldWrite base f src | arrayWrite base index src =>
    simp only [move?, Option.ite_none_right_eq_some, Option.some_inj, Prod.mk.injEq] at h
    exact absurd h.2.2 AccessPath.extend_ne_ofVariable
  | staticWrite f src =>
    simp only [move?, Option.ite_none_right_eq_some, Option.some_inj, Prod.mk.injEq] at h
    exact absurd h.2.2 ofStatic_ne_ofVariable
  | _ => simp [move?] at h

/-- Field rules give taint to a variable only where the statement assigns to it. -/
lemma exists_lhs_of_accessed? (h : p.accessed? a = some (.ofVariable name)) :
    ∃ l, a.lhs? = some l ∧ l.render = name := by
  cases a with
  | fieldRead l base f | staticRead l f =>
    simp only [accessed?, Option.some_inj] at h
    exact ⟨l, rfl, render_eq_of_path h⟩
  | fieldWrite base f src =>
    simp only [accessed?, Option.ite_none_right_eq_some, Option.some_inj] at h
    exact absurd h.2 AccessPath.extend_ne_ofVariable
  | staticWrite f src =>
    simp only [accessed?, Option.some_inj] at h
    exact absurd h ofStatic_ne_ofVariable
  | _ => simp [accessed?] at h

/-- A variable is null after a statement only where the statement assigns to it or tests it. -/
lemma exists_of_nullLocation? (h : p.nullLocation? a e = some (.ofVariable name)) :
    (∃ l, a.lhs? = some l ∧ l.render = name) ∨
      ∃ c target v, a = .branch c target ∧ c.nullTested? = some v ∧ v.render = name := by
  cases a with
  | assign l rhs =>
    refine .inl ⟨l, rfl, render_eq_of_path ?_⟩
    obtain ⟨computation, type⟩ := rhs
    cases computation <;> simp_all [nullLocation?]
  | fieldWrite base f src =>
    simp only [nullLocation?, Option.ite_none_right_eq_some, Option.some_inj] at h
    exact absurd h.2 AccessPath.extend_ne_ofVariable
  | staticWrite f src =>
    simp only [nullLocation?, Option.ite_none_right_eq_some, Option.some_inj] at h
    exact absurd h.2 ofStatic_ne_ofVariable
  | branch c target =>
    simp only [nullLocation?] at h
    split at h
    · rename_i v hv
      rw [Option.ite_none_right_eq_some, Option.some_inj] at h
      exact .inr ⟨c, target, v, rfl, hv, render_eq_of_path h.2⟩
    · cases h
  | _ => simp [nullLocation?] at h

section

variable (hk : 1 ≤ p.k)
include hk

/-- A fact about a variable holds after a statement that neither assigns to it nor compares it with
null only if it holds before. -/
lemma eq_of_mem_normal (hassigns : ∀ l, (actionAt g i).lhs? = some l → l.render ≠ name)
    (htests : ∀ c target v, actionAt g i = .branch c target → c.nullTested? = some v →
      v.render ≠ name)
    (h : Fact.taint (.ofVariable name) origin m ∈ p.normal g i e d) :
    d = .taint (.ofVariable name) origin m := by
  have hnot : ¬ ∃ l, (actionAt g i).lhs? = some l ∧ l.render = name := fun ⟨l, hl, hname⟩ =>
    hassigns l hl hname
  unfold normal at h
  dsimp only at h
  split at h
  · exact (List.mem_singleton.mp h).symm
  cases d with
  | zero =>
    rcases mem_appendNew.mp h with h | h
    · rcases List.mem_cons.mp h with h | h
      · cases h
      · obtain ⟨f, path, r, -, hpath, -, -, heq⟩ := mem_fieldSources.mp h
        cases heq
        exact absurd (exists_lhs_of_accessed? hpath) hnot
    · obtain ⟨-, path, hpath, heq⟩ := mem_nullSources.mp h
      cases heq
      rcases exists_of_nullLocation? hpath with hlhs | ⟨c, target, v, ha, hv, hname⟩
      · exact absurd hlhs hnot
      · exact absurd hname (htests c target v ha hv)
  | taint path origin' m' =>
    simp only [Fact.isZero, Bool.false_eq_true, ↓reduceIte] at h
    split at h
    · cases h
    · rcases mem_transfer.mp h with ⟨heq, -⟩ | ⟨source, target, q, hmove, hq, heq⟩ |
        ⟨l, v, hl, -, -, heq⟩
      · exact heq.symm
      · cases heq
        have hle := ((locatedAt_of_mem_locations (move?_mem_locations hmove)).bounded hk).depth_le
        obtain ⟨rfl, -⟩ := AccessPath.eq_of_substitute?_eq_ofVariable hle hq
        exact absurd (exists_lhs_of_move? hmove) hnot
      · cases heq
        exact absurd ⟨l, hl, rfl⟩ hnot

/-- The null fact of a variable holds behind a call only if it holds before the call, unless it
comes from a method or a rule about the call gives it. -/
lemma eq_of_mem_callToReturn (ha : actionAt g i = .invoke lhs c)
    (hrules : ¬ p.CallGivesNull lhs c (.ofVariable name))
    (h : Fact.taint (.ofVariable name) origin nullMark ∈ p.callToReturn g i e callees d) :
    d = .taint (.ofVariable name) origin nullMark := by
  cases d with
  | zero =>
    simp only [callToReturn, ha, mem_appendNew, List.mem_singleton, List.mem_flatMap,
      List.mem_map] at h
    rcases h with h | ⟨r, hr, pos, hpos, path, hpath, heq⟩
    · cases h
    · simp only [CallRules.of, List.mem_filter, beq_iff_eq] at hr
      simp only [Fact.taint.injEq] at heq
      obtain ⟨rfl, -, hmark⟩ := heq
      exact absurd ⟨r, hr.1, hmark, .inl ⟨hr.2, pos, hpos, hpath⟩⟩ hrules
  | taint path origin' m' =>
    obtain ⟨-, ⟨heq, -⟩ | ⟨q, ⟨r, hr, happlies, -, -, sp, -, target, htarget, tp, htp, hq⟩, -,
      heq⟩⟩ := (mem_callToReturn ha).mp h
    · exact heq.symm
    · cases heq
      simp only [CallRules.of, List.mem_filter, beq_iff_eq] at hr
      obtain ⟨v, hv, rfl⟩ := exists_value_of_mem_paths htp
      have hle := ((LocatedAt.value hv target.fields).bounded hk).depth_le
      obtain ⟨htp', -⟩ := AccessPath.eq_of_substitute?_eq_ofVariable hle hq
      rw [htp'] at htp
      have hmark : r.mark = nullMark := by
        simpa [Rule.appliesTo] using happlies
      exact absurd ⟨r, hr.1, hmark, .inr ⟨hr.2, target, htarget, htp⟩⟩ hrules

/-- What comes back from a method gives no fact about a variable that the call does not assign to:
of a parameter only what is reached through its fields comes back. -/
lemma not_mem_leave (ha : actionAt g i = .invoke lhs c)
    (hlhs : ∀ l, lhs = some l → l.render ≠ name)
    (hcounted : d.Counted) :
    Fact.taint (.ofVariable name) origin m ∉ p.leave g i e callee exit d := by
  intro h
  have hk₀ : 0 ≤ p.k := by omega
  cases d with
  | zero =>
    cases hx : actionAt callee exit with
    | ret src =>
      simp only [leave, ha, hx] at h
      split at h
      · rw [List.mem_ite_nil_right, List.mem_singleton] at h
        cases h.2
        exact hlhs _ rfl rfl
      · cases h
    | _ => simp [leave, ha, hx] at h
  | taint path origin' m' =>
    obtain ⟨hnonneg, hcount⟩ := hcounted path origin' m' rfl
    rcases (mem_leave ha).mp h with ⟨hstatic, heq⟩ | ⟨v, l, q, -, hl, -, -, hq, heq⟩ |
      ⟨hfield, param, v, q, -, -, -, -, hq, heq⟩
    · cases heq
      cases hstatic
    · cases heq
      obtain ⟨-, hpath⟩ := AccessPath.eq_ofVariable_of_substitute? hk₀ hnonneg hcount hq
      exact hlhs l hl (render_eq_of_path hpath)
    · cases heq
      -- only the parameter itself could become the variable, and it is passed by value
      obtain ⟨rfl, -⟩ := AccessPath.eq_ofVariable_of_substitute? hk₀ hnonneg hcount hq
      cases hfield rfl

end

/-! ## What a method is entered with -/

/-- The call at the path edge hands a null value from `origin` over as its first operand, which is
the receiver if it has one: the null constant, or a variable whose null fact holds there. -/
def HandsNull (p : TaintProblem) (origin : Site) (e : PathEdge Fact) : Prop :=
  ∃ lhs c v, actionAt (p.graph e.method) e.node = .invoke lhs c ∧ c.operands.head? = some v ∧
    (v.isNull = true ∧ e.fact = .zero ∧ origin = ⟨(p.graph e.method).ref, e.node⟩ ∨
      v.isVariable = true ∧ e.fact = .taint v.path origin nullMark)

/-- The receiver is bound to the first operand only. -/
lemma head?_of_mem_zip {operands args : List Value} {type : String} {v param : Value}
    (hargs : ∀ v ∈ args, v.render ≠ "this")
    (h : (v, param) ∈ operands.zip (.var .this type :: args)) (hparam : param.render = "this") :
    operands.head? = some v := by
  cases operands with
  | nil => simp at h
  | cons v' operands =>
    rw [List.zip_cons_cons, List.mem_cons] at h
    rcases h with heq | h
    · cases heq
      rfl
    · exact absurd hparam (hargs param (List.of_mem_zip h).2)

/-- A method is entered with the null fact of the receiver only from a call that hands a null value
over as its first operand. -/
lemma handsNull_of_mem_enter {e : PathEdge Fact} (hk : 1 ≤ p.k)
    (hcall : FlowProblem.isCall (p.graph e.method) e.node = true)
    {type : String} {args : List Value} (hparams : callee.params = .var .this type :: args)
    (hargs : ∀ v ∈ args, v.render ≠ "this")
    (hcounted : e.fact.Counted)
    (h : Fact.taint thisPath origin nullMark ∈ p.enter (p.graph e.method) e.node callee e.fact) :
    p.HandsNull origin e := by
  have hk₀ : 0 ≤ p.k := by omega
  obtain ⟨lhs, c, ha⟩ := exists_invoke_of_isCall hcall
  cases hfact : e.fact with
  | zero =>
    rw [hfact] at h
    rcases (mem_enter_zero ha).mp h with h | ⟨-, v, param, hmem, hnull, heq⟩
    · cases h
    · simp only [Fact.taint.injEq, and_true] at heq
      obtain ⟨hpath, rfl⟩ := heq
      rw [hparams] at hmem
      have hhead := head?_of_mem_zip hargs hmem (render_eq_of_path hpath.symm)
      exact ⟨lhs, c, v, ha, hhead, .inl ⟨hnull, hfact, rfl⟩⟩
  | taint path origin' m' =>
    rw [hfact] at h
    obtain ⟨hnonneg, hcount⟩ := hcounted path origin' m' hfact
    rcases (mem_enter ha).mp h with ⟨hstatic, heq⟩ | ⟨v, param, q, hmem, hvar, -, hq, heq⟩
    · cases heq
      cases hstatic
    · cases heq
      obtain ⟨rfl, hpath⟩ := AccessPath.eq_ofVariable_of_substitute? hk₀ hnonneg hcount hq
      rw [hparams] at hmem
      have hhead := head?_of_mem_zip hargs hmem (render_eq_of_path hpath)
      exact ⟨lhs, c, v, ha, hhead, .inr ⟨hvar, hfact⟩⟩

/-- From a call that hands a null value over as its first operand, a method is entered with the null
fact of the receiver. -/
lemma HandsNull.mem_enter {e : PathEdge Fact} (h : p.HandsNull origin e) (hk : 1 ≤ p.k)
    (hderef : p.rules.dereference.isSome = true) {type : String} {args : List Value}
    (hparams : callee.params = .var .this type :: args) :
    Fact.taint thisPath origin nullMark ∈ p.enter (p.graph e.method) e.node callee e.fact := by
  have hk₀ : 0 ≤ p.k := by omega
  obtain ⟨lhs, c, v, ha, hhead, h⟩ := h
  have hmem : (v, Value.var .this type) ∈ c.operands.zip callee.params := by
    obtain ⟨rest, hrest⟩ := List.head?_eq_some_iff.mp hhead
    rw [hrest, hparams]
    exact List.mem_cons_self
  rcases h with ⟨hnull, hfact, rfl⟩ | ⟨hvar, hfact⟩
  · rw [hfact]
    exact (TaintProblem.mem_enter_zero ha).mpr (.inr ⟨hderef, v, _, hmem, hnull, rfl⟩)
  · have hroot : v.path.rootedAt v.render = true := by
      simp [AccessPath.rootedAt, Value.path, AccessPath.ofVariable]
    have hpath : v.path.substitute? v.path (Value.var .this type).path p.k = some thisPath :=
      (AccessPath.regular_ofVariable v.render hk₀).substitute?_ofVariable hroot "this"
    rw [hfact]
    exact (TaintProblem.mem_enter ha).mpr (.inr ⟨v, _, thisPath, hmem, hvar, hroot, hpath, rfl⟩)

/-! ## Along a run -/

/-- Locations count selectors only. -/
lemma LocatedAt.counted {k : Int} {values : List Value} {location : AccessPath}
    (h : LocatedAt k values location) : location.Counted := by
  cases h with
  | value hv fields => exact AccessPath.Counted.extendAll (by
      simp [AccessPath.Counted, Value.path, AccessPath.ofVariable])
  | static owner field =>
    have hne : Text.split '.' field ≠ [] := by simp [Text.split, Text.splitChars_ne_nil]
    have hpos := List.length_pos_iff.mpr hne
    simp only [AccessPath.Counted, AccessPath.ofStatic]
    omega

/-- What follows from a fact counts selectors only, if the fact does. -/
lemma Yields.counted {kept : Fact → Prop} {locations : List AccessPath} {n : Site} {d' : Fact}
    (h : p.Yields kept locations n a d d') (hk : 1 ≤ p.k) {values : List Value}
    (hlocations : ∀ t ∈ locations, LocatedAt p.k values t) (hd : d.Counted) : d'.Counted := by
  cases h with
  | keep => exact hd
  | move htarget hmove =>
    rintro path origin m ⟨⟩
    have hlocated := hlocations _ htarget
    have hbounded := hlocated.bounded hk
    exact ⟨(hmove.bounded hbounded).nonneg, hmove.counted hbounded.depth_le hlocated.counted⟩
  | generate hpath =>
    rintro path origin m ⟨⟩
    have hlocated := hlocations _ hpath
    exact ⟨(hlocated.bounded hk).nonneg, hlocated.counted⟩

variable {retain : Bool} {entries : List MethodRef} {tab : Tabulation Fact}

/-- The paths that a tabulation taints count selectors only.

**Proof sketch.** Induction along the rules: a fact is kept, or it is moved to a location or
generated there, and locations are variables that are extended by names. -/
lemma counted_of_found (h : Tabulation.Grounded p.flowProblem retain entries tab) (hk : 1 ≤ p.k) :
    ∀ e ∈ tab.found, e.fact.Counted := by
  have hparams : ∀ g : FlowGraph, ∀ t ∈ g.params.map Value.path, LocatedAt p.k g.params t := by
    intro g t ht
    obtain ⟨v, hv, rfl⟩ := List.mem_map.mp ht
    exact .value hv []
  have hlocations : ∀ a, ∀ t ∈ p.locations a, LocatedAt p.k a.values t := fun a t ht =>
    locatedAt_of_mem_locations ht
  refine h.induction fun e l hf => ?_
  cases hf with
  | seed hm hd =>
    rcases List.mem_cons.mp hd with rfl | hd
    · exact nofun
    · obtain ⟨r, -, pos, -, path, hpath, rfl⟩ := mem_initial.mp hd
      obtain ⟨v, hv, rfl⟩ := exists_param_of_mem_paramPaths hpath
      rintro path origin m ⟨⟩
      have hlocated : LocatedAt p.k _ (v.path.extendAll pos.fields p.k) := .value hv pos.fields
      exact ⟨(hlocated.bounded hk).nonneg, hlocated.counted⟩
  | intra he hedge hkind hd => exact (normal_yields hd).counted hk (hlocations _) he.2
  | @callToReturn c edge d hc hcall hedge hkind hd =>
    exact (callToReturn_yields (e := edge) hd).counted hk (hlocations _) hc.2
  | call hc henters => exact (enter_yields henters.2.2).counted hk (hparams _) hc.2
  | @ret c x edge d hc hx henters hexit hedge hkind hd =>
    exact (leave_yields (e := edge) hd).counted hk (hlocations _) hx.2

section

variable {r : MethodRef} (hgrounded : Tabulation.Grounded p.flowProblem retain entries tab)
  (hk : 1 ≤ p.k) (hkeeps : (p.graph r).KeepsReceiver)

/-- No statement of a method that keeps its receiver assigns to it. -/
lemma render_ne_this_of_keepsReceiver (h : g.KeepsReceiver) {l : Value}
    (hl : (actionAt g i).lhs? = some l) : l.render ≠ "this" := by
  cases hst : g.statements[i]? with
  | none => simp [actionAt, hst, Action.lhs?] at hl
  | some st =>
    refine h.assigns st (Array.mem_of_getElem? hst) l ?_
    simpa [actionAt, hst] using hl

include hgrounded hk hkeeps

/-- The null fact of the receiver holds in a method only where it holds on entry, and then a call
hands it over. The method must not compare its receiver with null, and no rule may give the fact.

**Proof sketch.** Induction along the rules. Statements and calls of the method keep the fact and do
not give it, since they assign to other variables; a method that is called does not give it back,
since parameters are passed by value. -/
lemma handsNull_of_found (htests : (p.graph r).TestsNoReceiver)
    (hrules : ¬ p.GivesNull (p.graph r) thisPath) : ∀ e ∈ tab.found, e.method = r →
      e.fact = .taint thisPath origin nullMark → e.startFact = e.fact ∧
        ∃ c ∈ tab.found, r ∈ p.flowProblem.targets c.site ∧ p.HandsNull origin c := by
  have hcounted := counted_of_found hgrounded hk
  refine hgrounded.induction fun e l hf hmethod hfact => ?_
  cases hf with
  | @seed m d hm hd =>
    obtain rfl : m = r := hmethod
    obtain rfl : d = .taint thisPath origin nullMark := hfact
    rcases List.mem_cons.mp hd with hd | hd
    · cases hd
    · obtain ⟨rule, hrule, pos, hpos, path, hpath, heq⟩ := mem_initial.mp hd
      simp only [Fact.taint.injEq] at heq
      obtain ⟨rfl, -, hmark⟩ := heq
      exact absurd (.inl ⟨rule, hrule, hmark.symm, pos, hpos, hpath⟩) hrules
  | @intra e edge d he hedge hkind hd =>
    obtain rfl : e.method = r := hmethod
    obtain rfl : d = .taint thisPath origin nullMark := hfact
    have hbefore := eq_of_mem_normal hk (fun l hl => render_ne_this_of_keepsReceiver hkeeps hl)
      (fun c target v ha hv => by
        obtain ⟨st, hst, haction⟩ := exists_statement_of_actionAt ha nofun
        exact htests st (Array.mem_of_getElem? hst) c target v haction hv) hd
    obtain ⟨hstart, hentered⟩ := he.2 rfl hbefore
    exact ⟨hstart.trans hbefore, hentered⟩
  | @callToReturn c edge d hc hcall hedge hkind hd =>
    obtain rfl : c.method = r := hmethod
    obtain rfl : d = .taint thisPath origin nullMark := hfact
    obtain ⟨lhs, call, ha⟩ := exists_invoke_of_isCall hcall
    have hbefore := eq_of_mem_callToReturn (e := edge) hk ha
      (fun h => hrules (.inr ⟨_, lhs, call, ha, h⟩)) hd
    obtain ⟨hstart, hentered⟩ := hc.2 rfl hbefore
    exact ⟨hstart.trans hbefore, hentered⟩
  | @call c m d hc henters =>
    obtain rfl : m = r := hmethod
    obtain rfl : d = .taint thisPath origin nullMark := hfact
    obtain ⟨type, args, hparams, hargs⟩ := hkeeps.params
    exact ⟨rfl, c, hc.1, henters.2.1,
      handsNull_of_mem_enter hk henters.1 hparams hargs (hcounted c hc.1) henters.2.2⟩
  | @ret c x edge d hc hx henters hexit hedge hkind hd =>
    obtain rfl : c.method = r := hmethod
    obtain rfl : d = .taint thisPath origin nullMark := hfact
    obtain ⟨lhs, call, ha⟩ := exists_invoke_of_isCall henters.1
    have hlhs : ∀ l, lhs = some l → l.render ≠ "this" := fun l hl =>
      render_ne_this_of_keepsReceiver hkeeps (congrArg Action.lhs? ha |>.trans hl)
    exact absurd hd (not_mem_leave (e := edge) hk ha hlhs (hcounted x hx.1))

end

/-- Behind a call of a null receiver nothing follows from its null fact that does not go through a
method. -/
lemma callToReturn_eq_nil {path : AccessPath} (ha : actionAt g i = .invoke lhs c)
    (h : p.dereferenced (.invoke lhs c) (.taint path origin m) = true) :
    p.callToReturn g i e callees (.taint path origin m) = [] := by
  simp only [callToReturn, ha, h, ↓reduceIte]

end TaintProblem

/-! ## Reported flows -/

namespace Session

variable {s : Session} {runId : String} {entries : List MethodRef} {rules : RuleSet}
  {o : RunOptions} {cancelled : Bool} {result : AnalysisResult} {error : Option AnalysisError}

/-- An analysis with a result is not refused. If it reports a flow then it has come to its end, and
the flow is one of its tabulation. -/
lemma flows_of_result
    (h : (s.analyze runId entries (some rules) o cancelled).2 = (some result, error)) :
    checkDepth o.bound = true ∧ ∀ f ∈ result.flows, error = none ∧
      f ∈ (s.problem rules o).flows o.provenance (s.tabulate entries rules o cancelled).1 := by
  obtain ⟨s', hanalyze⟩ := s.analyze_eq runId entries rules o cancelled
  rw [hanalyze] at h
  have hconcluded : checkDepth o.bound = true ∧
      s'.conclusion (s.problem rules o) o runId (s.tabulate entries rules o cancelled) =
        (some result, error) := by
    split at h
    · cases h
    · split at h
      · cases h
      · split at h
        · cases h
        · rename_i hdepth hempty hgraph
          exact ⟨by simpa using hdepth, h⟩
  obtain ⟨hdepth, hconclusion⟩ := hconcluded
  refine ⟨hdepth, fun f hf => ?_⟩
  generalize s.tabulate entries rules o cancelled = tab at hconclusion ⊢
  obtain ⟨t, outcome⟩ := tab
  cases outcome with
  | complete =>
    obtain ⟨hresult, herror⟩ := Prod.mk.inj hconclusion
    refine ⟨herror.symm, ?_⟩
    rw [← Option.some.inj hresult, finish_flows] at hf
    split at hf
    · exact List.mem_of_mem_take hf
    · exact hf
  | overBudget budget pending =>
    obtain ⟨hresult, -⟩ := Prod.mk.inj hconclusion
    rw [← Option.some.inj hresult] at hf
    cases hf
  | cancelled => cases hconclusion

/-- **Null receivers.** Consider an instance method whose code does not store to local variable 0
and does not compare the receiver with null, and for which no rule gives the receiver the mark of
null values. A flow with the null fact of the receiver is reported in the method only if a call that
was found hands a null value over as the receiver. Such calls are the only reason for the fact, and
when the analysis is complete each of them is one. At the call itself a null receiver is reported,
and its fact is not kept. -/
theorem null_receiver_enters {t : ClassTable} (s : Session) (hcode : s.code = .ofTable t)
    (rules : RuleSet) (hderef : rules.dereference.isSome = true) (o : RunOptions) (runId : String)
    (entries : List MethodRef) (cancelled : Bool) (result : AnalysisResult)
    (error : Option AnalysisError)
    (h : (s.analyze runId entries (some rules) o cancelled).2 = (some result, error))
    (m : MethodRef) (b : MethodBody) (hbody : t.bodies[m]? = some b)
    (hinstance : b.modifiers.has .static = false) (hstores : b.storesTo 0 = false)
    (g : FlowGraph) (hg : s.code.graph m = .ok g) (htests : g.TestsNoReceiver)
    (hrules : ¬ (s.problem rules o).GivesNull g thisPath) :
    let p := s.problem rules o
    let tab := (s.tabulate entries rules o cancelled).1
    (∀ f ∈ result.flows, f.sink.method = m → f.fact = .taint thisPath f.source nullMark →
      ∃ c, tab.reached c = true ∧ m ∈ p.flowProblem.targets c.site ∧ p.HandsNull f.source c) ∧
    (∀ e origin, tab.reached e = true → e.method = m → e.fact = .taint thisPath origin nullMark →
      e.startFact = e.fact ∧
        ∃ c, tab.reached c = true ∧ m ∈ p.flowProblem.targets c.site ∧ p.HandsNull origin c) ∧
    (error = none → ∀ c origin, tab.reached c = true → m ∈ p.flowProblem.targets c.site →
      p.HandsNull origin c →
        tab.reached ⟨m, .taint thisPath origin nullMark, g.entry,
          .taint thisPath origin nullMark⟩ = true) ∧
    ∀ c g' lhs call v origin, tab.reached c = true → s.code.graph c.method = .ok g' →
      TaintProblem.actionAt g' c.node = .invoke lhs call → call.receiver = some v →
      v.isVariable = true → c.fact = .taint v.path origin nullMark →
        (∃ f ∈ p.flows o.provenance tab, f.source = origin ∧ f.sink = c.site) ∧
        ∀ edge targets, p.callToReturn g' c.node edge targets c.fact = [] := by
  intro p tab
  obtain ⟨hdepth, hflows⟩ := flows_of_result h
  have hk : 1 ≤ p.k := by
    simp only [checkDepth, Bool.and_eq_true, decide_eq_true_eq] at hdepth
    exact hdepth.1
  have hinv := Tabulation.Invariant.of_solve
    (Prod.eta (s.tabulate entries rules o cancelled)).symm
  have hreached : ∀ e, tab.reached e = true ↔ e ∈ tab.found := hinv.toGrounded.reached_iff
  have hgraph : p.graph m = g := graph_problem hg
  have hkeeps : g.KeepsReceiver := by
    rw [hcode] at hg
    obtain ⟨b', hb', hbuild⟩ := CodeBase.build_of_graph hg
    obtain rfl : b' = b := Option.some.inj (hb'.symm.trans hbody)
    exact FlowGraph.build_keepsReceiver hinstance hbuild hstores
  have hfound : ∀ e origin, e ∈ tab.found → e.method = m →
      e.fact = .taint thisPath origin nullMark → e.startFact = e.fact ∧
        ∃ c, tab.reached c = true ∧ m ∈ p.flowProblem.targets c.site ∧ p.HandsNull origin c := by
    intro e origin he hm hfact
    obtain ⟨hstart, c, hc, hcall⟩ := TaintProblem.handsNull_of_found hinv.toGrounded hk
      (hgraph ▸ hkeeps) (hgraph ▸ htests) (hgraph ▸ hrules) e he hm hfact
    exact ⟨hstart, c, (hreached c).mpr hc, hcall⟩
  refine ⟨fun f hf hm hfact => ?_, fun e origin he => hfound e origin ((hreached e).mp he),
    fun herror c origin hc htarget hnull => ?_,
    fun c g' lhs call v origin hc hg' ha hreceiver hvar hfact => ?_⟩
  · obtain ⟨-, hf⟩ := hflows f hf
    obtain ⟨e, he, hreported, hsame, -⟩ := TaintProblem.exists_reportedAt_of_mem_flows hf
    have hmethod : e.method = m := (congrArg Site.method hreported.1).trans hm
    exact (hfound e f.source he hmethod (hsame.trans hfact)).2
  · -- the call enters the method with the null fact of the receiver
    subst herror
    have hcomplete := (exists_result_iff.mp ⟨result, h⟩).2.2.2
    have hclosed := hinv.closed (Tabulation.pending_of_solve (Prod.ext rfl hcomplete))
    obtain ⟨type, args, hparams, -⟩ := hkeeps.params
    have henters : p.flowProblem.Enters c.site c.fact m (.taint thisPath origin nullMark) := by
      have hparams' : (p.graph m).params = .var .this type :: args := hgraph ▸ hparams
      refine ⟨?_, htarget, hnull.mem_enter hk hderef hparams'⟩
      obtain ⟨lhs, call, v, ha, -⟩ := hnull
      exact (TaintProblem.isCall_of_invoke ha).1
    have hentry := hclosed _ _ (.call ((hreached c).mp hc) henters)
    rw [hreached, ← hgraph]
    exact hentry
  · have hnull : (Action.invoke lhs call : Action Nat).DereferencesNull v.path nullMark :=
      ⟨rfl, v, hreceiver, hvar, rfl⟩
    constructor
    · have hat : TaintProblem.actionAt (p.graph c.method) c.node = .invoke lhs call := by
        rw [show p.graph c.method = g' from graph_problem hg', ha]
      refine (TaintProblem.exists_flow_iff o.provenance tab).mpr ⟨c, (hreached c).mp hc,
        TaintProblem.reportedAt_iff_hits.mpr (.inr ⟨hderef, rfl, v.path, nullMark, hfact, ?_⟩)⟩
      rw [hat]
      exact hnull
    · intro edge targets
      rw [hfact]
      exact TaintProblem.callToReturn_eq_nil ha
        (TaintProblem.dereferenced_eq_true.mpr ⟨hderef, hnull⟩)

end Session

/-! ## A program with a null receiver -/

/-- A method that calls a method of its argument if that is null: `aload_0`, `ifnull 5`, `return`,
`aload_0`, `invokevirtual touch`, `return`. -/
def leafMain : MethodDecl where
  name := "main"
  descriptor := "(LLeaf;)V"
  flags := AccessFlags.empty.insert .static
  maxLocals := 1
  code := some [
    { pc := 0, op := ⟨42⟩ },
    { pc := 1, op := ⟨198⟩, target := 5 },
    { pc := 4, op := ⟨177⟩ },
    { pc := 5, op := ⟨42⟩ },
    { pc := 6, op := ⟨182⟩, owner := "Leaf", name := "touch", desc := "()V" },
    { pc := 9, op := ⟨177⟩ }]

/-- An instance method that reads a field of its receiver: `aload_0`, `getfield f`, `pop`,
`return`. -/
def leafTouch : MethodDecl where
  name := "touch"
  descriptor := "()V"
  maxLocals := 1
  code := some [
    { pc := 0, op := ⟨42⟩ },
    { pc := 1, op := ⟨180⟩, owner := "Leaf", name := "f", desc := "I" },
    { pc := 4, op := ⟨87⟩ },
    { pc := 5, op := ⟨177⟩ }]

/-- The class of the two methods. -/
def leafType : ClassDecl where
  name := "Leaf"
  super := javaLangObject
  methods := [some leafMain, some leafTouch]

/-- The program of the two methods. -/
def leafProgram : Program where
  classes := some [some leafType]

/-- The name of the first method. -/
def leafMainRef : MethodRef := ⟨"Leaf", "main", "(LLeaf;)V"⟩

/-- The name of the second method. -/
def leafTouchRef : MethodRef := ⟨"Leaf", "touch", "()V"⟩

/-- The argument of the first method. -/
def leafArg : Value := .var (.arg 0) "LLeaf;"

/-- The call of the second method. -/
def leafCall : Call := ⟨.virtual, leafTouchRef, some leafArg, []⟩

/-- The flow graph of the first method. -/
def leafMainGraph : FlowGraph where
  ref := leafMainRef
  modifiers := AccessFlags.empty.insert .static
  params := [leafArg]
  statements := #[
    ⟨1, .branch ⟨.eq, leafArg, .const "null" ""⟩ 2, false⟩,
    ⟨4, .ret none, false⟩,
    ⟨6, .invoke none leafCall, false⟩,
    ⟨9, .ret none, false⟩,
    ⟨-1, .exit, true⟩]
  succs := #[
    [⟨0, 2, .onTrue, "", false⟩, ⟨0, 1, .onFalse, "", false⟩], [],
    [⟨2, 3, .normal, "", false⟩, ⟨2, 4, .exception, "", false⟩], [], []]
  exits := [1, 3, 4]

/-- The flow graph of the second method. -/
def leafTouchGraph : FlowGraph where
  ref := leafTouchRef
  modifiers := AccessFlags.empty
  params := [.var .this "LLeaf;"]
  statements := #[
    ⟨1, .fieldRead (.var (.slot 0) "I") (.var .this "LLeaf;") ⟨"Leaf", "f", "I"⟩, false⟩,
    ⟨5, .ret none, false⟩,
    ⟨-1, .exit, true⟩]
  succs := #[[⟨0, 1, .normal, "", false⟩, ⟨0, 2, .exception, "", false⟩], [], []]
  exits := [1, 2]

/-- The class table of the program. -/
def leafTable : ClassTable where
  classes := (∅ : Std.HashMap String ClassDecl).insert "Leaf" leafType
  order := ["Leaf"]
  bodies := ((∅ : Std.HashMap MethodRef MethodBody).insert leafMainRef
    (ClassTable.bodyOf leafType leafMain)).insert leafTouchRef
      (ClassTable.bodyOf leafType leafTouch)
  subtypes := (∅ : Std.HashMap String (List String)).insert javaLangObject ["Leaf"]

/-- The class table with the flow graphs of the program. -/
def leafCode : CodeBase where
  table := leafTable
  graphs := ((∅ : Std.HashMap MethodRef (Except BuildError FlowGraph)).insert leafMainRef
    (.ok leafMainGraph)).insert leafTouchRef (.ok leafTouchGraph)

lemma ofProgram_leafProgram : ClassTable.ofProgram leafProgram = .ok leafTable := by cbv

lemma build_leafProgram :
    FlowGraph.build (some leafTable) (ClassTable.bodyOf leafType leafMain) = .ok leafMainGraph ∧
      FlowGraph.build (some leafTable) (ClassTable.bodyOf leafType leafTouch) =
        .ok leafTouchGraph := by
  decide +kernel

/-- The flow graphs are those that are built. -/
lemma leafCode_agrees : (CodeBase.ofTable leafTable).Agrees leafCode :=
  ((CodeBase.Records.nil.insert leafMainRef build_leafProgram.1).insert leafTouchRef
    build_leafProgram.2).agrees

/-- Null dereferences are reported, and nothing else. -/
def leafSpec : ProblemSpec where
  name := "null"
  nullDereference := true

/-- The rules about null dereferences. -/
def leafRules : RuleSet where
  name := "null"
  rules := []
  dereference := some (RuleSet.dereferenceRule 0)

lemma ofSpec_leafSpec : RuleSet.ofSpec leafSpec = .ok leafRules := rfl

/-- The null value of the argument is reported at the call and in the method that is called. -/
lemma sightings_leafRules :
    ({ code := leafCode } : Session).sightings [leafMainRef] leafRules {} =
    (.complete, [((⟨leafMainRef, 0⟩, ⟨leafMainRef, 2⟩), true),
      ((⟨leafMainRef, 0⟩, ⟨leafTouchRef, 0⟩), true)]) := by
  cbv

/-- The analyses of the program. -/
def leafSession : Session where
  code := .ofTable leafTable

/-- The flow graph of the second method in the program. -/
lemma graph_leafTouch : leafSession.code.graph leafTouchRef = .ok leafTouchGraph :=
  (leafCode_agrees.graph leafTouchRef).trans (by cbv)

/-- The program is analyzed. Both flows come from the comparison, one ends at the call and one in
the method that is called, with the null fact of the receiver. -/
lemma exists_result_of_leaf :
    ∃ result, (leafSession.analyze "" [leafMainRef] (some leafRules) {} false).2 =
        (some result, none) ∧
      (∃ f ∈ result.flows, f.source = ⟨leafMainRef, 0⟩ ∧ f.sink = ⟨leafMainRef, 2⟩) ∧
      ∃ f ∈ result.flows, f.source = ⟨leafMainRef, 0⟩ ∧ f.sink = ⟨leafTouchRef, 0⟩ ∧
        f.fact = .taint thisPath ⟨leafMainRef, 0⟩ nullMark := by
  obtain ⟨result, hcomputed, hsights⟩ := Session.exists_result_of_sightings (by decide) (by decide)
    (by decide) sightings_leafRules ""
  have hresult : (leafSession.analyze "" [leafMainRef] (some leafRules) {} false).2 =
      (some result, none) :=
    (congrArg Prod.snd (Session.analyze_withCode (s := { code := leafCode })
      leafCode_agrees.interchangeable.symm "" [leafMainRef] (some leafRules) {} false)).trans
        hcomputed
  have hmem : ∀ sink, ((⟨leafMainRef, 0⟩, sink), true) ∈
      [((⟨leafMainRef, 0⟩, ⟨leafMainRef, 2⟩), true),
        (((⟨leafMainRef, 0⟩ : Site), (⟨leafTouchRef, 0⟩ : Site)), true)] →
      ∃ f ∈ result.flows, f.source = ⟨leafMainRef, 0⟩ ∧ f.sink = sink := by
    intro sink hsink
    obtain ⟨f, hf, hends⟩ := List.mem_map.mp (hsights.symm.subset hsink)
    simp only [Flow.ends, Prod.mk.injEq] at hends
    exact ⟨f, hf, hends.1.1, hends.1.2⟩
  obtain ⟨f, hf, hsource, hsink⟩ := hmem ⟨leafTouchRef, 0⟩ (by simp)
  refine ⟨result, hresult, hmem _ (by simp), f, hf, hsource, hsink, ?_⟩
  -- no rule is a sink, so that the receiver is what is dereferenced
  obtain ⟨e, -, hreported, hfact, -⟩ :=
    TaintProblem.exists_reportedAt_of_mem_flows ((Session.flows_of_result hresult).2 f hf).2
  rcases TaintProblem.reportedAt_iff_hits.mp hreported with ⟨r, hr, -⟩ |
    ⟨-, hsite, path, mark, htaint, rfl, v, hv, -, rfl⟩
  · cases hr
  · rw [hsink] at hsite
    have hmethod : e.method = leafTouchRef := congrArg Site.method hsite
    have hnode : e.node = 0 := congrArg Site.index hsite
    have hgraph : (leafSession.problem leafRules {}).graph leafTouchRef = leafTouchGraph :=
      Session.graph_problem graph_leafTouch
    rw [hmethod, hnode, hgraph] at hv
    obtain rfl : Value.var .this "LLeaf;" = v := Option.some.inj hv
    rw [← hfact, htaint, hsource]
    rfl

lemma bodies_leafTouch :
    leafTable.bodies[leafTouchRef]? = some (ClassTable.bodyOf leafType leafTouch) := by
  cbv

lemma testsNoReceiver_leafTouch : leafTouchGraph.TestsNoReceiver := by
  simp [FlowGraph.TestsNoReceiver, leafTouchGraph]

/-- There is no rule that gives a mark. -/
lemma not_givesNull_leaf :
    ¬ (leafSession.problem leafRules {}).GivesNull leafTouchGraph thisPath := by
  rintro (⟨r, hr, -⟩ | ⟨i, lhs, c, -, r, hr, -⟩) <;> cases hr

/-- The null fact of the receiver holds in the second method of the program, because the call hands
the argument over. -/
theorem leafProgram_null_receiver_handed_over :
    ClassTable.ofProgram leafProgram = .ok leafTable ∧ leafSession.code = .ofTable leafTable ∧
      leafRules.dereference.isSome = true ∧ ∃ result,
      (leafSession.analyze "" [leafMainRef] (some leafRules) {} false).2 = (some result, none) ∧
      ∃ f ∈ result.flows, f.sink.method = leafTouchRef ∧
        f.fact = .taint thisPath f.source nullMark ∧
        ∃ c, (leafSession.tabulate [leafMainRef] leafRules {} false).1.reached c = true ∧
          leafTouchRef ∈ (leafSession.problem leafRules {}).flowProblem.targets c.site ∧
          (leafSession.problem leafRules {}).HandsNull f.source c := by
  obtain ⟨result, hresult, -, f, hf, hsource, hsink, hfact⟩ := exists_result_of_leaf
  have hmethod : f.sink.method = leafTouchRef := congrArg Site.method hsink
  have hthis : f.fact = .taint thisPath f.source nullMark := by rw [hfact, hsource]
  obtain ⟨hflows, -⟩ := leafSession.null_receiver_enters rfl leafRules (by decide) {} ""
    [leafMainRef] false result none hresult leafTouchRef _ bodies_leafTouch (by decide) (by decide)
    leafTouchGraph graph_leafTouch testsNoReceiver_leafTouch not_givesNull_leaf
  exact ⟨ofProgram_leafProgram, rfl, by decide, result, hresult, f, hf, hmethod, hthis,
    hflows f hf hmethod hthis⟩

/-- **A null receiver in the method that is called.** The argument is compared with null, and where
it is null a method of it is called. The call is reported, and so is the field that the method reads
from its receiver, with the null fact of the receiver. The method does not store to local variable 0
and compares nothing, and there are no rules but that of null dereferences. -/
theorem leafProgram_null_receiver_reported :
    ClassTable.ofProgram leafProgram = .ok leafTable ∧ leafSession.code = .ofTable leafTable ∧
      RuleSet.ofSpec leafSpec = .ok leafRules ∧ leafRules.dereference.isSome = true ∧
      leafRules.rules = [] ∧
      leafTable.bodies[leafTouchRef]? = some (ClassTable.bodyOf leafType leafTouch) ∧
      (ClassTable.bodyOf leafType leafTouch).modifiers.has .static = false ∧
      (ClassTable.bodyOf leafType leafTouch).storesTo 0 = false ∧
      leafSession.code.graph leafTouchRef = .ok leafTouchGraph ∧ leafTouchGraph.TestsNoReceiver ∧
      ¬ (leafSession.problem leafRules {}).GivesNull leafTouchGraph thisPath ∧ ∃ result,
      (leafSession.analyze "" [leafMainRef] (some leafRules) {} false).2 = (some result, none) ∧
      (∃ f ∈ result.flows, f.source = ⟨leafMainRef, 0⟩ ∧ f.sink = ⟨leafMainRef, 2⟩) ∧
      ∃ f ∈ result.flows, f.source = ⟨leafMainRef, 0⟩ ∧ f.sink = ⟨leafTouchRef, 0⟩ ∧
        f.fact = .taint thisPath ⟨leafMainRef, 0⟩ nullMark := by
  obtain ⟨result, hresult, hcall, hinside⟩ := exists_result_of_leaf
  exact ⟨ofProgram_leafProgram, rfl, ofSpec_leafSpec, by decide, rfl, bodies_leafTouch, by decide,
    by decide, graph_leafTouch, testsNoReceiver_leafTouch, not_givesNull_leaf, result, hresult,
    hcall, hinside⟩

end JvmTaint
