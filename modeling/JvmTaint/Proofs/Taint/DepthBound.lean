import JvmTaint.Proofs.Taint.FlowFunctions
import JvmTaint.Proofs.Taint.Reports
import JvmTaint.Proofs.Taint.Truncation

set_option autoImplicit false
set_option relaxedAutoImplicit false

/-!
# Lowering the bound of access paths

An analysis with a smaller bound of access paths has a truncated path where one with a larger bound
has a longer one. If each flow function gives at least as much for a truncated path as for the paths
that it stands for, then every flow that is reported with the larger bound is reported with the
smaller one.

This holds for all ways in which paths are moved, by statements, calls, returns and pass-through
rules, and for the reports at sinks. It fails in three places. A value that is computed from a
variable is tainted if the variable itself is, and not if all that can be reached from it is,
although the variable is among that. A call that is analyzed is handed all that can be reached from
an operand, but keeps the operand itself, which the method cannot change. And a sanitizer whose
position is cut by the bound removes more than its position.

## Main definitions

* `JvmTaint.Fact.Covers`: a fact within a bound covers one within a larger bound.
* `JvmTaint.TaintProblem.PlainNames`: names of fields have no dots.
* `JvmTaint.TaintProblem.SanitizersFit`: the positions of sanitizers are within the bound.
* `JvmTaint.TaintProblem.KeepsVariables`: where all that can be reached from a variable is tainted,
  the variable is taken to be tainted.

## Main results

* `JvmTaint.TaintProblem.transfer_covered`, `JvmTaint.TaintProblem.callToReturn_covered`,
  `JvmTaint.TaintProblem.enter_covered`, `JvmTaint.TaintProblem.leave_covered`: the flow functions
  respect covering.
* `JvmTaint.Session.reports_of_le_bound`: a smaller bound loses no flow, where variables are kept.
* `JvmTaint.chainProgram_loses_flow`: it loses one where a value is computed from a variable.
-/

namespace JvmTaint

open AccessPath

/-- The fact `r` within the bound `k` covers the fact `d` within the bound `k'`: it is taint of the
same origin and mark, on a path that covers the path of `d`. -/
inductive Fact.Covers (k k' : Int) : Fact → Fact → Prop
  | zero : Fact.Covers k k' .zero .zero
  | taint {s d : AccessPath} {origin : Site} {m : String} (h : AccessPath.Covers k k' s d) :
      Fact.Covers k k' (.taint s origin m) (.taint d origin m)

namespace TaintProblem

/-- The problem with another bound of access paths. -/
def withBound (p : TaintProblem) (k : Int) : TaintProblem := { p with k }

/-- The names of fields, in the accesses of the program and in the positions of the rules, have no
dots. -/
structure PlainNames (p : TaintProblem) : Prop where
  fields : ∀ m, ∀ st ∈ (p.graph m).statements, ∀ f, st.action.field? = some f →
    '.' ∉ f.name.toList
  positions : ∀ r ∈ p.rules.rules, ∀ pos ∈ r.positions ++ r.sources ++ r.targets,
    ∀ f ∈ pos.fields, '.' ∉ f.toList

/-- The field that a statement accesses has no dots in its name. -/
lemma PlainNames.field_plain {p : TaintProblem} (h : p.PlainNames) (m : MethodRef) (i : Nat)
    (f : FieldRef) (hf : (actionAt (p.graph m) i).field? = some f) : '.' ∉ f.name.toList := by
  unfold actionAt at hf
  cases hst : (p.graph m).statements[i]? with
  | none => simp [hst, Action.field?] at hf
  | some st =>
    rw [hst] at hf
    exact h.fields m st (Array.mem_of_getElem? hst) f hf

/-- The positions of sanitizers are within the bound. -/
def SanitizersFit (p : TaintProblem) : Prop :=
  ∀ r ∈ p.rules.rules, r.kind = .sanitizer → ∀ pos ∈ r.positions,
    (pos.fields.length : Int) ≤ p.k

variable {p : TaintProblem} {k' : Int} {g callee : FlowGraph} {i exit : Nat} {e : Edge}
  {a : Action Nat} {d' : Fact} {s d : AccessPath} {origin : Site} {m : String} {lhs : Option Value}
  {c : Call}

/-! ## Locations -/

/-- The path of a variable is the same within both bounds. -/
lemma cutOf_path (hk : 1 ≤ p.k) (hle : p.k ≤ k') (v : Value) : CutOf p.k k' v.path v.path :=
  (regular_ofVariable v.render (by omega)).cutOf rfl hle

/-- The path of a field is the same within both bounds. -/
lemma cutOf_fieldPath (hk : 1 ≤ p.k) (hle : p.k ≤ k') (v : Value) {field : String}
    (hdots : '.' ∉ field.toList) :
    CutOf p.k k' (p.fieldPath v field) ((p.withBound k').fieldPath v field) ∧
      (p.fieldPath v field).truncated = false := by
  have hplain : ∀ f ∈ [field], '.' ∉ f.toList := by simpa using hdots
  exact ⟨cutOf_extendAll v.render (by omega) hle hplain,
    extendAll_ofVariable_truncated v.render (by omega) (by simpa using hk) hplain⟩

/-- The path of a static field is the same within both bounds. -/
lemma cutOf_ofStatic (hk : 1 ≤ p.k) (hle : p.k ≤ k') (owner : String) {field : String}
    (hdots : '.' ∉ field.toList) : CutOf p.k k' (ofStatic owner field) (ofStatic owner field) :=
  (regular_ofStatic owner hdots hk).cutOf rfl hle

/-- The array selector has no dots. -/
lemma arrayElement_plain : '.' ∉ arrayElement.toList := by decide

/-- A statement moves values between the same locations within both bounds. -/
lemma move?_withBound (hk : 1 ≤ p.k) (hle : p.k ≤ k')
    (hplain : ∀ f, a.field? = some f → '.' ∉ f.name.toList) {source' target' : AccessPath}
    (h : (p.withBound k').move? a = some (source', target')) :
    ∃ source target, p.move? a = some (source, target) ∧ CutOf p.k k' source source' ∧
      CutOf p.k k' target target' := by
  cases a with
  | assign l rhs =>
    obtain ⟨computation, type⟩ := rhs
    cases computation with
    | copy v =>
      simp only [move?, Option.ite_none_right_eq_some, Option.some_inj, Prod.mk.injEq] at h ⊢
      obtain ⟨hvar, rfl, rfl⟩ := h
      exact ⟨_, _, ⟨hvar, rfl, rfl⟩, cutOf_path hk hle v, cutOf_path hk hle l⟩
    | cast v =>
      simp only [move?, Option.ite_none_right_eq_some, Option.some_inj, Prod.mk.injEq] at h ⊢
      obtain ⟨hvar, rfl, rfl⟩ := h
      exact ⟨_, _, ⟨hvar, rfl, rfl⟩, cutOf_path hk hle v, cutOf_path hk hle l⟩
    | _ => simp [move?] at h
  | fieldRead l base f =>
    simp only [move?, Option.ite_none_right_eq_some, Option.some_inj, Prod.mk.injEq] at h ⊢
    obtain ⟨hvar, rfl, rfl⟩ := h
    exact ⟨_, _, ⟨hvar, rfl, rfl⟩, (cutOf_fieldPath hk hle base (hplain f rfl)).1,
      cutOf_path hk hle l⟩
  | staticRead l f =>
    simp only [move?, Option.some_inj, Prod.mk.injEq] at h ⊢
    obtain ⟨rfl, rfl⟩ := h
    exact ⟨_, _, ⟨rfl, rfl⟩, cutOf_ofStatic hk hle f.cls (hplain f rfl), cutOf_path hk hle l⟩
  | arrayRead l base element =>
    simp only [move?, Option.ite_none_right_eq_some, Option.some_inj, Prod.mk.injEq] at h ⊢
    obtain ⟨hvar, rfl, rfl⟩ := h
    exact ⟨_, _, ⟨hvar, rfl, rfl⟩, (cutOf_fieldPath hk hle base arrayElement_plain).1,
      cutOf_path hk hle l⟩
  | fieldWrite base f src =>
    simp only [move?, Option.ite_none_right_eq_some, Option.some_inj, Prod.mk.injEq] at h ⊢
    obtain ⟨hvar, rfl, rfl⟩ := h
    exact ⟨_, _, ⟨hvar, rfl, rfl⟩, cutOf_path hk hle src,
      (cutOf_fieldPath hk hle base (hplain f rfl)).1⟩
  | staticWrite f src =>
    simp only [move?, Option.ite_none_right_eq_some, Option.some_inj, Prod.mk.injEq] at h ⊢
    obtain ⟨hvar, rfl, rfl⟩ := h
    exact ⟨_, _, ⟨hvar, rfl, rfl⟩, cutOf_path hk hle src,
      cutOf_ofStatic hk hle f.cls (hplain f rfl)⟩
  | arrayWrite base element src =>
    simp only [move?, Option.ite_none_right_eq_some, Option.some_inj, Prod.mk.injEq] at h ⊢
    obtain ⟨hvar, rfl, rfl⟩ := h
    exact ⟨_, _, ⟨hvar, rfl, rfl⟩, cutOf_path hk hle src,
      (cutOf_fieldPath hk hle base arrayElement_plain).1⟩
  | _ => simp [move?] at h

/-- A field access gives the taint of field rules to the same location within both bounds. -/
lemma accessed?_withBound (hk : 1 ≤ p.k) (hle : p.k ≤ k')
    (hplain : ∀ f, a.field? = some f → '.' ∉ f.name.toList) {path' : AccessPath}
    (h : (p.withBound k').accessed? a = some path') :
    ∃ path, p.accessed? a = some path ∧ CutOf p.k k' path path' := by
  cases a with
  | fieldRead l base f =>
    obtain rfl : l.path = path' := by simpa [accessed?] using h
    exact ⟨_, rfl, cutOf_path hk hle l⟩
  | staticRead l f =>
    obtain rfl : l.path = path' := by simpa [accessed?] using h
    exact ⟨_, rfl, cutOf_path hk hle l⟩
  | fieldWrite base f src =>
    simp only [accessed?, Option.ite_none_right_eq_some, Option.some_inj] at h ⊢
    obtain ⟨hvar, rfl⟩ := h
    exact ⟨_, ⟨hvar, rfl⟩, (cutOf_fieldPath hk hle base (hplain f rfl)).1⟩
  | staticWrite f src =>
    obtain rfl : ofStatic f.cls f.name = path' := by simpa [accessed?] using h
    exact ⟨_, rfl, cutOf_ofStatic hk hle f.cls (hplain f rfl)⟩
  | _ => simp [accessed?] at h

/-- A position at a variable within both bounds. -/
lemma cutOf_pathFrom (hk : 1 ≤ p.k) (hle : p.k ≤ k') {pos : Position}
    (hplain : ∀ f ∈ pos.fields, '.' ∉ f.toList) (v : Var) :
    CutOf p.k k' (pos.pathFrom p.k v) (pos.pathFrom k' v) :=
  cutOf_extendAll v.name (by omega) hle hplain

/-! ## Statements -/

/-- What overwrites a path overwrites what it covers. -/
lemma overwrites_of_covers (h : AccessPath.Covers p.k k' s d) (hk : 1 ≤ p.k) (hle : p.k ≤ k')
    (hplain : ∀ f, a.field? = some f → '.' ∉ f.name.toList) (hover : p.overwrites a s = true) :
    (p.withBound k').overwrites a d = true := by
  cases a with
  | fieldWrite base f src =>
    simp only [overwrites, Bool.and_eq_true] at hover ⊢
    obtain ⟨hcut, hopen⟩ := cutOf_fieldPath hk hle base (hplain f rfl)
    exact ⟨hover.1, h.beginsWith hcut.toCovers hopen hover.2⟩
  | staticWrite f src =>
    simp only [overwrites] at hover ⊢
    exact h.beginsWith (cutOf_ofStatic hk hle f.cls (hplain f rfl)).toCovers rfl hover
  | invoke lhs c => cases hover
  | _ =>
    simp only [overwrites, h.rootedAt] at hover ⊢
    exact hover

/-- What holds after a statement is covered by what holds after it for a covering path, unless it is
computed from a variable and the covering path is all that can be reached from it. -/
lemma transfer_covered (h : AccessPath.Covers p.k k' s d) (hk : 1 ≤ p.k) (hle : p.k ≤ k')
    (hplain : ∀ f, a.field? = some f → '.' ∉ f.name.toList)
    (hd' : d' ∈ (p.withBound k').transfer a (.taint d origin m)) :
    (∃ r ∈ p.transfer a (.taint s origin m), Fact.Covers p.k k' r d') ∨
      ∃ l v, a.lhs? = some l ∧ v ∈ a.computedFrom ∧ s = below v.render ∧
        d' = .taint l.path origin m := by
  rcases mem_transfer.mp hd' with
    ⟨rfl, hkept⟩ | ⟨source', target', q, hmove, hq, rfl⟩ | ⟨l, v, hl, hv, rfl, rfl⟩
  · refine Or.inl ⟨_, mem_transfer.mpr (Or.inl ⟨rfl, ?_⟩), .taint h⟩
    by_contra hover
    rw [Bool.not_eq_false] at hover
    rw [overwrites_of_covers h hk hle hplain hover] at hkept
    cases hkept
  · obtain ⟨source, target, hmove, hsource, htarget⟩ := move?_withBound hk hle hplain hmove
    obtain ⟨s', hs', hcovers⟩ := h.substitute? hle hsource htarget.toCovers hq
    exact Or.inl ⟨_, mem_transfer.mpr (Or.inr (Or.inl ⟨_, _, _, hmove, hs', rfl⟩)), .taint hcovers⟩
  · rcases h.eq_or_eq_below with rfl | rfl
    · exact Or.inl ⟨_, mem_transfer.mpr (Or.inr (Or.inr ⟨l, v, hl, hv, rfl, rfl⟩)),
        .taint (cutOf_path hk hle l).toCovers⟩
    · exact Or.inr ⟨l, v, hl, hv, rfl, rfl⟩

/-- A branch that refutes taint of a path refutes that of what it covers. -/
lemma refuted_of_covers (h : AccessPath.Covers p.k k' s d)
    (hrefuted : refuted a e (.taint s origin m) = true) :
    refuted a e (.taint d origin m) = true := by
  cases a with
  | branch c target =>
    simp only [refuted] at hrefuted ⊢
    split at hrefuted
    · rename_i v hv
      simp only [Bool.and_eq_true, Fact.isNullOf, beq_iff_eq] at hrefuted ⊢
      obtain ⟨hkind, hmark, rfl⟩ := hrefuted
      exact ⟨hkind, hmark, (h.eq_of_not_truncated rfl).symm⟩
    · cases hrefuted
  | _ => cases hrefuted

/-- Nothing is dereferenced if null dereferences are not reported. -/
lemma dereferenced_eq_false (hnull : p.rules.dereference = none) (f : Fact) :
    p.dereferenced a f = false := by
  simp [dereferenced, hnull]

/-- No null facts are generated if null dereferences are not reported. -/
lemma nullSources_eq_nil (hnull : p.rules.dereference = none) (site : Site) :
    p.nullSources site a e = [] := by
  simp [nullSources, hnull]

/-- What holds after a statement is covered, unless it is computed from a variable and the covering
path is all that can be reached from it. -/
lemma normal_covered {r d : Fact} (h : Fact.Covers p.k k' r d) (hk : 1 ≤ p.k) (hle : p.k ≤ k')
    (hnull : p.rules.dereference = none)
    (hplain : ∀ f, (actionAt g i).field? = some f → '.' ∉ f.name.toList)
    (hd' : d' ∈ (p.withBound k').normal g i e d) :
    (∃ r' ∈ p.normal g i e r, Fact.Covers p.k k' r' d') ∨
      e.kind ≠ .exception ∧ ∃ l v origin m, (actionAt g i).lhs? = some l ∧
        v ∈ (actionAt g i).computedFrom ∧ r = .taint (below v.render) origin m ∧
        d' = .taint l.path origin m := by
  have hnull' : (p.withBound k').rules.dereference = none := hnull
  unfold normal at hd' ⊢
  dsimp only at hd' ⊢
  by_cases hkind : e.kind = .exception
  · rw [if_pos hkind] at hd' ⊢
    rw [List.mem_singleton.mp hd']
    exact Or.inl ⟨r, List.mem_singleton_self r, h⟩
  · rw [if_neg hkind] at hd' ⊢
    cases h with
    | zero =>
      left
      simp only [Fact.isZero, ↓reduceIte, mem_appendNew, nullSources_eq_nil hnull,
        nullSources_eq_nil hnull', List.not_mem_nil, or_false, List.mem_cons] at hd' ⊢
      rcases hd' with rfl | hd'
      · exact ⟨_, Or.inl rfl, .zero⟩
      · obtain ⟨f, path', rule, hf, haccessed, hrule, hsource, rfl⟩ := mem_fieldSources.mp hd'
        obtain ⟨path, hpath, hcut⟩ := accessed?_withBound hk hle hplain haccessed
        exact ⟨_, Or.inr (mem_fieldSources.mpr ⟨f, path, rule, hf, hpath, hrule, hsource, rfl⟩),
          .taint hcut.toCovers⟩
    | @taint s d origin m h =>
      simp only [Fact.isZero, Bool.false_eq_true, ↓reduceIte, dereferenced_eq_false hnull,
        dereferenced_eq_false hnull', Bool.false_or] at hd' ⊢
      split at hd'
      · cases hd'
      · rename_i hstays
        have hstays' : ¬ refuted (actionAt g i) e (.taint s origin m) = true :=
          fun hrefuted => hstays (refuted_of_covers h hrefuted)
        rw [if_neg hstays']
        rcases transfer_covered h hk hle hplain hd' with hcovered | ⟨l, v, hl, hv, rfl, rfl⟩
        · exact Or.inl hcovered
        · exact Or.inr ⟨hkind, l, v, origin, m, hl, hv, rfl, rfl⟩

/-! ## Calls -/

/-- What a sanitizer removes with a path, it removes from what the path covers, if its position is
within the smaller bound. -/
lemma Sanitizes.of_covers (hcleaned : p.Sanitizes lhs c m s) (h : AccessPath.Covers p.k k' s d)
    (hk : 1 ≤ p.k) (hle : p.k ≤ k') (hnames : p.PlainNames) (hfit : p.SanitizersFit) :
    (p.withBound k').Sanitizes lhs c m d := by
  obtain ⟨r, hr, happlies, pos, hpos, sp, hsp, hremoved⟩ := hcleaned
  have hrule : r ∈ p.rules.rules := List.mem_of_mem_filter (List.mem_of_mem_filter hr)
  have hkind : r.kind = .sanitizer := by simpa using (List.mem_filter.mp hr).2
  have hplain : ∀ f ∈ pos.fields, '.' ∉ f.toList :=
    hnames.positions r hrule pos (by simp [hpos])
  obtain ⟨v, hv, rfl⟩ := List.mem_map.mp hsp
  refine ⟨r, hr, happlies, pos, hpos, _, List.mem_map_of_mem hv, ?_⟩
  have hopen : (pos.pathFrom p.k v).truncated = false :=
    extendAll_ofVariable_truncated v.name (by omega) (hfit r hrule hkind pos hpos) hplain
  exact h.removedAt (cutOf_pathFrom hk hle hplain v).toCovers hopen hremoved

/-- What a pass-through rule hands on is covered by what it hands on from a covering path. -/
lemma PassesThrough.covered {q : AccessPath} (hpass : (p.withBound k').PassesThrough lhs c m d q)
    (h : AccessPath.Covers p.k k' s d) (hk : 1 ≤ p.k) (hle : p.k ≤ k') (hnames : p.PlainNames) :
    ∃ s', p.PassesThrough lhs c m s s' ∧ AccessPath.Covers p.k k' s' q := by
  obtain ⟨r, hr, happlies, source, hsource, sp, hsp, target, htarget, tp, htp, hq⟩ := hpass
  have hrule : r ∈ p.rules.rules := List.mem_of_mem_filter (List.mem_of_mem_filter hr)
  obtain ⟨v, hv, rfl⟩ := List.mem_map.mp hsp
  obtain ⟨w, hw, rfl⟩ := List.mem_map.mp htp
  have hsources := cutOf_pathFrom hk hle (hnames.positions r hrule source (by simp [hsource])) v
  have htargets := cutOf_pathFrom hk hle (hnames.positions r hrule target (by simp [htarget])) w
  obtain ⟨s', hs', hcovers⟩ := h.substitute? hle hsources htargets.toCovers hq
  exact ⟨s', ⟨r, hr, happlies, source, hsource, _, List.mem_map_of_mem hv, target, htarget, _,
    List.mem_map_of_mem hw, hs'⟩, hcovers⟩

/-- A path goes through the methods that a call is analyzed in if what it covers does, and otherwise
only if it is all that can be reached from an operand. -/
lemma handedOver_of_covers (h : AccessPath.Covers p.k k' s d) (hd : handedOver c d = false)
    (hs : handedOver c s = true) : ∃ x, d = ofVariable x ∧ s = below x := by
  have hdepth := h.deep.depth_eq
  simp only [handedOver, Bool.or_eq_true, Bool.or_eq_false_iff, List.any_eq_true,
    List.any_eq_false, Bool.and_eq_true, decide_eq_true_eq] at hd hs
  obtain ⟨hstatic, hoperands⟩ := hd
  rcases hs with hs | ⟨v, hv, ⟨hvar, hroot⟩, hfields⟩
  · rw [h.root.2, hstatic] at hs
    cases hs
  · rw [h.rootedAt] at hroot
    have hbare := hoperands v hv
    simp only [hvar, hroot, true_and, not_or, Bool.not_eq_true] at hbare
    obtain ⟨hflat, hopen⟩ := hbare
    have hnil : d.fields = [] := List.eq_nil_of_length_eq_zero (by omega)
    have hd : d = ofVariable d.base :=
      h.deep.ext (regular_ofVariable d.base le_rfl) ⟨rfl, hstatic⟩ hnil hopen
    rw [hd] at h
    refine ⟨d.base, hd, ?_⟩
    rcases h.eq_or_eq_below with rfl | hs
    · simp [ofVariable] at hfields
    · exact hs

/-- What holds after a call and did not go through a method is covered, unless it is an operand
itself and the covering path, all that can be reached from the operand, is handed over. -/
lemma callToReturn_covered {r d : Fact} {callees : List MethodRef} (h : Fact.Covers p.k k' r d)
    (hk : 1 ≤ p.k) (hle : p.k ≤ k') (hnull : p.rules.dereference = none) (hnames : p.PlainNames)
    (hfit : p.SanitizersFit) (hd' : d' ∈ (p.withBound k').callToReturn g i e callees d) :
    (∃ r' ∈ p.callToReturn g i e callees r, Fact.Covers p.k k' r' d') ∨
      ∃ lhs c x origin m, actionAt g i = .invoke lhs c ∧ callees ≠ [] ∧
        r = .taint (below x) origin m ∧ handedOver c (below x) = true ∧
        ¬ p.Sanitizes lhs c m (below x) ∧ (∀ v, lhs = some v → v.render ≠ x) ∧
        d' = .taint (ofVariable x) origin m := by
  have hnull' : (p.withBound k').rules.dereference = none := hnull
  cases ha : actionAt g i with
  | invoke lhs c =>
    cases h with
    | zero =>
      left
      simp only [callToReturn, ha, mem_appendNew, List.mem_singleton, List.mem_flatMap,
        List.mem_map] at hd' ⊢
      rcases hd' with rfl | ⟨rule, hrule, pos, hpos, path', hpath', rfl⟩
      · exact ⟨_, Or.inl rfl, .zero⟩
      · have hmem : rule ∈ p.rules.rules := List.mem_of_mem_filter (List.mem_of_mem_filter hrule)
        obtain ⟨v, hv, rfl⟩ := List.mem_map.mp hpath'
        have hcut := cutOf_pathFrom hk hle (hnames.positions rule hmem pos (by simp [hpos])) v
        exact ⟨_, Or.inr ⟨rule, hrule, pos, hpos, _, List.mem_map_of_mem hv, rfl⟩,
          .taint hcut.toCovers⟩
    | @taint s d origin m h =>
      obtain ⟨-, ⟨rfl, hthrough, hclean, hlhs⟩ | ⟨q, hpass, hclean, rfl⟩⟩ :=
        (mem_callToReturn ha).mp hd'
      · have hclean' : ¬ p.Sanitizes lhs c m s :=
          fun hcleaned => hclean (hcleaned.of_covers h hk hle hnames hfit)
        have hlhs' : ∀ v, lhs = some v → s.rootedAt v.render = false :=
          fun v hv => (h.rootedAt v.render).trans (hlhs v hv)
        by_cases hkept : callees ≠ [] → handedOver c s = false
        · exact Or.inl ⟨_, (mem_callToReturn ha).mpr
            ⟨dereferenced_eq_false hnull _, Or.inl ⟨rfl, hkept, hclean', hlhs'⟩⟩, .taint h⟩
        · rw [Classical.not_imp, Bool.not_eq_false] at hkept
          obtain ⟨hcallees, hover⟩ := hkept
          obtain ⟨x, rfl, rfl⟩ := handedOver_of_covers h (hthrough hcallees) hover
          refine Or.inr ⟨lhs, c, x, origin, m, rfl, hcallees, rfl, hover, hclean', ?_, rfl⟩
          rintro v hv rfl
          simpa [AccessPath.rootedAt, below, ofVariable] using hlhs' v hv
      · obtain ⟨s', hpass', hcovers⟩ := hpass.covered h hk hle hnames
        have hclean' : ¬ p.Sanitizes lhs c m s' :=
          fun hcleaned => hclean (hcleaned.of_covers hcovers hk hle hnames hfit)
        exact Or.inl ⟨_, (mem_callToReturn ha).mpr ⟨dereferenced_eq_false hnull _,
          Or.inr ⟨s', hpass', hclean', rfl⟩⟩, .taint hcovers⟩
  | _ =>
    left
    simp only [callToReturn, ha, List.mem_singleton] at hd' ⊢
    exact ⟨r, rfl, hd' ▸ h⟩

/-- What holds on entry to a method is covered. -/
lemma enter_covered {r d : Fact} (h : Fact.Covers p.k k' r d) (hk : 1 ≤ p.k) (hle : p.k ≤ k')
    (hnull : p.rules.dereference = none) (hd' : d' ∈ (p.withBound k').enter g i callee d) :
    ∃ r' ∈ p.enter g i callee r, Fact.Covers p.k k' r' d' := by
  cases ha : actionAt g i with
  | invoke lhs c =>
    cases h with
    | zero =>
      rcases (mem_enter_zero ha).mp hd' with rfl | ⟨hon, -⟩
      · exact ⟨_, (mem_enter_zero ha).mpr (.inl rfl), .zero⟩
      · rw [show (p.withBound k').rules.dereference = none from hnull] at hon
        cases hon
    | @taint s d origin m h =>
      rcases (mem_enter ha).mp hd' with ⟨hstatic, rfl⟩ | ⟨v, param, q, hmem, hvar, hroot, hq, rfl⟩
      · exact ⟨_, (mem_enter ha).mpr (Or.inl ⟨h.root.2.trans hstatic, rfl⟩), .taint h⟩
      · obtain ⟨s', hs', hcovers⟩ :=
          h.substitute? hle (cutOf_path hk hle v) (cutOf_path hk hle param).toCovers hq
        exact ⟨_, (mem_enter ha).mpr (Or.inr ⟨v, param, s', hmem, hvar,
          (h.rootedAt _).trans hroot, hs', rfl⟩), .taint hcovers⟩
  | _ => simp [enter, ha] at hd'

/-- What holds after a call and comes from an exit of the method is covered. -/
lemma leave_covered {r d : Fact} (h : Fact.Covers p.k k' r d) (hk : 1 ≤ p.k) (hle : p.k ≤ k')
    (hnull : p.rules.dereference = none) (hd' : d' ∈ (p.withBound k').leave g i e callee exit d) :
    ∃ r' ∈ p.leave g i e callee exit r, Fact.Covers p.k k' r' d' := by
  cases ha : actionAt g i with
  | invoke lhs c =>
    cases h with
    | zero =>
      have hnull' : (p.withBound k').rules.dereference = none := hnull
      simp only [leave, ha, hnull', Option.isSome_none, Bool.false_and, Bool.false_eq_true,
        ↓reduceIte] at hd'
      split at hd' <;> cases hd'
    | @taint s d origin m h =>
      rcases (mem_leave ha).mp hd' with ⟨hstatic, rfl⟩ |
        ⟨v, l, q, hret, hl, hvar, hroot, hq, rfl⟩ |
        ⟨hdeep, param, v, q, hmem, hroot, hvar, hl, hq, rfl⟩
      · exact ⟨_, (mem_leave ha).mpr (Or.inl ⟨h.root.2.trans hstatic, rfl⟩), .taint h⟩
      · obtain ⟨s', hs', hcovers⟩ :=
          h.substitute? hle (cutOf_path hk hle v) (cutOf_path hk hle l).toCovers hq
        exact ⟨_, (mem_leave ha).mpr (Or.inr (Or.inl ⟨v, l, s', hret, hl, hvar,
          (h.rootedAt _).trans hroot, hs', rfl⟩)), .taint hcovers⟩
      · obtain ⟨s', hs', hcovers⟩ :=
          h.substitute? hle (cutOf_path hk hle param) (cutOf_path hk hle v).toCovers hq
        refine ⟨_, (mem_leave ha).mpr (Or.inr (Or.inr ⟨fun hflat => ?_, param, v, s', hmem,
          (h.rootedAt _).trans hroot, hvar, hl, hs', rfl⟩)), .taint hcovers⟩
        by_contra hopen
        rw [Bool.not_eq_true] at hopen
        obtain rfl := h.eq_of_not_truncated hopen
        rw [hdeep hflat] at hopen
        cases hopen
  | _ => simp [leave, ha] at hd'

/-- What holds on entry to an entry method is covered. -/
lemma initial_covered (hk : 1 ≤ p.k) (hle : p.k ≤ k') (hnames : p.PlainNames)
    (hd' : d' ∈ (p.withBound k').initial g) : ∃ r' ∈ p.initial g, Fact.Covers p.k k' r' d' := by
  obtain ⟨rule, hrule, pos, hpos, path', hpath', rfl⟩ := mem_initial.mp hd'
  have hmem : rule ∈ p.rules.rules := List.mem_of_mem_filter hrule
  obtain ⟨v, hv, rfl⟩ := List.mem_map.mp hpath'
  have hcut := cutOf_pathFrom hk hle (hnames.positions rule hmem pos (by simp [hpos])) v
  exact ⟨_, mem_initial.mpr ⟨rule, hrule, pos, hpos, _, List.mem_map_of_mem hv, rfl⟩,
    .taint hcut.toCovers⟩

/-! ## The two problems -/

/-- After the path edge, along the edge of the flow graph, a path edge shows taint of the variable
or of all that can be reached from it. -/
def FindsVariable (S : Set (PathEdge Fact)) (e : PathEdge Fact) (edge : Edge) (x : String)
    (origin : Site) (m : String) : Prop :=
  e.along edge (.taint (ofVariable x) origin m) ∈ S ∨ e.along edge (.taint (below x) origin m) ∈ S

/-- Where all that can be reached from a variable is tainted, the variable is taken to be tainted: a
value that is computed from it is found to be tainted, and it is found to be tainted after a call
that it is handed to, unless the call sanitizes it or assigns to it. -/
structure KeepsVariables (p : TaintProblem) (S : Set (PathEdge Fact)) : Prop where
  computed : ∀ e ∈ S, ∀ l v origin m, e.fact = .taint (below v.render) origin m →
    (actionAt (p.graph e.method) e.node).lhs? = some l →
    v ∈ (actionAt (p.graph e.method) e.node).computedFrom →
    ∀ edge ∈ p.flowProblem.outgoing e.site, edge.kind ≠ .exception →
      FindsVariable S e edge l.render origin m
  handed : ∀ e ∈ S, ∀ lhs c x origin m, e.fact = .taint (below x) origin m →
    actionAt (p.graph e.method) e.node = .invoke lhs c → p.flowProblem.targets e.site ≠ [] →
    handedOver c (below x) = true → ¬ p.Sanitizes lhs c m (below x) →
    (∀ v, lhs = some v → v.render ≠ x) →
    ∀ edge ∈ p.flowProblem.outgoing e.site, edge.kind ≠ .exception →
      FindsVariable S e edge x origin m

/-- Whether taint of a variable is found after a path edge, computed. -/
def findsVariableIn (edges : List (PathEdge Fact)) (e : PathEdge Fact) (edge : Edge) (x : String)
    (origin : Site) (m : String) : Bool :=
  edges.contains (e.along edge (.taint (ofVariable x) origin m)) ||
    edges.contains (e.along edge (.taint (below x) origin m))

/-- Whether a path edge with taint of all that can be reached from a variable keeps the variable
along an edge of the flow graph, computed. -/
def keepsVariableAt (p : TaintProblem) (edges : List (PathEdge Fact)) (e : PathEdge Fact)
    (edge : Edge) (x : String) (origin : Site) (m : String) : Bool :=
  let a := actionAt (p.graph e.method) e.node
  (!a.computedFrom.any (·.render == x) ||
    a.lhs?.all fun l => findsVariableIn edges e edge l.render origin m) &&
  match a with
  | .invoke lhs c => (p.flowProblem.targets e.site).isEmpty || !handedOver c (below x) ||
    p.sanitized (CallRules.of p.rules c) lhs c (below x) e.fact || lhs.any (·.render == x) ||
    findsVariableIn edges e edge x origin m
  | _ => true

/-- Whether some path edges keep variables, computed. -/
def keepsVariablesIn (p : TaintProblem) (edges : List (PathEdge Fact)) : Bool :=
  edges.all fun e => match e.fact with
    | .zero => true
    | .taint path origin m => path != below path.base ||
      (p.flowProblem.outgoing e.site).all fun edge =>
        edge.kind == .exception || p.keepsVariableAt edges e edge path.base origin m

/-- The computed condition is about the path edges of a tabulation. -/
lemma findsVariable_found {t : Tabulation Fact} {e : PathEdge Fact} {edge : Edge} {x : String}
    (h : findsVariableIn t.edges.toList e edge x origin m = true) :
    FindsVariable t.found e edge x origin m := by
  simpa [findsVariableIn, FindsVariable, Tabulation.found] using h

/-- The computed condition is about the path edges of a tabulation. -/
lemma keepsVariables_found {t : Tabulation Fact} (h : p.keepsVariablesIn t.edges.toList = true) :
    p.KeepsVariables t.found := by
  have hedges : ∀ e ∈ t.found, ∀ x origin m, e.fact = .taint (below x) origin m →
      ∀ edge ∈ p.flowProblem.outgoing e.site, edge.kind ≠ .exception →
        p.keepsVariableAt t.edges.toList e edge x origin m = true := by
    intro e he x origin m hfact edge hedge hkind
    have hall := List.all_eq_true.mp h e (Array.mem_toList_iff.mpr he)
    have hbelow : (below x != below (below x).base) = false := by simp [below, ofVariable]
    simp only [hfact, hbelow, Bool.false_or] at hall
    have hedge' := List.all_eq_true.mp hall edge hedge
    rwa [beq_eq_false_iff_ne.mpr hkind, Bool.false_or] at hedge'
  refine ⟨?_, ?_⟩
  · intro e he l v origin m hfact hl hv edge hedge hkind
    obtain ⟨hcomputed, -⟩ :=
      Bool.and_eq_true_iff.mp (hedges e he v.render origin m hfact edge hedge hkind)
    have hany : (actionAt (p.graph e.method) e.node).computedFrom.any
        (·.render == v.render) = true :=
      List.any_eq_true.mpr ⟨v, hv, by simp⟩
    rw [hany, hl] at hcomputed
    exact findsVariable_found hcomputed
  · intro e he lhs c x origin m hfact ha htargets hover hclean hlhs edge hedge hkind
    obtain ⟨-, hhanded⟩ :=
      Bool.and_eq_true_iff.mp (hedges e he x origin m hfact edge hedge hkind)
    have hlhs' : lhs.any (·.render == x) = false := by
      cases lhs with
      | none => rfl
      | some v => simpa using hlhs v rfl
    have hclean' : p.sanitized (CallRules.of p.rules c) lhs c (below x) e.fact = false := by
      rw [← Bool.not_eq_true, sanitized_iff, hfact]
      exact hclean
    simp only [ha, hover, hlhs', hclean', List.isEmpty_eq_false_iff.mpr htargets, Bool.not_true,
      Bool.or_false, Bool.false_or] at hhanded
    exact findsVariable_found hhanded

variable {S : Set (PathEdge Fact)} {entries : List MethodRef}

/-- Taint that shows a variable covers the variable. -/
lemma FindsVariable.exists_covers {e : PathEdge Fact} {edge : Edge} {x : String}
    (h : FindsVariable S e edge x origin m) (hk : 1 ≤ p.k) (hle : p.k ≤ k') :
    ∃ r, Fact.Covers p.k k' r (.taint (ofVariable x) origin m) ∧ e.along edge r ∈ S := by
  rcases h with h | h
  · exact ⟨_, .taint ((regular_ofVariable x (by omega)).cutOf rfl hle).toCovers, h⟩
  · exact ⟨_, .taint (covers_below x (by omega) hle), h⟩

/-- The targets of a call do not depend on the bound. -/
lemma withBound_targets (n : Site) :
    (p.withBound k').flowProblem.targets n = p.flowProblem.targets n := by
  unfold FlowProblem.targets flowProblem
  rfl

/-- The path edges within a bound answer what the problem does within a larger bound, if they keep
variables. -/
lemma KeepsVariables.answers (hkeeps : p.KeepsVariables S) (hS : p.flowProblem.Closed entries S)
    (hk : 1 ≤ p.k) (hle : p.k ≤ k') (hnull : p.rules.dereference = none) (hnames : p.PlainNames)
    (hfit : p.SanitizersFit) :
    FlowProblem.Answers p.flowProblem (p.withBound k').flowProblem entries (Fact.Covers p.k k')
      S where
  graph := rfl
  seed m hm d' hd' := by
    rcases List.mem_cons.mp hd' with rfl | hd'
    · exact ⟨_, List.mem_cons_self, .zero⟩
    · obtain ⟨r, hr, hcovers⟩ := initial_covered hk hle hnames hd'
      exact ⟨r, List.mem_cons_of_mem _ hr, hcovers⟩
  intra e he edge hedge hkind d hd d' hd' := by
    rcases normal_covered hd hk hle hnull (hnames.field_plain e.method e.node) hd' with
      ⟨r, hr, hcovers⟩ | ⟨hnormal, l, v, origin, m, hl, hv, hfact, rfl⟩
    · exact ⟨r, hcovers, hS _ _ (.intra he hedge hkind hr)⟩
    · exact (hkeeps.computed e he l v origin m hfact hl hv edge hedge hnormal).exists_covers hk hle
  callToReturn e he hcall edge hedge hkind d hd d' hd' := by
    rw [withBound_targets] at hd'
    rcases callToReturn_covered (e := edge) hd hk hle hnull hnames hfit hd' with
      ⟨r, hr, hcovers⟩ | ⟨lhs, c, x, origin, m, ha, htargets, hfact, hover, hclean, hlhs, rfl⟩
    · exact ⟨r, hcovers, hS _ _ (.callToReturn he hcall hedge hkind hr)⟩
    · exact (hkeeps.handed e he lhs c x origin m hfact ha htargets hover hclean hlhs edge hedge
        hkind).exists_covers hk hle
  call e he d hd m d' henters := by
    have hgraph : (p.withBound k').flowProblem.graph = p.graph := rfl
    rw [FlowProblem.Enters, FlowProblem.AtCall, withBound_targets, hgraph] at henters
    obtain ⟨hcall, hm, hd'⟩ := henters
    obtain ⟨r, hr, hcovers⟩ := enter_covered hd hk hle hnull hd'
    exact ⟨r, hcovers, hcall, hm, hr⟩
  ret c hc x hx edge d hd d' hd' := by
    exact leave_covered (e := edge) hd hk hle hnull hd'

/-- A rule that reports a fact reports every fact that covers it. -/
lemma mem_reports_covered {n : Site} {start start' r d : Fact} (h : Fact.Covers p.k k' r d)
    (hk : 1 ≤ p.k) (hle : p.k ≤ k') (hnull : p.rules.dereference = none) (hnames : p.PlainNames)
    {rule : Rule} (hrule : rule ∈ (p.withBound k').reports ⟨n.method, start', n.index, d⟩) :
    rule ∈ p.reports ⟨n.method, start, n.index, r⟩ := by
  have hnull' : (p.withBound k').rules.dereference = none := hnull
  cases h with
  | zero => cases hrule
  | @taint s d origin m h =>
    simp only [reports, dereferenced_eq_false hnull, dereferenced_eq_false hnull',
      Bool.false_eq_true, ↓reduceIte, List.nil_append] at hrule ⊢
    rw [show (p.withBound k').graph = p.graph from rfl] at hrule
    cases ha : actionAt (p.graph n.method) n.index with
    | invoke lhs c =>
      simp only [ha, List.mem_filter, Bool.and_eq_true, List.any_eq_true] at hrule ⊢
      obtain ⟨hsink, happlies, pos, hpos, sp', hsp', halias⟩ := hrule
      have hmem : rule ∈ p.rules.rules := List.mem_of_mem_filter (List.mem_of_mem_filter hsink)
      obtain ⟨v, hv, rfl⟩ := List.mem_map.mp hsp'
      have hcut := cutOf_pathFrom hk hle (hnames.positions rule hmem pos (by simp [hpos])) v
      exact ⟨hsink, happlies, pos, hpos, _, List.mem_map_of_mem hv,
        h.mayAlias hcut.toCovers halias⟩
    | fieldWrite base f src =>
      simp only [ha, h.rootedAt] at hrule ⊢
      exact hrule
    | staticWrite f src =>
      simp only [ha, h.rootedAt] at hrule ⊢
      exact hrule
    | _ => simp [ha] at hrule

end TaintProblem

namespace Session

/-- **A smaller bound of access paths loses no flow**, if null dereferences are not reported, names
have no dots, the positions of sanitizers are within the bound, and the analysis with the smaller
bound takes a variable to be tainted where all that can be reached from it is. -/
theorem reports_of_le_bound {s : Session} {runId : String} {entries : List MethodRef}
    {rs : RuleSet} {o o' : RunOptions} {t : Tabulation Fact} {source sink : Site}
    (hnull : rs.dereference = none) (hk : 1 ≤ o.bound) (hle : o.bound ≤ o'.bound)
    (halarms : o.maxAlarms ≤ 0) (halarms' : o'.maxAlarms ≤ 0)
    (hcomplete : s.tabulate entries rs o false = (t, .complete))
    (hnames : (s.problem rs o).PlainNames) (hfit : (s.problem rs o).SanitizersFit)
    (hkeeps : (s.problem rs o).KeepsVariables t.found)
    (h : s.Reports runId entries rs o' source sink) : s.Reports runId entries rs o source sink := by
  rw [reports_iff s runId entries halarms'] at h
  rw [reports_iff s runId entries halarms]
  obtain ⟨⟨hdepth, hrules, -⟩, e, he, hsite, ⟨path, m, hfact⟩, hreports⟩ := h
  have hfound : t.found = (s.problem rs o).flowProblem.pathEdges (s.roots entries) :=
    FlowProblem.found_eq_pathEdges hcomplete
  rw [hfound] at hkeeps
  have hanswers := hkeeps.answers FlowProblem.closed_pathEdges hk hle hnull hnames hfit
  obtain ⟨start, d, hcovers, hmem⟩ := hanswers.exists_pathEdge FlowProblem.closed_pathEdges he
  have hdepth' : checkDepth o.bound = true := by
    simp only [checkDepth, Bool.and_eq_true, decide_eq_true_eq] at hdepth ⊢
    exact ⟨hk, hle.trans hdepth.2⟩
  refine ⟨⟨hdepth', hrules, by rw [hcomplete]⟩, _, hmem, hsite, ?_, ?_⟩
  · rw [hfact] at hcovers
    cases hcovers with
    | taint h => exact ⟨_, m, rfl⟩
  · obtain ⟨rule, hrule⟩ := List.exists_mem_of_ne_nil _ hreports
    exact List.ne_nil_of_mem
      (TaintProblem.mem_reports_covered (n := e.site) hcovers hk hle hnull hnames hrule)

end Session

/-- Whether path edges keep variables depends on the classes and the flow graphs only. -/
lemma CodeBase.Agrees.keepsVariablesIn_eq {s s' : Session} (h : s.code.Agrees s'.code)
    (rules : RuleSet) (o : RunOptions) (edges : List (PathEdge Fact)) :
    (s.problem rules o).keepsVariablesIn edges = (s'.problem rules o).keepsVariablesIn edges := by
  have hgraph : (s.problem rules o).graph = (s'.problem rules o).graph :=
    congrArg FlowProblem.graph (h.flowProblem_eq rules o)
  have hat : (s.problem rules o).keepsVariableAt = (s'.problem rules o).keepsVariableAt := by
    funext edges e edge x origin m
    unfold TaintProblem.keepsVariableAt
    rw [hgraph, h.flowProblem_eq]
    rfl
  unfold TaintProblem.keepsVariablesIn
  rw [hat, h.flowProblem_eq]

/-! ## A program with a chain of fields -/

/-- A method that passes the field `f.g` of its argument to `Box.keep` and to `Out.sink`: `aload_0`,
`getfield`, `getfield`, `dup`, `invokestatic`, `invokestatic`, `return`. -/
def chainPassed : MethodDecl where
  name := "passed"
  descriptor := "(LBox;)V"
  flags := AccessFlags.empty.insert .static
  maxLocals := 1
  code := some [
    { pc := 0, op := ⟨42⟩ },
    { pc := 1, op := ⟨180⟩, owner := "Box", name := "f", desc := "LBox;" },
    { pc := 4, op := ⟨180⟩, owner := "Box", name := "g", desc := "I" },
    { pc := 7, op := ⟨89⟩ },
    { pc := 8, op := ⟨184⟩, owner := "Box", name := "keep", desc := "(I)V" },
    { pc := 11, op := ⟨184⟩, owner := "Out", name := "sink", desc := "(I)V" },
    { pc := 14, op := ⟨177⟩ }]

/-- A method that does nothing. -/
def chainKeep : MethodDecl where
  name := "keep"
  descriptor := "(I)V"
  flags := AccessFlags.empty.insert .static
  maxLocals := 1
  code := some [{ pc := 0, op := ⟨177⟩ }]

/-- A method that adds one to the field `f.g` of its argument and passes the sum to `Out.sink`:
`aload_0`, `getfield`, `getfield`, `iconst_1`, `iadd`, `invokestatic`, `return`. -/
def chainShifted : MethodDecl where
  name := "shifted"
  descriptor := "(LBox;)V"
  flags := AccessFlags.empty.insert .static
  maxLocals := 1
  code := some [
    { pc := 0, op := ⟨42⟩ },
    { pc := 1, op := ⟨180⟩, owner := "Box", name := "f", desc := "LBox;" },
    { pc := 4, op := ⟨180⟩, owner := "Box", name := "g", desc := "I" },
    { pc := 7, op := ⟨4⟩ },
    { pc := 8, op := ⟨96⟩ },
    { pc := 9, op := ⟨184⟩, owner := "Out", name := "sink", desc := "(I)V" },
    { pc := 12, op := ⟨177⟩ }]

/-- The type of the methods. -/
def chainType : ClassDecl where
  name := "Box"
  flags := AccessFlags.empty.insert .interface
  methods := [some chainPassed, some chainKeep, some chainShifted]

/-- The program of the methods. -/
def chainProgram : Program where
  classes := some [some chainType]

/-- The name of the first method. -/
def chainPassedRef : MethodRef := ⟨"Box", "passed", "(LBox;)V"⟩

/-- The name of the second method. -/
def chainKeepRef : MethodRef := ⟨"Box", "keep", "(I)V"⟩

/-- The name of the third method. -/
def chainShiftedRef : MethodRef := ⟨"Box", "shifted", "(LBox;)V"⟩

/-- The flow graph of the first method. -/
def chainPassedGraph : FlowGraph where
  ref := chainPassedRef
  modifiers := AccessFlags.empty.insert .static
  params := [.var (.arg 0) "LBox;"]
  statements := #[
    ⟨1, .fieldRead (.var (.slot 0) "LBox;") (.var (.arg 0) "LBox;") ⟨"Box", "f", "LBox;"⟩, false⟩,
    ⟨4, .fieldRead (.var (.slot 0) "I") (.var (.slot 0) "LBox;") ⟨"Box", "g", "I"⟩, false⟩,
    ⟨8, .invoke none ⟨.static, chainKeepRef, none, [.var (.slot 0) "I"]⟩, false⟩,
    ⟨11, .invoke none ⟨.static, ⟨"Out", "sink", "(I)V"⟩, none, [.var (.slot 0) "I"]⟩, false⟩,
    ⟨14, .ret none, false⟩,
    ⟨-1, .exit, true⟩]
  succs := #[
    [⟨0, 1, .normal, "", false⟩, ⟨0, 5, .exception, "", false⟩],
    [⟨1, 2, .normal, "", false⟩, ⟨1, 5, .exception, "", false⟩],
    [⟨2, 3, .normal, "", false⟩, ⟨2, 5, .exception, "", false⟩],
    [⟨3, 4, .normal, "", false⟩, ⟨3, 5, .exception, "", false⟩], [], []]
  exits := [4, 5]

/-- The flow graph of the second method. -/
def chainKeepGraph : FlowGraph where
  ref := chainKeepRef
  modifiers := AccessFlags.empty.insert .static
  params := [.var (.arg 0) "I"]
  statements := #[⟨0, .ret none, false⟩, ⟨-1, .exit, true⟩]
  succs := #[[], []]
  exits := [0, 1]

/-- The flow graph of the third method. -/
def chainShiftedGraph : FlowGraph where
  ref := chainShiftedRef
  modifiers := AccessFlags.empty.insert .static
  params := [.var (.arg 0) "LBox;"]
  statements := #[
    ⟨1, .fieldRead (.var (.slot 0) "LBox;") (.var (.arg 0) "LBox;") ⟨"Box", "f", "LBox;"⟩, false⟩,
    ⟨4, .fieldRead (.var (.slot 0) "I") (.var (.slot 0) "LBox;") ⟨"Box", "g", "I"⟩, false⟩,
    ⟨8, .assign (.var (.slot 0) "I")
      ⟨.binary "+" (.var (.slot 0) "I") (.const "1" "I"), "I"⟩, false⟩,
    ⟨9, .invoke none ⟨.static, ⟨"Out", "sink", "(I)V"⟩, none, [.var (.slot 0) "I"]⟩, false⟩,
    ⟨12, .ret none, false⟩,
    ⟨-1, .exit, true⟩]
  succs := #[
    [⟨0, 1, .normal, "", false⟩, ⟨0, 5, .exception, "", false⟩],
    [⟨1, 2, .normal, "", false⟩, ⟨1, 5, .exception, "", false⟩],
    [⟨2, 3, .normal, "", false⟩],
    [⟨3, 4, .normal, "", false⟩, ⟨3, 5, .exception, "", false⟩], [], []]
  exits := [4, 5]

/-- The class table of the program. -/
def chainTable : ClassTable where
  classes := (∅ : Std.HashMap String ClassDecl).insert "Box" chainType
  order := ["Box"]
  bodies := (((∅ : Std.HashMap MethodRef MethodBody).insert chainPassedRef
    (ClassTable.bodyOf chainType chainPassed)).insert chainKeepRef
    (ClassTable.bodyOf chainType chainKeep)).insert chainShiftedRef
    (ClassTable.bodyOf chainType chainShifted)
  subtypes := ∅

/-- The class table with the flow graphs of the program. -/
def chainCode : CodeBase where
  table := chainTable
  graphs := (((∅ : Std.HashMap MethodRef (Except BuildError FlowGraph)).insert chainPassedRef
    (.ok chainPassedGraph)).insert chainKeepRef (.ok chainKeepGraph)).insert chainShiftedRef
    (.ok chainShiftedGraph)

lemma ofProgram_chainProgram : ClassTable.ofProgram chainProgram = .ok chainTable := by cbv

lemma build_chainProgram :
    FlowGraph.build (some chainTable) (ClassTable.bodyOf chainType chainPassed) =
        .ok chainPassedGraph ∧
      FlowGraph.build (some chainTable) (ClassTable.bodyOf chainType chainKeep) =
        .ok chainKeepGraph ∧
      FlowGraph.build (some chainTable) (ClassTable.bodyOf chainType chainShifted) =
        .ok chainShiftedGraph := by
  decide +kernel

/-- The flow graphs are those that are built. -/
lemma chainCode_records : CodeBase.Records chainTable
    [chainShiftedGraph, chainKeepGraph, chainPassedGraph] chainTable.bodies chainCode.graphs :=
  ((CodeBase.Records.nil.insert chainPassedRef build_chainProgram.1).insert chainKeepRef
    build_chainProgram.2.1).insert chainShiftedRef build_chainProgram.2.2

/-- The field `f.g` of the argument is tainted on entry, and taint of an argument is reported at
every call. -/
def chainSpec : ProblemSpec where
  name := "chain"
  sinks := [{}]
  entryPoints := [{ positions := ["arg0.f.g"] }]

/-- The rules of the problem. -/
def chainRules : RuleSet where
  name := "chain"
  rules := [
    { kind := .sink, matcher := .any, positions := [⟨.anyArg, []⟩] },
    { kind := .entryPoint, matcher := .any, positions := [⟨.arg 0, ["f", "g"]⟩], index := 1 }]

lemma ofSpec_chainSpec : RuleSet.ofSpec chainSpec = .ok chainRules := by
  simp [RuleSet.ofSpec, chainSpec, RuleSet.specsOf, Rule.ofSpec, Rule.parsePositions, chainRules,
    RuleKind.defaultPositions, CodeIdentifier.matcher_empty, Position.parse_written,
    Except.mapError, bind, Except.bind, pure, Except.pure, List.zipIdx]

/-- The names of the program and of the rules have no dots. -/
lemma chain_plainNames (o : RunOptions) :
    (({ code := .ofTable chainTable } : Session).problem chainRules o).PlainNames where
  fields m st hst f hf := by
    have hplain : ∀ g ∈ [chainShiftedGraph, chainKeepGraph, chainPassedGraph], ∀ st ∈ g.statements,
        ∀ f ∈ st.action.field?, '.' ∉ f.name.toList := by
      decide +kernel
    unfold TaintProblem.graph at hst
    split at hst
    · rename_i g hg
      exact hplain g (chainCode_records.mem_of_graph hg) st hst f hf
    · have hempty : (default : FlowGraph).statements = #[] := rfl
      rw [hempty] at hst
      simp at hst
  positions := by
    have hplain : ∀ r ∈ chainRules.rules, ∀ pos ∈ r.positions ++ r.sources ++ r.targets,
        ∀ f ∈ pos.fields, '.' ∉ f.toList := by
      decide +kernel
    exact hplain

/-- What is reported for the sum with one selector: the tabulation is complete and finds nothing. -/
def chainShallowFindings : { found : List (Site × Site) //
    ({ code := chainCode } : Session).findings [chainShiftedRef] chainRules { depth := 1 } =
      (.complete, found) } :=
  ⟨[], by cbv⟩

/-- With one selector at most, the flow from the field `f.g` is reported as it is with two: taint of
all that can be reached from its value goes through `Box.keep` and comes back. -/
theorem chainProgram_reports_of_le_bound :
    ∃ t s, ClassTable.ofProgram chainProgram = .ok t ∧ s = ({ code := .ofTable t } : Session) ∧
      RuleSet.ofSpec chainSpec = .ok chainRules ∧
      (s.tabulate [chainPassedRef] chainRules { depth := 1 } false).2 = .complete ∧
      s.Reports "" [chainPassedRef] chainRules { depth := 1 } ⟨chainPassedRef, 0⟩
        ⟨chainPassedRef, 3⟩ ∧
      ∀ source sink, s.Reports "" [chainPassedRef] chainRules { depth := 2 } source sink →
        s.Reports "" [chainPassedRef] chainRules { depth := 1 } source sink := by
  have hagrees : CodeBase.Agrees ({ code := .ofTable chainTable } : Session).code
      ({ code := chainCode } : Session).code := chainCode_records.agrees
  -- one run of the tabulation shows both
  have hrun : (fun r : Tabulation Fact × SolveOutcome =>
      ((r.2, (r.1.edges.toList.filterMap
          (({ code := chainCode } : Session).problem chainRules { depth := 1 }).hit?).map
            fun h => (h.source, h.edge.site)),
        (({ code := chainCode } : Session).problem chainRules { depth := 1 }).keepsVariablesIn
          r.1.edges.toList))
      (({ code := chainCode } : Session).tabulate [chainPassedRef] chainRules { depth := 1 }
        false) =
      ((.complete, [(⟨chainPassedRef, 0⟩, ⟨chainPassedRef, 2⟩),
        (⟨chainPassedRef, 0⟩, ⟨chainPassedRef, 3⟩)]), true) := by
    cbv
  obtain ⟨hfound, hkeeps⟩ := Prod.mk.inj hrun
  rw [← Session.findings_eq_hits] at hfound
  rw [← hagrees.findings_eq] at hfound
  rw [← hagrees.keepsVariablesIn_eq, ← hagrees.tabulate_eq] at hkeeps
  have hcomplete := congrArg Prod.fst hfound
  refine ⟨_, _, ofProgram_chainProgram, rfl, ofSpec_chainSpec, hcomplete, ?_, ?_⟩
  · rw [Session.reports_iff_findings (by decide) (by decide) (by decide) hfound]
    decide
  · intro source sink
    refine Session.reports_of_le_bound rfl (by decide) (by decide) (by decide) (by decide)
      (Prod.ext rfl hcomplete) (chain_plainNames _) ?_ (TaintProblem.keepsVariables_found hkeeps)
    intro r hr hkind
    have hnone : ∀ r ∈ chainRules.rules, r.kind ≠ .sanitizer := by decide
    exact absurd hkind (hnone r hr)

/-- **A smaller bound that loses a flow.** With two selectors the value of the field `f.g` is
tainted, and so is the sum. With one selector all that can be reached from the field `f` is tainted,
and then all that can be reached from the value; but the sum is not. -/
theorem chainProgram_loses_flow :
    ∃ t s, ClassTable.ofProgram chainProgram = .ok t ∧ s = ({ code := .ofTable t } : Session) ∧
      RuleSet.ofSpec chainSpec = .ok chainRules ∧ chainRules.dereference = none ∧
      (s.tabulate [chainShiftedRef] chainRules { depth := 1 } false).2 = .complete ∧
      s.Reports "" [chainShiftedRef] chainRules { depth := 2 } ⟨chainShiftedRef, 0⟩
        ⟨chainShiftedRef, 3⟩ ∧
      ¬ s.Reports "" [chainShiftedRef] chainRules { depth := 1 } ⟨chainShiftedRef, 0⟩
        ⟨chainShiftedRef, 3⟩ := by
  have hagrees : CodeBase.Agrees ({ code := .ofTable chainTable } : Session).code
      ({ code := chainCode } : Session).code := chainCode_records.agrees
  have hdeep :
      ({ code := chainCode } : Session).findings [chainShiftedRef] chainRules { depth := 2 } =
        (.complete, [(⟨chainShiftedRef, 0⟩, ⟨chainShiftedRef, 3⟩)]) := by
    cbv
  have hshallow :
      ({ code := chainCode } : Session).findings [chainShiftedRef] chainRules { depth := 1 } =
        (.complete, []) :=
    chainShallowFindings.property
  rw [← hagrees.findings_eq] at hdeep hshallow
  refine ⟨_, _, ofProgram_chainProgram, rfl, ofSpec_chainSpec, rfl, congrArg Prod.fst hshallow, ?_,
    ?_⟩
  · rw [Session.reports_iff_findings (by decide) (by decide) (by decide) hdeep]
    decide
  · rw [Session.reports_iff_findings (by decide) (by decide) (by decide) hshallow]
    decide

end JvmTaint
