import JvmTaint.Proofs.Taint.AccessPaths

set_option autoImplicit false
set_option relaxedAutoImplicit false

/-!
# Truncated access paths

A truncated path stands for every path that it begins. This module compares the paths of an analysis
with a small bound to those of an analysis with a larger one: a path of the first covers one of the
second if it is the same path, or if it is truncated and begins it. Moving paths between locations
keeps this relation, also if the locations are cut to different lengths, and so do the tests of
sanitizers and sinks.

## Main definitions

* `JvmTaint.AccessPath.Regular`: a path within the bound whose selectors are single names.
* `JvmTaint.AccessPath.Covers`: a path stands for another one.
* `JvmTaint.AccessPath.CutOf`: a location and the same location within a larger bound.

## Main results

* `JvmTaint.AccessPath.Regular.mayAlias_iff`, `JvmTaint.AccessPath.Regular.removedAt_iff`: the tests
  of sinks and sanitizers in terms of the selectors.
* `JvmTaint.AccessPath.Regular.substitute?_ofVariable`: a path that is moved between two variables
  only changes its root.
* `JvmTaint.AccessPath.Covers.substitute?`: what a path covers is moved along with it.
* `JvmTaint.AccessPath.cutOf_extendAll`: positions within two bounds.
-/

namespace JvmTaint

namespace AccessPath

variable {p q source target : AccessPath} {k k' : Int} {fields : List String}

/-! ## Regular paths -/

/-- The path is within the bound, and its depth is the number of its selectors, which are free of
dots. -/
structure Regular (k : Int) (p : AccessPath) : Prop where
  depth_eq : p.depth = p.fields.length
  depth_le : p.depth ≤ k
  dotFree : p.DotFree

/-- The paths start at the same variable, or at static fields of the same class. -/
def SameRoot (p q : AccessPath) : Prop := p.base = q.base ∧ p.isStatic = q.isStatic

lemma SameRoot.symm (h : p.SameRoot q) : q.SameRoot p := ⟨h.1.symm, h.2.symm⟩

lemma SameRoot.trans {r : AccessPath} (h : p.SameRoot q) (h' : q.SameRoot r) : p.SameRoot r :=
  ⟨h.1.trans h'.1, h.2.trans h'.2⟩

/-- The path of a variable is regular. -/
lemma regular_ofVariable (name : String) (hk : 0 ≤ k) : (ofVariable name).Regular k :=
  ⟨rfl, hk, dotFree_ofVariable name⟩

/-- The path of a static field without dots is regular. -/
lemma regular_ofStatic (owner : String) {field : String} (h : '.' ∉ field.toList) (hk : 1 ≤ k) :
    (ofStatic owner field).Regular k :=
  ⟨by simp [ofStatic, Text.split_eq_singleton h], hk, dotFree_ofStatic owner field⟩

/-- The depth of a regular path is within the bound. -/
lemma Regular.length_le (h : p.Regular k) : p.fields.length ≤ k.toNat := by
  have hdepth := h.depth_eq
  have hle := h.depth_le
  omega

/-- Marking a regular path as truncated or not keeps it regular. -/
lemma Regular.withTruncated (h : p.Regular k) (truncated : Bool) :
    { p with truncated }.Regular k :=
  ⟨h.depth_eq, h.depth_le, h.dotFree⟩

/-- Regular paths are equal if their roots, their selectors and their marks are. -/
lemma Regular.ext (hp : p.Regular k) (hq : q.Regular k') (hroot : p.SameRoot q)
    (hfields : p.fields = q.fields) (htruncated : p.truncated = q.truncated) : p = q := by
  obtain ⟨base, fields, depth, isStatic, truncated⟩ := p
  obtain ⟨base', fields', depth', isStatic', truncated'⟩ := q
  have hdepth := hp.depth_eq
  have hdepth' := hq.depth_eq
  obtain ⟨hbase, hstatic⟩ := hroot
  simp_all

/-- A truncated path is not extended. -/
lemma extendAll_of_truncated (h : p.truncated = true) : p.extendAll fields k = p := by
  induction fields with
  | nil => rfl
  | cons f fields ih => rw [extendAll_cons, extend, if_pos h, ih]

/-- A path that is extended by selectors without dots keeps as many of them as the bound allows, and
is truncated if these are not all. -/
lemma Regular.extendAll_eq (h : p.Regular k) (hopen : p.truncated = false)
    (hdots : ∀ f ∈ fields, '.' ∉ f.toList) :
    (p.extendAll fields k).Regular k ∧
      (p.extendAll fields k).fields = (p.fields ++ fields).take k.toNat ∧
      ((p.extendAll fields k).truncated = true ↔ k < p.fields.length + fields.length) := by
  induction fields generalizing p with
  | nil =>
    refine ⟨h, ?_, ?_⟩
    · rw [extendAll_nil, List.append_nil, List.take_of_length_le h.length_le]
    · have hdepth := h.depth_eq
      have hle := h.depth_le
      simp only [extendAll_nil, hopen, Bool.false_eq_true, List.length_nil, false_iff]
      omega
  | cons f fields ih =>
    have hdepth := h.depth_eq
    have hle := h.depth_le
    have hf : '.' ∉ f.toList := hdots f List.mem_cons_self
    rw [extendAll_cons, extend, if_neg (by simp [hopen]), Text.split_eq_singleton hf]
    by_cases hfull : p.depth ≥ k
    · rw [if_pos hfull, extendAll_of_truncated rfl]
      refine ⟨h.withTruncated true, ?_, ?_⟩
      · have hlength : k.toNat = p.fields.length := by omega
        rw [hlength, List.take_left]
      · simp only [List.length_cons, true_iff]
        omega
    · rw [if_neg hfull]
      have hregular : Regular k { p with fields := p.fields ++ [f], depth := p.depth + 1 } := by
        refine ⟨?_, ?_, ?_⟩
        · simp only [List.length_append, List.length_singleton]
          omega
        · dsimp only
          omega
        · intro f' hf'
          rcases List.mem_append.mp hf' with hf' | hf'
          · exact h.dotFree f' hf'
          · rw [List.mem_singleton.mp hf']
            exact hf
      obtain ⟨hreg, hfields, htruncated⟩ :=
        ih hregular hopen fun f' hf' => hdots f' (List.mem_cons_of_mem _ hf')
      refine ⟨hreg, ?_, ?_⟩
      · rw [hfields, List.append_assoc, List.singleton_append]
      · rw [htruncated]
        simp only [List.length_append, List.length_cons, List.length_nil]
        omega

/-- A position within the bound is not truncated. -/
lemma extendAll_ofVariable_truncated (name : String) (hk : 0 ≤ k)
    (hlength : (fields.length : Int) ≤ k) (hdots : ∀ f ∈ fields, '.' ∉ f.toList) :
    ((ofVariable name).extendAll fields k).truncated = false := by
  obtain ⟨-, -, hcut⟩ := (regular_ofVariable name hk).extendAll_eq rfl hdots
  rw [← Bool.not_eq_true, hcut]
  simp only [ofVariable, List.length_nil]
  omega

/-- A regular path that is extended by selectors without dots is regular. -/
lemma Regular.extendAll (h : p.Regular k) (hdots : ∀ f ∈ fields, '.' ∉ f.toList) :
    (p.extendAll fields k).Regular k := by
  cases hp : p.truncated with
  | true => rwa [extendAll_of_truncated hp]
  | false => exact (h.extendAll_eq hp hdots).1

/-- Extending a path appends selectors. -/
lemma isPrefix_extendAll (hdots : ∀ f ∈ fields, '.' ∉ f.toList) :
    p.fields <+: (p.extendAll fields k).fields := by
  obtain ⟨added, heq, -⟩ := extendAll_fields (p := p) (k := k) hdots
  exact ⟨added, heq.symm⟩

/-! ## Tests -/

/-- A regular path begins with another one if the selectors do; with a truncated one only if it is
the same. -/
lemma Regular.beginsWith_iff (hp : p.Regular k) (hq : q.Regular k') :
    p.beginsWith q = true ↔
      p.SameRoot q ∧ q.fields <+: p.fields ∧ (q.truncated = true → p = q) := by
  have hdepth := hp.depth_eq
  have hdepth' := hq.depth_eq
  simp only [beginsWith, SameRoot, Bool.and_eq_true, beq_iff_eq, decide_eq_true_eq,
    List.isPrefixOf_iff_prefix, Bool.or_eq_true, Bool.not_eq_true', and_assoc]
  constructor
  · rintro ⟨hbase, hstatic, -, hinit, hmark⟩
    refine ⟨hbase, hstatic, hinit, fun htruncated => ?_⟩
    rcases hmark with hmark | ⟨hsame, hmark⟩
    · simp [hmark] at htruncated
    · refine hp.ext hq ⟨hbase, hstatic⟩ (hinit.eq_of_length ?_).symm (hmark.trans htruncated.symm)
      omega
  · rintro ⟨hbase, hstatic, hinit, hmark⟩
    refine ⟨hbase, hstatic, ?_, hinit, ?_⟩
    · have := hinit.length_le
      omega
    · cases hq' : q.truncated with
      | false => exact Or.inl rfl
      | true =>
        have heq := hmark hq'
        exact Or.inr ⟨by rw [heq], by rw [heq, hq']⟩

/-- A regular path stands for another one if it properly begins it, or is truncated and begins
it. -/
lemma Regular.subsumes_iff (hp : p.Regular k) (hq : q.Regular k') :
    p.subsumes q = true ↔ p ≠ q ∧ p.SameRoot q ∧ p.fields <+: q.fields ∧
      (p.truncated = true ∨ p.fields.length < q.fields.length) := by
  have hdepth := hp.depth_eq
  have hdepth' := hq.depth_eq
  have hbegins : q.beginsWith { p with truncated := false } = true ↔
      p.SameRoot q ∧ p.fields <+: q.fields := by
    rw [hq.beginsWith_iff (hp.withTruncated false)]
    simp [SameRoot, eq_comm]
  have hdepths : p.depth < q.depth ↔ p.fields.length < q.fields.length := by omega
  simp only [subsumes, Bool.and_eq_true, hbegins, Bool.or_eq_true, decide_eq_true_eq, hdepths]
  tauto

/-- A position of a sanitizer is about a path if its selectors begin those of the path, whether or
not they are truncated. -/
lemma Regular.removedAt_iff (hp : p.Regular k) (hq : q.Regular k') :
    (p.beginsWith q = true ∨ q.subsumes p = true) ↔ p.SameRoot q ∧ q.fields <+: p.fields := by
  rw [hp.beginsWith_iff hq, hq.subsumes_iff hp]
  constructor
  · rintro (⟨hroot, hinit, -⟩ | ⟨-, hroot, hinit, -⟩)
    · exact ⟨hroot, hinit⟩
    · exact ⟨hroot.symm, hinit⟩
  · rintro ⟨hroot, hinit⟩
    by_cases heq : q.truncated = true → p = q
    · exact Or.inl ⟨hroot, hinit, heq⟩
    · rw [Classical.not_imp] at heq
      exact Or.inr ⟨Ne.symm heq.2, hroot.symm, hinit, Or.inl heq.1⟩

/-- Regular paths may stand for the same location if the selectors of one begin those of the
other. -/
lemma Regular.mayAlias_iff (hp : p.Regular k) (hq : q.Regular k') :
    p.mayAlias q = true ↔ p.SameRoot q ∧ (q.fields <+: p.fields ∨ p.fields <+: q.fields) := by
  have hpq := hp.removedAt_iff hq
  have hqp := hq.removedAt_iff hp
  simp only [mayAlias, Bool.or_eq_true, decide_eq_true_eq]
  constructor
  · rintro ((((rfl | h) | h) | h) | h)
    · exact ⟨⟨rfl, rfl⟩, Or.inl (List.prefix_refl _)⟩
    · obtain ⟨hroot, hinit⟩ := hpq.mp (Or.inl h)
      exact ⟨hroot, Or.inl hinit⟩
    · obtain ⟨hroot, hinit⟩ := hqp.mp (Or.inl h)
      exact ⟨hroot.symm, Or.inr hinit⟩
    · obtain ⟨hroot, hinit⟩ := hqp.mp (Or.inr h)
      exact ⟨hroot.symm, Or.inr hinit⟩
    · obtain ⟨hroot, hinit⟩ := hpq.mp (Or.inr h)
      exact ⟨hroot, Or.inl hinit⟩
  · rintro ⟨hroot, hinit | hinit⟩
    · rcases hpq.mpr ⟨hroot, hinit⟩ with h | h
      · simp [h]
      · simp [h]
    · rcases hqp.mpr ⟨hroot.symm, hinit⟩ with h | h
      · simp [h]
      · simp [h]

/-! ## Moves of regular paths -/

/-- A path below the source is moved with the selectors that it has below it. -/
lemma Regular.substitute?_of_isPrefix (hp : p.Regular k) (hsource : source.Regular k')
    (htarget : target.Regular k) (hroot : p.SameRoot source) (hinit : source.fields <+: p.fields)
    (hmark : source.truncated = true → p = source) :
    p.substitute? source target k =
      some { target.extendAll (p.fields.drop source.fields.length) k with
        truncated := (target.extendAll (p.fields.drop source.fields.length) k).truncated ||
          p.truncated } := by
  rw [substitute?, if_pos ((hp.beginsWith_iff hsource).mpr ⟨hroot, hinit, hmark⟩)]
  exact congrArg some (if_pos (extendAll_depth_le htarget.depth_le))

/-- A truncated path that begins the source is moved to the target, truncated. -/
lemma Regular.substitute?_of_truncated (hp : p.Regular k) (hsource : source.Regular k')
    (htarget : target.Regular k) (hroot : p.SameRoot source) (hinit : p.fields <+: source.fields)
    (hmark : p.truncated = true) :
    p.substitute? source target k = some { target with truncated := true } := by
  by_cases hbegins : p.beginsWith source = true
  · obtain ⟨-, hinit', -⟩ := (hp.beginsWith_iff hsource).mp hbegins
    have hfields : p.fields = source.fields :=
      hinit.eq_of_length_le hinit'.length_le
    rw [substitute?, if_pos hbegins, hfields, List.drop_length, extendAll_nil, hmark]
    dsimp only
    rw [Bool.or_true]
    exact congrArg some (if_pos htarget.depth_le)
  · have hsubsumes : p.subsumes source = true := by
      refine (hp.subsumes_iff hsource).mpr ⟨?_, hroot, hinit, Or.inl hmark⟩
      rintro rfl
      exact hbegins ((hp.beginsWith_iff hsource).mpr ⟨hroot, hinit, fun _ => rfl⟩)
    rw [substitute?, if_neg hbegins, hmark, hsubsumes, Bool.and_self, if_pos rfl]
    exact congrArg some (if_pos htarget.depth_le)

/-- The two ways in which a regular path is moved. -/
lemma Regular.substitute?_cases (hp : p.Regular k) (hsource : source.Regular k')
    (h : p.substitute? source target k = some q) :
    p.SameRoot source ∧
      ((source.fields <+: p.fields ∧ (source.truncated = true → p = source)) ∨
        (p.fields <+: source.fields ∧ p.truncated = true)) := by
  unfold substitute? at h
  split at h
  · rename_i hbegins
    obtain ⟨hroot, hinit, hmark⟩ := (hp.beginsWith_iff hsource).mp hbegins
    exact ⟨hroot, Or.inl ⟨hinit, hmark⟩⟩
  · split at h
    · rename_i hsubsumes
      rw [Bool.and_eq_true] at hsubsumes
      obtain ⟨-, hroot, hinit, -⟩ := (hp.subsumes_iff hsource).mp hsubsumes.2
      exact ⟨hroot, Or.inr ⟨hinit, hsubsumes.1⟩⟩
    · cases h

/-- A path that is moved to a location is regular, and the location begins it. -/
lemma Regular.substitute? (hp : p.Regular k) (hsource : source.Regular k')
    (htarget : target.Regular k) (h : p.substitute? source target k = some q) :
    q.Regular k ∧ q.SameRoot target ∧ target.fields <+: q.fields := by
  have hdots : ∀ f ∈ p.fields.drop source.fields.length, '.' ∉ f.toList :=
    fun f hf => hp.dotFree f (List.mem_of_mem_drop hf)
  obtain ⟨hroot, ⟨hinit, hmark⟩ | ⟨hinit, hmark⟩⟩ := hp.substitute?_cases hsource h
  · rw [hp.substitute?_of_isPrefix hsource htarget hroot hinit hmark, Option.some_inj] at h
    subst h
    refine ⟨(htarget.extendAll hdots).withTruncated _, ⟨extendAll_base, extendAll_isStatic⟩, ?_⟩
    exact isPrefix_extendAll hdots
  · rw [hp.substitute?_of_truncated hsource htarget hroot hinit hmark, Option.some_inj] at h
    subst h
    exact ⟨htarget.withTruncated true, ⟨rfl, rfl⟩, List.prefix_refl _⟩

/-- A path that is moved from one variable to another only changes its root.

**Proof sketch.** All selectors are below the variable, and they are as many as the bound allows, so
none of them is dropped. -/
lemma Regular.substitute?_ofVariable (h : p.Regular k) {name : String}
    (hroot : p.rootedAt name = true) (name' : String) :
    p.substitute? (ofVariable name) (ofVariable name') k = some { p with base := name' } := by
  have hk : 0 ≤ k := by
    have hdepth := h.depth_eq
    have hle := h.depth_le
    omega
  obtain ⟨hstatic, hbase⟩ : p.isStatic = false ∧ p.base = name := by
    simpa [rootedAt] using hroot
  have htarget := regular_ofVariable name' hk
  rw [h.substitute?_of_isPrefix (regular_ofVariable name hk) htarget ⟨hbase, hstatic⟩
    List.nil_prefix (by simp [ofVariable])]
  obtain ⟨hregular, hfields, hcut⟩ := htarget.extendAll_eq rfl h.dotFree
  have hwhole : ((ofVariable name').extendAll p.fields k).truncated = false := by
    rw [← Bool.not_eq_true, hcut]
    have hdepth := h.depth_eq
    have hle := h.depth_le
    simp only [ofVariable, List.length_nil]
    omega
  have hmoved : { p with base := name' }.Regular k := ⟨h.depth_eq, h.depth_le, h.dotFree⟩
  refine congrArg some ((hregular.withTruncated _).ext hmoved ?_ ?_ ?_)
  · exact ⟨extendAll_base, extendAll_isStatic.trans hstatic.symm⟩
  · exact hfields.trans (List.take_of_length_le h.length_le)
  · show (_ || p.truncated) = p.truncated
    rw [show (ofVariable name).fields.length = 0 from rfl, List.drop_zero, hwhole, Bool.false_or]

/-! ## Covering -/

/-- The path `s` within the bound `k` covers the path `d` within the bound `k'`: a truncated path
covers every path that it begins, another one only itself. -/
structure Covers (k k' : Int) (s d : AccessPath) : Prop where
  shallow : s.Regular k
  deep : d.Regular k'
  root : s.SameRoot d
  isPrefix : s.fields <+: d.fields
  exact : s.truncated = false → s.fields = d.fields ∧ d.truncated = false

/-- The path `s` is a location within the bound `k`, and `d` is the same location within the larger
bound `k'`: if `s` is truncated then it has as many selectors as the bound allows, and `d` has more
or is truncated, too. -/
structure CutOf (k k' : Int) (s d : AccessPath) : Prop extends Covers k k' s d where
  full : s.truncated = true → s.depth = k ∧ (d.truncated = true ∨ s.depth < d.depth)

variable {s d : AccessPath} {rest rest' : List String}

/-- A path that is not truncated covers itself within a larger bound. -/
lemma Regular.cutOf (h : p.Regular k) (hopen : p.truncated = false) (hle : k ≤ k') :
    CutOf k k' p p where
  shallow := h
  deep := ⟨h.depth_eq, h.depth_le.trans hle, h.dotFree⟩
  root := ⟨rfl, rfl⟩
  isPrefix := List.prefix_refl _
  exact _ := ⟨rfl, hopen⟩
  full htruncated := by
    rw [hopen] at htruncated
    cases htruncated

/-- The selectors of a list that begins another one, as far as two bounds allow. -/
lemma take_isPrefix_take {l l' : List String} (h : l <+: l') {n n' : Nat} (hn : n ≤ n') :
    l.take n <+: l'.take n' := by
  obtain ⟨added, rfl⟩ := h
  rw [List.prefix_take_iff]
  refine ⟨?_, (List.length_take_le n l).trans hn⟩
  exact (List.take_prefix n l).trans (List.prefix_append l added)

/-- Locations that are extended by selectors and marked. The selectors may go on in the larger
bound if the path in the smaller one is marked. -/
lemma Covers.extendAll (h : Covers k k' s d) (hle : k ≤ k') (hrest : rest <+: rest')
    (hdots : ∀ f ∈ rest', '.' ∉ f.toList) {mark mark' : Bool}
    (hmark : mark = false → rest = rest' ∧ mark' = false) :
    Covers k k'
      { s.extendAll rest k with truncated := (s.extendAll rest k).truncated || mark }
      { d.extendAll rest' k' with truncated := (d.extendAll rest' k').truncated || mark' } := by
  have hdots' : ∀ f ∈ rest, '.' ∉ f.toList := fun f hf => hdots f (hrest.subset hf)
  have hshallow := (h.shallow.extendAll hdots').withTruncated
    ((s.extendAll rest k).truncated || mark)
  have hdeep := (h.deep.extendAll hdots).withTruncated ((d.extendAll rest' k').truncated || mark')
  have hroot : (s.extendAll rest k).SameRoot (d.extendAll rest' k') := by
    simpa [SameRoot] using h.root
  cases hs : s.truncated with
  | true =>
    -- the location is not extended, and begins what the other one is extended to
    have hstay : s.extendAll rest k = s := extendAll_of_truncated hs
    refine ⟨hshallow, hdeep, hroot, ?_, ?_⟩
    · dsimp only
      rw [hstay]
      exact h.isPrefix.trans (isPrefix_extendAll hdots)
    · intro hopen
      simp [hstay, hs] at hopen
  | false =>
    obtain ⟨hfields, hd⟩ := h.exact hs
    obtain ⟨-, hsfields, hscut⟩ := h.shallow.extendAll_eq hs hdots'
    obtain ⟨-, hdfields, hdcut⟩ := h.deep.extendAll_eq hd hdots
    refine ⟨hshallow, hdeep, hroot, ?_, ?_⟩
    · dsimp only
      rw [hsfields, hdfields, hfields]
      exact take_isPrefix_take ((List.prefix_append_right_inj d.fields).mpr hrest)
        (Int.toNat_le_toNat hle)
    · intro hopen
      dsimp only at hopen ⊢
      rw [Bool.or_eq_false_iff, ← Bool.not_eq_true, hscut] at hopen
      obtain ⟨hfits, hplain⟩ := hopen
      obtain ⟨rfl, hplain'⟩ := hmark hplain
      have hfits' : (d.extendAll rest k').truncated = false := by
        rw [← Bool.not_eq_true, hdcut, ← hfields]
        omega
      refine ⟨?_, by rw [hfits', hplain', Bool.or_false]⟩
      rw [hsfields, hdfields, hfields, List.take_of_length_le, List.take_of_length_le]
      · rw [List.length_append, ← hfields]
        omega
      · rw [List.length_append, ← hfields]
        omega

/-- The same position within two bounds. -/
lemma cutOf_extendAll (name : String) (hk : 0 ≤ k) (hle : k ≤ k')
    (hdots : ∀ f ∈ fields, '.' ∉ f.toList) :
    CutOf k k' ((ofVariable name).extendAll fields k) ((ofVariable name).extendAll fields k') := by
  have hcovers : Covers k k' (ofVariable name) (ofVariable name) :=
    ((regular_ofVariable name hk).cutOf rfl hle).toCovers
  obtain ⟨hreg, hfields, hcut⟩ := (regular_ofVariable name hk).extendAll_eq rfl hdots
  obtain ⟨hreg', hfields', hcut'⟩ := (regular_ofVariable name (hk.trans hle)).extendAll_eq rfl hdots
  have hextended : Covers k k' _ _ :=
    hcovers.extendAll hle (List.prefix_refl fields) hdots fun _ : false = false => ⟨rfl, rfl⟩
  simp only [Bool.or_false] at hextended
  refine ⟨hextended, fun htruncated => ?_⟩
  have hmore := hcut.mp htruncated
  have hdepth := hreg.depth_eq
  have hdepth' := hreg'.depth_eq
  rw [hfields, List.length_take, List.length_append] at hdepth
  rw [hfields', List.length_take, List.length_append] at hdepth'
  rw [hcut']
  omega

/-- A truncated path that begins its source covers, once it is moved, everything at the target. -/
lemma Covers.substitute?_of_truncated {target' : AccessPath}
    (hs : s.Regular k) (hsource : source.Regular k) (htarget : Covers k k' target target')
    (hroot : s.SameRoot source) (hinit : s.fields <+: source.fields) (hmark : s.truncated = true)
    (hq : q.Regular k') (hqroot : q.SameRoot target') (hbelow : target'.fields <+: q.fields) :
    ∃ s', s.substitute? source target k = some s' ∧ Covers k k' s' q :=
  ⟨_, hs.substitute?_of_truncated hsource htarget.shallow hroot hinit hmark,
    htarget.shallow.withTruncated true, hq, htarget.root.trans hqroot.symm,
    htarget.isPrefix.trans hbelow, nofun⟩

/-- A truncated location is as long as a path within the bound can be, so it begins only paths with
the same selectors. -/
lemma CutOf.fields_eq (h : CutOf k k' source q) (hmark : source.truncated = true)
    (hp : p.Regular k) (hinit : source.fields <+: p.fields) : p.fields = source.fields := by
  refine (hinit.eq_of_length_le ?_).symm
  have hdepth := (h.full hmark).1
  have hlength := hp.length_le
  have hsourceDepth := h.shallow.depth_eq
  omega

/-- **What a path covers is moved along with it**, between locations that are cut to the two bounds.

**Proof sketch.** Let `d` be moved. The selectors of the path `s`, of its source and of the source
of `d` all begin the longer one of `d` and its source, so those of `s` and its source begin one
another. If the source begins `s`, then `s` is below its source and is moved with what it has below
it. If `s` begins its source, then it is truncated, since it would have all selectors of `d`
otherwise; so it stands for the source and is moved to its target as a truncated path, which covers
all paths below the target. -/
lemma Covers.substitute? {source' target' d' : AccessPath} (h : Covers k k' s d) (hle : k ≤ k')
    (hsource : CutOf k k' source source') (htarget : Covers k k' target target')
    (hd' : d.substitute? source' target' k' = some d') :
    ∃ s', s.substitute? source target k = some s' ∧ Covers k k' s' d' := by
  obtain ⟨hroot', hcases⟩ := h.deep.substitute?_cases hsource.deep hd'
  obtain ⟨hdeep, hroots, hbelow'⟩ := h.deep.substitute? hsource.deep htarget.deep hd'
  have hroot : s.SameRoot source := h.root.trans (hroot'.trans hsource.root.symm)
  have hwhole : s.fields <+: source.fields → s.truncated = true →
      ∃ s', s.substitute? source target k = some s' ∧ Covers k k' s' d' := fun hinit hmark =>
    Covers.substitute?_of_truncated h.shallow hsource.shallow htarget hroot hinit hmark hdeep
      hroots hbelow'
  rcases hcases with ⟨hbelow, hmark⟩ | ⟨habove, hmark⟩
  · by_cases hin : source.fields <+: s.fields ∧ (source.truncated = true → s = source)
    · obtain ⟨hinit, hsame⟩ := hin
      refine ⟨_, h.shallow.substitute?_of_isPrefix hsource.shallow htarget.shallow hroot hinit
        hsame, ?_⟩
      rw [h.deep.substitute?_of_isPrefix hsource.deep htarget.deep hroot' hbelow hmark,
        Option.some_inj] at hd'
      subst hd'
      refine htarget.extendAll hle ?_ (fun f hf => h.deep.dotFree f (List.mem_of_mem_drop hf)) ?_
      · cases hcut : source.truncated with
        | true =>
          rw [← hsame hcut, List.drop_length]
          exact List.nil_prefix
        | false =>
          rw [(hsource.exact hcut).1]
          exact h.isPrefix.drop _
      · intro hopen
        obtain ⟨hfields, hopen'⟩ := h.exact hopen
        have hcut : source.truncated = false := by
          by_contra hcut
          rw [Bool.not_eq_false] at hcut
          rw [hsame hcut, hcut] at hopen
          cases hopen
        exact ⟨by rw [hfields, (hsource.exact hcut).1], hopen'⟩
    · have hcut : source.fields <+: s.fields → source.truncated = true := by
        intro hinit
        by_contra hcut
        exact hin ⟨hinit, fun h => absurd h hcut⟩
      refine hwhole ?_ ?_
      · rcases List.prefix_or_prefix_of_prefix h.isPrefix (hsource.isPrefix.trans hbelow) with
          hinit | hinit
        · exact hinit
        · rw [hsource.fields_eq (hcut hinit) h.shallow hinit]
      · by_contra hopen
        rw [Bool.not_eq_true] at hopen
        obtain ⟨hfields, hopen'⟩ := h.exact hopen
        have hinit : source.fields <+: s.fields := by
          rw [hfields]
          exact hsource.isPrefix.trans hbelow
        obtain ⟨hdepth, hcut' | hdeeper⟩ := hsource.full (hcut hinit)
        · rw [hmark hcut', hcut'] at hopen'
          cases hopen'
        · have hlength := hbelow.length_le
          rw [← hfields, hsource.fields_eq (hcut hinit) h.shallow hinit] at hlength
          have hsourceDepth := hsource.shallow.depth_eq
          have hsourceDepth' := hsource.deep.depth_eq
          omega
  · refine hwhole ?_ ?_
    · rcases List.prefix_or_prefix_of_prefix (h.isPrefix.trans habove) hsource.isPrefix with
        hinit | hinit
      · exact hinit
      · cases hcut : source.truncated with
        | true => rw [hsource.fields_eq hcut h.shallow hinit]
        | false =>
          rw [(hsource.exact hcut).1]
          exact h.isPrefix.trans habove
    · by_contra hopen
      rw [Bool.not_eq_true] at hopen
      rw [(h.exact hopen).2] at hmark
      cases hmark

/-! ## Tests of covered paths -/

/-- What a path covers is rooted at the same variable. -/
lemma Covers.rootedAt (h : Covers k k' s d) (name : String) :
    s.rootedAt name = d.rootedAt name := by
  rw [AccessPath.rootedAt, AccessPath.rootedAt, h.root.1, h.root.2]

/-- If a path begins with a location, then so does what it covers. -/
lemma Covers.beginsWith (h : Covers k k' s d) (hsource : Covers k k' source p)
    (hopen : source.truncated = false) (hbegins : s.beginsWith source = true) :
    d.beginsWith p = true := by
  obtain ⟨hfields, hopen'⟩ := hsource.exact hopen
  obtain ⟨hroot, hinit, -⟩ := (h.shallow.beginsWith_iff hsource.shallow).mp hbegins
  refine (h.deep.beginsWith_iff hsource.deep).mpr ⟨?_, ?_, fun hcut => ?_⟩
  · exact h.root.symm.trans (hroot.trans hsource.root)
  · rw [← hfields]
    exact hinit.trans h.isPrefix
  · rw [hopen'] at hcut
    cases hcut

/-- If a sanitizer at a position that is not truncated removes a path, then it removes what the path
covers. -/
lemma Covers.removedAt (h : Covers k k' s d) (hsource : Covers k k' source p)
    (hopen : source.truncated = false)
    (hremoved : s.beginsWith source = true ∨ source.subsumes s = true) :
    d.beginsWith p = true ∨ p.subsumes d = true := by
  obtain ⟨hroot, hinit⟩ := (h.shallow.removedAt_iff hsource.shallow).mp hremoved
  refine (h.deep.removedAt_iff hsource.deep).mpr ⟨?_, ?_⟩
  · exact h.root.symm.trans (hroot.trans hsource.root)
  · rw [← (hsource.exact hopen).1]
    exact hinit.trans h.isPrefix

/-- If taint of a path is reported at a position, then so is that of every path that covers it,
wherever the position is cut. -/
lemma Covers.mayAlias (h : Covers k k' s d) (hsource : Covers k k' source p)
    (halias : d.mayAlias p = true) : s.mayAlias source = true := by
  obtain ⟨hroot, hinit⟩ := (h.deep.mayAlias_iff hsource.deep).mp halias
  refine (h.shallow.mayAlias_iff hsource.shallow).mpr ⟨?_, ?_⟩
  · exact h.root.trans (hroot.trans hsource.root.symm)
  · rcases hinit with hinit | hinit
    · exact List.prefix_or_prefix_of_prefix (hsource.isPrefix.trans hinit) h.isPrefix
    · exact List.prefix_or_prefix_of_prefix hsource.isPrefix (h.isPrefix.trans hinit)

/-- A path that is not truncated covers only itself. -/
lemma Covers.eq_of_not_truncated (h : Covers k k' s d) (hopen : s.truncated = false) : s = d :=
  h.shallow.ext h.deep h.root (h.exact hopen).1 (hopen.trans (h.exact hopen).2.symm)

/-- The path of a variable, marked as truncated: the variable and all that can be reached from
it. -/
def below (name : String) : AccessPath := { ofVariable name with truncated := true }

/-- The path of a variable is covered by itself and by all that can be reached from it, only. -/
lemma Covers.eq_or_eq_below {name : String} (h : Covers k k' s (ofVariable name)) :
    s = ofVariable name ∨ s = below name := by
  have hfields : s.fields = [] := List.prefix_nil.mp h.isPrefix
  cases hmark : s.truncated with
  | false => exact Or.inl (h.shallow.ext h.deep h.root hfields hmark)
  | true => exact Or.inr (h.shallow.ext (h.deep.withTruncated true) h.root hfields hmark)

/-- All that can be reached from a variable covers the variable. -/
lemma covers_below (name : String) (hk : 0 ≤ k) (hle : k ≤ k') :
    Covers k k' (below name) (ofVariable name) where
  shallow := (regular_ofVariable name hk).withTruncated true
  deep := regular_ofVariable name (hk.trans hle)
  root := ⟨rfl, rfl⟩
  isPrefix := List.prefix_refl _
  exact := nofun

end AccessPath

end JvmTaint
