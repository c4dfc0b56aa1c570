import JvmTaint.Proofs.Taint.Locations

set_option autoImplicit false
set_option relaxedAutoImplicit false

/-!
# Comparing access paths

Access paths that are built with single names are compared by their roots, their selectors and their
marks; the depth follows from the selectors. The tests are relations between lists of selectors:
being a prefix, and being comparable by it. They can as well be made on the text of the selectors,
each after a dot: a list is a prefix of another one if its text begins the other text and ends there
before a dot.

## Main definitions

* `JvmTaint.AccessPath.Built`: the paths that the operations give.
* `JvmTaint.AccessPath.written`: the text of the selectors.

## Main results

* `JvmTaint.AccessPath.Built.plain`: such a path has as many selectors as its depth says.
* `JvmTaint.AccessPath.DotFree.isPrefix_iff_written`: comparing texts compares selectors.
* `JvmTaint.AccessPath.compared_by_selectors`: all tests in terms of the selectors.
-/

namespace JvmTaint

namespace AccessPath

variable {p q r source target : AccessPath} {k : Int} {field : String} {fields : List String}

/-! ## The text of the selectors -/

/-- The text of the selectors, each after a dot. -/
def written (p : AccessPath) : String := String.join (p.fields.map ("." ++ ·))

/-- The characters of the text of the selectors. -/
lemma toList_written (p : AccessPath) :
    p.written.toList = (p.fields.map String.toList).flatMap ('.' :: ·) := by
  simp [written, String.toList_join, List.flatMap_map]

/-- The selectors can be read off their text. -/
lemma DotFree.split_written (h : p.DotFree) : Text.split '.' p.written = "" :: p.fields := by
  have hparts : ∀ part ∈ p.fields.map String.toList, '.' ∉ part := by
    simpa [DotFree] using h
  rw [Text.split, toList_written, Text.splitChars_flatMap_cons hparts]
  simp

/-- Paths without dots have the same text if they have the same selectors. -/
lemma DotFree.written_inj (hp : p.DotFree) (hq : q.DotFree) :
    p.written = q.written ↔ p.fields = q.fields := by
  constructor
  · intro h
    have hsplit := hp.split_written
    rw [h, hq.split_written] at hsplit
    exact (List.cons.inj hsplit).2.symm
  · intro h
    rw [written, written, h]

/-- **Comparing texts compares selectors.** The selectors of a path without dots begin those of
another one if the text does, and the other text ends there or goes on with a dot. -/
lemma DotFree.isPrefix_iff_written (hp : p.DotFree) (hq : q.DotFree) :
    q.fields <+: p.fields ↔
      ∃ rest, p.written.toList = q.written.toList ++ rest ∧ (∀ c ∈ rest.head?, c = '.') := by
  constructor
  · rintro ⟨more, hmore⟩
    refine ⟨(more.map String.toList).flatMap ('.' :: ·), ?_, ?_⟩
    · rw [toList_written, toList_written, ← hmore, List.map_append, List.flatMap_append]
    · cases more <;> simp
  · rintro ⟨rest, heq, hrest⟩
    have hp' := hp.split_written
    have hq' := hq.split_written
    rw [Text.split] at hp' hq'
    cases rest with
    | nil =>
      rw [List.append_nil] at heq
      rw [heq, hq'] at hp'
      rw [(List.cons.inj hp').2]
    | cons c rest =>
      obtain rfl : c = '.' := hrest c rfl
      rw [heq, Text.splitChars_append_cons, List.map_append, hq', List.cons_append] at hp'
      exact ⟨_, (List.cons.inj hp').2⟩

/-! ## Built paths -/

/-- The path is built by the operations, with names without dots and bounds that are not
negative. -/
inductive Built : AccessPath → Prop
  | ofVariable (name : String) : Built (ofVariable name)
  | ofStatic (owner : String) {field : String} (h : '.' ∉ field.toList) :
      Built (ofStatic owner field)
  | extend {p : AccessPath} {field : String} {k : Int} (hp : Built p) (h : '.' ∉ field.toList)
      (hk : 0 ≤ k) : Built (p.extend field k)
  | truncate {p : AccessPath} {k : Int} (hp : Built p) (hk : 0 ≤ k) : Built (p.truncate k)
  | substitute {p source target q : AccessPath} {k : Int} (hp : Built p) (hsource : Built source)
      (htarget : Built target) (hk : 0 ≤ k) (h : p.substitute? source target k = some q) : Built q

/-- Marking a plain path as truncated or not keeps it plain. -/
lemma Plain.withTruncated (h : p.Plain) (truncated : Bool) : { p with truncated }.Plain :=
  ⟨h.depth_eq, h.dotFree⟩

/-- A plain path that is extended by a name without dots is plain. -/
lemma Plain.extend (h : p.Plain) (hfield : '.' ∉ field.toList) : (p.extend field k).Plain := by
  refine ⟨?_, h.dotFree.extend⟩
  have hdepth := h.depth_eq
  unfold AccessPath.extend
  split
  · exact hdepth
  · split
    · exact hdepth
    · simp [hdepth, Text.split_eq_singleton hfield]

/-- A plain path that is extended by names without dots is plain. -/
lemma Plain.extendAll (h : p.Plain) (hfields : ∀ f ∈ fields, '.' ∉ f.toList) :
    (p.extendAll fields k).Plain := by
  induction fields generalizing p with
  | nil => exact h
  | cons f fields ih =>
    rw [extendAll_cons]
    exact ih (h.extend (hfields f List.mem_cons_self)) fun f' hf' =>
      hfields f' (List.mem_cons_of_mem _ hf')

/-- A plain path that is cut is plain. -/
lemma Plain.truncate (h : p.Plain) (hk : 0 ≤ k) : (p.truncate k).Plain := by
  rw [show p.truncate k = _ from truncate_eq_ofLocation h.depth_eq hk p.truncated]
  exact ⟨rfl, fun f hf => h.dotFree f (List.mem_of_mem_take hf)⟩

/-- A plain path that is moved to a plain one is plain. -/
lemma Plain.substitute? (hp : p.Plain) (htarget : target.Plain) (hk : 0 ≤ k)
    (h : p.substitute? source target k = some q) : q.Plain := by
  unfold AccessPath.substitute? at h
  split at h
  · rw [Option.some_inj] at h
    subst h
    exact ((htarget.extendAll fun f hf =>
      hp.dotFree f (List.mem_of_mem_drop hf)).withTruncated _).truncate hk
  · split at h
    · rw [Option.some_inj] at h
      subst h
      exact (htarget.withTruncated true).truncate hk
    · cases h

/-- The depth of a built path is the number of its selectors, which are free of dots. -/
lemma Built.plain (h : p.Built) : p.Plain := by
  induction h with
  | ofVariable name => exact plain_ofVariable name
  | ofStatic owner h => exact plain_ofStatic owner h
  | extend _ hfield _ ih => exact ih.extend hfield
  | truncate _ hk ih => exact ih.truncate hk
  | substitute _ _ _ hk h ihp _ ihtarget => exact ihp.substitute? ihtarget hk h

/-! ## The tests -/

/-- Plain paths are equal if their roots, their selectors and their marks are. -/
lemma Plain.eq_iff (hp : p.Plain) (hq : q.Plain) :
    p = q ↔ p.SameRoot q ∧ p.fields = q.fields ∧ p.truncated = q.truncated := by
  constructor
  · rintro rfl
    exact ⟨⟨rfl, rfl⟩, rfl, rfl⟩
  · rintro ⟨hroot, hfields, hmark⟩
    exact hp.regular.ext hq.regular hroot hfields hmark

/-- What a path stands for includes what is included in a path that it stands for.

**Proof sketch.** The selectors of the first path begin those of the last one. If the two were
equal, then all three would have the same selectors; the first is truncated, since it does not
properly begin the second, and so is the second. -/
lemma Plain.subsumes_trans (hp : p.Plain) (hq : q.Plain) (hr : r.Plain)
    (hpq : p.subsumes q = true) (hqr : q.subsumes r = true) : p.subsumes r = true := by
  obtain ⟨hne, hroot, hinit, hmark⟩ := (hp.regular.subsumes_iff hq.regular).mp hpq
  obtain ⟨-, hroot', hinit', hmark'⟩ := (hq.regular.subsumes_iff hr.regular).mp hqr
  have hlength := hinit.length_le
  have hlength' := hinit'.length_le
  refine (hp.regular.subsumes_iff hr.regular).mpr
    ⟨?_, hroot.trans hroot', hinit.trans hinit', hmark.imp_right fun h => h.trans_le hlength'⟩
  rintro rfl
  refine hne (hp.regular.ext hq.regular hroot (hinit.eq_of_length_le hlength') ?_)
  rcases hmark with hmark | hmark
  · rcases hmark' with hmark' | hmark'
    · rw [hmark, hmark']
    · omega
  · omega

/-- **Paths are compared by their selectors.** For paths that are built with names without dots, the
depth is the number of selectors, and paths are equal if their roots, selectors and marks are. A
path begins with another one that is not truncated if the selectors do. Standing for more than
another path is irreflexive and transitive. Whether two paths may alias is symmetric and does not
depend on the marks: the selectors of one begin those of the other. Equality of selectors and
being a prefix can be tested on their texts. -/
theorem compared_by_selectors (p q r : AccessPath) (hp : p.Built) (hq : q.Built)
    (hr : r.Built) :
    p.depth = p.fields.length ∧
    (p = q ↔ (p.base = q.base ∧ p.isStatic = q.isStatic) ∧ p.fields = q.fields ∧
      p.truncated = q.truncated) ∧
    (q.truncated = false → (p.beginsWith q = true ↔
      (p.base = q.base ∧ p.isStatic = q.isStatic) ∧ q.fields <+: p.fields)) ∧
    (p.subsumes p = false ∧
      (p.subsumes q = true → q.subsumes r = true → p.subsumes r = true)) ∧
    (p.mayAlias q = q.mayAlias p ∧ (p.mayAlias q = true ↔
      (p.base = q.base ∧ p.isStatic = q.isStatic) ∧
        (q.fields <+: p.fields ∨ p.fields <+: q.fields))) ∧
    (p.written = q.written ↔ p.fields = q.fields) ∧
    (q.fields <+: p.fields ↔
      ∃ rest, p.written.toList = q.written.toList ++ rest ∧ ∀ c ∈ rest.head?, c = '.') := by
  have hp := hp.plain
  have hq := hq.plain
  have hr := hr.plain
  have halias := hp.regular.mayAlias_iff hq.regular
  have halias' := hq.regular.mayAlias_iff hp.regular
  refine ⟨hp.depth_eq, hp.eq_iff hq, fun hopen => ?_, ⟨?_, hp.subsumes_trans hq hr⟩,
    ⟨?_, halias⟩, hp.dotFree.written_inj hq.dotFree, hp.dotFree.isPrefix_iff_written hq.dotFree⟩
  · rw [hp.regular.beginsWith_iff hq.regular, hopen]
    simp [SameRoot]
  · simp [subsumes]
  · rw [Bool.eq_iff_iff, halias, halias']
    exact and_congr ⟨SameRoot.symm, SameRoot.symm⟩ or_comm

/-- The path `x.a`, cut to no selector, may alias `x.ab`; the path `x.a` itself does not begin
`x.ab`, although its text does. -/
theorem compared_by_selectors_of_names :
    let a := (ofVariable "x").extend "a" 2
    let ab := (ofVariable "x").extend "ab" 2
    a.Built ∧ ab.Built ∧ (a.truncate 0).Built ∧ ab.beginsWith a = false ∧
      (a.truncate 0).mayAlias ab = true := by
  intro a ab
  have ha : a.Built := .extend (.ofVariable "x") (by decide) (by decide)
  have hab : ab.Built := .extend (.ofVariable "x") (by decide) (by decide)
  have hcut : (a.truncate 0).Built := .truncate ha (by decide)
  obtain ⟨-, -, hbegins, -⟩ := compared_by_selectors ab a a hab ha ha
  obtain ⟨-, -, -, -, ⟨-, halias⟩, -⟩ := compared_by_selectors (a.truncate 0) ab a hcut hab ha
  refine ⟨ha, hab, hcut, ?_, halias.mpr ⟨⟨rfl, rfl⟩, Or.inr List.nil_prefix⟩⟩
  rw [← Bool.not_eq_true, hbegins rfl]
  rintro ⟨-, hinit⟩
  exact absurd hinit (by decide)

end AccessPath

end JvmTaint
