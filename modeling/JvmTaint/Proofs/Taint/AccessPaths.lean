import JvmTaint.Proofs.Text.Split
import JvmTaint.Taint.AccessPath
import Mathlib.Data.Set.Finite.Lattice
import Mathlib.Data.Set.Finite.List
import Mathlib.Order.Interval.Finset.Defs
import Mathlib.Order.Interval.Set.Defs
import Mathlib.Data.Int.Interval

set_option autoImplicit false
set_option relaxedAutoImplicit false

/-!
# Bounds of access paths

Taint that a flow function gives to a location is either the taint of the location itself or that of
a path that was moved there. In both cases the path keeps the root of the location, and its length
stays within the bound. So the paths that can be tainted at finitely many locations are finitely
many.

## Main definitions

* `JvmTaint.AccessPath.MovesTo`: what a path becomes at a location.
* `JvmTaint.AccessPath.Bounded`: a path whose length is within the bound.
* `JvmTaint.AccessPath.within`: the paths below some locations.

## Main results

* `JvmTaint.AccessPath.MovesTo.bounded`: a move keeps paths within the bound.
* `JvmTaint.AccessPath.MovesTo.mem_within`: a move does not leave the paths below some locations.
* `JvmTaint.AccessPath.finite_within`: finitely many locations have finitely many paths below them.

## Design

A name with dots counts once for the depth of a path but gives several selectors, so the number of
selectors is not bounded by the depth. It is bounded by the depth and the number of selectors of the
location at the root: a move appends single selectors, since those of a path are free of dots.
-/

namespace JvmTaint

namespace AccessPath

variable {p q source target : AccessPath} {k : Int} {field : String} {fields : List String}

/-! ## Extending -/

@[simp] lemma extend_base : (p.extend field k).base = p.base := by
  unfold extend; split <;> [rfl; split <;> rfl]

@[simp] lemma extend_isStatic : (p.extend field k).isStatic = p.isStatic := by
  unfold extend; split <;> [rfl; split <;> rfl]

@[simp] lemma extendAll_nil : p.extendAll [] k = p := rfl

@[simp] lemma extendAll_cons :
    p.extendAll (field :: fields) k = (p.extend field k).extendAll fields k := rfl

@[simp] lemma extendAll_base : (p.extendAll fields k).base = p.base := by
  induction fields generalizing p with
  | nil => rfl
  | cons f fields ih => rw [extendAll_cons, ih, extend_base]

@[simp] lemma extendAll_isStatic : (p.extendAll fields k).isStatic = p.isStatic := by
  induction fields generalizing p with
  | nil => rfl
  | cons f fields ih => rw [extendAll_cons, ih, extend_isStatic]

/-- Extending a path does not make it less deep. -/
lemma depth_le_extend (p : AccessPath) (field : String) (k : Int) :
    p.depth ≤ (p.extend field k).depth := by
  unfold extend; split <;> [exact le_rfl; split <;> [exact le_rfl; (dsimp only; omega)]]

/-- Extending a path keeps it within the bound. -/
lemma extend_depth_le (h : p.depth ≤ k) : (p.extend field k).depth ≤ k := by
  unfold extend; split <;> [exact h; split <;> [exact h; (dsimp only; omega)]]

/-- Extending a path does not make it less deep. -/
lemma depth_le_extendAll (p : AccessPath) (fields : List String) (k : Int) :
    p.depth ≤ (p.extendAll fields k).depth := by
  induction fields generalizing p with
  | nil => exact le_rfl
  | cons f fields ih => exact (depth_le_extend ..).trans (ih _)

/-- Extending a path keeps it within the bound. -/
lemma extendAll_depth_le (h : p.depth ≤ k) : (p.extendAll fields k).depth ≤ k := by
  induction fields generalizing p with
  | nil => exact h
  | cons f fields ih => exact ih (extend_depth_le h)

/-! ## Selectors -/

/-- Every selector of the path is free of dots. -/
def DotFree (p : AccessPath) : Prop := ∀ f ∈ p.fields, '.' ∉ f.toList

/-- A path stays free of dots when it is extended, since names are cut at their dots. -/
lemma DotFree.extend (h : p.DotFree) : (p.extend field k).DotFree := by
  unfold AccessPath.extend
  split <;> [exact h; split]
  · exact h
  · intro f hf
    rcases List.mem_append.mp hf with hf | hf
    · exact h f hf
    · exact Text.notMem_of_mem_split hf

/-- A path stays free of dots when it is extended. -/
lemma DotFree.extendAll (h : p.DotFree) : (p.extendAll fields k).DotFree := by
  induction fields generalizing p with
  | nil => exact h
  | cons f fields ih => exact ih h.extend

/-- The path of a variable has no selectors. -/
lemma dotFree_ofVariable (name : String) : (ofVariable name).DotFree := by
  simp [DotFree, ofVariable]

/-- The path of a static field is free of dots. -/
lemma dotFree_ofStatic (owner field : String) : (ofStatic owner field).DotFree :=
  fun _ hf => Text.notMem_of_mem_split hf

/-- A selector without dots is appended as it is. -/
lemma extend_fields (h : '.' ∉ field.toList) : (p.extend field k).fields = p.fields ∨
    (p.extend field k).fields = p.fields ++ [field] ∧
      (p.extend field k).depth = p.depth + 1 := by
  unfold extend
  split <;> [exact Or.inl rfl; split]
  · exact Or.inl rfl
  · exact Or.inr ⟨by rw [Text.split_eq_singleton h], rfl⟩

/-- Extending by selectors without dots appends some of them, each with its own depth. -/
lemma extendAll_fields (h : ∀ f ∈ fields, '.' ∉ f.toList) :
    ∃ added, (p.extendAll fields k).fields = p.fields ++ added ∧ added ⊆ fields ∧
      p.depth + added.length ≤ (p.extendAll fields k).depth := by
  induction fields generalizing p with
  | nil => exact ⟨[], by simp, by simp, by simp⟩
  | cons f fields ih =>
    obtain ⟨added, heq, hsub, hlen⟩ :=
      ih (p := p.extend f k) fun f' hf' => h f' (List.mem_cons_of_mem _ hf')
    rw [extendAll_cons]
    rcases extend_fields (p := p) (k := k) (h f List.mem_cons_self) with hsame | ⟨hmore, hdepth⟩
    · have hge := depth_le_extend p f k
      exact ⟨added, by rw [heq, hsame], fun x hx => List.mem_cons_of_mem _ (hsub hx), by omega⟩
    · refine ⟨f :: added, by simp [heq, hmore], ?_, ?_⟩
      · exact List.cons_subset_cons f hsub
      · simp only [List.length_cons, Nat.cast_add, Nat.cast_one]
        omega

/-! ## Moves -/

/-- The path `p` becomes `q` at the location `target`: its value is computed into the location, or
it is moved there from some root. -/
def MovesTo (k : Int) (p target q : AccessPath) : Prop :=
  q = target ∨ ∃ source, p.substitute? source target k = some q

/-- The ways in which a path is moved to a location within the bound: the location is extended by
selectors of the path, or marked as truncated. -/
lemma substitute?_cases (htarget : target.depth ≤ k) (h : p.substitute? source target k = some q) :
    ∃ n truncated, q = { target.extendAll (p.fields.drop n) k with truncated } := by
  unfold substitute? at h
  split at h
  · rw [Option.some_inj, truncate, if_pos (extendAll_depth_le htarget)] at h
    exact ⟨_, _, h.symm⟩
  · split at h
    · rw [Option.some_inj, truncate, if_pos htarget] at h
      exact ⟨p.fields.length, true, by simp [← h]⟩
    · cases h

namespace MovesTo

/-- What moves to a location within the bound extends it by selectors of the path. -/
lemma cases (h : MovesTo k p target q) (htarget : target.depth ≤ k) :
    ∃ n truncated, q = { target.extendAll (p.fields.drop n) k with truncated } := by
  rcases h with rfl | ⟨source, h⟩
  · exact ⟨p.fields.length, q.truncated, by simp⟩
  · exact substitute?_cases htarget h

/-- A path keeps the root of the location. -/
lemma base (h : MovesTo k p target q) (htarget : target.depth ≤ k) : q.base = target.base := by
  obtain ⟨n, truncated, rfl⟩ := h.cases htarget
  exact extendAll_base

/-- A path keeps the root of the location. -/
lemma isStatic (h : MovesTo k p target q) (htarget : target.depth ≤ k) :
    q.isStatic = target.isStatic := by
  obtain ⟨n, truncated, rfl⟩ := h.cases htarget
  exact extendAll_isStatic

end MovesTo

/-! ## The bound of the depth -/

/-- The depth of the path is within the bound, and a static path has its field. -/
structure Bounded (k : Int) (p : AccessPath) : Prop where
  nonneg : 0 ≤ p.depth
  depth_le : p.depth ≤ k
  static : p.isStatic = true → 1 ≤ p.depth

/-- The path of a variable is within every bound. -/
lemma bounded_ofVariable (name : String) (hk : 0 ≤ k) : (ofVariable name).Bounded k :=
  ⟨le_rfl, hk, by simp [ofVariable]⟩

/-- The path of a static field is within every positive bound. -/
lemma bounded_ofStatic (owner field : String) (hk : 1 ≤ k) : (ofStatic owner field).Bounded k :=
  ⟨by simp [ofStatic], hk, fun _ => le_rfl⟩

/-- A path within the bound stays there when it is extended. -/
lemma Bounded.extendAll (h : p.Bounded k) (fields : List String) :
    (p.extendAll fields k).Bounded k where
  nonneg := h.nonneg.trans (depth_le_extendAll ..)
  depth_le := extendAll_depth_le h.depth_le
  static hs := (h.static (by simpa using hs)).trans (depth_le_extendAll ..)

/-- A path that is moved to a location within the bound is within the bound. -/
lemma MovesTo.bounded (h : MovesTo k p target q) (htarget : target.Bounded k) : q.Bounded k := by
  obtain ⟨n, truncated, rfl⟩ := h.cases htarget.depth_le
  obtain ⟨hnonneg, hle, hstatic⟩ := htarget.extendAll (p.fields.drop n)
  exact ⟨hnonneg, hle, hstatic⟩

/-! ## Finitely many paths -/

/-- The paths below some locations: they have the root of one of them, selectors that occur in the
locations, and as many more selectors than a location as their depth allows. -/
def within (k : Int) (locations : Set AccessPath) (extra : Nat) : Set AccessPath :=
  {q | q.Bounded k ∧ (∃ t ∈ locations, q.base = t.base) ∧
    (∀ f ∈ q.fields, ∃ t ∈ locations, f ∈ t.fields) ∧ q.fields.length ≤ extra + q.depth}

variable {locations : Set AccessPath} {extra : Nat}

/-- A location is among the paths below the locations. -/
lemma mem_within (htarget : target ∈ locations) (hbounded : target.Bounded k)
    (hextra : target.fields.length ≤ extra) : target ∈ within k locations extra := by
  refine ⟨hbounded, ⟨target, htarget, rfl⟩, fun f hf => ⟨target, htarget, hf⟩, ?_⟩
  have := hbounded.nonneg
  omega

/-- A path below some locations that is moved to one of them stays below them. -/
lemma MovesTo.mem_within (h : MovesTo k p target q) (hp : p ∈ within k locations extra)
    (hdots : ∀ t ∈ locations, t.DotFree) (htarget : target ∈ locations)
    (hbounded : target.Bounded k) (hextra : target.fields.length ≤ extra) :
    q ∈ within k locations extra := by
  have hqbounded := h.bounded hbounded
  obtain ⟨n, truncated, rfl⟩ := h.cases hbounded.depth_le
  obtain ⟨-, -, hselectors, -⟩ := hp
  have hsub : ∀ f ∈ p.fields.drop n, f ∈ p.fields := fun f hf => List.mem_of_mem_drop hf
  have hfree : ∀ f ∈ p.fields.drop n, '.' ∉ f.toList := by
    intro f hf
    obtain ⟨t, ht, hft⟩ := hselectors f (hsub f hf)
    exact hdots t ht f hft
  obtain ⟨added, hfields, hadded, hlength⟩ := extendAll_fields (p := target) (k := k) hfree
  refine ⟨hqbounded, ⟨target, htarget, extendAll_base⟩, ?_, ?_⟩
  · intro f hf
    dsimp only at hf
    rw [hfields] at hf
    rcases List.mem_append.mp hf with hf | hf
    · exact ⟨target, htarget, hf⟩
    · exact hselectors f (hsub f (hadded hf))
  · have := hbounded.nonneg
    dsimp only
    rw [hfields, List.length_append]
    omega

/-- There are finitely many short lists over a finite set. -/
lemma finite_lists {s : Set String} (hs : s.Finite) (n : Nat) :
    {l : List String | (∀ f ∈ l, f ∈ s) ∧ l.length ≤ n}.Finite := by
  have : Finite s := hs
  refine ((List.finite_length_le s n).image (List.map Subtype.val)).subset ?_
  rintro l ⟨hmem, hlen⟩
  exact ⟨l.attach.map fun f => ⟨f.1, hmem f.1 f.2⟩, by simpa using hlen, by simp⟩

/-- There are finitely many paths below finitely many locations. -/
lemma finite_within (hfinite : locations.Finite) (k : Int) (extra : Nat) :
    (within k locations extra).Finite := by
  have hselectors : {f | ∃ t ∈ locations, f ∈ t.fields}.Finite := by
    refine (hfinite.biUnion fun t _ => List.finite_toSet t.fields).subset ?_
    rintro f ⟨t, ht, hf⟩
    exact Set.mem_biUnion ht hf
  have hlists := finite_lists hselectors (extra + k.toNat)
  refine Set.Finite.subset (s := ⋃ base ∈ (fun t : AccessPath => t.base) '' locations,
    ⋃ fields ∈ {l : List String | (∀ f ∈ l, ∃ t ∈ locations, f ∈ t.fields) ∧
      l.length ≤ extra + k.toNat},
    ⋃ depth ∈ Set.Icc 0 k, ⋃ isStatic : Bool, ⋃ truncated : Bool,
      {(⟨base, fields, depth, isStatic, truncated⟩ : AccessPath)}) ?_ ?_
  · exact (hfinite.image _).biUnion fun base _ => hlists.biUnion fun fields _ =>
      (Set.finite_Icc 0 k).biUnion fun depth _ => Set.finite_iUnion fun isStatic =>
        Set.finite_iUnion fun truncated => Set.finite_singleton _
  · rintro q ⟨⟨hnonneg, hle, -⟩, ⟨t, ht, hbase⟩, hfields, hlen⟩
    simp only [Set.mem_iUnion, Set.mem_singleton_iff]
    exact ⟨q.base, ⟨t, ht, hbase.symm⟩, q.fields, ⟨hfields, by omega⟩, q.depth, ⟨hnonneg, hle⟩,
      q.isStatic, q.truncated, rfl⟩

end AccessPath

end JvmTaint
