import JvmTaint.Proofs.Taint.Truncation

set_option autoImplicit false
set_option relaxedAutoImplicit false

/-!
# Locations that access paths stand for

A location is a root with all of its selectors, without a bound. An access path stands for the
location that it spells, and a truncated one for every location below it as well. In these terms
moving a path from one root to another is exact: the path that is moved stands for the images of
the locations that it stood for, and for others only if it is truncated.

## Main definitions

* `JvmTaint.Location`: a location, with `Location.below`.
* `JvmTaint.AccessPath.Denotes`: a path stands for a location.
* `JvmTaint.AccessPath.Plain`: a path whose selectors are single names.
* `JvmTaint.AccessPath.ofLocation`: the path of a location within a bound.

## Main results

* `JvmTaint.AccessPath.Plain.substitute?_eq`: the path that is moved is that of the target with the
  selectors below the source.
* `JvmTaint.AccessPath.substitute?_exact_image`: moving paths is exact.

## Design

Neither the path nor the target of a move has to be within the bound. Three things truncate the
result: the mark of the path, the mark of the target, and selectors over the bound. All three are in
the one equation for `AccessPath.ofLocation`, and what follows only speaks about locations.
-/

namespace JvmTaint

/-- A place that holds a value: a variable, a static field, or what is reached from one by
selectors. -/
structure Location where
  /-- The variable at the root, or the class of a static field. -/
  base : String
  isStatic : Bool
  selectors : List String
  deriving DecidableEq, Repr

namespace Location

variable {l : Location} {r s : List String}

/-- The location that is reached from another one by selectors. -/
def below (l : Location) (r : List String) : Location := { l with selectors := l.selectors ++ r }

@[simp] lemma below_nil : l.below [] = l := by simp [below]

@[simp] lemma below_below : (l.below r).below s = l.below (r ++ s) := by simp [below]

@[simp] lemma below_inj : l.below r = l.below s ↔ r = s := by simp [below]

end Location

namespace AccessPath

variable {p q source target : AccessPath} {l l' : Location} {k : Int} {n : Nat} {marked : Bool}
  {fields r : List String}

/-! ## Denotation -/

/-- The location that the root and the selectors of a path spell. -/
def location (p : AccessPath) : Location := ⟨p.base, p.isStatic, p.fields⟩

/-- The path stands for a location: the one that it spells or, if it is truncated, any one below. -/
def Denotes (p : AccessPath) (l : Location) : Prop :=
  ∃ r, l = p.location.below r ∧ (p.truncated = false → r = [])

/-- A path that is not truncated stands for one location. -/
lemma denotes_iff_of_open (hopen : p.truncated = false) : p.Denotes l ↔ l = p.location := by
  constructor
  · rintro ⟨r, rfl, hr⟩
    rw [hr hopen, Location.below_nil]
  · rintro rfl
    exact ⟨[], Location.below_nil.symm, fun _ => rfl⟩

/-- A location below another one, in terms of roots and selectors. -/
lemma below_eq_below_iff : source.location.below fields = p.location.below r ↔
    p.SameRoot source ∧ source.fields ++ fields = p.fields ++ r := by
  simp [location, Location.below, SameRoot, and_assoc, eq_comm]

/-- A path stands for a location at or below a source if its selectors go on from those of the
source, or if it is truncated and those of the source go on from its own. -/
lemma exists_denotes_below_iff : (∃ r, p.Denotes (source.location.below r)) ↔
    p.SameRoot source ∧
      (source.fields <+: p.fields ∨ p.truncated = true ∧ p.fields <+: source.fields) := by
  constructor
  · rintro ⟨r, r', heq, hopen⟩
    obtain ⟨hroot, heq⟩ := below_eq_below_iff.mp heq
    refine ⟨hroot, ?_⟩
    cases hmark : p.truncated with
    | false =>
      rw [hopen hmark, List.append_nil] at heq
      exact Or.inl ⟨r, heq⟩
    | true =>
      rcases List.prefix_or_prefix_of_prefix ⟨r, heq⟩ (List.prefix_append p.fields r') with h | h
      · exact Or.inl h
      · exact Or.inr ⟨rfl, h⟩
  · rintro ⟨hroot, ⟨r, hr⟩ | ⟨hmark, ⟨r, hr⟩⟩⟩
    · exact ⟨r, [], below_eq_below_iff.mpr ⟨hroot, by simpa using hr⟩, fun _ => rfl⟩
    · refine ⟨[], r, below_eq_below_iff.mpr ⟨hroot, by simpa using hr.symm⟩, fun hopen => ?_⟩
      rw [hmark] at hopen
      cases hopen

/-- A location below the source that the path stands for goes on from the selectors that the path
has below the source. -/
lemma Denotes.exists_eq_drop_append (h : p.Denotes (source.location.below r)) :
    ∃ s, r = p.fields.drop source.fields.length ++ s ∧ (p.truncated = false → s = []) := by
  obtain ⟨r', heq, hopen⟩ := h
  obtain ⟨-, heq⟩ := below_eq_below_iff.mp heq
  refine ⟨r'.drop (source.fields.length - p.fields.length), ?_, fun hmark => ?_⟩
  · rw [← List.drop_append, ← heq, List.drop_left]
  · rw [hopen hmark, List.drop_nil]

/-! ## Plain paths -/

/-- The depth of the path is the number of its selectors, which are free of dots. -/
structure Plain (p : AccessPath) : Prop where
  depth_eq : p.depth = p.fields.length
  dotFree : p.DotFree

/-- A plain path is regular within its own depth. -/
lemma Plain.regular (h : p.Plain) : p.Regular p.depth := ⟨h.depth_eq, le_rfl, h.dotFree⟩

/-- A plain path is regular within every bound that it keeps. -/
lemma Plain.regular_of_length_le (h : p.Plain) (hle : (p.fields.length : Int) ≤ k) :
    p.Regular k :=
  ⟨h.depth_eq, h.depth_eq.trans_le hle, h.dotFree⟩

/-- A regular path is plain. -/
lemma Regular.plain (h : p.Regular k) : p.Plain := ⟨h.depth_eq, h.dotFree⟩

/-- The path of a variable is plain. -/
lemma plain_ofVariable (name : String) : (ofVariable name).Plain :=
  (regular_ofVariable name le_rfl).plain

/-- The path of a static field without dots is plain. -/
lemma plain_ofStatic (owner : String) {field : String} (h : '.' ∉ field.toList) :
    (ofStatic owner field).Plain :=
  (regular_ofStatic owner h le_rfl).plain

/-! ## The path of a location -/

/-- The path of a location within the bound: its first `n` selectors, truncated if these are not all
of them or if the path is marked. -/
def ofLocation (l : Location) (marked : Bool) (n : Nat) : AccessPath where
  base := l.base
  fields := l.selectors.take n
  depth := (l.selectors.take n).length
  isStatic := l.isStatic
  truncated := marked || decide (n < l.selectors.length)

/-- A path of a location that is not truncated is not marked and has all selectors. -/
lemma ofLocation_open_iff : (ofLocation l marked n).truncated = false ↔
    marked = false ∧ l.selectors.length ≤ n := by
  simp [ofLocation]

/-- The path of a location stands for it, and if it is marked for all that is below it. -/
lemma ofLocation_denotes (h : marked = false → r = []) :
    (ofLocation l marked n).Denotes (l.below r) := by
  refine ⟨l.selectors.drop n ++ r, ?_, fun hopen => ?_⟩
  · simp [location, ofLocation, Location.below, ← List.append_assoc]
  · obtain ⟨hmark, hlength⟩ := ofLocation_open_iff.mp hopen
    rw [h hmark, List.append_nil, List.drop_eq_nil_iff]
    exact hlength

/-- A path of a location that is not truncated spells the location. -/
lemma ofLocation_location (hopen : (ofLocation l marked n).truncated = false) :
    (ofLocation l marked n).location = l := by
  obtain ⟨-, hlength⟩ := ofLocation_open_iff.mp hopen
  simp [location, ofLocation, List.take_of_length_le hlength]

/-- The path of a location has as many selectors as the bound allows at most. -/
lemma length_ofLocation_le (l : Location) (marked : Bool) (n : Nat) :
    (ofLocation l marked n).fields.length ≤ n :=
  List.length_take_le n l.selectors

/-- Only the selectors within the bound matter for the path of a location. -/
lemma ofLocation_congr {marked' : Bool} (hbase : l.base = l'.base)
    (hstatic : l.isStatic = l'.isStatic)
    (hfields : l.selectors.take n = l'.selectors.take n)
    (hmark : (marked = true ∨ n < l.selectors.length) ↔
      (marked' = true ∨ n < l'.selectors.length)) :
    ofLocation l marked n = ofLocation l' marked' n := by
  have htruncated : (marked || decide (n < l.selectors.length)) =
      (marked' || decide (n < l'.selectors.length)) := by
    rw [Bool.eq_iff_iff]
    simpa using hmark
  simp [ofLocation, hbase, hstatic, hfields, htruncated]

/-- Cutting a path, marked or not, gives the path of its location within the bound. -/
lemma truncate_eq_ofLocation (h : p.depth = p.fields.length) (hk : 0 ≤ k) (marked : Bool) :
    ({ p with truncated := marked } : AccessPath).truncate k =
      ofLocation p.location marked k.toNat := by
  unfold truncate
  split
  · rename_i hle
    have hlength : p.fields.length ≤ k.toNat := by
      dsimp only at hle
      omega
    simp [ofLocation, location, List.take_of_length_le hlength, Nat.not_lt.mpr hlength, h]
  · rename_i hgt
    have hlength : k.toNat < p.fields.length := by
      dsimp only at hgt
      omega
    have hdepth : k = (min k.toNat p.fields.length : Nat) := by omega
    simp [ofLocation, location, hlength, ← hdepth]

/-- A path that is not truncated, extended by selectors, marked and cut, is the path of the location
with these selectors.

**Proof sketch.** A path within the bound takes selectors until the bound is reached. A path over
the bound takes none and is truncated by the first one; it is cut in any case. -/
lemma Plain.truncate_extendAll (h : target.Plain) (hopen : target.truncated = false)
    (hdots : ∀ f ∈ fields, '.' ∉ f.toList) (hk : 0 ≤ k) :
    ({ target.extendAll fields k with
        truncated := (target.extendAll fields k).truncated || marked } : AccessPath).truncate k =
      ofLocation (target.location.below fields) marked k.toNat := by
  by_cases hle : (target.fields.length : Int) ≤ k
  · obtain ⟨hregular, hfields, hcut⟩ := (h.regular_of_length_le hle).extendAll_eq hopen hdots
    refine (truncate_eq_ofLocation hregular.depth_eq hk _).trans ?_
    refine ofLocation_congr extendAll_base extendAll_isStatic ?_ ?_
    · show List.take _ (target.extendAll fields k).fields = _
      rw [hfields, List.take_take, min_self]
      rfl
    · have hover : k < target.fields.length + fields.length ↔
          k.toNat < (target.fields ++ fields).length := by
        rw [List.length_append]
        omega
      have hfits : ¬ k.toNat < ((target.fields ++ fields).take k.toNat).length := by
        rw [List.length_take]
        omega
      simp only [location, Location.below, hfields, Bool.or_eq_true, hcut, hover, hfits, or_false]
      exact or_comm
  · have hstays : (target.extendAll fields k).fields = target.fields ∧
        (target.extendAll fields k).depth = target.depth := by
      cases fields with
      | nil => exact ⟨rfl, rfl⟩
      | cons f fields =>
        have hdepth := h.depth_eq
        have hfull : target.depth ≥ k := by omega
        rw [extendAll_cons, extend, if_neg (by simp [hopen]), if_pos hfull,
          extendAll_of_truncated rfl]
        exact ⟨rfl, rfl⟩
    refine (truncate_eq_ofLocation (by rw [hstays.1, hstays.2, h.depth_eq]) hk _).trans ?_
    refine ofLocation_congr extendAll_base extendAll_isStatic ?_ ?_
    · show List.take _ (target.extendAll fields k).fields = List.take _ (target.fields ++ fields)
      rw [hstays.1, List.take_append_of_le_length (by omega)]
    · simp only [location, Location.below, hstays.1, List.length_append]
      omega

/-! ## Moves -/

/-- **What a path becomes when it is moved.** If it stands for no location at or below the source,
it is not moved. Otherwise the result is the path of the target with the selectors that the path has
below the source, marked if one of the two paths is truncated; a truncated target takes no
selectors. -/
lemma Plain.substitute?_eq (hp : p.Plain) (hsource : source.Plain) (htarget : target.Plain)
    (hopen : source.truncated = false) (hk : 0 ≤ k) :
    p.substitute? source target k = none ∧ ¬ (∃ r, p.Denotes (source.location.below r)) ∨
    p.substitute? source target k = some (ofLocation
        (target.location.below
          (if target.truncated then [] else p.fields.drop source.fields.length))
        (p.truncated || target.truncated) k.toNat) ∧
      ∃ r, p.Denotes (source.location.below r) := by
  have hbegins := hp.regular.beginsWith_iff hsource.regular
  have hsubsumes := hp.regular.subsumes_iff hsource.regular
  rw [exists_denotes_below_iff, substitute?]
  split
  · rename_i h
    obtain ⟨hroot, hinit, -⟩ := hbegins.mp h
    refine Or.inr ⟨congrArg some ?_, hroot, Or.inl hinit⟩
    cases hmark : target.truncated with
    | true =>
      rw [extendAll_of_truncated hmark]
      refine (truncate_eq_ofLocation htarget.depth_eq hk _).trans ?_
      simp [hmark]
    | false =>
      rw [htarget.truncate_extendAll hmark (fun f hf => hp.dotFree f (List.mem_of_mem_drop hf)) hk]
      simp
  · rename_i hother
    split
    · rename_i h
      rw [Bool.and_eq_true] at h
      obtain ⟨hmark, h⟩ := h
      obtain ⟨-, hroot, hinit, -⟩ := hsubsumes.mp h
      refine Or.inr ⟨congrArg some ?_, hroot, Or.inr ⟨hmark, hinit⟩⟩
      rw [truncate_eq_ofLocation htarget.depth_eq hk, List.drop_eq_nil_of_le hinit.length_le]
      simp [hmark]
    · rename_i hnone
      refine Or.inl ⟨rfl, ?_⟩
      rintro ⟨hroot, hinit | ⟨hmark, hinit⟩⟩
      · refine hother (hbegins.mpr ⟨hroot, hinit, fun hcut => ?_⟩)
        rw [hopen] at hcut
        cases hcut
      · refine hnone ?_
        rw [hmark, Bool.true_and]
        refine hsubsumes.mpr ⟨?_, hroot, hinit, Or.inl hmark⟩
        rintro rfl
        rw [hopen] at hmark
        cases hmark

section Moved

variable (hp : p.Plain) (hsource : source.Plain) (htarget : target.Plain)
  (hopen : source.truncated = false) (hk : 0 ≤ k) (h : p.substitute? source target k = some q)

include hp hsource htarget hopen hk h

/-- The path that is moved, and a location that it was moved for. -/
lemma eq_ofLocation_of_substitute? :
    q = ofLocation (target.location.below
        (if target.truncated then [] else p.fields.drop source.fields.length))
        (p.truncated || target.truncated) k.toNat ∧
      ∃ r, p.Denotes (source.location.below r) := by
  obtain ⟨hnone, -⟩ | ⟨hsome, hbelow⟩ := hp.substitute?_eq hsource htarget hopen hk
  · rw [hnone] at h
    cases h
  · rw [hsome, Option.some_inj] at h
    exact ⟨h.symm, hbelow⟩

/-- The path that is moved stands for the image of every location below the source that the path
stands for. -/
lemma denotes_below_of_substitute? (hr : p.Denotes (source.location.below r)) :
    q.Denotes (target.location.below r) := by
  obtain ⟨rfl, -⟩ := eq_ofLocation_of_substitute? hp hsource htarget hopen hk h
  obtain ⟨s, rfl, hs⟩ := hr.exists_eq_drop_append
  cases hmark : target.truncated with
  | true =>
    simp only [if_true, Bool.or_true, Location.below_nil]
    exact ofLocation_denotes nofun
  | false =>
    rw [← Location.below_below]
    simp only [Bool.false_eq_true, if_false, Bool.or_false]
    exact ofLocation_denotes hs

/-- The path that is moved is within the bound. -/
lemma length_le_of_substitute? : (q.fields.length : Int) ≤ k ∧ q.depth = q.fields.length := by
  obtain ⟨rfl, -⟩ := eq_ofLocation_of_substitute? hp hsource htarget hopen hk h
  refine ⟨?_, rfl⟩
  have hlength := length_ofLocation_le (target.location.below
    (if target.truncated then [] else p.fields.drop source.fields.length))
    (p.truncated || target.truncated) k.toNat
  omega

/-- The path that is moved is truncated if the path or the target is, or if there are too many
selectors. -/
lemma open_iff_of_substitute? : q.truncated = false ↔
    p.truncated = false ∧ target.truncated = false ∧
      (target.fields.length + (p.fields.length - source.fields.length) : Nat) ≤ k := by
  obtain ⟨rfl, -⟩ := eq_ofLocation_of_substitute? hp hsource htarget hopen hk h
  rw [ofLocation_open_iff, Bool.or_eq_false_iff, and_assoc]
  refine and_congr_right fun _ => and_congr_right fun hmark => ?_
  simp only [hmark, location, Location.below, Bool.false_eq_true, if_false, List.length_append,
    List.length_drop]
  omega

/-- A path that is moved and not truncated spells the image of the location that the path
spelled. -/
lemma exists_location_of_substitute? (hcut : q.truncated = false) :
    ∃ r, p.location = source.location.below r ∧ q.location = target.location.below r := by
  obtain ⟨hp', htarget', -⟩ :=
    (open_iff_of_substitute? hp hsource htarget hopen hk h).mp hcut
  obtain ⟨rfl, r, hr⟩ := eq_ofLocation_of_substitute? hp hsource htarget hopen hk h
  refine ⟨r, ((denotes_iff_of_open hp').mp hr).symm, ?_⟩
  obtain ⟨s, rfl, hs⟩ := hr.exists_eq_drop_append
  rw [ofLocation_location hcut, hs hp', htarget', List.append_nil]
  rfl

end Moved

/-- **Moving paths is exact.** A path is moved from a source that is not truncated if and only if it
stands for some location at or below the source. Then the result stands for the image of every such
location, it is within the bound, and unless it is truncated it stands for nothing else. A path
within the bound that is moved from one variable to another and back is the same path again. -/
theorem substitute?_exact_image (p source target : AccessPath) (hp : p.Plain)
    (hsource : source.Plain) (htarget : target.Plain) (hopen : source.truncated = false) (k : Int)
    (hk : 0 ≤ k) :
    ((p.substitute? source target k).isSome = true ↔
      ∃ r, p.Denotes (source.location.below r)) ∧
    (∀ q, p.substitute? source target k = some q →
      (∀ r, p.Denotes (source.location.below r) → q.Denotes (target.location.below r)) ∧
      ((q.fields.length : Int) ≤ k ∧ q.depth = q.fields.length) ∧
      (q.truncated = false → ∀ l, q.Denotes l ↔
        ∃ r, p.Denotes (source.location.below r) ∧ l = target.location.below r)) ∧
    ∀ x y, p.rootedAt x = true → (p.fields.length : Int) ≤ k →
      ∃ q, p.substitute? (ofVariable x) (ofVariable y) k = some q ∧
        q.substitute? (ofVariable y) (ofVariable x) k = some p := by
  refine ⟨?_, fun q hq => ⟨fun r hr => ?_, ?_, fun hcut l => ?_⟩, fun x y hroot hlength => ?_⟩
  · rcases hp.substitute?_eq hsource htarget hopen hk with ⟨heq, hnone⟩ | ⟨heq, hsome⟩
    · simp only [heq, Option.isSome_none, Bool.false_eq_true, hnone]
    · simp only [heq, Option.isSome_some, hsome]
  · exact denotes_below_of_substitute? hp hsource htarget hopen hk hq hr
  · exact length_le_of_substitute? hp hsource htarget hopen hk hq
  · obtain ⟨r, hpath, himage⟩ :=
      exists_location_of_substitute? hp hsource htarget hopen hk hq hcut
    obtain ⟨hp', -⟩ := (open_iff_of_substitute? hp hsource htarget hopen hk hq).mp hcut
    simp only [denotes_iff_of_open hcut, denotes_iff_of_open hp', hpath, himage,
      Location.below_inj, exists_eq_left]
  · have hregular := hp.regular_of_length_le hlength
    obtain ⟨hstatic, hbase⟩ : p.isStatic = false ∧ p.base = x := by
      simpa [rootedAt] using hroot
    have hmoved : ({ p with base := y } : AccessPath).Regular k :=
      ⟨hregular.depth_eq, hregular.depth_le, hregular.dotFree⟩
    have hroot' : ({ p with base := y } : AccessPath).rootedAt y = true := by
      simp [rootedAt, hstatic]
    refine ⟨_, hregular.substitute?_ofVariable hroot y, ?_⟩
    rw [hmoved.substitute?_ofVariable hroot' x, ← hbase]

/-- The path `x.f.g` moved from `x.f` to `y.h` does not fit into one selector. The result is cut and
still stands for the image of the location. -/
theorem substitute?_exact_image_cut :
    let path : AccessPath := { base := "x", fields := ["f", "g"], depth := 2 }
    let source : AccessPath := { base := "x", fields := ["f"], depth := 1 }
    let target : AccessPath := { base := "y", fields := ["h"], depth := 1 }
    path.Plain ∧ source.Plain ∧ target.Plain ∧ source.truncated = false ∧
      path.Denotes (source.location.below ["g"]) ∧
      ∃ q, path.substitute? source target 1 = some q ∧ q.truncated = true ∧
        q.Denotes (target.location.below ["g"]) := by
  intro path source target
  have hpath : path.Plain := ⟨rfl, by simp [DotFree, path]⟩
  have hsource : source.Plain := ⟨rfl, by simp [DotFree, source]⟩
  have htarget : target.Plain := ⟨rfl, by simp [DotFree, target]⟩
  have hdenotes : path.Denotes (source.location.below ["g"]) := ⟨[], rfl, fun _ => rfl⟩
  obtain ⟨-, himage, -⟩ :=
    substitute?_exact_image path source target hpath hsource htarget rfl 1 (by decide)
  have hmoved : path.substitute? source target 1 =
      some { base := "y", fields := ["h"], depth := 1, truncated := true } := by decide
  exact ⟨hpath, hsource, htarget, rfl, hdenotes, _, hmoved, rfl, (himage _ hmoved).1 _ hdenotes⟩

end AccessPath

end JvmTaint
