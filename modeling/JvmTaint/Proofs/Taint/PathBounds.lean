import JvmTaint.Proofs.Taint.PathComparison

set_option autoImplicit false
set_option relaxedAutoImplicit false

/-!
# When access paths are bounded

A path can be kept within a bound while it grows, or grow without a bound and be cut afterwards. The
first way counts how often the path was extended, the second one counts its selectors. Both give the
same path if the two counts agree, which they do unless a name with dots was appended before; they
do not if the counts disagree and the bound is passed.

## Main definitions

* `JvmTaint.AccessPath.rejoin`: a text of selectors, cut by taking it apart and putting the first
  selectors together again.

## Main results

* `JvmTaint.AccessPath.extendAll_eq_of_open`: what a path within the bound is extended to.
* `JvmTaint.AccessPath.truncate_truncate`: only the lower one of two bounds matters.
* `JvmTaint.AccessPath.written_truncate`: what cutting a path does to the text of its selectors.
* `JvmTaint.AccessPath.bounded_now_or_later`: when both ways give the same path.
-/

namespace JvmTaint

namespace AccessPath

variable {p : AccessPath} {j k n : Int} {field : String} {fields : List String}

/-! ## Growing within a bound -/

/-- A path within the bound that is extended by names without dots takes as many of them as its
depth allows, and is truncated if these are not all. -/
lemma extendAll_eq_of_open (hopen : p.truncated = false) (hle : p.depth ≤ k)
    (hdots : ∀ f ∈ fields, '.' ∉ f.toList) :
    p.extendAll fields k =
      { p with
        fields := p.fields ++ fields.take (k - p.depth).toNat
        depth := min (p.depth + fields.length) k
        truncated := decide (k < p.depth + fields.length) } := by
  induction fields generalizing p with
  | nil =>
    rw [extendAll_nil, List.take_nil, List.append_nil, List.length_nil, Nat.cast_zero, add_zero,
      min_eq_left hle, decide_eq_false (not_lt.mpr hle), ← hopen]
  | cons f fields ih =>
    rw [extendAll_cons, extend, if_neg (by simp [hopen])]
    by_cases hfull : p.depth ≥ k
    · have hroom : (k - p.depth).toNat = 0 := by omega
      have hdepth : p.depth = min (p.depth + (f :: fields).length) k := by
        simp only [List.length_cons]
        omega
      have hcut : k < p.depth + (f :: fields).length := by
        simp only [List.length_cons]
        omega
      rw [if_pos hfull, extendAll_of_truncated rfl, hroom, ← hdepth, decide_eq_true hcut]
      simp
    · have hroom : (k - p.depth).toNat = (k - (p.depth + 1)).toNat + 1 := by omega
      rw [if_neg hfull, Text.split_eq_singleton (hdots f List.mem_cons_self)]
      refine (ih (p := { p with fields := p.fields ++ [f], depth := p.depth + 1 }) hopen
        (show p.depth + 1 ≤ k by omega) fun f' hf' =>
          hdots f' (List.mem_cons_of_mem _ hf')).trans ?_
      have hlength : p.depth + 1 + fields.length = p.depth + (f :: fields).length := by
        simp only [List.length_cons]
        omega
      simp only [hlength, hroom, List.take_succ_cons, List.append_assoc, List.singleton_append]

/-- A path that does not pass the bound takes all names. -/
lemma extendAll_eq_of_le (hopen : p.truncated = false) (hle : p.depth + fields.length ≤ n)
    (hdots : ∀ f ∈ fields, '.' ∉ f.toList) :
    p.extendAll fields n =
      { p with fields := p.fields ++ fields, depth := p.depth + fields.length } := by
  have hall : fields.length ≤ (n - p.depth).toNat := by omega
  have hdepth : min (p.depth + fields.length) n = p.depth + fields.length := by omega
  rw [extendAll_eq_of_open hopen (by omega) hdots, List.take_of_length_le hall, hdepth,
    decide_eq_false (by omega), ← hopen]

/-! ## Cutting -/

/-- A path within the bound is not cut. -/
lemma truncate_of_le (h : p.depth ≤ k) : p.truncate k = p := if_pos h

/-- A path over the bound keeps its first selectors and is marked. -/
lemma truncate_of_lt (h : k < p.depth) :
    p.truncate k = { p with fields := p.fields.take k.toNat, depth := k, truncated := true } :=
  if_neg (not_le.mpr h)

/-- Only the lower one of two bounds matters. -/
lemma truncate_truncate (hj : 0 ≤ j) (p : AccessPath) :
    (p.truncate k).truncate j = p.truncate (min j k) := by
  rcases le_or_gt p.depth k with hle | hlt
  · rw [truncate_of_le hle]
    rcases le_total j k with hjk | hkj
    · rw [min_eq_left hjk]
    · rw [min_eq_right hkj, truncate_of_le hle, truncate_of_le (hle.trans hkj)]
  · rcases le_or_gt k j with hkj | hjk
    · rw [min_eq_right hkj, truncate_of_lt hlt, truncate_of_le hkj]
    · have htake : min j.toNat k.toNat = j.toNat := by omega
      rw [min_eq_left hjk.le, truncate_of_lt hlt, truncate_of_lt hjk,
        truncate_of_lt (hjk.trans hlt), List.take_take, htake]

/-- The selectors that a path keeps while it grows are those that it keeps when it is cut later
exactly if it had as many selectors as its depth says, or if nothing is cut.

**Proof sketch.** Growing over the bound appends as many names as the depth allows, so the number of
selectors is then above the bound by as much as it was above the depth. -/
lemma extendAll_eq_truncate_iff (hk : 0 ≤ k) (hopen : p.truncated = false)
    (hle : p.depth ≤ k) (hdots : ∀ f ∈ fields, '.' ∉ f.toList) (hn : p.depth + fields.length ≤ n) :
    p.extendAll fields k = (p.extendAll fields n).truncate k ↔
      p.depth = p.fields.length ∨ p.depth + fields.length ≤ k := by
  rw [extendAll_eq_of_le hopen hn hdots]
  by_cases hfits : p.depth + fields.length ≤ k
  · rw [extendAll_eq_of_le hopen hfits hdots, truncate_of_le hfits]
    exact iff_of_true rfl (Or.inr hfits)
  · have hdepth : min (p.depth + fields.length) k = k := by omega
    rw [extendAll_eq_of_open hopen hle hdots, truncate_of_lt (not_le.mp hfits), hdepth,
      decide_eq_true (by omega), or_iff_left hfits]
    simp only [mk.injEq, true_and, and_true]
    rw [← List.take_length_add_append, List.take_eq_take_iff, List.length_append]
    omega

/-! ## Cutting texts -/

/-- The text that is left of a text of selectors, each after a dot, when it is taken apart at the
dots and the first `n` selectors are put together again. -/
def rejoin (text : String) (n : Nat) : String :=
  if n = 0 then ""
  else "." ++ ".".intercalate ((Text.split '.' (String.ofList text.toList.tail)).take n)

/-- The text of the selectors: a dot, and the selectors with dots between them. -/
lemma written_eq (hne : p.fields ≠ []) : p.written = "." ++ ".".intercalate p.fields := by
  obtain ⟨f, fs, hfields⟩ := List.exists_cons_of_ne_nil hne
  refine String.toList_injective ?_
  rw [toList_written, String.toList_append, String.toList_intercalate, hfields, List.map_cons,
    show ".".toList = ['.'] from rfl, Text.intercalate_cons_eq]
  rfl

/-- **Cutting a path cuts the text of its selectors.** If there are as many selectors as the depth
says, or more, then the text is taken apart and put together again. -/
lemma written_truncate (hfree : p.DotFree) (hcounted : p.depth ≤ p.fields.length) :
    (p.truncate k).written =
      if p.depth ≤ k then p.written else rejoin p.written k.toNat := by
  rcases le_or_gt p.depth k with hle | hlt
  · rw [truncate_of_le hle, if_pos hle]
  rw [if_neg (not_le.mpr hlt), rejoin, truncate_of_lt hlt]
  by_cases hzero : k.toNat = 0
  · rw [if_pos hzero, hzero]
    rfl
  have hne : p.fields ≠ [] := by
    intro hnil
    rw [hnil, List.length_nil] at hcounted
    omega
  obtain ⟨f, fs, hfields⟩ := List.exists_cons_of_ne_nil hne
  have hparts : Text.split '.' (String.ofList p.written.toList.tail) = p.fields := by
    have htail : String.ofList p.written.toList.tail =
        (String.singleton '.').intercalate p.fields := by
      rw [written_eq hne]
      refine String.toList_injective ?_
      simp
    rw [htail, hfields]
    exact Text.split_intercalate (hfields ▸ hfree)
  rw [if_neg hzero, hparts, written_eq (by simp [hne, hzero])]

/-! ## Bounding now or later -/

/-- **A path can be bounded while it grows or afterwards.** A path within the bound `k` that is not
truncated is extended by names without dots: to extend it within the bound, or within a bound `n`
that is not passed and to cut it then, gives the same path exactly if the path had as many selectors
as its depth says, or if the bound `k` is not passed either. A path that is built from names without
dots has as many. Cutting twice is cutting to the lower bound, which leaves a path within it as it
is. The text of the selectors is cut by taking it apart and putting it together again. -/
theorem bounded_now_or_later (p : AccessPath) (fields : List String) (j k n : Int) (hj : 0 ≤ j)
    (hk : 0 ≤ k) :
    (p.truncated = false → p.depth ≤ k → (∀ f ∈ fields, '.' ∉ f.toList) →
      p.depth + fields.length ≤ n →
        (p.extendAll fields k = (p.extendAll fields n).truncate k ↔
          p.depth = p.fields.length ∨ p.depth + fields.length ≤ k)) ∧
    (p.Built → p.depth = p.fields.length) ∧
    ((p.truncate k).truncate j = p.truncate (min j k) ∧
      (p.depth ≤ min j k → p.truncate (min j k) = p)) ∧
    (p.DotFree → p.depth ≤ p.fields.length → (p.truncate k).written =
      if p.depth ≤ k then p.written else rejoin p.written k.toNat) :=
  ⟨fun hopen hle hdots hn => extendAll_eq_truncate_iff hk hopen hle hdots hn,
    fun hbuilt => hbuilt.plain.depth_eq, ⟨truncate_truncate hj p, truncate_of_le⟩,
    fun hfree hcounted => written_truncate hfree hcounted⟩

/-- The path `x.f`, extended by `g` and `h` within two selectors, is `x.f.g.*`, as if it were cut
afterwards. -/
theorem bounded_now_or_later_of_names :
    let p := (ofVariable "x").extend "f" 2
    p.truncated = false ∧ p.depth ≤ 2 ∧ p.depth = p.fields.length ∧
      p.extendAll ["g", "h"] 2 = (p.extendAll ["g", "h"] 9).truncate 2 ∧
      ((p.extendAll ["g", "h"] 9).truncate 2).truncate 1 =
        (p.extendAll ["g", "h"] 9).truncate 1 ∧
      (p.truncate 2) = p ∧ (p.truncate 0).written = rejoin p.written 0 := by
  intro p
  have hbuilt : p.Built := .extend (.ofVariable "x") (by decide) (by decide)
  obtain ⟨hgrow, hplain, -, -⟩ :=
    bounded_now_or_later p ["g", "h"] 1 2 9 (by decide) (by decide)
  obtain ⟨-, -, ⟨hcut, -⟩, -⟩ :=
    bounded_now_or_later (p.extendAll ["g", "h"] 9) [] 1 2 9 (by decide) (by decide)
  obtain ⟨-, -, ⟨-, hkeep⟩, -⟩ := bounded_now_or_later p [] 2 2 9 (by decide) (by decide)
  obtain ⟨-, -, -, htext⟩ := bounded_now_or_later p [] 0 0 9 (by decide) (by decide)
  exact ⟨rfl, by decide, hplain hbuilt,
    (hgrow rfl (by decide) (by decide) (by decide)).mpr (Or.inl (hplain hbuilt)), hcut,
    hkeep (by decide), htext hbuilt.plain.dotFree (by decide)⟩

/-- A name with dots counts once for the depth. The path `x.a.b` of the one name `a.b` has depth 1;
extended by `f` and `g` within the bound 2 it becomes `x.a.b.f.*`, which is longer than the bound,
and extended without a bound and cut afterwards it becomes `x.a.b.*`. -/
theorem bounded_now_and_later_differ :
    let p := (ofVariable "x").extend "a.b" 9
    p.truncated = false ∧ p.depth = 1 ∧ p.fields.length = 2 ∧
      (p.extendAll ["f", "g"] 2).render = "x.a.b.f.*" ∧
      ((p.extendAll ["f", "g"] 9).truncate 2).render = "x.a.b.*" := by
  decide

end AccessPath

end JvmTaint
