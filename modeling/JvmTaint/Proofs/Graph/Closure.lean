import JvmTaint.Graph.Closure
import Mathlib.Data.List.Perm.Subperm
import Mathlib.Logic.Relation
import Mathlib.Tactic.Tauto

set_option autoImplicit false
set_option relaxedAutoImplicit false

/-!
# Closures are closed

The search for the elements reached from a list comes to its end before it runs out of fuel, if the
fuel exceeds the number of elements that there are: every unit of fuel follows one more element, and
no element is in the list twice.

## Main definitions

* `JvmTaint.Followed`: the successors of the first elements of a list are in it.

## Main results

* `JvmTaint.mem_appendNew`, `JvmTaint.isPrefix_appendNew`, `JvmTaint.nodup_appendNew`: new elements
  are appended without repetition.
* `JvmTaint.mem_closure_of_mem`: the search keeps what it starts from.
* `JvmTaint.mem_closure_of_next`: with enough fuel, the search finds all successors of what it
  finds.
* `JvmTaint.forall_mem_closure`: with a property that successors inherit, so does the search.
* `JvmTaint.mem_closure_iff`: a search from one element finds what can be reached from it.
* `JvmTaint.closure_add`: a search that has come to its end does not need more fuel.
-/

namespace JvmTaint

variable {α : Type} [BEq α] [LawfulBEq α]

/-! ## New elements -/

/-- The elements of a list to which new elements of another one are appended. -/
@[simp] lemma mem_appendNew {seen xs : List α} {x : α} :
    x ∈ appendNew seen xs ↔ x ∈ seen ∨ x ∈ xs := by
  induction xs generalizing seen with
  | nil => simp [appendNew]
  | cons y ys ih =>
    rw [appendNew]
    split
    · rename_i hy
      have hy' : y ∈ seen := by simpa using hy
      rw [ih, List.mem_cons]
      constructor
      · tauto
      · rintro (h | rfl | h)
        · exact Or.inl h
        · exact Or.inl hy'
        · exact Or.inr h
    · rw [ih, List.mem_append, List.mem_singleton, List.mem_cons, or_assoc]

/-- The elements of a list to which others are appended under a condition. -/
@[simp] lemma mem_ite_appendNew {c : Prop} [Decidable c] {seen xs : List α} {x : α} :
    x ∈ (if c then appendNew seen xs else seen) ↔ x ∈ seen ∨ c ∧ x ∈ xs := by
  split <;> simp [*]

omit [LawfulBEq α] in
/-- New elements are appended at the end. -/
lemma isPrefix_appendNew (seen xs : List α) : seen <+: appendNew seen xs := by
  induction xs generalizing seen with
  | nil => exact List.prefix_refl seen
  | cons y ys ih =>
    rw [appendNew]
    split
    · exact ih seen
    · exact (List.prefix_append seen [y]).trans (ih (seen ++ [y]))

/-- What is appended to the elements with a property are the elements with it. -/
lemma filter_appendNew (p : α → Bool) (seen xs : List α) :
    (appendNew seen xs).filter p = appendNew (seen.filter p) (xs.filter p) := by
  induction xs generalizing seen with
  | nil => rfl
  | cons y ys ih =>
    rw [appendNew, List.filter_cons]
    by_cases hseen : y ∈ seen
    · rw [if_pos (by simpa using hseen), ih]
      split
      · rename_i hy
        rw [appendNew, if_pos (by simp [hseen, hy])]
      · rfl
    · rw [if_neg (by simpa using hseen), ih, List.filter_append]
      split
      · rename_i hy
        rw [appendNew, if_neg (by simp [hseen]), List.filter_cons_of_pos hy, List.filter_nil]
      · rename_i hy
        rw [List.filter_cons_of_neg hy, List.filter_nil, List.append_nil]

/-- No element is appended twice. -/
lemma nodup_appendNew {seen : List α} (h : seen.Nodup) (xs : List α) :
    (appendNew seen xs).Nodup := by
  induction xs generalizing seen with
  | nil => exact h
  | cons y ys ih =>
    rw [appendNew]
    split
    · exact ih h
    · rename_i hy
      have hy' : y ∉ seen := by simpa using hy
      refine ih (List.nodup_append.mpr ⟨h, by simp, ?_⟩)
      rintro a ha b hb rfl
      exact hy' (List.mem_singleton.mp hb ▸ ha)

/-! ## The search -/

variable {next : α → List α} {seen : List α}

omit [LawfulBEq α] in
/-- What the search starts from is in its result. -/
lemma isPrefix_closure (fuel done : Nat) (seen : List α) :
    seen <+: closure next fuel done seen := by
  induction fuel generalizing done seen with
  | zero => exact List.prefix_refl seen
  | succ fuel ih =>
    unfold closure
    split
    · exact List.prefix_refl seen
    · rename_i x _
      exact (isPrefix_appendNew seen (next x)).trans (ih (done + 1) _)

omit [LawfulBEq α] in
lemma mem_closure_of_mem {fuel done : Nat} {x : α} (h : x ∈ seen) :
    x ∈ closure next fuel done seen :=
  (isPrefix_closure fuel done seen).subset h

/-- The successors of the first `done` elements are in the list. -/
def Followed (next : α → List α) (done : Nat) (seen : List α) : Prop :=
  ∀ x ∈ seen.take done, ∀ y ∈ next x, y ∈ seen

/-- One element more is followed. -/
lemma Followed.step {done : Nat} {x : α} (h : Followed next done seen)
    (hx : seen[done]? = some x) : Followed next (done + 1) (appendNew seen (next x)) := by
  obtain ⟨hlt, rfl⟩ := List.getElem?_eq_some_iff.mp hx
  obtain ⟨more, hmore⟩ := isPrefix_appendNew seen (next seen[done])
  have htake : (appendNew seen (next seen[done])).take (done + 1) =
      seen.take done ++ [seen[done]] := by
    rw [← hmore, List.take_append_of_le_length (by omega), List.take_succ_eq_append_getElem hlt]
  intro z hz y hy
  rw [htake] at hz
  rcases List.mem_append.mp hz with hz | hz
  · exact mem_appendNew.mpr (Or.inl (h z hz y hy))
  · rw [List.mem_singleton.mp hz] at hy
    exact mem_appendNew.mpr (Or.inr hy)

/-- **Closures are closed.** If all elements that can be found are among `all`, and the fuel is
enough for those that have not been followed yet, then the result has all successors of its
elements.

**Proof sketch.** Induction on the fuel: each step follows one element more, and the list stays
without repetition. When the fuel is used up, as many elements have been followed as there are; so
in any case the search ends because all elements have been followed. -/
lemma followed_closure {all : List α} (hnext : ∀ x, ∀ y ∈ next x, y ∈ all) (fuel : Nat)
    {done : Nat} (hseen : ∀ x ∈ seen, x ∈ all) (hnodup : seen.Nodup) (hdone : done ≤ seen.length)
    (hfollowed : Followed next done seen) (hfuel : all.length ≤ fuel + done) :
    ∀ x ∈ closure next fuel done seen, ∀ y ∈ next x, y ∈ closure next fuel done seen := by
  induction fuel generalizing done seen with
  | zero =>
    have hle : seen.length ≤ all.length := (List.subperm_of_subset hnodup hseen).length_le
    intro x hx
    exact hfollowed x (by rwa [List.take_of_length_le (by omega)])
  | succ fuel ih =>
    unfold closure
    split
    · rename_i hend
      have hlength : seen.length ≤ done := List.getElem?_eq_none_iff.mp hend
      intro x hx
      exact hfollowed x (by rwa [List.take_of_length_le hlength])
    · rename_i x hx
      have hlt := (List.getElem?_eq_some_iff.mp hx).1
      have hlonger := (isPrefix_appendNew seen (next x)).length_le
      refine ih ?_ (nodup_appendNew hnodup _) (by omega) (hfollowed.step hx) (by omega)
      intro y hy
      rcases mem_appendNew.mp hy with hy | hy
      · exact hseen y hy
      · exact hnext x y hy

/-- A search from a list without repetition finds all successors of what it finds. -/
lemma mem_closure_of_next {all : List α} (hnext : ∀ x, ∀ y ∈ next x, y ∈ all) {fuel : Nat}
    (hseen : ∀ x ∈ seen, x ∈ all) (hnodup : seen.Nodup) (hfuel : all.length ≤ fuel) {x y : α}
    (hx : x ∈ closure next fuel 0 seen) (hy : y ∈ next x) : y ∈ closure next fuel 0 seen :=
  followed_closure hnext fuel hseen hnodup (Nat.zero_le _) (by simp [Followed]) hfuel x hx y hy

/-- No element is found twice. -/
lemma nodup_closure (fuel done : Nat) (h : seen.Nodup) : (closure next fuel done seen).Nodup := by
  induction fuel generalizing done seen with
  | zero => exact h
  | succ fuel ih =>
    unfold closure
    split
    · exact h
    · exact ih _ (nodup_appendNew h _)

/-- What can be found bounds the number of elements found. -/
lemma length_closure_le {all : List α} (hnext : ∀ x, ∀ y ∈ next x, y ∈ all) (fuel done : Nat)
    (hseen : ∀ x ∈ seen, x ∈ all) (hnodup : seen.Nodup) :
    (closure next fuel done seen).length ≤ all.length := by
  induction fuel generalizing done seen with
  | zero => exact (List.subperm_of_subset hnodup hseen).length_le
  | succ fuel ih =>
    unfold closure
    split
    · exact (List.subperm_of_subset hnodup hseen).length_le
    · rename_i x _
      refine ih _ (fun y hy => ?_) (nodup_appendNew hnodup _)
      rcases mem_appendNew.mp hy with hy | hy
      · exact hseen y hy
      · exact hnext x y hy

/-- **Searches end.** If the fuel is enough for the elements that have not been followed yet, then
more fuel makes no difference: the search has come to its end before. -/
lemma closure_add {all : List α} (hnext : ∀ x, ∀ y ∈ next x, y ∈ all) (fuel more : Nat) {done : Nat}
    (hseen : ∀ x ∈ seen, x ∈ all) (hnodup : seen.Nodup) (hfuel : all.length ≤ fuel + done) :
    closure next (fuel + more) done seen = closure next fuel done seen := by
  induction fuel generalizing done seen with
  | zero =>
    have hle : seen.length ≤ all.length := (List.subperm_of_subset hnodup hseen).length_le
    have hend : seen[done]? = none := List.getElem?_eq_none_iff.mpr (by omega)
    cases more with
    | zero => rfl
    | succ more => simp only [closure, hend]
  | succ fuel ih =>
    rw [Nat.add_right_comm, closure, closure]
    split
    · rfl
    · rename_i x _
      refine ih (fun y hy => ?_) (nodup_appendNew hnodup _) (by omega)
      rcases mem_appendNew.mp hy with hy | hy
      · exact hseen y hy
      · exact hnext x y hy

/-- A property of the start that successors inherit is one of all that is found.

**Proof sketch.** Induction on the fuel: each step appends successors of an element. -/
lemma forall_mem_closure {p : α → Prop} (hnext : ∀ x, p x → ∀ y ∈ next x, p y) (fuel done : Nat)
    (hseen : ∀ x ∈ seen, p x) : ∀ x ∈ closure next fuel done seen, p x := by
  induction fuel generalizing done seen with
  | zero => exact hseen
  | succ fuel ih =>
    unfold closure
    split
    · exact hseen
    · rename_i z hz
      refine ih _ fun x hx => ?_
      rcases mem_appendNew.mp hx with hx | hx
      · exact hseen x hx
      · exact hnext z (hseen z (List.mem_of_getElem? hz)) x hx

/-- What is found can be reached from the start. -/
lemma reaches_of_mem_closure {x y : α} (fuel done : Nat)
    (hseen : ∀ z ∈ seen, Relation.ReflTransGen (fun a b => b ∈ next a) x z)
    (hy : y ∈ closure next fuel done seen) : Relation.ReflTransGen (fun a b => b ∈ next a) x y :=
  forall_mem_closure (fun _ hz _ hstep => hz.tail hstep) fuel done hseen y hy

/-- **Searches.** With enough fuel, a search finds exactly what can be reached from its start. -/
lemma mem_closure_iff (all : List α) (hnext : ∀ x, ∀ y ∈ next x, y ∈ all) {fuel : Nat} {x y : α}
    (hx : x ∈ all) (hfuel : all.length ≤ fuel) :
    y ∈ closure next fuel 0 [x] ↔ Relation.ReflTransGen (fun a b => b ∈ next a) x y := by
  constructor
  · exact reaches_of_mem_closure fuel 0 (by simp [Relation.ReflTransGen.refl])
  · intro h
    induction h with
    | refl => exact mem_closure_of_mem List.mem_cons_self
    | tail _ hstep ih =>
      exact mem_closure_of_next hnext (by simpa using hx) (by simp) hfuel ih hstep

/-- Behind its start, a search finds what else can be reached from it. -/
lemma mem_drop_closure_iff (all : List α) (hnext : ∀ x, ∀ y ∈ next x, y ∈ all) {fuel : Nat}
    {x y : α} (hx : x ∈ all) (hfuel : all.length ≤ fuel) :
    y ∈ (closure next fuel 0 [x]).drop 1 ↔
      y ≠ x ∧ Relation.ReflTransGen (fun a b => b ∈ next a) x y := by
  rw [← mem_closure_iff all hnext hx hfuel]
  obtain ⟨rest, hrest⟩ : [x] <+: closure next fuel 0 [x] := isPrefix_closure fuel 0 [x]
  have hnodup : (closure next fuel 0 [x]).Nodup := nodup_closure fuel 0 (by simp)
  rw [← hrest] at hnodup ⊢
  have hx' : x ∉ rest := (List.nodup_cons.mp hnodup).1
  simp only [List.singleton_append, List.drop_succ_cons, List.drop_zero, List.mem_cons]
  constructor
  · intro hy
    exact ⟨fun heq => hx' (heq ▸ hy), .inr hy⟩
  · rintro ⟨hne, heq | hy⟩
    · exact absurd heq hne
    · exact hy

end JvmTaint
