import JvmTaint.ClassFile.MethodRef
import Mathlib.Data.List.Nodup
import Mathlib.Data.Prod.Lex
import Mathlib.Data.String.Basic

set_option autoImplicit false
set_option relaxedAutoImplicit false

/-!
# Sorted lists and lists without repetitions

What is sorted here is sorted by a key that tells the elements apart. If there are no repetitions
then the keys are strictly increasing. Repetitions are found by a comparison, which need not be
equality.

## Main results

* `JvmTaint.pairwise_lt_mergeSort`: the keys of a sorted list without repetitions are strictly
  increasing.
* `JvmTaint.mergeSort_eq_of_perm`: permuted lists are sorted in the same way.
* `JvmTaint.MethodRef.lt_eq`: methods are sorted by class, name and descriptor.
* `JvmTaint.pairwise_eraseDupsBy`, `JvmTaint.exists_mem_eraseDupsBy`: no element is left that
  repeats another one, and for each element there is one left that it repeats.
-/

namespace JvmTaint

section

variable {α : Type} {r : α → α → Bool} {x : α} {xs : List α}

/-! ## Sorted lists -/

/-- A sorted list with different keys is strictly sorted. -/
lemma pairwise_lt_mergeSort {β : Type} [LinearOrder β] {key : α → β} {le : α → α → Bool}
    (hle : ∀ a b, le a b = decide (key a ≤ key b)) (h : (xs.map key).Nodup) :
    (xs.mergeSort le).Pairwise fun a b => key a < key b := by
  have hsorted : (xs.mergeSort le).Pairwise fun a b => le a b = true := by
    refine List.pairwise_mergeSort (fun a b c => ?_) (fun a b => ?_) xs
    · simpa only [hle, decide_eq_true_eq] using le_trans
    · simpa only [hle, Bool.or_eq_true, decide_eq_true_eq] using le_total (key a) (key b)
  have hnodup : ((xs.mergeSort le).map key).Nodup :=
    ((List.mergeSort_perm xs le).map key).nodup_iff.mpr h
  refine (hsorted.and (List.pairwise_map.mp hnodup)).imp fun {a b} ⟨hab, hne⟩ => ?_
  rw [hle, decide_eq_true_eq] at hab
  exact lt_of_le_of_ne hab hne

/-- A sorted list without repetitions is strictly sorted. -/
lemma pairwise_lt_mergeSort_self [LinearOrder α] (h : xs.Nodup) :
    (xs.mergeSort fun a b => decide (a ≤ b)).Pairwise (· < ·) := by
  have hle : ∀ a b : α, decide (a ≤ b) = decide (id a ≤ id b) := fun _ _ => rfl
  exact pairwise_lt_mergeSort hle (by simpa using h)

/-- Permuted lists are sorted in the same way. -/
lemma mergeSort_eq_of_perm {β : Type} [LinearOrder β] {key : α → β} {le : α → α → Bool}
    (hkey : Function.Injective key) (hle : ∀ a b, le a b = decide (key a ≤ key b)) {ys : List α}
    (h : xs.Perm ys) : xs.mergeSort le = ys.mergeSort le := by
  have hsorted : ∀ zs : List α, (zs.mergeSort le).Pairwise fun a b => le a b = true := by
    refine List.pairwise_mergeSort (fun a b c => ?_) (fun a b => ?_)
    · simpa only [hle, decide_eq_true_eq] using le_trans
    · simpa only [hle, Bool.or_eq_true, decide_eq_true_eq] using le_total (key a) (key b)
  have hperm : (xs.mergeSort le).Perm (ys.mergeSort le) :=
    (List.mergeSort_perm xs le).trans (h.trans (List.mergeSort_perm ys le).symm)
  refine hperm.eq_of_pairwise (fun a b _ _ hab hba => hkey ?_) (hsorted xs) (hsorted ys)
  rw [hle, decide_eq_true_eq] at hab hba
  exact le_antisymm hab hba

/-! ## Lists without repetitions -/

/-- Induction on the elements that are left without repetitions: the first element is left, and then
those of the elements that do not repeat it. -/
lemma eraseDupsBy_induction (r : α → α → Bool) {motive : List α → Prop} (nil : motive [])
    (cons : ∀ x xs, motive (xs.filter fun y => r y x = false) → motive (x :: xs)) (xs : List α) :
    motive xs := by
  match xs with
  | [] => exact nil
  | x :: xs => exact cons x xs (eraseDupsBy_induction r nil cons _)
termination_by xs.length
decreasing_by exact Nat.lt_succ_of_le (List.length_filter_le ..)

/-- An element that is left without repetitions is an element. -/
lemma mem_of_mem_eraseDupsBy (h : x ∈ xs.eraseDupsBy r) : x ∈ xs := by
  induction xs using eraseDupsBy_induction r with
  | nil => simp at h
  | cons y ys ih =>
    rw [List.eraseDupsBy_cons] at h
    rcases List.mem_cons.mp h with rfl | h
    · exact List.mem_cons_self
    · exact List.mem_cons_of_mem _ (List.mem_of_mem_filter (ih h))

/-- For every element, one that it repeats is left. -/
lemma exists_mem_eraseDupsBy (hrefl : ∀ x, r x x = true) (h : x ∈ xs) :
    ∃ y ∈ xs.eraseDupsBy r, r x y = true := by
  induction xs using eraseDupsBy_induction r with
  | nil => simp at h
  | cons y ys ih =>
    rw [List.eraseDupsBy_cons]
    cases hxy : r x y with
    | true => exact ⟨y, List.mem_cons_self, hxy⟩
    | false =>
      have hne : x ≠ y := by
        rintro rfl
        simp [hrefl] at hxy
      have hmem : x ∈ ys.filter fun b => r b y = false :=
        List.mem_filter.mpr ⟨(List.mem_cons.mp h).resolve_left hne, by simpa using hxy⟩
      obtain ⟨z, hz, hxz⟩ := ih hmem
      exact ⟨z, List.mem_cons_of_mem _ hz, hxz⟩

/-- No element is left that repeats an earlier one. -/
lemma pairwise_eraseDupsBy (r : α → α → Bool) (xs : List α) :
    (xs.eraseDupsBy r).Pairwise fun x y => r y x = false := by
  induction xs using eraseDupsBy_induction r with
  | nil => simp
  | cons x xs ih =>
    rw [List.eraseDupsBy_cons]
    refine List.pairwise_cons.mpr ⟨fun y hy => ?_, ih⟩
    simpa using (List.mem_filter.mp (mem_of_mem_eraseDupsBy hy)).2

/-- Repetitions can be left out before or after the elements without a property, if elements that
repeat each other both have it or both do not. -/
lemma filter_eraseDupsBy {p : α → Bool} (hp : ∀ x y, r x y = true → p x = p y) :
    (xs.eraseDupsBy r).filter p = (xs.filter p).eraseDupsBy r := by
  induction xs using eraseDupsBy_induction r with
  | nil => simp
  | cons x xs ih =>
    rw [List.eraseDupsBy_cons, List.filter_cons, List.filter_cons, ih]
    split
    · rw [List.eraseDupsBy_cons, List.filter_filter, List.filter_filter]
      simp only [Bool.and_comm]
    · rename_i hx
      rw [List.filter_filter]
      congr 1
      refine List.filter_congr fun y _ => ?_
      cases hyx : r y x with
      | true => simp [hp y x hyx, hx]
      | false => simp

/-- The elements with a property that are left without repetitions are those that are left if all
other elements are left out first, but for the ones that repeat another element that is left. -/
lemma filter_eraseDupsBy_eq_displaced {β : Type} [DecidableEq β] (key : α → β)
    (hr : ∀ x y, r x y = decide (key x = key y)) (p : α → Bool) (xs : List α) :
    (xs.eraseDupsBy r).filter p = ((xs.filter p).eraseDupsBy r).filter fun y =>
      (xs.eraseDupsBy r).all fun z => p z || !r y z := by
  induction xs using eraseDupsBy_induction r with
  | nil => simp
  | cons x xs ih =>
    have hrest : ((xs.filter p).eraseDupsBy r).filter (fun y => r y x = false) =
        ((xs.filter fun y => r y x = false).filter p).eraseDupsBy r := by
      rw [filter_eraseDupsBy fun y z hyz => ?_, List.filter_filter, List.filter_filter]
      · simp only [Bool.and_comm]
      · simp only [hr, decide_eq_true_eq] at hyz
        simp only [hr, hyz]
    rw [List.eraseDupsBy_cons, List.filter_cons, List.filter_cons, ih]
    split
    · rename_i hx
      have hfirst : ((xs.filter fun y => r y x = false).eraseDupsBy r).all (fun z =>
          p z || !r x z) = true := by
        refine List.all_eq_true.mpr fun z hz => ?_
        have hzx := (List.mem_filter.mp (mem_of_mem_eraseDupsBy hz)).2
        simp only [hr, decide_eq_true_eq, decide_eq_false_iff_not] at hzx
        simp [hr, Ne.symm hzx]
      rw [List.eraseDupsBy_cons, List.filter_cons, List.all_cons, hfirst, hx]
      simp only [Bool.true_or, Bool.and_self, ↓reduceIte, List.all_cons, hx, Bool.true_and,
        List.filter_filter, Bool.and_comm]
    · rename_i hx
      rw [← hrest, List.filter_filter]
      refine List.filter_congr fun y _ => ?_
      rw [List.all_cons, Bool.eq_false_iff.mpr hx, Bool.false_or, Bool.and_comm]
      cases r y x <;> rfl

/-- No element is kept twice. -/
lemma nodup_eraseDups [BEq α] [LawfulBEq α] (xs : List α) : xs.eraseDups.Nodup := by
  refine (pairwise_eraseDupsBy (· == ·) xs).imp fun {x y} h heq => ?_
  simp [heq] at h

end

/-! ## The order of methods -/

namespace MethodRef

/-- What methods are ordered by. -/
def key (m : MethodRef) : String ×ₗ String ×ₗ String := toLex (m.cls, toLex (m.name, m.descriptor))

lemma key_injective : Function.Injective key := by
  rintro ⟨_, _, _⟩ ⟨_, _, _⟩ h
  simpa [key] using h

lemma lt_eq (m o : MethodRef) : m.lt o = decide (m.key < o.key) := by
  simp only [key, Prod.Lex.toLex_lt_toLex]
  unfold lt
  by_cases hcls : m.cls = o.cls <;> by_cases hname : m.name = o.name <;> simp [hcls, hname]

lemma le_eq (m o : MethodRef) : m.le o = decide (m.key ≤ o.key) := by
  simp only [le, lt_eq, ← decide_not, not_lt]

/-- Methods without repetitions are strictly increasing once they are sorted. -/
lemma pairwise_lt_mergeSort_le {refs : List MethodRef} (h : refs.Nodup) :
    (refs.mergeSort le).Pairwise fun m o => m.lt o = true := by
  simpa only [lt_eq, decide_eq_true_eq] using pairwise_lt_mergeSort le_eq (h.map key_injective)

end MethodRef

end JvmTaint
