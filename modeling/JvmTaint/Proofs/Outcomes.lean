import Mathlib.Tactic.Common

set_option autoImplicit false
set_option relaxedAutoImplicit false

/-!
# What computations ensure

A computation that may fail ensures what holds of its result whenever it has one. What it ensures
follows from what its parts ensure, and what a computation over a list ensures from what each of
its steps does.

## Main definitions

* `JvmTaint.Ensures`: every result of a computation has a property.
* `JvmTaint.resultOf`: the result of a computation of which an image is known.

## Main results

* `JvmTaint.Ensures.bind`: what is ensured by one computation after another.
* `JvmTaint.ensures_foldlM`, `JvmTaint.ensures_forM`, `JvmTaint.ensures_mapM_forall`: what is
  ensured by a computation over a list.
-/

namespace JvmTaint

/-- Every result of a computation has the property. -/
def Ensures {ε α : Type} (x : Except ε α) (Q : α → Prop) : Prop := ∀ a, x = .ok a → Q a

variable {ε α β : Type} {Q : α → Prop}

/-- A computation that succeeds ensures what holds of its result. -/
lemma ensures_ok {a : α} (h : Q a) : Ensures (.ok a : Except ε α) Q := by
  intro a' ha'
  cases ha'
  exact h

/-- A computation that fails ensures everything. -/
lemma ensures_error {e : ε} : Ensures (.error e : Except ε α) Q := nofun

/-- What both branches ensure. -/
lemma ensures_ite {c : Prop} [Decidable c] {x y : Except ε α}
    (hx : c → Ensures x Q) (hy : ¬ c → Ensures y Q) : Ensures (if c then x else y) Q := by
  by_cases h : c
  · rw [if_pos h]
    exact hx h
  · rw [if_neg h]
    exact hy h

/-- What a computation ensures is known to what goes on with its result. -/
lemma Ensures.bind {x : Except ε α} {k : α → Except ε β} {R : β → Prop} (h : Ensures x Q)
    (hk : ∀ a, Q a → Ensures (k a) R) : Ensures (x >>= k) R := by
  cases x with
  | error e => exact nofun
  | ok a => exact hk a (h a rfl)

/-- A computation ensures what it ensures in two ways. -/
lemma Ensures.and {x : Except ε α} {R : α → Prop} (h : Ensures x Q) (h' : Ensures x R) :
    Ensures x fun a => Q a ∧ R a :=
  fun a ha => ⟨h a ha, h' a ha⟩

/-- A computation ensures what its last part ensures. -/
lemma Ensures.of_bind {x : Except ε α} {k : α → Except ε β} {R : β → Prop}
    (hk : ∀ a, Ensures (k a) R) : Ensures (x >>= k) R :=
  Ensures.bind (Q := fun _ => True) (fun _ _ => trivial) fun a _ => hk a

/-! ## Known results -/

/-- The result of a computation of which an image is known. It is a definition, so that the
equations of the functions that are evaluated for the image are there for the proofs that follow. -/
def resultOf {x : Except ε α} {f : α → β} {b : β} (h : x.map f = .ok b) :
    { a : α // x = .ok a ∧ f a = b } :=
  match x, h with
  | .ok a, h => ⟨a, rfl, Except.ok.inj h⟩
  | .error _, h => nomatch h

/-- A computation succeeds if an image of its result is known. -/
lemma exists_of_map_eq_ok {x : Except ε α} {f : α → β} {b : β} (h : x.map f = .ok b) :
    ∃ a, x = .ok a ∧ f a = b :=
  ⟨(resultOf h).val, (resultOf h).property⟩

/-! ## Computations over lists -/

/-- What every step of a fold keeps. -/
lemma ensures_foldlM {step : α → β → Except ε α} (hstep : ∀ a b, Q a → Ensures (step a b) Q)
    (xs : List β) {a : α} (ha : Q a) : Ensures (xs.foldlM step a) Q := by
  induction xs generalizing a with
  | nil => exact ensures_ok ha
  | cons x xs ih => exact (hstep a x ha).bind fun _ ha' => ih ha'

/-- What a check ensures of every element. -/
lemma ensures_forM {check : α → Except ε Unit} (xs : List α)
    (h : ∀ x ∈ xs, Ensures (check x) fun _ => Q x) :
    Ensures (xs.forM check) fun _ => ∀ x ∈ xs, Q x := by
  induction xs with
  | nil => exact ensures_ok (by simp)
  | cons x xs ih =>
    obtain ⟨hx, hxs⟩ := List.forall_mem_cons.mp h
    refine hx.bind fun _ hx => ?_
    intro _ hrest
    exact List.forall_mem_cons.mpr ⟨hx, ih hxs _ hrest⟩

/-- What is read one after another has what each of it has. -/
lemma ensures_mapM_forall {read : β → Except ε α} {xs : List β}
    (h : ∀ x ∈ xs, Ensures (read x) Q) : Ensures (xs.mapM read) fun ys => ∀ y ∈ ys, Q y := by
  induction xs with
  | nil => exact ensures_ok (by simp)
  | cons x xs ih =>
    obtain ⟨hx, hxs⟩ := List.forall_mem_cons.mp h
    rw [List.mapM_cons]
    exact hx.bind fun y hy => (ih hxs).bind fun ys hys =>
      ensures_ok (List.forall_mem_cons.mpr ⟨hy, hys⟩)

/-- Where there is something to read, something is read. -/
lemma ensures_mapM_ne_nil {read : α → Except ε β} {xs : List α} (h : xs ≠ []) :
    Ensures (xs.mapM read) (· ≠ []) := by
  obtain ⟨x, rest, rfl⟩ := List.exists_cons_of_ne_nil h
  rw [List.mapM_cons]
  exact Ensures.of_bind fun y => Ensures.of_bind fun ys => ensures_ok (List.cons_ne_nil y ys)

end JvmTaint
