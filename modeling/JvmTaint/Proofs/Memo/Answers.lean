import JvmTaint.Memo.Types
import Mathlib.Tactic.Lemma

set_option autoImplicit false
set_option relaxedAutoImplicit false

/-!
# Answers that do not depend on the state

A computation with a state gives an answer and another state. If the states that can occur have a
property in common, the answer may be the same from all of them.

## Main definitions

* `JvmTaint.Gives`: what the answers have in common, with what the states have in common.
* `JvmTaint.Answers`: the answer is the same from all states.

## Main results

* `JvmTaint.Answers.mapM`, `JvmTaint.Answers.filterM`, `JvmTaint.Answers.foldlM`,
  `JvmTaint.Answers.closureM`: the answers of computations over lists.
-/

namespace JvmTaint

variable {σ α β : Type} {I : σ → Prop}

/-- From a state with the property `I`, the answer has the property `Q`, and the state after it has
the property `I` again. -/
def Gives (I : σ → Prop) (q : StateM σ α) (Q : α → Prop) : Prop :=
  ∀ s, I s → Q (q.run s).1 ∧ I (q.run s).2

/-- From every state with the property `I`, the answer is `answer`. -/
def Answers (I : σ → Prop) (q : StateM σ α) (answer : α) : Prop := Gives I q (· = answer)

namespace Gives

variable {q : StateM σ α} {f : α → StateM σ β} {P : α → Prop} {Q : β → Prop}

lemma pure {a : α} (h : P a) : Gives I (pure a) P := fun _ hs => ⟨h, hs⟩

lemma bind (hq : Gives I q P) (hf : ∀ a, P a → Gives I (f a) Q) : Gives I (q >>= f) Q :=
  fun s hs => hf _ (hq s hs).1 _ (hq s hs).2

/-- The answer may be forgotten. -/
lemma discard (hq : Gives I q P) : Gives I (discard q) fun _ => True :=
  fun s hs => ⟨trivial, (hq s hs).2⟩

/-- The state may be looked at. -/
lemma get_bind {f : σ → StateM σ β} (h : ∀ s, I s → Gives I (f s) Q) : Gives I (get >>= f) Q :=
  fun s hs => h s hs s hs

/-- The state may be changed. -/
lemma modify {f : σ → σ} (h : ∀ s, I s → I (f s)) : Gives I (modify f) fun _ => True :=
  fun s hs => ⟨trivial, h s hs⟩

/-- The same may be done for all elements of a list. -/
lemma forM {act : α → StateM σ PUnit} (h : ∀ a, Gives I (act a) fun _ => True) (xs : List α) :
    Gives I (xs.forM act) fun _ => True := by
  induction xs with
  | nil => exact Gives.pure trivial
  | cons x xs ih => exact (h x).bind fun _ _ => ih

end Gives

namespace Answers

variable {q : StateM σ α} {answer : α}

lemma pure (a : α) : Answers I (pure a) a := Gives.pure rfl

/-- What follows may use the answer. -/
lemma gives_bind {f : α → StateM σ β} {Q : β → Prop} (hq : Answers I q answer)
    (hf : Gives I (f answer) Q) : Gives I (q >>= f) Q :=
  Gives.bind hq fun a ha => by rwa [show a = answer from ha]

lemma bind {f : α → StateM σ β} {b : β} (hq : Answers I q answer) (hf : Answers I (f answer) b) :
    Answers I (q >>= f) b := hq.gives_bind hf

/-- What changes the state only may come before. -/
lemma after {f : PUnit → StateM σ α} {act : StateM σ PUnit} (hact : Gives I act fun _ => True)
    (hf : Answers I (f ⟨⟩) answer) : Answers I (act >>= f) answer :=
  hact.bind fun _ _ => hf

lemma ite {c : Prop} [Decidable c] {q' : StateM σ α} {answer' : α} (hq : Answers I q answer)
    (hq' : Answers I q' answer') :
    Answers I (if c then q else q') (if c then answer else answer') := by
  split
  · exact hq
  · exact hq'

/-- The answers for the elements of a list are given one after the other. -/
lemma mapM {ask : α → StateM σ β} {f : α → β} (xs : List α)
    (h : ∀ x ∈ xs, Answers I (ask x) (f x)) : Answers I (xs.mapM ask) (xs.map f) := by
  induction xs with
  | nil => exact Answers.pure _
  | cons x xs ih =>
    obtain ⟨hx, hxs⟩ := List.forall_mem_cons.mp h
    rw [List.mapM_cons, List.map_cons]
    exact hx.bind ((ih hxs).bind (Answers.pure _))

lemma filterAuxM {ask : α → StateM σ Bool} {p : α → Bool} (xs acc : List α)
    (h : ∀ x, Answers I (ask x) (p x)) :
    Answers I (xs.filterAuxM ask acc) ((xs.filter p).reverse ++ acc) := by
  induction xs generalizing acc with
  | nil => exact Answers.pure _
  | cons x xs ih =>
    rw [List.filterAuxM]
    refine (h x).bind ?_
    rw [List.filter_cons]
    cases p x with
    | true => simpa using ih (x :: acc)
    | false => simpa using ih acc

lemma filterM {ask : α → StateM σ Bool} {p : α → Bool} (xs : List α)
    (h : ∀ x, Answers I (ask x) (p x)) : Answers I (xs.filterM ask) (xs.filter p) := by
  refine (filterAuxM xs [] h).bind ?_
  rw [List.append_nil, List.reverse_reverse]
  exact Answers.pure _

lemma foldlM {ask : β → α → StateM σ β} {f : β → α → β} (xs : List α) (b : β)
    (h : ∀ b x, Answers I (ask b x) (f b x)) : Answers I (xs.foldlM ask b) (xs.foldl f b) := by
  induction xs generalizing b with
  | nil => exact Answers.pure _
  | cons x xs ih => exact (h b x).bind (ih _)

/-- The closure under successors that are asked for is the closure under the answers. -/
lemma closureM [BEq α] {ask : α → StateM σ (List α)} {next : α → List α}
    (h : ∀ x, Answers I (ask x) (next x)) (fuel done : Nat) (seen : List α) :
    Answers I (JvmTaint.closureM ask fuel done seen) (closure next fuel done seen) := by
  induction fuel generalizing done seen with
  | zero => exact Answers.pure _
  | succ fuel ih =>
    unfold JvmTaint.closureM closure
    cases seen[done]? with
    | none => exact Answers.pure _
    | some x => exact (h x).bind (ih _ _)

end Answers

end JvmTaint
