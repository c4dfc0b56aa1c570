import JvmTaint.Text.Split
import Mathlib.Data.List.TakeWhile
import Mathlib.Tactic.Lemma

set_option autoImplicit false
set_option relaxedAutoImplicit false

/-!
# Texts cut apart and put together

A text that is cut at every separator has parts without separators, and parts without separators
can be read off the text in which separators stand between them. A text that is cut at one place
only is cut at the first separator.

## Main results

* `JvmTaint.Text.notMem_of_mem_split`: the parts of a text are free of the separator.
* `JvmTaint.Text.splitChars_append_cons`, `JvmTaint.Text.splitChars_flatMap_cons`: the parts of
  texts that are put together.
* `JvmTaint.Text.split_intercalate`: parts with separators between them are the parts of the text.
* `JvmTaint.Text.eq_append_of_dropWhile`: a text is cut at the first separator.
-/

namespace JvmTaint.Text

variable {sep : Char} {cs ds part : List Char} {parts : List (List Char)}

/-! ## Cutting at every separator -/

/-- The parts of a list are free of the separator. -/
lemma notMem_of_mem_splitChars (h : part ∈ splitChars sep cs) : sep ∉ part := by
  induction cs generalizing part with
  | nil => simp_all [splitChars]
  | cons c cs ih =>
    rw [splitChars] at h
    split at h
    · rcases List.mem_cons.mp h with rfl | h
      · simp
      · exact ih h
    · rename_i hc
      split at h
      · rw [List.mem_singleton.mp h, List.mem_singleton]
        exact Ne.symm hc
      · rename_i first parts hsplit
        rcases List.mem_cons.mp h with rfl | h
        · rw [List.mem_cons, not_or]
          exact ⟨Ne.symm hc, ih (hsplit ▸ List.mem_cons_self)⟩
        · exact ih (hsplit ▸ List.mem_cons_of_mem _ h)

/-- The parts of a text are free of the separator. -/
lemma notMem_of_mem_split {s part : String} (h : part ∈ split sep s) : sep ∉ part.toList := by
  obtain ⟨cs, hcs, rfl⟩ := List.mem_map.mp h
  simpa using notMem_of_mem_splitChars hcs

/-- There is always a part. -/
lemma splitChars_ne_nil (sep : Char) (cs : List Char) : splitChars sep cs ≠ [] := by
  cases cs with
  | nil => simp [splitChars]
  | cons c cs =>
    rw [splitChars]
    split
    · simp
    · split <;> simp

/-- Characters in front of a text belong to its first part. -/
lemma splitChars_append (h : sep ∉ part) (hds : splitChars sep ds = cs :: parts) :
    splitChars sep (part ++ ds) = (part ++ cs) :: parts := by
  induction part with
  | nil => exact hds
  | cons c part ih =>
    rw [List.mem_cons, not_or] at h
    rw [List.cons_append, splitChars, if_neg (Ne.symm h.1), ih h.2]
    rfl

/-- A separator ends a part. -/
lemma splitChars_append_cons (sep : Char) (cs ds : List Char) :
    splitChars sep (cs ++ sep :: ds) = splitChars sep cs ++ splitChars sep ds := by
  induction cs with
  | nil => simp [splitChars]
  | cons c cs ih =>
    rw [List.cons_append, splitChars, splitChars, ih]
    split
    · rfl
    · obtain ⟨first, parts, hparts⟩ := List.exists_cons_of_ne_nil (splitChars_ne_nil sep cs)
      rw [hparts]
      rfl

/-- Parts that are written each after a separator can be read off the text. -/
lemma splitChars_flatMap_cons (h : ∀ part ∈ parts, sep ∉ part) :
    splitChars sep (parts.flatMap (sep :: ·)) = [] :: parts := by
  induction parts with
  | nil => rfl
  | cons part parts ih =>
    have hpart : sep ∉ part := h part List.mem_cons_self
    have hrest := ih fun p hp => h p (List.mem_cons_of_mem _ hp)
    rw [List.flatMap_cons, List.cons_append, splitChars, if_pos rfl,
      splitChars_append hpart hrest, List.append_nil]

/-- The parts with separators between them: the first one, and the others each after a separator. -/
lemma intercalate_cons_eq (sep : Char) (part : List Char) (parts : List (List Char)) :
    [sep].intercalate (part :: parts) = part ++ parts.flatMap (sep :: ·) := by
  induction parts generalizing part with
  | nil => simp
  | cons next parts ih =>
    rw [List.intercalate_cons_cons, ih, List.flatMap_cons]
    simp

/-- Parts with separators between them can be read off the text, if there are any. -/
lemma split_intercalate {first : String} {names : List String}
    (h : ∀ name ∈ first :: names, sep ∉ name.toList) :
    split sep ((String.singleton sep).intercalate (first :: names)) = first :: names := by
  obtain ⟨hfirst, hnames⟩ := List.forall_mem_cons.mp h
  have hparts : ∀ part ∈ names.map String.toList, sep ∉ part := by simpa using hnames
  rw [split, String.toList_intercalate, String.toList_singleton, List.map_cons,
    intercalate_cons_eq, splitChars_append hfirst (splitChars_flatMap_cons hparts)]
  simp

/-! ## Cutting at the first separator -/

section First

variable {c : Char} {rest : List Char}

/-- There is no separator in front of the first one. -/
lemma notMem_takeWhile (sep : Char) (cs : List Char) : sep ∉ cs.takeWhile (· ≠ sep) := by
  intro hmem
  simpa using List.mem_takeWhile_imp hmem

/-- A text is cut at the first separator. -/
lemma eq_append_of_dropWhile (h : cs.dropWhile (· ≠ sep) = c :: rest) :
    c = sep ∧ cs = cs.takeWhile (· ≠ sep) ++ sep :: rest := by
  have hc : c = sep := by
    have hne : cs.dropWhile (· ≠ sep) ≠ [] := by
      rw [h]
      exact List.cons_ne_nil c rest
    have hhead := List.head_dropWhile_not (· ≠ sep) hne
    simp only [h, List.head_cons] at hhead
    simpa using hhead
  refine ⟨hc, ?_⟩
  rw [← hc, ← h, hc]
  exact List.takeWhile_append_dropWhile.symm

variable (hfree : sep ∉ cs)
include hfree

/-- What stands in front of the first separator is cut off. -/
lemma takeWhile_append_cons (rest : List Char) :
    (cs ++ sep :: rest).takeWhile (· ≠ sep) = cs := by
  rw [List.takeWhile_append_of_pos fun c hc => by simpa using ne_of_mem_of_not_mem hc hfree]
  simp

/-- What stands in front of the first separator is dropped. -/
lemma dropWhile_append_cons (rest : List Char) :
    (cs ++ sep :: rest).dropWhile (· ≠ sep) = sep :: rest := by
  rw [List.dropWhile_append_of_pos fun c hc => by simpa using ne_of_mem_of_not_mem hc hfree]
  simp

end First

end JvmTaint.Text
