set_option autoImplicit false
set_option relaxedAutoImplicit false

/-!
# Texts cut at a character

## Main definitions

* `JvmTaint.Text.splitChars`: the parts of a list of characters between the places of a separator.
* `JvmTaint.Text.split`: the same for texts.

## Main results

* `JvmTaint.Text.splitChars_eq_singleton`: a list without the separator is its only part.
-/

namespace JvmTaint.Text

/-- The parts of a list of characters between the places of `sep`. There is one part more than
there are separators, so the empty list has one empty part. -/
def splitChars (sep : Char) : List Char → List (List Char)
  | [] => [[]]
  | c :: cs =>
    if c = sep then [] :: splitChars sep cs
    else match splitChars sep cs with
      | [] => [[c]]
      | part :: parts => (c :: part) :: parts

/-- The parts of a text between the places of `sep`. -/
def split (sep : Char) (s : String) : List String := (splitChars sep s.toList).map String.ofList

/-- A list without the separator is its only part. -/
theorem splitChars_eq_singleton {sep : Char} {cs : List Char} (h : sep ∉ cs) :
    splitChars sep cs = [cs] := by
  induction cs with
  | nil => rfl
  | cons c cs ih =>
    have hc : c ≠ sep := fun e => h (e ▸ List.mem_cons_self)
    have hcs : sep ∉ cs := fun m => h (List.mem_cons_of_mem c m)
    simp [splitChars, hc, ih hcs]

/-- A text without the separator is its only part. -/
theorem split_eq_singleton {sep : Char} {s : String} (h : sep ∉ s.toList) : split sep s = [s] := by
  simp [split, splitChars_eq_singleton h]

end JvmTaint.Text
