set_option autoImplicit false
set_option relaxedAutoImplicit false

/-!
# Keyed collections

Small operations on maps and sets given by lists of pairs, and on lists.

## Main definitions

* `JvmTaint.Keyed.mergeWith`: the entries of two maps, common keys combined.
* `JvmTaint.Keyed.sortedKeys`: the keys of a map in increasing order.
* `JvmTaint.Keyed.members`: the elements of a set given by truth values.
* `JvmTaint.dropRepeats`: a list without immediate repetitions.
* `JvmTaint.mapByWorkers?`: the images of elements, by workers that share them.
-/

namespace JvmTaint

namespace Keyed

variable {κ ν : Type} [BEq κ]

/-- Sets the value of a key. -/
def insert (m : List (κ × ν)) (k : κ) (v : ν) : List (κ × ν) :=
  match m with
  | [] => [(k, v)]
  | (k', v') :: rest => if k' == k then (k, v) :: rest else (k', v') :: insert rest k v

/-- The map of a list of pairs; a later pair wins. -/
def ofList (l : List (κ × ν)) : List (κ × ν) := l.foldl (fun m (k, v) => insert m k v) []

/-- The entries of two maps: a key of both has the combination of its values. -/
def mergeWith (both : ν → ν → ν) (a b : List (κ × ν)) : List (κ × ν) :=
  b.foldl
    (fun m (k, v) =>
      match m.lookup k with
      | some w => insert m k (both w v)
      | none => insert m k v) a

/-- The keys of a map in increasing order. -/
def sortedKeys (le : κ → κ → Bool) (m : List (κ × ν)) : List κ := (m.map (·.1)).mergeSort le

/-- The union of two sets given by truth values. -/
def union (a b : List (κ × Bool)) : List (κ × Bool) := mergeWith (· || ·) a b

/-- The elements of a set given by truth values, in increasing order. -/
def members (le : κ → κ → Bool) (s : List (κ × Bool)) : List κ :=
  sortedKeys le (s.filter (·.2))

end Keyed

/-- A list without immediate repetitions. -/
def dropRepeats {α : Type} [BEq α] : List α → List α
  | [] => []
  | [x] => [x]
  | x :: y :: rest => if x == y then dropRepeats (y :: rest) else x :: dropRepeats (y :: rest)

/-- Whether a count of workers, kept in a signed word of 32 bits, would fall below zero. -/
def overflowsCount (workers : Int) : Bool :=
  decide (0 < workers ∧ workers % 4294967296 ≥ 2147483648)

/-- The images of the elements of a list, in order, by workers that share them; one works if fewer
are asked for. `none` if the workers cannot be counted. -/
def mapByWorkers? {α β : Type} (f : α → β) (workers : Int) (xs : List α) : Option (List β) :=
  if overflowsCount workers then none else some (xs.map f)

end JvmTaint
