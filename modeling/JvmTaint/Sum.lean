set_option autoImplicit false
set_option relaxedAutoImplicit false

/-!
# Sums

## Main definitions

* `JvmTaint.sumOf`: the sum of some numbers.
-/

namespace JvmTaint

/-- The sum of some numbers. -/
def sumOf : List Nat → Nat
  | [] => 0
  | n :: ns => n + sumOf ns

end JvmTaint
