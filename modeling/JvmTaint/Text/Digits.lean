set_option autoImplicit false
set_option relaxedAutoImplicit false

/-!
# Decimal digits

## Main definitions

* `JvmTaint.digitsValue`: the value of a list of decimal digits.
-/

namespace JvmTaint

/-- The value of a list of decimal digits. -/
def digitsValue (cs : List Char) : Nat :=
  cs.foldl (fun n c => n * 10 + (c.toNat - 48)) 0

end JvmTaint
