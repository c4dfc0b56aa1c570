set_option autoImplicit false
set_option relaxedAutoImplicit false

/-!
# Blanks

## Main definitions

* `JvmTaint.Text.isBlank`: the white space characters of Unicode.
* `JvmTaint.Text.trim`: a text without the blanks at its ends.
-/

namespace JvmTaint.Text

/-- Whether a character is white space. -/
def isBlank (c : Char) : Bool :=
  let n := c.toNat
  (9 ≤ n && n ≤ 13) || n == 0x20 || n == 0x85 || n == 0xa0 || n == 0x1680 ||
    (0x2000 ≤ n && n ≤ 0x200a) || n == 0x2028 || n == 0x2029 || n == 0x202f || n == 0x205f ||
    n == 0x3000

/-- A text without the blanks at its ends. -/
def trim (s : String) : String :=
  String.ofList ((s.toList.dropWhile isBlank).reverse.dropWhile isBlank).reverse

end JvmTaint.Text
