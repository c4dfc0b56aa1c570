import JvmTaint.Text.Graphic
import JvmTaint.Text.Utf8

set_option autoImplicit false
set_option relaxedAutoImplicit false

/-!
# Quoted text

Text between double quotes, as messages, constants and graph labels show it: a quote and a
backslash are escaped, graphic characters stand for themselves, and every other character is
written by name or by number.

## Main definitions

* `JvmTaint.Text.escape`: the quoted form of one character.
* `JvmTaint.Text.quote`: the quoted form of a text.
* `JvmTaint.Text.unquote?`: the text that a quoted form stands for, if it is well formed.
-/

namespace JvmTaint.Text

/-- The digit `d < 16` in lower case. -/
def hexDigit (d : Nat) : Char :=
  if d < 10 then Char.ofNat (48 + d) else Char.ofNat (87 + d)

/-- The last `width` hexadecimal digits of `n`. -/
def hexDigits : Nat → Nat → List Char
  | 0, _ => []
  | width + 1, n => hexDigits width (n / 16) ++ [hexDigit (n % 16)]

/-- The value of a hexadecimal digit of either case. -/
def hexValue? (c : Char) : Option Nat :=
  if '0' ≤ c ∧ c ≤ '9' then some (c.toNat - 48)
  else if 'a' ≤ c ∧ c ≤ 'f' then some (c.toNat - 87)
  else if 'A' ≤ c ∧ c ≤ 'F' then some (c.toNat - 55)
  else none

/-- The quoted form of one character. -/
def escape (c : Char) : List Char :=
  if c = '"' then ['\\', '"']
  else if c = '\\' then ['\\', '\\']
  else if isGraphic c then [c]
  else match c.toNat with
    | 7 => ['\\', 'a']
    | 8 => ['\\', 'b']
    | 9 => ['\\', 't']
    | 10 => ['\\', 'n']
    | 11 => ['\\', 'v']
    | 12 => ['\\', 'f']
    | 13 => ['\\', 'r']
    | n =>
      if n < 0x20 ∨ n = 0x7f then '\\' :: 'x' :: hexDigits 2 n
      else if n < 0x10000 then '\\' :: 'u' :: hexDigits 4 n
      else '\\' :: 'U' :: hexDigits 8 n

/-- A text between double quotes. -/
def quote (s : String) : String :=
  String.ofList ('"' :: s.toList.flatMap escape ++ ['"'])

/-! ## Reading quoted text -/

/-- The number written by the first `width` digits in base 16, and the rest. -/
def takeHex? : Nat → Nat → List Char → Option (Nat × List Char)
  | 0, acc, cs => some (acc, cs)
  | _ + 1, _, [] => none
  | width + 1, acc, c :: cs => do takeHex? width (acc * 16 + (← hexValue? c)) cs

/-- The number written by the first `width` digits in base 8, and the rest. -/
def takeOctal? : Nat → Nat → List Char → Option (Nat × List Char)
  | 0, acc, cs => some (acc, cs)
  | _ + 1, _, [] => none
  | width + 1, acc, c :: cs =>
    if '0' ≤ c ∧ c ≤ '7' then takeOctal? width (acc * 8 + (c.toNat - 48)) cs else none

/-- The bytes of the character with code point `n`, if there is one. -/
def charBytes? (n : Nat) : Option (List UInt8) :=
  if n.isValidChar then some (String.utf8EncodeChar (Char.ofNat n)) else none

/-- The bytes that an escape stands for, and the rest; `cs` is what follows the backslash. -/
def unescape? : List Char → Option (List UInt8 × List Char)
  | 'a' :: cs => some ([7], cs)
  | 'b' :: cs => some ([8], cs)
  | 't' :: cs => some ([9], cs)
  | 'n' :: cs => some ([10], cs)
  | 'v' :: cs => some ([11], cs)
  | 'f' :: cs => some ([12], cs)
  | 'r' :: cs => some ([13], cs)
  | '\\' :: cs => some ([92], cs)
  | '"' :: cs => some ([34], cs)
  | 'x' :: cs => do
    let (n, cs) ← takeHex? 2 0 cs
    return ([UInt8.ofNat n], cs)
  | 'u' :: cs => do
    let (n, cs) ← takeHex? 4 0 cs
    return (← charBytes? n, cs)
  | 'U' :: cs => do
    let (n, cs) ← takeHex? 8 0 cs
    return (← charBytes? n, cs)
  | cs => do
    let (n, cs) ← takeOctal? 3 0 cs
    if n < 256 then return ([UInt8.ofNat n], cs) else none

/-- The bytes between an opening quote and the quote that ends the text. The fuel bounds the
number of characters read. -/
def unquoteBody? : Nat → List Char → Option (List UInt8)
  | 0, _ => none
  | _ + 1, ['"'] => some []
  | fuel + 1, '\\' :: cs => do
    let (bytes, cs) ← unescape? cs
    return bytes ++ (← unquoteBody? fuel cs)
  | fuel + 1, c :: cs =>
    if c = '"' ∨ c = '\n' then none
    else do return String.utf8EncodeChar c ++ (← unquoteBody? fuel cs)
  | _ + 1, [] => none

/-- The text that a quoted form stands for; `none` if the form is not well formed. -/
def unquote? (s : String) : Option String :=
  match s.toList with
  | '"' :: cs => (unquoteBody? (cs.length + 1) cs).map ofBytes
  | _ => none

end JvmTaint.Text
