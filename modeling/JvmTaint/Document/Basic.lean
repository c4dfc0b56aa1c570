import JvmTaint.Text.Digits

set_option autoImplicit false
set_option relaxedAutoImplicit false

/-!
# Documents

The value of a settings or program file before it is given a meaning: scalars, sequences and
mappings. A number keeps its text, because a number may stand where a text is wanted.

## Main definitions

* `JvmTaint.Document`: a document.
* `JvmTaint.Document.get?`: the value of a key of a mapping.
* `JvmTaint.NumberForm`, `JvmTaint.NumberForm.ofText`: what the text of a number denotes.
-/

namespace JvmTaint

/-- The value of a file. -/
inductive Document where
  | null
  | bool (b : Bool)
  /-- A number, by its text. -/
  | number (text : String)
  | string (s : String)
  | seq (items : List Document)
  | map (entries : List (String × Document))
  deriving Inhabited

namespace Document

/-- The value of a key of a mapping. -/
def get? (d : Document) (key : String) : Option Document :=
  match d with
  | map entries => entries.lookup key
  | _ => none

end Document

/-- What the text of a number denotes: an integer that fits a 64-bit word, signed or not; another
number, rounded; or a number out of range, which is no number at all. -/
inductive NumberForm where
  | integer (n : Int)
  | float (x : Float)
  | overflow

namespace NumberForm

/-- The smallest signed 64-bit integer. -/
def minInt64 : Int := -9223372036854775808

/-- The largest signed 64-bit integer. -/
def maxInt64 : Int := 9223372036854775807

/-- The integer of a text of decimal digits with an optional minus sign. -/
def integerOf? (cs : List Char) : Option Int :=
  match cs with
  | '-' :: ds => if !ds.isEmpty && ds.all Char.isDigit then some (-(digitsValue ds : Int)) else none
  | ds => if !ds.isEmpty && ds.all Char.isDigit then some (digitsValue ds) else none

/-- The rounded value of a text with an optional fraction and exponent. -/
def floatOf (cs : List Char) : Float :=
  let negative := cs.head? == some '-'
  let body := if negative then cs.tail else cs
  let isMark (c : Char) : Bool := c == 'e' || c == 'E'
  let mantissa := body.takeWhile (!isMark ·)
  let whole := mantissa.takeWhile Char.isDigit
  let fraction := (mantissa.dropWhile Char.isDigit).drop 1
  let exponent : Int :=
    match (body.dropWhile (!isMark ·)).drop 1 with
    | '-' :: ds => -(digitsValue ds : Int)
    | '+' :: ds => digitsValue ds
    | ds => digitsValue ds
  let scale := exponent - fraction.length
  let digits := digitsValue (whole ++ fraction)
  let x :=
    if scale < 0 then Float.ofScientific digits true scale.natAbs
    else Float.ofScientific digits false scale.natAbs
  if negative then -x else x

/-- What the text of a number denotes. -/
def ofText (text : String) : NumberForm :=
  let cs := text.toList
  match integerOf? cs with
  | some n =>
    if minInt64 ≤ n ∧ n < 18446744073709551616 then .integer n
    else .float (floatOf cs)
  | none =>
    let x := floatOf cs
    if x.isInf then .overflow else .float x

/-- The integer part of a float as a signed 64-bit word; out of range it is the smallest word. -/
def truncate (x : Float) : Int :=
  if x < -9223372036854775808.0 || x ≥ 9223372036854775808.0 then minInt64
  else x.toInt64.toInt

end NumberForm

end JvmTaint
