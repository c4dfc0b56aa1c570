import JvmTaint.Document.Basic
import JvmTaint.Text.Quoted

set_option autoImplicit false
set_option relaxedAutoImplicit false

/-!
# Values of flags

Integers and truth values on the command line. An integer has an optional sign and an optional mark
of its base (`0x`, `0o`, `0b`; a leading zero alone marks base 8); bars may stand between digits.

## Main definitions

* `JvmTaint.CommandLine.parseInt`: the 64-bit integer of a text.
* `JvmTaint.CommandLine.parseTruth?`: the truth value of a text.
-/

namespace JvmTaint.CommandLine

/-- Why a text is no value. -/
inductive ValueFault where
  | malformed
  | outOfRange
  deriving DecidableEq, Repr

/-- The message of a fault. -/
def ValueFault.message : ValueFault → String
  | malformed => "invalid syntax"
  | outOfRange => "value out of range"

/-- The digits after the mark of a base, and the base. -/
def splitBase : List Char → Nat × List Char
  | '0' :: 'b' :: d :: ds | '0' :: 'B' :: d :: ds => (2, d :: ds)
  | '0' :: 'o' :: d :: ds | '0' :: 'O' :: d :: ds => (8, d :: ds)
  | '0' :: 'x' :: d :: ds | '0' :: 'X' :: d :: ds => (16, d :: ds)
  | '0' :: ds => (8, ds)
  | ds => (10, ds)

/-- Whether every bar stands between two digits; `ready` tells whether a digit or the mark of a base
stands before. -/
def barsFit (ready : Bool) : List Char → Bool
  | [] => true
  | ['_'] => false
  | '_' :: cs => ready && barsFit false cs
  | _ :: cs => barsFit true cs

/-- The value of digits after the value `n` of those before them. A value of more than 64 bits is
noticed before a bad digit that comes later. -/
def digitsFrom (base n : Nat) : List Char → Except ValueFault Nat
  | [] => .ok n
  | '_' :: cs => digitsFrom base n cs
  | c :: cs =>
    match Text.hexValue? c with
    | none => .error .malformed
    | some d =>
      if d ≥ base then .error .malformed
      else if n * base + d ≥ 18446744073709551616 then .error .outOfRange
      else digitsFrom base (n * base + d) cs

/-- The 64-bit integer of a text. -/
def parseInt (s : String) : Except ValueFault Int := do
  let (negative, cs) := match s.toList with
    | '-' :: cs => (true, cs)
    | '+' :: cs => (false, cs)
    | cs => (false, cs)
  if cs.isEmpty then throw .malformed
  let (base, ds) := splitBase cs
  let n ← digitsFrom base 0 ds
  if !barsFit (base != 10) ds then throw .malformed
  let value : Int := if negative then -(n : Int) else n
  if value < NumberForm.minInt64 ∨ NumberForm.maxInt64 < value then throw .outOfRange
  return value

/-- The truth value of a text. -/
def parseTruth? (s : String) : Option Bool :=
  if ["1", "t", "T", "TRUE", "true", "True"].contains s then some true
  else if ["0", "f", "F", "FALSE", "false", "False"].contains s then some false
  else none

end JvmTaint.CommandLine
