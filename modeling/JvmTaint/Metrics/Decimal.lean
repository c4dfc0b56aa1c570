set_option autoImplicit false
set_option relaxedAutoImplicit false

/-!
# Shortest decimals

The decimal text of a float with the fewest digits that read back as the same float. All
comparisons are between natural numbers: a float and the two ends of the interval of numbers that
round to it are fractions over one denominator.

## Main definitions

* `JvmTaint.RoundingInterval`, `JvmTaint.RoundingInterval.ofBits`: a float and the numbers that
  round to it.
* `JvmTaint.RoundingInterval.shortest`: its shortest decimal.
* `JvmTaint.Decimal.render`: the text of a decimal.
* `JvmTaint.floatText`: the text of a float.
-/

namespace JvmTaint

/-- The number `digits * 10 ^ exponent`. -/
structure Decimal where
  digits : Nat
  exponent : Int
  deriving DecidableEq, Repr, Inhabited

/-- A positive float and the numbers that round to it, as fractions over `denominator`. -/
structure RoundingInterval where
  low : Nat
  value : Nat
  high : Nat
  denominator : Nat
  /-- Whether the two ends round to the float too. -/
  closed : Bool
  deriving DecidableEq, Repr

namespace RoundingInterval

/-- The interval of the finite positive float with these bits. The float is `m * 2 ^ q`; its
neighbour below is half as far away as the one above if `m` is the least significand. -/
def ofBits (bits : UInt64) : RoundingInterval :=
  let field := ((bits >>> 52) &&& 0x7ff).toNat
  let fraction := (bits &&& 0xfffffffffffff).toNat
  let m := if field = 0 then fraction else 0x10000000000000 + fraction
  let q : Int := if field = 0 then -1074 else (field : Int) - 1075
  let unit := Nat.pow 2 q.toNat
  let below := if fraction = 0 ∧ 1 < field then 1 else 2
  { low := (4 * m - below) * unit
    value := 4 * m * unit
    high := (4 * m + 2) * unit
    denominator := 4 * Nat.pow 2 (-q).toNat
    closed := m % 2 == 0 }

/-- Whether a decimal rounds to the float. -/
def contains (i : RoundingInterval) (d : Decimal) : Bool :=
  let scale := Nat.pow 10 (-d.exponent).toNat
  let x := d.digits * Nat.pow 10 d.exponent.toNat * i.denominator
  if i.closed then decide (i.low * scale ≤ x) && decide (x ≤ i.high * scale)
  else decide (i.low * scale < x) && decide (x < i.high * scale)

/-- The number of factors ten, at most `fuel`, by which `n` has to be multiplied to reach `d`. -/
def shortfall (d : Nat) : Nat → Nat → Nat
  | 0, _ => 0
  | fuel + 1, n => if d ≤ n then 0 else shortfall d fuel (n * 10) + 1

/-- The least `k` such that the float is below `10 ^ k`. -/
def magnitude (i : RoundingInterval) : Int :=
  if i.denominator ≤ i.value then ((Nat.toDigits 10 (i.value / i.denominator)).length : Int)
  else 1 - (shortfall i.denominator 400 i.value : Int)

/-- The nearest decimal of `n` digits that rounds to the float. Of the two decimals around the float
the nearer one is taken, and the even one if both are as near. -/
def withDigits? (i : RoundingInterval) (n : Nat) : Option Decimal :=
  let exponent := i.magnitude - n
  let up := i.value * Nat.pow 10 (-exponent).toNat
  let down := i.denominator * Nat.pow 10 exponent.toNat
  let below : Decimal := ⟨up / down, exponent⟩
  let above : Decimal := ⟨up / down + 1, exponent⟩
  let rest := 2 * (up % down)
  let preferBelow := rest < down ∨ (rest = down ∧ below.digits % 2 = 0)
  match i.contains below, i.contains above with
  | true, true => some (if preferBelow then below else above)
  | true, false => some below
  | false, true => some above
  | false, false => none

/-- The shortest decimal that rounds to the float. Seventeen digits are enough for every float. -/
def shortest (i : RoundingInterval) : Decimal :=
  ((List.range 17).findSome? fun n => i.withDigits? (n + 1)).getD ⟨i.value / i.denominator, 0⟩

end RoundingInterval

namespace Decimal

/-- The digits of a decimal without the zeros at the end. -/
def significant (d : Decimal) : List Char :=
  ((Nat.toDigits 10 d.digits).reverse.dropWhile (· == '0')).reverse

/-- The exponent of ten of the first digit. -/
def leading (d : Decimal) : Int := (Nat.toDigits 10 d.digits).length + d.exponent - 1

/-- The least number of digits of an exponent. -/
def exponentWidth : Nat := 2

/-- The digits of a number, with zeros in front up to a width. -/
def padded (width n : Nat) : List Char :=
  let ds := Nat.toDigits 10 n
  List.replicate (width - ds.length) '0' ++ ds

/-- A decimal with its first digit before the point and an exponent. -/
def scientific (ds : List Char) (e : Int) : List Char :=
  let mantissa := match ds with
    | [] => ['0']
    | [d] => [d]
    | d :: ds => d :: '.' :: ds
  mantissa ++ ['e', if e < 0 then '-' else '+'] ++ padded exponentWidth e.natAbs

/-- A decimal without an exponent. -/
def positional (ds : List Char) (e : Int) : List Char :=
  if e < 0 then '0' :: '.' :: (List.replicate (-e - 1).toNat '0' ++ ds)
  else
    let whole := e.toNat + 1
    let before := ds.take whole ++ List.replicate (whole - ds.length) '0'
    match ds.drop whole with
    | [] => before
    | after => before ++ '.' :: after

/-- The text of a decimal: without an exponent if the first digit stands for at least `1e-4` and at
most `1e5`. -/
def render (d : Decimal) : String :=
  let ds := d.significant
  let e := d.leading
  String.ofList (if e < -4 ∨ 6 ≤ e then scientific ds e else positional ds e)

end Decimal

/-- The text of a float. -/
def floatText (x : Float) : String :=
  if x.isNaN then "NaN"
  else if x.isInf then if x < 0 then "-Inf" else "+Inf"
  else if x == 0 then "0"
  else
    let text := (RoundingInterval.ofBits x.abs.toBits).shortest.render
    if x < 0 then "-" ++ text else text

end JvmTaint
