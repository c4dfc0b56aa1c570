import JvmTaint.Text.Utf8

set_option autoImplicit false
set_option relaxedAutoImplicit false

/-!
# Packed values

The binary form of values: a code byte that tells the kind of the value and often its size, followed
by big-endian numbers, text bytes or nested values.

## Main definitions

* `JvmTaint.Packed.Bytes`: packed values.
* `JvmTaint.Packed.int`: an integer in the shortest form; `JvmTaint.Packed.int32`,
  `JvmTaint.Packed.int64`, `JvmTaint.Packed.uint8`: integers in a fixed form.
* `JvmTaint.Packed.text`, `JvmTaint.Packed.arrayHeader`, `JvmTaint.Packed.mapHeader`.
-/

namespace JvmTaint.Packed

/-- Packed values. -/
abbrev Bytes := List UInt8

/-- The last `width` bytes of a number, the highest first. -/
def bigEndian : Nat → Nat → Bytes
  | 0, _ => []
  | width + 1, n => bigEndian width (n / 256) ++ [UInt8.ofNat n]

/-- The last `width` bytes of the two's complement of an integer, the highest first. -/
def bigEndianInt (width : Nat) (n : Int) : Bytes :=
  bigEndian width (n % (Nat.pow 256 width : Nat)).toNat

/-- The code of an absent value. -/
def nil : Bytes := [0xc0]

/-- A natural number in the shortest form. -/
def nat (n : Nat) : Bytes :=
  if n ≤ 0x7f then [UInt8.ofNat n]
  else if n ≤ 0xff then 0xcc :: bigEndian 1 n
  else if n ≤ 0xffff then 0xcd :: bigEndian 2 n
  else if n ≤ 0xffffffff then 0xce :: bigEndian 4 n
  else 0xcf :: bigEndian 8 n

/-- An integer in the shortest form. -/
def int (n : Int) : Bytes :=
  if 0 ≤ n then nat n.toNat
  else if -32 ≤ n then bigEndianInt 1 n
  else if -128 ≤ n then 0xd0 :: bigEndianInt 1 n
  else if -32768 ≤ n then 0xd1 :: bigEndianInt 2 n
  else if -2147483648 ≤ n then 0xd2 :: bigEndianInt 4 n
  else 0xd3 :: bigEndianInt 8 n

/-- An integer in four bytes. -/
def int32 (n : Int) : Bytes := 0xd2 :: bigEndianInt 4 n

/-- An integer in eight bytes. -/
def int64 (n : Int) : Bytes := 0xd3 :: bigEndianInt 8 n

/-- A byte. -/
def uint8 (b : UInt8) : Bytes := [0xcc, b]

/-- A text. -/
def text (s : String) : Bytes :=
  let bytes := Text.toBytes s
  let n := bytes.length
  (if n ≤ 31 then [UInt8.ofNat (0xa0 + n)]
    else if n ≤ 0xff then 0xd9 :: bigEndian 1 n
    else if n ≤ 0xffff then 0xda :: bigEndian 2 n
    else 0xdb :: bigEndian 4 n) ++ bytes

/-- The header of an array of `n` values. -/
def arrayHeader (n : Nat) : Bytes :=
  if n ≤ 15 then [UInt8.ofNat (0x90 + n)]
  else if n ≤ 0xffff then 0xdc :: bigEndian 2 n
  else 0xdd :: bigEndian 4 n

/-- The header of a map of `n` entries. -/
def mapHeader (n : Nat) : Bytes :=
  if n ≤ 15 then [UInt8.ofNat (0x80 + n)]
  else if n ≤ 0xffff then 0xde :: bigEndian 2 n
  else 0xdf :: bigEndian 4 n

/-- An array. -/
def array {α : Type} (f : α → Bytes) (l : List α) : Bytes := arrayHeader l.length ++ l.flatMap f

/-- A map with text keys. -/
def map (entries : List (String × Bytes)) : Bytes :=
  mapHeader entries.length ++ entries.flatMap fun (k, v) => text k ++ v

end JvmTaint.Packed
