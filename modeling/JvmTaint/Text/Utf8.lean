set_option autoImplicit false
set_option relaxedAutoImplicit false

/-!
# Bytes of a text

Reading bytes as UTF-8. A byte that starts no character stands for the replacement character, so
that every list of bytes reads as some text.

## Main definitions

* `JvmTaint.Text.decodeChar`: the first character of a list of bytes and the number of bytes it
  takes.
* `JvmTaint.Text.ofBytes`: the text of a list of bytes.
* `JvmTaint.Text.toBytes`: the bytes of a text.
-/

namespace JvmTaint.Text

/-- The character shown for bytes that are not UTF-8. -/
def replacement : Char := '\ufffd'

/-- The payload of a continuation byte. -/
def continuation? (b : UInt8) : Option Nat :=
  if 0x80 ≤ b.toNat ∧ b.toNat < 0xc0 then some (b.toNat - 0x80) else none

/-- The character with code point `n`, if `n` is at least `least` (no overlong form) and names a
character. -/
def charOf? (least n : Nat) : Option Char :=
  if least ≤ n ∧ n.isValidChar then some (Char.ofNat n) else none

/-- The character that the bytes `b :: rest` start with and the number of bytes of `rest` that it
takes; `none` if they start with no character. -/
def decodeChar? (b : UInt8) (rest : List UInt8) : Option (Char × Nat) :=
  let n := b.toNat
  if n < 0x80 then some (Char.ofNat n, 0)
  else if n < 0xc0 then none
  else if n < 0xe0 then do
    let b₁ ← rest[0]?.bind continuation?
    return (← charOf? 0x80 ((n - 0xc0) * 64 + b₁), 1)
  else if n < 0xf0 then do
    let b₁ ← rest[0]?.bind continuation?
    let b₂ ← rest[1]?.bind continuation?
    return (← charOf? 0x800 (((n - 0xe0) * 64 + b₁) * 64 + b₂), 2)
  else if n < 0xf8 then do
    let b₁ ← rest[0]?.bind continuation?
    let b₂ ← rest[1]?.bind continuation?
    let b₃ ← rest[2]?.bind continuation?
    return (← charOf? 0x10000 ((((n - 0xf0) * 64 + b₁) * 64 + b₂) * 64 + b₃), 3)
  else none

/-- The characters of a list of bytes, a byte that starts no character read as the replacement
character. -/
def decodeChars : List UInt8 → List Char
  | [] => []
  | b :: rest =>
    match decodeChar? b rest with
    | some (c, n) => c :: decodeChars (rest.drop n)
    | none => replacement :: decodeChars rest
termination_by bytes => bytes.length
decreasing_by
  · simp only [List.length_drop, List.length_cons]; omega
  · simp

/-- The text of a list of bytes. -/
def ofBytes (bytes : List UInt8) : String := String.ofList (decodeChars bytes)

/-- The bytes of a text. -/
def toBytes (s : String) : List UInt8 := s.toList.flatMap String.utf8EncodeChar

end JvmTaint.Text
