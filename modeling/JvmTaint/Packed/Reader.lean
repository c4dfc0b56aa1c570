import JvmTaint.Packed.Writer
import JvmTaint.Text.Quoted

set_option autoImplicit false
set_option relaxedAutoImplicit false

/-!
# Reading packed values

Readers take the bytes that remain and return a value with the bytes after it. A number is read in
any of its forms. Records are maps from field names to values, in any order and with unknown fields
skipped, or arrays of all their fields in order. A field that comes twice is read into the value
that it has: the fields of a record and the items of a list that are not given again stay.

## Main definitions

* `JvmTaint.PackedError`: why bytes are no packed value.
* `JvmTaint.Packed.Reader`: a reader, and `JvmTaint.Packed.Updater`: a reader into a value.
* `JvmTaint.Packed.readInt`, `JvmTaint.Packed.readText`, `JvmTaint.Packed.readList`,
  `JvmTaint.Packed.readRecord`: the readers of the basic types.
-/

namespace JvmTaint

/-- Why bytes are no packed value. -/
inductive PackedError where
  /-- The bytes end where a value should start. -/
  | ended
  /-- The bytes end within a value. -/
  | endedWithin
  /-- A code of another kind of value. -/
  | invalidCode (code : UInt8) (wanted : String)
  /-- A code that is neither a map nor an array where a record is wanted. -/
  | notRecord (code : UInt8)
  /-- An array of another length than the record has fields. -/
  | fieldCount
  /-- A code that no value has. -/
  | unknownCode (code : UInt8)
  deriving DecidableEq, Repr

/-- A number in base 16 without leading zeros. -/
def PackedError.hex (b : UInt8) : String :=
  String.ofList (if b < 16 then Text.hexDigits 1 b.toNat else Text.hexDigits 2 b.toNat)

/-- The message of a reading error. -/
def PackedError.message : PackedError → String
  | ended => "EOF"
  | endedWithin => "unexpected EOF"
  | invalidCode c wanted => "msgpack: invalid code=" ++ hex c ++ " decoding " ++ wanted
  | notRecord c => "msgpack: unexpected code=" ++ hex c ++ " decoding map length"
  | fieldCount => "msgpack: number of fields in array-encoded struct has changed"
  | unknownCode c => "msgpack: unknown code " ++ hex c

namespace Packed

/-- A reader of packed values. -/
abbrev Reader (α : Type) := StateT Bytes (Except PackedError) α

/-- A reader into the value that there is. -/
abbrev Updater (α : Type) := α → Reader α

/-- The next byte. -/
def readByte : Reader UInt8 := fun
  | [] => .error .ended
  | b :: bs => .ok (b, bs)

/-- The next `n` bytes. -/
def readBytes (n : Nat) : Reader Bytes := fun bs =>
  if n = 0 then .ok ([], bs)
  else if bs.isEmpty then .error .ended
  else
    let taken := bs.take n
    if taken.length < n then .error .endedWithin else .ok (taken, bs.drop n)

/-- The number of some bytes, the highest first. -/
def ofBigEndian (bs : Bytes) : Nat := bs.foldl (fun n b => n * 256 + b.toNat) 0

/-- A number of `width` bytes. -/
def readNat (width : Nat) : Reader Nat := return ofBigEndian (← readBytes width)

/-- The signed integer of `width` bytes with the same bits as a number. -/
def toSigned (width : Nat) (n : Nat) : Int :=
  if n < Nat.pow 256 width / 2 then n else (n : Int) - (Nat.pow 256 width : Nat)

/-- Whether a code is an integer by itself. -/
def isFixedInt (c : UInt8) : Bool := decide (c.toNat ≤ 0x7f ∨ 0xe0 ≤ c.toNat)

/-- An integer after its code, as a signed 64-bit word; an absent one is zero. -/
def readIntAfter (wanted : String) (c : UInt8) : Reader Int := do
  if isFixedInt c then return toSigned 1 c.toNat
  match c.toNat with
  | 0xc0 => return 0
  | 0xcc => return (← readNat 1)
  | 0xcd => return (← readNat 2)
  | 0xce => return (← readNat 4)
  | 0xcf => return toSigned 8 (← readNat 8)
  | 0xd0 => return toSigned 1 (← readNat 1)
  | 0xd1 => return toSigned 2 (← readNat 2)
  | 0xd2 => return toSigned 4 (← readNat 4)
  | 0xd3 => return toSigned 8 (← readNat 8)
  | _ => throw (.invalidCode c wanted)

/-- An integer, as a signed 64-bit word. -/
def readInt : Reader Int := do readIntAfter "int64" (← readByte)

/-- An integer, as a signed 32-bit word. -/
def readInt32 : Reader Int := return Int.bmod (← readInt) 4294967296

/-- An integer, as a byte. -/
def readUInt8 : Reader UInt8 := do
  let n ← readIntAfter "uint64" (← readByte)
  return UInt8.ofNat (n % 256).toNat

/-- The length of a text or of bytes after its code; an absent text is empty. -/
def textLength (c : UInt8) : Reader Nat := do
  if 0xa0 ≤ c.toNat ∧ c.toNat ≤ 0xbf then return c.toNat - 0xa0
  match c.toNat with
  | 0xc0 => return 0
  | 0xd9 | 0xc4 => readNat 1
  | 0xda | 0xc5 => readNat 2
  | 0xdb | 0xc6 => readNat 4
  | _ => throw (.invalidCode c "string/bytes length")

/-- A text. -/
def readText : Reader String := do
  return Text.ofBytes (← readBytes (← textLength (← readByte)))

/-- The length of an array after its code; `none` if it is absent. -/
def arrayLength (c : UInt8) : Reader (Option Nat) := do
  if 0x90 ≤ c.toNat ∧ c.toNat ≤ 0x9f then return some (c.toNat - 0x90)
  match c.toNat with
  | 0xc0 => return none
  | 0xdc => return some (← readNat 2)
  | 0xdd => return some (← readNat 4)
  | _ => throw (.invalidCode c "array length")

/-- The number of entries of a map after its code; `none` if it is absent. -/
def mapLength (c : UInt8) : Reader (Option Nat) := do
  if 0x80 ≤ c.toNat ∧ c.toNat ≤ 0x8f then return some (c.toNat - 0x80)
  match c.toNat with
  | 0xc0 => return none
  | 0xde => return some (← readNat 2)
  | 0xdf => return some (← readNat 4)
  | _ => throw (.notRecord c)

/-- `n` values, read into the first ones of a list and then into `zero`. -/
def readMany {α : Type} (zero : α) (value : Updater α) : Nat → List α → Reader (List α)
  | 0, _ => return []
  | n + 1, current => do
    let a ← value (current.headD zero)
    return a :: (← readMany zero value n current.tail)

/-- A list, read into the one that there is; `none` if it is absent. -/
def readList {α : Type} (zero : α) (value : Updater α) : Updater (Option (List α)) :=
  fun current => do
    match ← arrayLength (← readByte) with
    | none => return none
    | some n => return some (← readMany zero value n (current.getD []))

/-- A list of texts, which replaces the one that there is unless it is absent. -/
def readTexts : Updater (List String) := fun current => do
  match ← arrayLength (← readByte) with
  | none => return current
  | some n => readMany "" (fun _ => readText) n []

/-- A value that may be absent. -/
def readNullable {α : Type} (zero : α) (value : Updater α) : Updater (Option α) := fun current => do
  match ← get with
  | 0xc0 :: rest =>
    set rest
    return none
  | _ => return some (← value (current.getD zero))

/-- The number of bytes after the code of an extension value, if `c` is one of fixed size. -/
def extensionSize (c : Nat) : Option Nat :=
  match c with
  | 0xd4 => some 1
  | 0xd5 => some 2
  | 0xd6 => some 4
  | 0xd7 => some 8
  | 0xd8 => some 16
  | _ => none

/-- Skips `n` values; the fuel bounds the number of bytes and the nesting. -/
def skipMany : Nat → Nat → Reader Unit
  | _, 0 => return ()
  | 0, _ + 1 => throw .ended
  | fuel + 1, n + 1 => do
    let c ← readByte
    let code := c.toNat
    let skip (k : Nat) : Reader Unit := do let _ ← readBytes k
    let nested : Nat ←
      if isFixedInt c then pure 0
      else if 0x80 ≤ code ∧ code ≤ 0x8f then pure (2 * (code - 0x80))
      else if 0x90 ≤ code ∧ code ≤ 0x9f then pure (code - 0x90)
      else if 0xa0 ≤ code ∧ code ≤ 0xbf then do skip (code - 0xa0); pure 0
      else match code with
        | 0xc0 | 0xc2 | 0xc3 => pure 0
        | 0xcc | 0xd0 => do skip 1; pure 0
        | 0xcd | 0xd1 => do skip 2; pure 0
        | 0xce | 0xd2 | 0xca => do skip 4; pure 0
        | 0xcf | 0xd3 | 0xcb => do skip 8; pure 0
        | 0xd9 | 0xda | 0xdb | 0xc4 | 0xc5 | 0xc6 => do skip (← textLength c); pure 0
        | 0xdc => readNat 2
        | 0xdd => readNat 4
        | 0xde => pure (2 * (← readNat 2))
        | 0xdf => pure (2 * (← readNat 4))
        | 0xc7 => do skip ((← readNat 1) + 1); pure 0
        | 0xc8 => do skip ((← readNat 2) + 1); pure 0
        | 0xc9 => do skip ((← readNat 4) + 1); pure 0
        | _ =>
          match extensionSize code with
          | some k => do skip (k + 1); pure 0
          | none => throw (.unknownCode c)
    skipMany fuel (nested + n)

/-- Skips one value. -/
def skipValue : Reader Unit := do
  let bytes ← get
  skipMany (bytes.length + 1) 1

/-- A field of a record: its name and the reader that sets it. -/
abbrev KeyReader (α : Type) := String × Updater α

/-- Sets fields from `n` entries, skipping unknown ones. -/
def readEntries {α : Type} (fields : List (KeyReader α)) : Nat → α → Reader α
  | 0, a => return a
  | n + 1, a => do
    let name ← readText
    match fields.lookup name with
    | some set => readEntries fields n (← set a)
    | none =>
      skipValue
      readEntries fields n a

/-- The length of an array where a record is wanted. If it cannot be read, the code is reported. -/
def recordLength (c : UInt8) : Reader Nat := fun bs =>
  match (arrayLength c).run bs with
  | .ok (n, rest) => .ok (n.getD 0, rest)
  | .error _ => .error (.notRecord c)

/-- A record, read into the one that there is: a map from field names, or an array of all the
fields. An absent record and an empty array are `zero`. The `groups` are keys of a map that stand
for several fields at once. -/
def readRecordWith {α : Type} (zero : α) (fields groups : List (KeyReader α)) : Updater α :=
    fun current => do
  let c ← readByte
  if (0x90 ≤ c.toNat ∧ c.toNat ≤ 0x9f) ∨ c.toNat = 0xdc ∨ c.toNat = 0xdd then
    match ← recordLength c with
    | 0 => return zero
    | n =>
      if n = fields.length then fields.foldlM (fun a (_, set) => set a) current
      else throw .fieldCount
  else
    match ← mapLength c with
    | none => return zero
    | some n => readEntries (fields ++ groups) n current

/-- A record whose keys are its fields. -/
def readRecord {α : Type} (zero : α) (fields : List (KeyReader α)) : Updater α :=
  readRecordWith zero fields []

end Packed

end JvmTaint
