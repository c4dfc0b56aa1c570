import JvmTaint.Document.Basic
import JvmTaint.Text.Utf8

set_option autoImplicit false
set_option relaxedAutoImplicit false

/-!
# Giving documents a meaning

Decoders from documents to records. A value of the wrong type is noted and decoding goes on, so
that one error reports every mismatch of a document; a value that a domain rule refuses stops at
once. A decoder returns `none` when the value leaves what it would set as it was: a null, or a
mismatch. Such an element of a list is left out.

## Main definitions

* `JvmTaint.Mismatch`: a value that does not fit.
* `JvmTaint.DecodeError`: why a document has no meaning, with its message.
* `JvmTaint.Decoder`: decoding with noted mismatches, and `Decoder.run`.
* `JvmTaint.Decoder.textAs`, `Decoder.int`, `Decoder.bool`, `Decoder.list`, `Decoder.record`: the
  decoders of the basic types.
-/

namespace JvmTaint

/-- A value that does not fit where it stands. -/
inductive Mismatch where
  /-- A value with this tag, shown by its text unless it is a collection, where a value of type
  `target` is wanted. -/
  | wrongType (tag : String) (shown : Option String) (target : String)
  /-- A key that the record of type `type` does not have. -/
  | unknownField (name type : String)

/-- The text of a scalar in a message: a long one is cut after seven bytes. -/
def shorten (s : String) : String :=
  let bytes := Text.toBytes s
  if bytes.length > 10 then Text.ofBytes (bytes.take 7) ++ "..." else s

/-- The message of a mismatch. Documents are one line of text. -/
def Mismatch.message : Mismatch → String
  | wrongType tag shown target =>
    let value := match shown with
      | none => ""
      | some s => " `" ++ shorten s ++ "`"
    "line 1: cannot unmarshal " ++ tag ++ value ++ " into " ++ target
  | unknownField name type => "line 1: field " ++ name ++ " not found in type " ++ type

/-- Why a document has no meaning. -/
inductive DecodeError where
  /-- There is no document. -/
  | empty
  /-- The text is no document. -/
  | malformed
  /-- A tab stands in the indentation of the literal block that starts on this line. -/
  | misplacedTab (line : Nat)
  /-- Values of the wrong type, in document order. -/
  | mismatches (ms : List Mismatch)
  /-- A value on this line that a rule of the domain refuses. -/
  | refused (line : Nat) (reason : String)

/-- The message of a decoding error. -/
def DecodeError.message : DecodeError → String
  | empty => "EOF"
  | malformed => "yaml: could not find expected node"
  | misplacedTab line =>
    "yaml: line " ++ toString line ++
      ": found a tab character where an indentation space is expected"
  | mismatches ms =>
    "yaml: unmarshal errors:\n  " ++ "\n  ".intercalate (ms.map Mismatch.message)
  | refused line reason => "line " ++ toString line ++ ": " ++ reason

/-- Decoding: the mismatches found so far, and a refusal that ends it. -/
abbrev Decoder (α : Type) := StateT (List Mismatch) (Except String) α

namespace Decoder

/-- Notes a mismatch. -/
def note {α : Type} (m : Mismatch) : Decoder (Option α) := do
  modify (· ++ [m])
  return none

/-- Stops decoding. -/
def refuse {α : Type} (reason : String) : Decoder α := throw reason

/-- The outcome of a decoder. -/
def run {α : Type} (d : Decoder α) : Except DecodeError α :=
  match StateT.run d [] with
  | .error reason => .error (.refused 1 reason)
  | .ok (a, []) => .ok a
  | .ok (_, ms) => .error (.mismatches ms)

/-- The tag of a value that is not null, and its text if it is a scalar. -/
def describe : Document → String × Option String
  | .null => ("!!null", some "null")
  | .bool b => ("!!bool", some (if b then "true" else "false"))
  | .number t =>
    match NumberForm.ofText t with
    | .integer _ => ("!!int", some t)
    | .float _ => ("!!float", some t)
    | .overflow => ("!!str", some t)
  | .string s => ("!!str", some s)
  | .seq _ => ("!!seq", none)
  | .map _ => ("!!map", none)

/-- Notes that a value is not of type `target`. -/
def wrongType {α : Type} (target : String) (d : Document) : Decoder (Option α) :=
  let (tag, shown) := describe d
  note (.wrongType tag shown target)

/-- A text of the type named `target`; a number or a truth value stands for its own text. -/
def textAs (target : String) (d : Document) : Decoder (Option String) :=
  match d with
  | .null => return none
  | .string s => return some s
  | .number t => return some t
  | .bool b => return some (if b then "true" else "false")
  | d => wrongType target d

/-- A text. -/
def string : Document → Decoder (Option String) := textAs "string"

/-- An integer between `least` and `most`, of the type named `target`. A number with a fraction
loses it. -/
def int (target : String) (least most : Int) (d : Document) : Decoder (Option Int) :=
  match d with
  | .null => return none
  | .number t =>
    let fit (n : Int) : Decoder (Option Int) :=
      if least ≤ n ∧ n ≤ most then return some n else wrongType target d
    match NumberForm.ofText t with
    | .integer n => fit n
    | .float x =>
      if x ≤ 9223372036854775808.0 then fit (NumberForm.truncate x) else wrongType target d
    | .overflow => wrongType target d
  | d => wrongType target d

/-- A 64-bit integer of the type named `target`. -/
def int64 (target : String) : Document → Decoder (Option Int) :=
  int target NumberForm.minInt64 NumberForm.maxInt64

/-- A truth value, or one of the words that stand for one. -/
def bool (d : Document) : Decoder (Option Bool) :=
  match d with
  | .null => return none
  | .bool b => return some b
  | .string s =>
    if ["y", "Y", "yes", "Yes", "YES", "on", "On", "ON"].contains s then return some true
    else if ["n", "N", "no", "No", "NO", "off", "Off", "OFF"].contains s then return some false
    else wrongType "bool" d
  | d => wrongType "bool" d

/-- The elements that decode, in order. -/
def elements {α : Type} (element : Document → Decoder (Option α)) : List Document → Decoder (List α)
  | [] => return []
  | d :: ds => do
    match ← element d with
    | some a => return a :: (← elements element ds)
    | none => elements element ds

/-- A list of the type named `target`; null is the empty list. -/
def list {α : Type} (target : String) (element : Document → Decoder (Option α)) (d : Document) :
    Decoder (Option (List α)) :=
  match d with
  | .null => return some []
  | .seq items => return some (← elements element items)
  | d => wrongType target d

/-- A value that may be null. -/
def nullable {α : Type} (value : Document → Decoder (Option α)) (d : Document) :
    Decoder (Option (Option α)) :=
  match d with
  | .null => return some none
  | d => return (← value d).map some

/-- Sets the fields of a record from the entries of a mapping, in order. `field` gives for a key the
decoder that sets it; a key without one is a mismatch if `strict`. -/
def fields {α : Type} (target : String) (strict : Bool)
    (field : String → Option (α → Document → Decoder α)) :
    List (String × Document) → α → Decoder α
  | [], a => return a
  | (key, value) :: rest, a => do
    match field key with
    | some set => fields target strict field rest (← set a value)
    | none =>
      if strict then
        modify (· ++ [.unknownField key target])
      fields target strict field rest a

/-- A record of the type named `target` that starts as `start`. -/
def record {α : Type} (target : String) (strict : Bool) (start : α)
    (field : String → Option (α → Document → Decoder α)) (d : Document) : Decoder (Option α) :=
  match d with
  | .null => return none
  | .map entries => return some (← fields target strict field entries start)
  | d => wrongType target d

/-- The setter of a field from its decoder: nothing changes where the decoder has no value. -/
def setter {α β : Type} (decode : Document → Decoder (Option β)) (set : α → β → α) :
    Option (α → Document → Decoder α) :=
  some fun a d => do
    match ← decode d with
    | some b => return set a b
    | none => return a

end Decoder

end JvmTaint
