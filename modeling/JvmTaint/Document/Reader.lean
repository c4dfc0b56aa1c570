import JvmTaint.Document.Basic
import JvmTaint.Text.Quoted

set_option autoImplicit false
set_option relaxedAutoImplicit false

/-!
# Reading documents

Documents in flow form: mappings in braces, sequences in brackets, strings in double quotes. A
reader takes the characters that remain and returns a value with the characters after it. The
readers of nested values take fuel; the length of the text is enough, since every value takes at
least one character.

## Main definitions

* `JvmTaint.Document.parse?`: the document of a text.
-/

namespace JvmTaint.Document

/-- What remains after white space. -/
def skipBlank (cs : List Char) : List Char :=
  cs.dropWhile fun c => c == ' ' || c == '\n' || c == '\t' || c == '\r'

/-- The code point of a surrogate pair. -/
def joinSurrogates (high low : Nat) : Nat := 0x10000 + (high - 0xd800) * 0x400 + (low - 0xdc00)

/-- Reads the characters of a string after its opening quote, in reverse order. -/
def readString : Nat → List Char → List Char → Option (String × List Char)
  | 0, _, _ => none
  | _ + 1, acc, '"' :: cs => some (String.ofList acc.reverse, cs)
  | fuel + 1, acc, '\\' :: 'u' :: cs =>
    match Text.takeHex? 4 0 cs with
    | none => none
    | some (n, cs) =>
      if 0xd800 ≤ n ∧ n < 0xdc00 then
        match cs with
        | '\\' :: 'u' :: more =>
          match Text.takeHex? 4 0 more with
          | some (m, rest) =>
            if 0xdc00 ≤ m ∧ m < 0xe000 then
              readString fuel (Char.ofNat (joinSurrogates n m) :: acc) rest
            else readString fuel (Text.replacement :: acc) cs
          | none => none
        | _ => readString fuel (Text.replacement :: acc) cs
      else if 0xdc00 ≤ n ∧ n < 0xe000 then readString fuel (Text.replacement :: acc) cs
      else readString fuel (Char.ofNat n :: acc) cs
  | fuel + 1, acc, '\\' :: c :: cs =>
    match c with
    | 'n' => readString fuel ('\n' :: acc) cs
    | 't' => readString fuel ('\t' :: acc) cs
    | 'r' => readString fuel ('\r' :: acc) cs
    | 'b' => readString fuel (Char.ofNat 8 :: acc) cs
    | 'f' => readString fuel (Char.ofNat 12 :: acc) cs
    | c => readString fuel (c :: acc) cs
  | fuel + 1, acc, c :: cs => readString fuel (c :: acc) cs
  | _ + 1, _, [] => none

/-- Whether a character may stand in a number. -/
def isNumeric (c : Char) : Bool :=
  c.isDigit || c == '-' || c == '+' || c == '.' || c == 'e' || c == 'E'

/-- What remains after a given beginning. -/
def dropWord? : List Char → List Char → Option (List Char)
  | [], cs => some cs
  | w :: ws, c :: cs => if w = c then dropWord? ws cs else none
  | _ :: _, [] => none

mutual

/-- Reads a value. -/
def readValue : Nat → List Char → Option (Document × List Char)
  | 0, _ => none
  | fuel + 1, cs =>
    match skipBlank cs with
    | '\x7b' :: cs =>
      match skipBlank cs with
      | '\x7d' :: cs => some (.map [], cs)
      | cs => (readEntries fuel cs).map fun (es, cs) => (.map es, cs)
    | '[' :: cs =>
      match skipBlank cs with
      | ']' :: cs => some (.seq [], cs)
      | cs => (readItems fuel cs).map fun (xs, cs) => (.seq xs, cs)
    | '"' :: cs => (readString (cs.length + 1) [] cs).map fun (s, cs) => (.string s, cs)
    | 't' :: cs => (dropWord? ['r', 'u', 'e'] cs).map fun cs => (.bool true, cs)
    | 'f' :: cs => (dropWord? ['a', 'l', 's', 'e'] cs).map fun cs => (.bool false, cs)
    | 'n' :: cs => (dropWord? ['u', 'l', 'l'] cs).map fun cs => (.null, cs)
    | cs =>
      match cs.takeWhile isNumeric with
      | [] => none
      | digits => some (.number (String.ofList digits), cs.dropWhile isNumeric)

/-- Reads the items of a sequence and its closing bracket. -/
def readItems : Nat → List Char → Option (List Document × List Char)
  | 0, _ => none
  | fuel + 1, cs => do
    let (x, cs) ← readValue fuel cs
    match skipBlank cs with
    | ',' :: cs =>
      let (xs, cs) ← readItems fuel cs
      return (x :: xs, cs)
    | ']' :: cs => return ([x], cs)
    | _ => none

/-- Reads the entries of a mapping and its closing brace. -/
def readEntries : Nat → List Char → Option (List (String × Document) × List Char)
  | 0, _ => none
  | fuel + 1, cs =>
    match skipBlank cs with
    | '"' :: cs => do
      let (k, cs) ← readString (cs.length + 1) [] cs
      match skipBlank cs with
      | ':' :: cs =>
        let (v, cs) ← readValue fuel cs
        match skipBlank cs with
        | ',' :: cs =>
          let (es, cs) ← readEntries fuel cs
          return ((k, v) :: es, cs)
        | '\x7d' :: cs => return ([(k, v)], cs)
        | _ => none
      | _ => none
    | _ => none

end

/-- The document of a text, if the text is one value in flow form. -/
def parse? (text : String) : Option Document :=
  let cs := text.toList
  match readValue (2 * cs.length + 1) cs with
  | some (d, rest) => if (skipBlank rest).isEmpty then some d else none
  | none => none

end JvmTaint.Document
