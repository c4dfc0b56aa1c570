import JvmTaint.Document.Basic
import JvmTaint.Text.Quoted

set_option autoImplicit false
set_option relaxedAutoImplicit false

/-!
# Documents in flow form

A document on one line: mappings in braces, sequences in brackets, strings in double quotes.

## Main definitions

* `JvmTaint.Document.render`: the text of a document.
-/

namespace JvmTaint.Document

/-- A character of a string between quotes. -/
def flowChar (c : Char) : List Char :=
  if c = '"' then ['\\', '"']
  else if c = '\\' then ['\\', '\\']
  else if c.toNat < 0x20 then '\\' :: 'u' :: Text.hexDigits 4 c.toNat
  else [c]

/-- A string in quotes. -/
def flowString (s : String) : String :=
  String.ofList ('"' :: s.toList.flatMap flowChar ++ ['"'])

mutual

/-- The text of a document. -/
def render : Document → String
  | null => "null"
  | bool b => if b then "true" else "false"
  | number text => text
  | string s => flowString s
  | seq items => "[" ++ renderItems items ++ "]"
  | map entries => "\x7b" ++ renderEntries entries ++ "\x7d"

/-- The items of a sequence with commas between them. -/
def renderItems : List Document → String
  | [] => ""
  | [d] => d.render
  | d :: ds => d.render ++ "," ++ renderItems ds

/-- The entries of a mapping with commas between them. -/
def renderEntries : List (String × Document) → String
  | [] => ""
  | [(k, d)] => flowString k ++ ":" ++ d.render
  | (k, d) :: es => flowString k ++ ":" ++ d.render ++ "," ++ renderEntries es

end

end JvmTaint.Document
