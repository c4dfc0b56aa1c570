import JvmTaint.Text.Quoted

set_option autoImplicit false
set_option relaxedAutoImplicit false

/-!
# Texts for people

## Main definitions

* `JvmTaint.Text.sanitize`: a text with its control characters made visible.
* `JvmTaint.Text.Word`, `JvmTaint.Text.joinWords`: texts and numbers side by side.
* `JvmTaint.Text.holds`: whether a text occurs in another.
-/

namespace JvmTaint.Text

/-- A text as it stands between quotes. -/
def sanitize (s : String) : String := String.ofList ((quote s).toList.tail.dropLast)

/-- A class name with dots between its parts. -/
def dottedName (cls : String) : String :=
  String.ofList (cls.toList.map fun c => if c = '/' then '.' else c)

/-- A text or a number. -/
inductive Word where
  | text (s : String)
  | number (n : Int)
  deriving DecidableEq, Repr, Inhabited

/-- The text of a word. -/
def Word.render : Word → String
  | text s => s
  | number n => toString n

/-- Words side by side. A space stands between two numbers only. -/
def joinWords : List Word → String
  | [] => ""
  | [w] => w.render
  | .number n :: .number m :: ws => toString n ++ " " ++ joinWords (.number m :: ws)
  | w :: ws => w.render ++ joinWords ws

/-- Whether `part` occurs in a list of characters. -/
def holdsChars (part : List Char) : List Char → Bool
  | [] => part.isEmpty
  | c :: cs => part.isPrefixOf (c :: cs) || holdsChars part cs

/-- Whether `part` occurs in a text. -/
def holds (s part : String) : Bool := holdsChars part.toList s.toList

end JvmTaint.Text
