import JvmTaint.Text.CaseFold
import JvmTaint.Text.Script

set_option autoImplicit false
set_option relaxedAutoImplicit false

/-!
# Character classes of patterns

## Main definitions

* `JvmTaint.ClassItem`, `JvmTaint.CharClass`: a class is a union of items, or the complement of one.
* `JvmTaint.CharClass.holds`: whether a character is in a class.
* `JvmTaint.ClassItem.posix?`, `JvmTaint.ClassItem.escape?`, `JvmTaint.ClassItem.unicode?`: the
  classes with names.
-/

namespace JvmTaint

/-- A part of a character class. -/
structure ClassItem where
  runs : List Text.Run
  /-- Whether the item holds the characters outside its runs. -/
  negated : Bool := false
  /-- Whether the case variants of the characters of the runs count as in the runs. -/
  folded : Bool := false
  deriving DecidableEq, Repr, Inhabited

/-- A set of characters. -/
structure CharClass where
  items : List ClassItem
  /-- Whether the class holds the characters outside its items. -/
  negated : Bool := false
  deriving DecidableEq, Repr, Inhabited

namespace ClassItem

/-- Whether a character is in the item. -/
def holds (i : ClassItem) (c : Char) : Bool :=
  let inRuns (n : Nat) := i.runs.any (·.contains n)
  let found := if i.folded then (Text.caseVariants c.toNat).any inRuns else inRuns c.toNat
  found != i.negated

/-- The runs of the classes `[:name:]`. -/
def posixTable : List (String × String) := [
  ("alnum", "30-39 41-5a 61-7a"), ("alpha", "41-5a 61-7a"), ("ascii", "0-7f"), ("blank", "9 20"),
  ("cntrl", "0-1f 7f"), ("digit", "30-39"), ("graph", "21-7e"), ("lower", "61-7a"),
  ("print", "20-7e"), ("punct", "21-2f 3a-40 5b-60 7b-7e"), ("space", "9-d 20"),
  ("upper", "41-5a"), ("word", "30-39 41-5a 5f 61-7a"), ("xdigit", "30-39 41-46 61-66")]

/-- The class `[:name:]`; a `^` before the name negates it. -/
def posix? (name : List Char) (folded : Bool) : Option ClassItem :=
  let (negated, name) := match name with
    | '^' :: rest => (true, rest)
    | _ => (false, name)
  (posixTable.lookup (String.ofList name)).map fun runs =>
    { runs := Text.Run.readAll runs, negated, folded }

/-- The class of the escapes for digits, blanks and word characters; a capital letter negates it. -/
def escape? (c : Char) (folded : Bool) : Option ClassItem :=
  let runs? := match c.toLower with
    | 'd' => some "30-39"
    | 's' => some "9-a c-d 20"
    | 'w' => some "30-39 41-5a 5f 61-7a"
    | _ => none
  runs?.map fun runs => { runs := Text.Run.readAll runs, negated := c.isUpper, folded }

/-- The runs of a general category or a script, by its name. -/
def unicodeRuns? (name : String) : Option (List Text.Run) :=
  ((Text.category? name).orElse fun _ => Text.script? name).orElse fun _ =>
    (Text.categoryAlias? name).bind Text.category?

/-- The class of a general category or a script; a `^` before the name negates it. The names `Any`,
`ASCII` and `Assigned` stand for all code points, those of ASCII, and those that have a
character. -/
def unicode? (name : List Char) (negated folded : Bool) : Option ClassItem :=
  let (negated, name) := match name with
    | '^' :: rest => (!negated, String.ofList rest)
    | _ => (negated, String.ofList name)
  let key := Text.looseName name
  if key == "any" then some { runs := [{ first := 0, last := 0x10ffff }], negated, folded }
  else if key == "ascii" then some { runs := [{ first := 0, last := 0x7f }], negated, folded }
  else if key == "assigned" then
    (Text.category? "Cn").map fun runs => { runs, negated := !negated, folded }
  else (unicodeRuns? name).map fun runs => { runs, negated, folded }

end ClassItem

/-- Whether a character is in a class. -/
def CharClass.holds (k : CharClass) (c : Char) : Bool :=
  k.items.any (·.holds c) != k.negated

/-- The class of one code point. -/
def CharClass.single (n : Nat) (folded : Bool) : CharClass :=
  { items := [{ runs := [{ first := n, last := n }], folded }] }

end JvmTaint
