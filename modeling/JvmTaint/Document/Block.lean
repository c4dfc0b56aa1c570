import JvmTaint.Document.Scalar

set_option autoImplicit false
set_option relaxedAutoImplicit false

/-!
# Block text

Documents as people read them: one entry of a mapping or item of a sequence per line, nested values
indented by two.

## Main definitions

* `JvmTaint.Block`: a value to be written.
* `JvmTaint.Block.render`: its text.
* `JvmTaint.Block.firstRefused`: the first value that a rule refuses, with its line.
-/

namespace JvmTaint

/-- A value to be written as block text. -/
inductive Block where
  | null
  | bool (b : Bool)
  /-- A number, written by its digits. -/
  | int (n : Int)
  | text (s : String)
  | seq (items : List Block)
  | map (entries : List (String × Block))
  deriving Inhabited

namespace Block

/-- The number of columns by which nested values are indented. -/
def step : Nat := 2

/-- Spaces up to a column. -/
def pad (column : Nat) : String := "".pushn ' ' column

/-- Ends a line that does not end yet. -/
def endLine (s : String) : String :=
  match s.toList.getLast? with
  | some c => if Scalar.isBreak c then s else s.push '\n'
  | none => "\n"

/-- The text of a truth value. -/
def boolText (b : Bool) : String := if b then "true" else "false"

mutual

/-- The text of a value after its key at `column`, up to the end of its last line. -/
def afterKey (column : Nat) : Block → String
  | null => " null\n"
  | bool b => " " ++ boolText b ++ "\n"
  | int n => " " ++ toString n ++ "\n"
  | text s => " " ++ endLine (Scalar.write step (column + step) s)
  | seq [] => " []\n"
  | seq (b :: bs) => "\n" ++ items (column + step) (b :: bs)
  | map [] => " \x7b\x7d\n"
  | map (e :: es) => "\n" ++ entries (column + step) true (e :: es)

/-- The items of a sequence whose dashes stand at `column`. -/
def items (column : Nat) : List Block → String
  | [] => ""
  | b :: bs => pad column ++ "-" ++ item column b ++ items column bs

/-- The text of an item after its dash at `column`. -/
def item (column : Nat) : Block → String
  | null => " null\n"
  | bool b => " " ++ boolText b ++ "\n"
  | int n => " " ++ toString n ++ "\n"
  | text s => " " ++ endLine (Scalar.write step (column + step) s)
  | seq [] => " []\n"
  | seq (b :: bs) => "\n" ++ items (column + step) (b :: bs)
  | map [] => " \x7b\x7d\n"
  | map (e :: es) => " " ++ entries (column + step) false (e :: es)

/-- The entries of a mapping whose keys stand at `column`; the first one is padded if `fresh`. -/
def entries (column : Nat) (fresh : Bool) : List (String × Block) → String
  | [] => ""
  | (k, b) :: es =>
    (if fresh then pad column else "") ++ k ++ ":" ++ afterKey column b ++ entries column true es

end

/-- The text of a value. -/
def render : Block → String
  | null => "null\n"
  | bool b => boolText b ++ "\n"
  | int n => toString n ++ "\n"
  | text s => endLine (Scalar.write step step s)
  | seq [] => "[]\n"
  | seq bs => items 0 bs
  | map [] => "\x7b\x7d\n"
  | map es => entries 0 true es

/-! ## Lines -/

/-- The number of lines that a text ends. -/
def lineCount (s : String) : Nat := s.toList.countP Scalar.isBreak

mutual

/-- The first value, in the order of the text, that `refuse` has a reason against, with the line on
which the value starts. `line` is the line of the key or dash before the value `b`. -/
def firstRefused (refuse : String → Block → Option String) (line column : Nat) :
    Block → Option (Nat × String)
  | seq bs => firstRefusedItem refuse line column bs
  | map es => firstRefusedEntry refuse line column es
  | _ => none

/-- The first refused value of the items of a sequence that starts on `line`. -/
def firstRefusedItem (refuse : String → Block → Option String) (line column : Nat) :
    List Block → Option (Nat × String)
  | [] => none
  | b :: bs =>
    (firstRefused refuse line (column + step) b).orElse fun _ =>
      firstRefusedItem refuse (line + lineCount (item column b)) column bs

/-- The first refused value of the entries of a mapping that starts on `line`. -/
def firstRefusedEntry (refuse : String → Block → Option String) (line column : Nat) :
    List (String × Block) → Option (Nat × String)
  | [] => none
  | (k, b) :: es =>
    let start := match b with
      | seq (_ :: _) | map (_ :: _) => line + 1
      | _ => line
    match refuse k b with
    | some reason => some (start, reason)
    | none =>
      (firstRefused refuse start (column + step) b).orElse fun _ =>
        firstRefusedEntry refuse (line + lineCount (afterKey column b)) column es

end

end Block

end JvmTaint
