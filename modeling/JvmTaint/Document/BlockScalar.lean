import JvmTaint.Document.Cursor
import JvmTaint.Document.Decoder
import JvmTaint.Document.Reader

set_option autoImplicit false
set_option relaxedAutoImplicit false

/-!
# Reading scalars of block text

A scalar is plain, in quotes or a literal block; a value in flow form may stand on one line. In
single quotes a line end is folded: a line feed becomes a space, a separator of lines or paragraphs
stays, and the blank space around it is dropped. The lines of a literal block are taken as they
are, without their indentation.

## Main definitions

* `JvmTaint.BlockText.plainValue`: the value of a plain scalar.
* `JvmTaint.BlockText.readDouble`, `JvmTaint.BlockText.readSingle`: text in quotes.
* `JvmTaint.BlockText.readLiteral`: a literal block.
* `JvmTaint.BlockText.readScalar`: a scalar, or a value in flow form.
-/

namespace JvmTaint.BlockText

/-! ## Plain scalars -/

/-- A text without the spaces that it ends with. -/
def trimRight (cs : List Char) : List Char := (cs.reverse.dropWhile (· == ' ')).reverse

/-- A plain scalar up to a comment. -/
def cutComment : List Char → List Char
  | [] => []
  | ' ' :: '#' :: _ => []
  | c :: cs => c :: cutComment cs

/-- Whether a plain scalar is a decimal number. -/
def isNumber (cs : List Char) : Bool :=
  let digits := match cs with
    | '-' :: ds => ds
    | ds => ds
  Scalar.isDecimal cs && cs.head? != some '+' &&
    match digits with
    | '0' :: d :: _ => !d.isDigit
    | _ => true

/-- The value of a plain scalar: nothing, a truth value, a decimal number or a text. -/
def plainValue (cs : List Char) : Document :=
  let text := String.ofList cs
  if ["", "~", "null", "Null", "NULL"].contains text then .null
  else if ["true", "True", "TRUE"].contains text then .bool true
  else if ["false", "False", "FALSE"].contains text then .bool false
  else if isNumber cs then .number text
  else .string text

/-! ## Text in quotes -/

/-- The character of a one-letter escape. -/
def escaped? : Char → Option Char
  | '0' => some '\x00'
  | 'a' => some '\x07'
  | 'b' => some '\x08'
  | 't' => some '\t'
  | 'n' => some '\n'
  | 'v' => some '\x0b'
  | 'f' => some '\x0c'
  | 'r' => some '\r'
  | 'e' => some '\x1b'
  | 'N' => some '\x85'
  | '_' => some '\xa0'
  | 'L' => some '\u2028'
  | 'P' => some '\u2029'
  | '"' => some '"'
  | '\\' => some '\\'
  | '/' => some '/'
  | ' ' => some ' '
  | _ => none

/-- The number of digits of an escape by code point. -/
def escapeWidth? : Char → Option Nat
  | 'x' => some 2
  | 'u' => some 4
  | 'U' => some 8
  | _ => none

/-- The text up to a closing double quote, after the characters in `acc`, last first, and the place
after the quote. -/
def readDouble : Nat → List Char → Cursor → Option (List Char × Cursor)
  | 0, _, _ => none
  | fuel + 1, acc, c =>
    match c.rest with
    | [] => none
    | '"' :: _ => some (acc.reverse, c.advance)
    | '\\' :: x :: cs =>
      let next := c.advance.advance
      match escapeWidth? x with
      | some width => do
        let (n, rest) ← Text.takeHex? width 0 cs
        readDouble fuel (Char.ofNat n :: acc) { next with rest, column := next.column + width }
      | none => do readDouble fuel ((← escaped? x) :: acc) next
    | x :: _ => readDouble fuel (x :: acc) c.advance

/-- Blank space inside quotes: what it stands for, and the place after it. `spaces` holds the blanks
and `breaks` the line ends so far; blanks count only if no line ends. -/
def readFold : Nat → List Char → List Char → Cursor → List Char × Cursor
  | 0, _, _, c => ([], c)
  | fuel + 1, spaces, breaks, c =>
    let folded := match breaks with
      | [] => spaces
      | ['\n'] => [' ']
      | '\n' :: more => more
      | _ => breaks
    match c.rest with
    | [] => (folded, c)
    | x :: _ =>
      if x == ' ' || x == '\t' then readFold fuel (spaces ++ [x]) breaks c.advance
      else if c.atBreak then readFold fuel [] (breaks ++ c.breakText) c.advance
      else (folded, c)

/-- The text up to a closing single quote, after the characters in `acc`, last first, and the place
after the quote. -/
def readSingle : Nat → List Char → Cursor → Option (List Char × Cursor)
  | 0, _, _ => none
  | fuel + 1, acc, c =>
    match c.rest with
    | [] => none
    | '\'' :: '\'' :: _ => readSingle fuel ('\'' :: acc) c.advance.advance
    | '\'' :: _ => some (acc.reverse, c.advance)
    | x :: _ =>
      if x == ' ' || x == '\t' || c.atBreak then
        let (folded, next) := readFold fuel [] [] c
        readSingle fuel (folded.reverse ++ acc) next
      else readSingle fuel (x :: acc) c.advance

/-! ## Literal blocks -/

/-- What becomes of the line ends after the last line of a literal block. -/
inductive Chomp where
  /-- All but one are dropped. -/
  | clip
  /-- All are dropped. -/
  | strip
  /-- All are kept. -/
  | keep
  deriving DecidableEq, Repr

/-- The header of a literal block: its indentation if it is given, and what becomes of the final
line ends. -/
def literalHeader? : List Char → Option (Option Nat × Chomp)
  | [] => some (none, .clip)
  | ['-'] => some (none, .strip)
  | ['+'] => some (none, .keep)
  | d :: cs =>
    if d.isDigit then
      match cs with
      | [] => some (some (digitsValue [d]), .clip)
      | ['-'] => some (some (digitsValue [d]), .strip)
      | ['+'] => some (some (digitsValue [d]), .keep)
      | _ => none
    else none

/-- The line ends of empty lines, after those in `breaks`, the greatest column of their
indentations and that of the line after them, and the place after that indentation. A tab in an
indentation is refused; `start` is the line of the block. An indentation of zero is not yet
known. -/
def readBreaks (start indent : Nat) :
    Nat → List Char → Nat → Cursor → Except DecodeError (List Char × Nat × Cursor)
  | 0, breaks, widest, c => .ok (breaks, widest, c)
  | fuel + 1, breaks, widest, c =>
    let inside (column : Nat) : Bool := indent == 0 || decide (column < indent)
    let c := c.skipSpaces inside (fuel + 1)
    let widest := max widest c.column
    if inside c.column && c.rest.head? == some '\t' then .error (.misplacedTab start)
    else if c.atBreak then readBreaks start indent fuel (breaks ++ c.breakText) widest c.advance
    else .ok (breaks, widest, c)

/-- The lines of a literal block with an indentation, after the characters in `acc`. `final` is the
end of the last line, `breaks` those of the empty lines after it. -/
def readLines (start indent : Nat) (chomp : Chomp) :
    Nat → List Char → List Char → List Char → Cursor → Except DecodeError (List Char × Cursor)
  | 0, acc, _, _, c => .ok (acc, c)
  | fuel + 1, acc, final, breaks, c =>
    if c.column = indent ∧ !c.rest.isEmpty then do
      let acc := acc ++ final ++ breaks ++ c.lineRest
      let c := c.skipLine
      let (breaks, _, next) ← readBreaks start indent fuel [] 0 c.advance
      readLines start indent chomp fuel acc c.breakText breaks next
    else
      .ok (match chomp with
        | .strip => acc
        | .clip => acc ++ final
        | .keep => acc ++ final ++ breaks, c)

/-- A literal block inside a value that stands at a column, at its bar, and the place after it. -/
def readLiteral (fuel parent : Nat) (c : Cursor) : Except DecodeError (Document × Cursor) := do
  let header := trimRight (cutComment (c.lineRest.drop 1))
  let some (hint, chomp) := literalHeader? header | throw .malformed
  let given := match hint with
    | some n => parent + n
    | none => 0
  let (breaks, widest, next) ← readBreaks c.line given fuel [] 0 c.skipLine.advance
  let indent := if given = 0 then max widest (parent + 1) else given
  let (text, next) ← readLines c.line indent chomp fuel [] [] breaks next
  return (.string (String.ofList text), next)

/-! ## Any scalar -/

/-- A text in quotes that ends at `c`, where nothing else may follow on the line. -/
def quotedValue (text : List Char) (c : Cursor) : Except DecodeError (Document × Cursor) :=
  match c.lineRest.dropWhile (· == ' ') with
  | [] => .ok (.string (String.ofList text), c)
  | x :: _ => if x == '#' then .ok (.string (String.ofList text), c) else .error .malformed

/-- A scalar, or a value in flow form, inside a value that stands at a column. -/
def readScalar (fuel parent : Nat) (c : Cursor) : Except DecodeError (Document × Cursor) :=
  match c.rest with
  | '"' :: _ => match readDouble fuel [] c.advance with
    | some (text, next) => quotedValue text next
    | none => .error .malformed
  | '\'' :: _ => match readSingle fuel [] c.advance with
    | some (text, next) => quotedValue text next
    | none => .error .malformed
  | '|' :: _ => readLiteral fuel parent c
  | '[' :: _ | '\x7b' :: _ => match Document.parse? (String.ofList c.lineRest) with
    | some d => .ok (d, c.skipLine)
    | none => .error .malformed
  | _ => .ok (plainValue (trimRight (cutComment c.lineRest)), c.skipLine)

end JvmTaint.BlockText
