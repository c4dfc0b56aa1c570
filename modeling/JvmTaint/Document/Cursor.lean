import JvmTaint.Document.Scalar

set_option autoImplicit false
set_option relaxedAutoImplicit false

/-!
# Places in block text

The readers of block text go through it from place to place. A place knows its line and its column,
since nesting is by columns and errors name lines. Every character that ends a line counts, not the
line feed alone.

## Main definitions

* `JvmTaint.BlockText.Cursor`: a place, with the characters from there on.
* `JvmTaint.BlockText.Cursor.advance`: the place after the next character.
* `JvmTaint.BlockText.Cursor.skipSilent`: the next place where something is said.
-/

namespace JvmTaint.BlockText

/-- A place in a text. -/
structure Cursor where
  /-- The characters from the place on. -/
  rest : List Char
  /-- The number of the line, from one. -/
  line : Nat := 1
  /-- The number of characters before the place on its line. -/
  column : Nat := 0
  deriving Repr, Inhabited

namespace Cursor

/-- The place after the next character; a carriage return with its line feed is one. -/
def advance (c : Cursor) : Cursor :=
  match c.rest with
  | [] => c
  | '\r' :: '\n' :: rest => { rest, line := c.line + 1 }
  | x :: rest =>
    if Scalar.isBreak x then { rest, line := c.line + 1 }
    else { c with rest, column := c.column + 1 }

/-- Whether a line ends here. -/
def atBreak (c : Cursor) : Bool :=
  match c.rest with
  | [] => false
  | x :: _ => Scalar.isBreak x

/-- The line end here as text: the separators of lines and paragraphs stay, the others are line
feeds. -/
def breakText (c : Cursor) : List Char :=
  match c.rest with
  | x :: _ =>
    if x == '\u2028' || x == '\u2029' then [x] else if Scalar.isBreak x then ['\n'] else []
  | [] => []

/-- The place after some spaces on the line, which `more` tells at each column whether to go on. -/
def skipSpaces (more : Nat → Bool) : Nat → Cursor → Cursor
  | 0, c => c
  | fuel + 1, c =>
    match c.rest with
    | ' ' :: _ => if more c.column then skipSpaces more fuel c.advance else c
    | _ => c

/-- The characters up to the end of the line. -/
def lineRest (c : Cursor) : List Char := c.rest.takeWhile (!Scalar.isBreak ·)

/-- The place where the line ends. -/
def skipLine (c : Cursor) : Cursor :=
  let text := c.lineRest
  { c with rest := c.rest.drop text.length, column := c.column + text.length }

/-- The next place where something is said: after spaces, comments and line ends. Every round takes
a character away, so the length of the text is fuel enough. -/
def skipSilent : Nat → Cursor → Cursor
  | 0, c => c
  | fuel + 1, c =>
    match c.rest with
    | [] => c
    | x :: _ =>
      if x == ' ' || Scalar.isBreak x then skipSilent fuel c.advance
      else if x == '#' then skipSilent fuel c.skipLine
      else c

end Cursor

end JvmTaint.BlockText
