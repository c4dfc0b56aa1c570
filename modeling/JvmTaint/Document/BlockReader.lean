import JvmTaint.Document.BlockScalar

set_option autoImplicit false
set_option relaxedAutoImplicit false

/-!
# Reading block text

Documents of several lines, nested by indentation. Keys are plain. The readers take a place and
return a value with the place after it. They take fuel: every call takes a key or a dash away.

## Main definitions

* `JvmTaint.BlockText.parse`: the document of block text.
* `JvmTaint.Document.read`: the document of a file in flow or block form.
-/

namespace JvmTaint.BlockText

/-- Whether an item of a sequence starts at a place. -/
def isItem (c : Cursor) : Bool :=
  match c.rest with
  | ['-'] => true
  | '-' :: x :: _ => x == ' ' || Scalar.isBreak x
  | _ => false

/-- The key up to the first colon that ends one on the line, after the characters in `acc`, last
first, and the place after the colon. -/
def takeKey? : Nat → List Char → Cursor → Option (String × Cursor)
  | 0, _, _ => none
  | fuel + 1, acc, c =>
    match c.rest with
    | [] => none
    | x :: cs =>
      if Scalar.isBreak x then none
      else if x == ':' && (match cs with | [] => true | y :: _ => y == ' ' || Scalar.isBreak y) then
        some (String.ofList acc.reverse, c.advance)
      else takeKey? fuel (x :: acc) c.advance

/-- The plain key at a place, and the place after its colon. -/
def keyAt? (fuel : Nat) (c : Cursor) : Option (String × Cursor) :=
  match c.rest with
  | [] => none
  | x :: _ => if Scalar.isIndicator x then none else takeKey? fuel [] c

/-- Whether the rest of a line says nothing. -/
def isSilent (cs : List Char) : Bool :=
  match cs.dropWhile (· == ' ') with
  | [] => true
  | c :: _ => c == '#'

mutual

/-- Reads a value that stands at column `least` or further right. There is none if the next place
where something is said does not. -/
def readNode : Nat → Nat → Cursor → Except DecodeError (Document × Cursor)
  | 0, _, _ => .error .malformed
  | fuel + 1, least, c =>
    let c := c.skipSilent fuel
    if c.rest.isEmpty || decide (c.column < least) then .ok (.null, c)
    else if isItem c then do
      let (items, next) ← readSequence fuel c.column c
      return (.seq items, next)
    else if (keyAt? fuel c).isSome then do
      let (entries, next) ← readMapping fuel c.column c
      return (.map entries, next)
    else readScalar fuel (least - 1) c

/-- Reads the items of a sequence whose dashes stand at a column. -/
def readSequence : Nat → Nat → Cursor → Except DecodeError (List Document × Cursor)
  | 0, _, _ => .error .malformed
  | fuel + 1, column, c =>
    let c := c.skipSilent fuel
    if c.column = column ∧ isItem c then do
      let (item, next) ← readNode fuel (column + 1) c.advance
      let (items, next) ← readSequence fuel column next
      return (item :: items, next)
    else .ok ([], c)

/-- Reads the entries of a mapping whose keys stand at a column. -/
def readMapping : Nat → Nat → Cursor → Except DecodeError (List (String × Document) × Cursor)
  | 0, _, _ => .error .malformed
  | fuel + 1, column, c =>
    let c := c.skipSilent fuel
    if c.rest.isEmpty || c.column ≠ column || isItem c then .ok ([], c)
    else do
      let some (key, after) := keyAt? fuel c | throw .malformed
      let (value, next) ←
        if isSilent after.lineRest then
          let next := after.skipSilent fuel
          if next.column = column ∧ isItem next then do
            let (items, next) ← readSequence fuel column next
            pure (.seq items, next)
          else readNode fuel (column + 1) next
        else readScalar fuel column (after.skipSpaces (fun _ => true) fuel)
      let (entries, next) ← readMapping fuel column next
      return ((key, value) :: entries, next)

end

/-- The document of block text. -/
def parse (text : String) : Except DecodeError Document := do
  let cs := text.toList
  let fuel := 2 * cs.length + 2
  let (d, c) ← readNode fuel 0 { rest := cs }
  if (c.skipSilent fuel).rest.isEmpty then return d else throw .malformed

end JvmTaint.BlockText

namespace JvmTaint.Document

/-- The document of a file in flow or block form; a file that says nothing has none. -/
def read (text : String) : Except DecodeError (Option Document) :=
  let start : BlockText.Cursor := { rest := text.toList }
  if (start.skipSilent (start.rest.length + 1)).rest.isEmpty then .ok none
  else match parse? text with
    | some d => .ok (some d)
    | none => (BlockText.parse text).map some

end JvmTaint.Document
