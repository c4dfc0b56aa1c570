import JvmTaint.Document.Basic
import JvmTaint.Text.Quoted

set_option autoImplicit false
set_option relaxedAutoImplicit false

/-!
# Scalars in block text

How a text is written in a block document. A text is written as it is where that reads back as the
same text. A text that would read back as another kind of value (null, a truth value, a number, a
date) is put in double quotes; one that would be cut short or taken for structure in single quotes;
one with characters that cannot be shown in double quotes with escapes; and one of several lines as
a literal block.

## Main definitions

* `JvmTaint.Scalar.readsAsText`: whether a plain text reads back as a text.
* `JvmTaint.Scalar.Shape`, `JvmTaint.Scalar.shapeOf`: what stands in the way of the styles.
* `JvmTaint.Scalar.write`: the written form of a text.
-/

namespace JvmTaint.Scalar

/-! ## Plain texts that read back as other values -/

/-- The words that denote null, truth values, infinities and undefined numbers. -/
def reservedWords : List String :=
  ["", "~", "null", "Null", "NULL", "true", "True", "TRUE", "false", "False", "FALSE",
    ".nan", ".NaN", ".NAN", ".inf", ".Inf", ".INF", "+.inf", "+.Inf", "+.INF",
    "-.inf", "-.Inf", "-.INF",
    "y", "Y", "yes", "Yes", "YES", "on", "On", "ON",
    "n", "N", "no", "No", "NO", "off", "Off", "OFF"]

/-- A text without its sign. -/
def dropSign : List Char → List Char
  | '+' :: cs => cs
  | '-' :: cs => cs
  | cs => cs

/-- Whether a text is one or more digits of a base. -/
def isDigits (base : Nat) (cs : List Char) : Bool :=
  !cs.isEmpty && cs.all fun c =>
    match Text.hexValue? c with
    | some d => decide (d < base)
    | none => false

/-- The value of digits of a base. -/
def valueOf (base : Nat) (cs : List Char) : Nat :=
  cs.foldl (fun n c => n * base + (Text.hexValue? c).getD 0) 0

/-- Whether a text is an integer that fits a 64-bit word, or a signed one if the text has a sign.
After a mark of base 2 or 8 a sign may stand once more. -/
def isInteger (cs : List Char) : Bool :=
  let fits (limit base : Nat) (ds : List Char) : Bool :=
    isDigits base ds && decide (valueOf base ds ≤ limit)
  let limit := match cs with
    | '-' :: _ => 9223372036854775808
    | '+' :: _ => 9223372036854775807
    | _ => 18446744073709551615
  let resigned (base : Nat) : List Char → Bool
    | '-' :: ds => limit == 18446744073709551615 && fits 9223372036854775808 base ds
    | '+' :: ds => limit == 18446744073709551615 && fits 9223372036854775807 base ds
    | ds => fits limit base ds
  match dropSign cs with
  | ['0'] => true
  | '0' :: 'x' :: ds | '0' :: 'X' :: ds => fits limit 16 ds
  | '0' :: 'b' :: ds => resigned 2 ds
  | '0' :: 'B' :: ds => fits limit 2 ds
  | '0' :: 'o' :: ds => resigned 8 ds
  | '0' :: 'O' :: ds => fits limit 8 ds
  | '0' :: ds => fits limit 8 ds
  | ds => fits limit 10 ds

/-- Whether a text is a sequence of decimal digits, possibly empty. -/
def allDigits (cs : List Char) : Bool := cs.all Char.isDigit

/-- Whether a text is empty or an exponent. -/
def isExponent : List Char → Bool
  | [] => true
  | c :: cs =>
    (c == 'e' || c == 'E') && (let ds := dropSign cs; !ds.isEmpty && allDigits ds)

/-- Whether a text is a decimal number with an optional fraction and exponent. -/
def isDecimal (cs : List Char) : Bool :=
  let body := dropSign cs
  let whole := body.takeWhile Char.isDigit
  match body.dropWhile Char.isDigit with
  | '.' :: rest =>
    let fraction := rest.takeWhile Char.isDigit
    (!whole.isEmpty || !fraction.isEmpty) && isExponent (rest.dropWhile Char.isDigit)
  | rest => !whole.isEmpty && isExponent rest

/-- Whether a decimal number is in the range of floats. -/
def isFloat (cs : List Char) : Bool :=
  isDecimal cs &&
    !(NumberForm.floatOf (match cs with | '+' :: ds => ds | ds => ds)).isInf

/-- The number of days of a month. -/
def daysIn (year month : Nat) : Nat :=
  if month = 2 then
    if year % 4 = 0 ∧ (year % 100 ≠ 0 ∨ year % 400 = 0) then 29 else 28
  else if month = 4 ∨ month = 6 ∨ month = 9 ∨ month = 11 then 30 else 31

/-- Reads a number of one or two digits. -/
def shortNumber? (cs : List Char) : Option (Nat × List Char) :=
  match cs with
  | a :: b :: rest =>
    if a.isDigit then
      if b.isDigit then some (digitsValue [a, b], rest) else some (digitsValue [a], b :: rest)
    else none
  | [a] => if a.isDigit then some (digitsValue [a], []) else none
  | [] => none

/-- Reads a given character. -/
def expect? (c : Char) : List Char → Option (List Char)
  | d :: cs => if c = d then some cs else none
  | [] => none

/-- Reads a time of day with an optional fraction of a second, which a point or a comma starts. -/
def clock? (cs : List Char) : Option (List Char) := do
  let (hour, cs) ← shortNumber? cs
  let (minute, cs) ← shortNumber? (← expect? ':' cs)
  let (second, cs) ← shortNumber? (← expect? ':' cs)
  if hour < 24 ∧ minute < 60 ∧ second < 60 then
    match cs with
    | mark :: d :: rest =>
      if (mark == '.' || mark == ',') && d.isDigit then return rest.dropWhile Char.isDigit
      else return cs
    | cs => return cs
  else none

/-- Whether a text is a time zone. Offsets of 24 hours and of 60 minutes are written too. -/
def isZone : List Char → Bool
  | ['Z'] => true
  | [sign, a, b, ':', c, d] =>
    (sign == '+' || sign == '-') && allDigits [a, b, c, d] &&
      decide (digitsValue [a, b] ≤ 24 ∧ digitsValue [c, d] ≤ 60)
  | _ => false

/-- Whether a text is a date, alone or with a time of day. -/
def isTimestamp (cs : List Char) : Bool :=
  let year := cs.takeWhile Char.isDigit
  if year.length ≠ 4 then false
  else
    let date : Option (List Char) := do
      let (month, cs) ← shortNumber? (← expect? '-' (cs.drop 4))
      let (day, cs) ← shortNumber? (← expect? '-' cs)
      if 1 ≤ month ∧ month ≤ 12 ∧ 1 ≤ day ∧ day ≤ daysIn (digitsValue year) month then return cs
      else none
    match date with
    | none => false
    | some [] => true
    | some (' ' :: rest) => clock? (rest.dropWhile (· == ' ')) == some []
    | some (c :: rest) =>
      (c == 'T' || c == 't') &&
        match clock? rest with
        | some zone => isZone zone
        | none => false

/-- Whether a text is one digit, or two of which the first is at most five. -/
def isSexagesimalDigit : List Char → Bool
  | [a] => a.isDigit
  | [a, b] => decide ('0' ≤ a ∧ a ≤ '5') && b.isDigit
  | _ => false

/-- Whether a text is a number in base 60, such as `12:30:45`. -/
def isSexagesimal (cs : List Char) : Bool :=
  let isDigitOrBar (c : Char) : Bool := c.isDigit || c == '_'
  match (String.ofList (dropSign cs)).splitOn ":" with
  | first :: second :: rest =>
    let groups := second :: rest
    let last := (groups.getLastD "").toList
    let whole := last.takeWhile (· ≠ '.')
    let fraction := (last.dropWhile (· ≠ '.')).drop 1
    (match first.toList with
      | d :: ds => d.isDigit && ds.all isDigitOrBar
      | [] => false) &&
      groups.dropLast.all (fun g => isSexagesimalDigit g.toList) &&
      isSexagesimalDigit whole && fraction.all isDigitOrBar
  | _ => false

/-- Whether every low line stands between two digits. -/
def barsSeparate : List Char → Bool
  | a :: '_' :: b :: cs => a.isDigit && b.isDigit && barsSeparate (b :: cs)
  | [_, '_'] => false
  | a :: cs => a != '_' && barsSeparate cs
  | [] => true

/-- Whether a plain text reads back as a text. -/
def readsAsText (s : String) : Bool :=
  let cs := s.toList
  if reservedWords.contains s then false
  else match cs with
    | [] => false
    | '.' :: _ => !(barsSeparate cs && isFloat (cs.filter (· ≠ '_')))
    | c :: _ =>
      if c.isDigit || c == '+' || c == '-' then
        let bare := cs.filter (· ≠ '_')
        !(isTimestamp cs || isInteger bare || isFloat bare || isSexagesimal cs)
      else true

/-! ## Styles -/

/-- Characters that end a line. -/
def isBreak (c : Char) : Bool :=
  c == '\n' || c == '\r' || c == '\x85' || c == '\u2028' || c == '\u2029'

/-- Characters that may stand in a document as they are. -/
def isPrintable (c : Char) : Bool :=
  let n := c.toNat
  n == 0x0a || decide (0x20 ≤ n ∧ n ≤ 0x7e) || decide (0xa0 ≤ n ∧ n ≤ 0xd7ff) ||
    (decide (0xe000 ≤ n ∧ n ≤ 0xfffd) && n != 0xfeff)

/-- Characters that start structure when they come first. -/
def isIndicator (c : Char) : Bool :=
  "#,[]\x7b\x7d&*!|>'\"%@`".toList.contains c

/-- What stands in the way of the styles. -/
structure Shape where
  /-- Some part reads as structure. -/
  indicators : Bool := false
  /-- A space or a line end comes first or last. -/
  ragged : Bool := false
  /-- A space comes last. -/
  trailingSpace : Bool := false
  /-- A line end is followed by a space. -/
  breakSpace : Bool := false
  /-- A space is followed by a line end. -/
  spaceBreak : Bool := false
  /-- A tab occurs. -/
  tab : Bool := false
  /-- A character occurs that cannot be shown. -/
  special : Bool := false
  /-- A line ends. -/
  lines : Bool := false

/-- Whether a position is followed by the end or by blank space. -/
def blankNext : List Char → Bool
  | [] => true
  | c :: _ => c == ' ' || c == '\t'

/-- The pairs of neighbouring characters of a list. -/
def neighbours (cs : List Char) : List (Char × Char) := cs.zip cs.tail

/-- Whether the text after its first character holds something that reads as structure. -/
def innerIndicators : Char → List Char → Bool
  | _, [] => false
  | before, c :: cs =>
    (c == ':' && blankNext cs) ||
      (c == '#' && (before == ' ' || before == '\t' || isBreak before || before == '\x00')) ||
      innerIndicators c cs

/-- Whether a text holds something that reads as structure. -/
def hasIndicators (cs : List Char) : Bool :=
  (cs.take 3 == ['-', '-', '-'] || cs.take 3 == ['.', '.', '.']) ||
    match cs with
    | [] => false
    | c :: rest =>
      isIndicator c || ((c == '?' || c == ':' || c == '-') && blankNext rest) ||
        innerIndicators c rest

/-- What stands in the way of the styles for a text. -/
def shapeOf (cs : List Char) : Shape where
  indicators := hasIndicators cs
  ragged := [cs.head?, cs.getLast?].any fun
    | some c => c == ' ' || isBreak c
    | none => false
  trailingSpace := cs.getLast? == some ' '
  breakSpace := (neighbours cs).any fun (a, b) => isBreak a && b == ' '
  spaceBreak := (neighbours cs).any fun (a, b) => a == ' ' && isBreak b
  tab := cs.contains '\t'
  special := cs.any fun c => c != '\t' && !isPrintable c
  lines := cs.any isBreak

/-- Whether the text may be written as it is. -/
def Shape.plain (s : Shape) : Bool :=
  !(s.indicators || s.ragged || s.breakSpace || s.spaceBreak || s.tab || s.special || s.lines)

/-- Whether the text may be put in single quotes. -/
def Shape.single (s : Shape) : Bool := !(s.breakSpace || s.spaceBreak || s.tab || s.special)

/-- Whether the text may be a literal block. -/
def Shape.literal (s : Shape) : Bool := !(s.trailingSpace || s.spaceBreak || s.special)

/-! ## Written forms -/

/-- The last `width` hexadecimal digits of `n` in upper case. -/
def upperHex (width n : Nat) : List Char := (Text.hexDigits width n).map Char.toUpper

/-- The escape of a character between double quotes. -/
def escape (c : Char) : List Char :=
  match c.toNat with
  | 0x00 => ['\\', '0']
  | 0x07 => ['\\', 'a']
  | 0x08 => ['\\', 'b']
  | 0x09 => ['\\', 't']
  | 0x0a => ['\\', 'n']
  | 0x0b => ['\\', 'v']
  | 0x0c => ['\\', 'f']
  | 0x0d => ['\\', 'r']
  | 0x1b => ['\\', 'e']
  | 0x22 => ['\\', '"']
  | 0x5c => ['\\', '\\']
  | 0x85 => ['\\', 'N']
  | 0xa0 => ['\\', '_']
  | 0x2028 => ['\\', 'L']
  | 0x2029 => ['\\', 'P']
  | n =>
    if n ≤ 0xff then '\\' :: 'x' :: upperHex 2 n
    else if n ≤ 0xffff then '\\' :: 'u' :: upperHex 4 n
    else '\\' :: 'U' :: upperHex 8 n

/-- Whether a character may stand between double quotes as it is. -/
def isQuotable (c : Char) : Bool := isPrintable c && !isBreak c && c != '"' && c != '\\'

/-- A text in double quotes. A text that starts with a byte order mark is escaped throughout. -/
def doubleQuoted (cs : List Char) : List Char :=
  let marked := cs.head? == some '\ufeff'
  '"' :: cs.flatMap (fun c => if isQuotable c && !marked then [c] else escape c) ++ ['"']

/-- The characters of a text with the lines after the first indented. -/
def indented (indent : Nat) (atStart : Bool) : List Char → List Char
  | [] => []
  | c :: cs =>
    if isBreak c then c :: indented indent true cs
    else if atStart then List.replicate indent ' ' ++ c :: indented indent false cs
    else c :: indented indent false cs

/-- A text in single quotes. -/
def singleQuoted (indent : Nat) (cs : List Char) : List Char :=
  let doubled := cs.flatMap fun c => if c = '\'' then ['\'', '\''] else [c]
  '\'' :: indented indent false doubled ++ ['\'']

/-- The header of a literal block: the indentation if the text starts with blank space, and what
becomes of its final line ends. -/
def literalHeader (step : Nat) (cs : List Char) : List Char :=
  let hint :=
    match cs with
    | c :: _ => if c == ' ' || isBreak c then (toString step).toList else []
    | [] => []
  let chomp :=
    match cs.reverse with
    | [] => ['-']
    | [c] => if isBreak c then ['+'] else ['-']
    | c :: d :: _ => if !isBreak c then ['-'] else if isBreak d then ['+'] else []
  '|' :: hint ++ chomp

/-- A text as a literal block. A line end that comes first ends the line of the header. -/
def literalBlock (step indent : Nat) (cs : List Char) : List Char :=
  let ended := match cs with
    | c :: _ => isBreak c
    | [] => false
  literalHeader step cs ++ (if ended then [] else ['\n']) ++ indented indent true cs

/-- The written form of a text whose further lines are indented by `indent`. -/
def write (step indent : Nat) (s : String) : String :=
  let cs := s.toList
  let shape := shapeOf cs
  String.ofList <|
    if cs.contains '\n' then
      if shape.literal then literalBlock step indent cs else doubleQuoted cs
    else if !readsAsText s then doubleQuoted cs
    else if shape.plain then cs
    else if shape.single then singleQuoted indent cs
    else doubleQuoted cs

end JvmTaint.Scalar
