import JvmTaint.Pattern.Part

set_option autoImplicit false
set_option relaxedAutoImplicit false

/-!
# Reading patterns

The written form of patterns: literals, `.`, classes, groups, alternatives, repetitions, boundaries
and flags. Look-around and back references are refused, so that matching needs no backtracking.

## Main definitions

* `JvmTaint.PatternFault`, `JvmTaint.PatternError`: why a text is no pattern.
* `JvmTaint.Pattern.Flags`: what `(?ims)` switches.
* `JvmTaint.Pattern.Builder`: the groups that are open while a pattern is read.
* `JvmTaint.Pattern.parse`: reads a pattern.
-/

namespace JvmTaint

/-- Why a text is no pattern. -/
inductive PatternFault where
  | classRange | escape | namedCapture | perlSyntax | nestedRepeat | repeatCount
  | missingBracket | missingParen | missingArgument | trailingBackslash | unexpectedParen
  | tooDeep | tooLarge
  deriving DecidableEq, Repr, Inhabited

/-- The text of a fault. -/
def PatternFault.message : PatternFault → String
  | classRange => "invalid character class range"
  | escape => "invalid escape sequence"
  | namedCapture => "invalid named capture"
  | perlSyntax => "invalid or unsupported Perl syntax"
  | nestedRepeat => "invalid nested repetition operator"
  | repeatCount => "invalid repeat count"
  | missingBracket => "missing closing ]"
  | missingParen => "missing closing )"
  | missingArgument => "missing argument to repetition operator"
  | trailingBackslash => "trailing backslash at end of expression"
  | unexpectedParen => "unexpected )"
  | tooDeep => "expression nests too deeply"
  | tooLarge => "expression too large"

/-- A fault with the part of the text that has it. -/
structure PatternError where
  fault : PatternFault
  text : List Char
  deriving DecidableEq, Repr, Inhabited

/-- The text of an error. -/
def PatternError.message (e : PatternError) : String :=
  "error parsing regexp: " ++ e.fault.message ++ ": `" ++ String.ofList e.text ++ "`"

namespace Pattern

/-- The characters between two rests of a text. -/
def between (start rest : List Char) : List Char := start.take (start.length - rest.length)

/-! ## Characters -/

/-- The value of a hexadecimal digit of either case. -/
def hexDigit? (c : Char) : Option Nat :=
  if c.isDigit then some (c.toNat - '0'.toNat)
  else if 'a' ≤ c ∧ c ≤ 'f' then some (c.toNat - 'a'.toNat + 10)
  else if 'A' ≤ c ∧ c ≤ 'F' then some (c.toNat - 'A'.toNat + 10)
  else none

/-- Whether a character is an octal digit. -/
def isOctal (c : Char) : Bool := '0' ≤ c && c ≤ '7'

/-- Reads hexadecimal digits up to a closing brace: the value, if there is one within the code
points, and the rest after the last character that was looked at. -/
def bracedHex (seen value : Nat) : List Char → Option Nat × List Char
  | [] => (none, [])
  | '}' :: rest => (if seen = 0 then none else some value, rest)
  | c :: rest =>
    match hexDigit? c with
    | none => (none, rest)
    | some v =>
      let value := value * 16 + v
      if value > 0x10ffff then (none, rest) else bracedHex (seen + 1) value rest

/-- The code point written after a backslash, and the rest after the last character that was looked
at. -/
def escapeValue : List Char → Option Nat × List Char
  | [] => (none, [])
  | c :: rest =>
    let octal :=
      let more := (rest.take 2).takeWhile isOctal
      (some (more.foldl (fun n d => n * 8 + (d.toNat - '0'.toNat)) (c.toNat - '0'.toNat)),
        rest.drop more.length)
    match c with
    | '0' => octal
    | 'x' => match rest with
      | [] => (none, [])
      | '{' :: rest => bracedHex 0 0 rest
      | [_] => (none, [])
      | c₁ :: c₂ :: rest => match hexDigit? c₁, hexDigit? c₂ with
        | some x, some y => (some (x * 16 + y), rest)
        | _, _ => (none, rest)
    | 'a' => (some 7, rest)
    | 'f' => (some 12, rest)
    | 'n' => (some 10, rest)
    | 'r' => (some 13, rest)
    | 't' => (some 9, rest)
    | 'v' => (some 11, rest)
    | _ =>
      if isOctal c then
        match rest with
        | d :: _ => if isOctal d then octal else (none, rest)
        | [] => (none, rest)
      else if c.toNat < 128 && !c.isAlphanum then (some c.toNat, rest)
      else (none, rest)

/-- Reads an escape, at its backslash. -/
def readEscape (start : List Char) : Except PatternError (Nat × List Char) :=
  match start.drop 1 with
  | [] => .error ⟨.trailingBackslash, []⟩
  | body => match escapeValue body with
    | (some n, rest) => .ok (n, rest)
    | (none, rest) => .error ⟨.escape, between start rest⟩

/-! ## Classes -/

/-- Reads the class of a category or script, at its backslash. -/
def readUnicode? (start : List Char) (folded : Bool) :
    Option (Except PatternError (ClassItem × List Char)) :=
  let named (negated : Bool) (body : List Char) : Except PatternError (ClassItem × List Char) :=
    match body with
    | '{' :: inner =>
      let name := inner.takeWhile (· ≠ '}')
      match inner.dropWhile (· ≠ '}') with
      | [] => .error ⟨.classRange, start⟩
      | _ :: rest => match ClassItem.unicode? name negated folded with
        | some i => .ok (i, rest)
        | none => .error ⟨.classRange, between start rest⟩
    | _ =>
      let rest := body.drop 1
      match ClassItem.unicode? (body.take 1) negated folded with
      | some i => .ok (i, rest)
      | none => .error ⟨.classRange, between start rest⟩
  match start with
  | '\\' :: 'p' :: body => some (named false body)
  | '\\' :: 'P' :: body => some (named true body)
  | _ => none

/-- The place of `:]` in a text. -/
def posixEnd? : List Char → Option (List Char × List Char)
  | ':' :: ']' :: rest => some ([], rest)
  | c :: rest => (posixEnd? rest).map fun (name, after) => (c :: name, after)
  | [] => none

/-- Reads a class with a name, at its start: `[:name:]`, a category or script, or an escape. -/
def readNamed? (start : List Char) (folded : Bool) :
    Option (Except PatternError (ClassItem × List Char)) :=
  let posix : Option (Except PatternError (ClassItem × List Char)) := match start with
    | '[' :: ':' :: inner => (posixEnd? inner).map fun (name, rest) =>
      match ClassItem.posix? name folded with
      | some i => .ok (i, rest)
      | none => .error ⟨.classRange, between start rest⟩
    | _ => none
  let escape : Option (Except PatternError (ClassItem × List Char)) := match start with
    | '\\' :: c :: rest => (ClassItem.escape? c folded).map fun i => .ok (i, rest)
    | _ => none
  (posix.orElse fun _ => readUnicode? start folded).orElse fun _ => escape

/-- Reads a character of a class that starts at `whole`. -/
def readClassChar (whole start : List Char) : Except PatternError (Nat × List Char) :=
  match start with
  | [] => .error ⟨.missingBracket, whole⟩
  | '\\' :: _ => readEscape start
  | c :: rest => .ok (c.toNat, rest)

/-- Reads a character or a range of characters of a class. -/
def readRange (whole start : List Char) (folded : Bool) :
    Except PatternError (ClassItem × List Char) := do
  let (lo, rest) ← readClassChar whole start
  match rest with
  | '-' :: c :: more =>
    if c = ']' then return ({ runs := [{ first := lo, last := lo }], folded }, rest)
    let (hi, rest) ← readClassChar whole (c :: more)
    if hi < lo then throw ⟨.classRange, between start rest⟩
    return ({ runs := [{ first := lo, last := hi }], folded }, rest)
  | _ => return ({ runs := [{ first := lo, last := lo }], folded }, rest)

/-- Reads the items of a class up to its closing bracket, which may stand for itself as the first
item. Each item takes a character, so `fuel` is the length of the text. -/
def readItems (whole : List Char) (folded : Bool) :
    (fuel : Nat) → (first : Bool) → List ClassItem → List Char →
      Except PatternError (List ClassItem × List Char)
  | 0, _, _, _ => .error ⟨.missingBracket, whole⟩
  | fuel + 1, first, items, start =>
    match start, first with
    | ']' :: rest, false => .ok (items.reverse, rest)
    | _, _ => do
      let (item, rest) ← match readNamed? start folded with
        | some r => r
        | none => readRange whole start folded
      readItems whole folded fuel false (item :: items) rest

/-- Reads a class, at its opening bracket. -/
def readClass (start : List Char) (folded : Bool) :
    Except PatternError (CharClass × List Char) := do
  let (negated, body) := match start.drop 1 with
    | '^' :: rest => (true, rest)
    | rest => (false, rest)
  let (items, rest) ← readItems start folded (body.length + 1) true [] body
  return ({ items, negated }, rest)

/-! ## Groups -/

/-- What the flags of a group switch. -/
structure Flags where
  /-- Letters match their case variants. -/
  folded : Bool := false
  /-- The dot matches line ends. -/
  dotAll : Bool := false
  /-- The boundaries `^` and `$` are those of lines. -/
  lines : Bool := false
  deriving DecidableEq, Repr, Inhabited

/-- Reads flags after `(?`: the flags, whether a group opens, and the rest. `sign` is the value that
letters set and `seen` tells whether a letter followed the last sign. On failure it gives the rest
after the last character that was looked at. -/
def readFlags (flags : Flags) (sign seen : Bool) :
    List Char → Except (List Char) (Flags × Bool × List Char)
  | [] => .error []
  | c :: rest =>
    match c with
    | 'i' => readFlags { flags with folded := sign } sign true rest
    | 'm' => readFlags { flags with lines := sign } sign true rest
    | 's' => readFlags { flags with dotAll := sign } sign true rest
    | 'U' => readFlags flags sign true rest
    | '-' => if sign then readFlags flags false false rest else .error rest
    | ':' => if sign || seen then .ok (flags, true, rest) else .error rest
    | ')' => if sign || seen then .ok (flags, false, rest) else .error rest
    | _ => .error rest

/-- A group that is being read: the alternatives before the last bar, and the parts after it, both
last first. -/
structure Group where
  alternatives : List Part := []
  parts : List Part := []
  deriving Repr, Inhabited

/-- A group around the innermost one. -/
structure OuterGroup where
  group : Group
  /-- The flags that hold after the innermost group. -/
  flags : Flags
  /-- Whether the match of the innermost group is kept. -/
  captures : Bool
  deriving Repr, Inhabited

/-- The groups that are open. -/
structure Builder where
  /-- The whole text. -/
  text : List Char := []
  flags : Flags := {}
  /-- The innermost group. -/
  group : Group := {}
  /-- The groups around it, innermost first. -/
  outer : List OuterGroup := []
  /-- The text at the repetition just read, if the last thing read was one. -/
  repeated : Option (List Char) := none
  deriving Repr, Inhabited

namespace Builder

/-- A part, if it is within the limits. -/
def checked (b : Builder) (p : Part) : Except PatternError Part :=
  if p.size > sizeLimit then .error ⟨.tooLarge, b.text⟩
  else if p.height > heightLimit then .error ⟨.tooDeep, b.text⟩
  else .ok p

/-- Adds a part to the innermost group. -/
def push (b : Builder) (p : Part) : Except PatternError Builder := do
  let p ← b.checked p
  return { b with group := { b.group with parts := p :: Part.settle b.group.parts } }

/-- The alternatives of the innermost group, if it ended here. -/
def alternatives (b : Builder) : Except PatternError (List Part) := do
  let p ← b.checked (Part.sequence b.group.parts)
  return Part.addAlternative p b.group.alternatives

/-- Ends an alternative of the innermost group. -/
def bar (b : Builder) : Except PatternError Builder := do
  return { b with group := { alternatives := ← b.alternatives } }

/-- The part that the innermost group makes. -/
def whole (b : Builder) : Except PatternError Part := do
  b.checked (Part.choice (← b.alternatives))

/-- Opens a group in which `flags` hold. -/
def openGroup (b : Builder) (flags : Flags) (captures : Bool) : Builder :=
  { text := b.text, flags, group := {},
    outer := { group := b.group, flags := b.flags, captures } :: b.outer }

/-- Closes the innermost group. -/
def closeGroup (b : Builder) : Except PatternError Builder := do
  let p ← b.whole
  match b.outer with
  | [] => throw ⟨.unexpectedParen, b.text⟩
  | o :: outer =>
    push { text := b.text, flags := o.flags, group := o.group, outer }
      (if o.captures then p.capture else p)

/-- Adds a character. -/
def literal (b : Builder) (n : Nat) : Except PatternError Builder :=
  b.push (Part.ofCodePoint n b.flags.folded)

end Builder

/-! ## Repetitions -/

/-- Whether the counts of nested repetitions multiply to at most `n`. -/
def countsWithin : Pattern → Nat → Bool
  | counted p least most, n =>
    let m := most.getD least
    if most = some 0 then true
    else if m > n then false
    else countsWithin p (if m = 0 then n else n / m)
  | seq p q, n => countsWithin p n && countsWithin q n
  | either p q, n => countsWithin p n && countsWithin q n
  | star p, n => countsWithin p n
  | plus p, n => countsWithin p n
  | option p, n => countsWithin p n
  | _, _ => true

/-- The largest count of a repetition. -/
def countLimit : Nat := 1000

/-- Reads a number without leading zeros. A number of more than nine digits counts as over every
limit, and so does one whose value passes the limit. -/
def readCount? (start : List Char) : Option (Nat × List Char) :=
  let digits := start.takeWhile Char.isDigit
  match digits with
  | [] => none
  | '0' :: _ :: _ => none
  | _ => some (digits.foldl (fun n d => n * 10 + (d.toNat - '0'.toNat)) 0, start.drop digits.length)

/-- Reads the counts of a repetition, at its opening brace. -/
def readCounts? (start : List Char) : Option (Nat × Option Nat × List Char) := do
  let (least, rest) ← readCount? (start.drop 1)
  match rest with
  | '}' :: rest => some (least, some least, rest)
  | ',' :: '}' :: rest => some (least, none, rest)
  | ',' :: rest =>
    let (most, rest) ← readCount? rest
    match rest with
    | '}' :: rest => some (least, some most, rest)
    | _ => none
  | _ => none

/-- Repeats the last part of the innermost group. A repetition directly after a repetition is
refused, and so is one of nothing. -/
def Builder.repeatLast (b : Builder) (start rest : List Char) (make : Pattern → Pattern) :
    Except PatternError (Builder × List Char) := do
  let rest := match rest with
    | '?' :: rest => rest
    | _ => rest
  if let some earlier := b.repeated then throw ⟨.nestedRepeat, between earlier rest⟩
  match b.group.parts with
  | [] => throw ⟨.missingArgument, between start rest⟩
  | p :: parts =>
    let made ← b.checked (p.repeated make)
    if let counted _ least most := made.pattern then
      if (least ≥ 2 || most.getD 0 ≥ 2) && !countsWithin made.pattern countLimit then
        throw ⟨.repeatCount, between start rest⟩
    let group := { b.group with parts := made :: parts }
    return ({ b with group, repeated := some start }, rest)

/-! ## Whole patterns -/

/-- The characters up to the end `\E` of a quotation, and the rest after it. -/
def quotation : List Char → List Char × List Char
  | [] => ([], [])
  | '\\' :: 'E' :: rest => ([], rest)
  | c :: rest => let (quoted, after) := quotation rest; (c :: quoted, after)

/-- Whether a text can name a group. -/
def isGroupName (name : List Char) : Bool := !name.isEmpty && name.all isWordChar

/-- Opens a group that has a name; `name` starts after the opening angle bracket. -/
def openNamed (b : Builder) (start name : List Char) : Except PatternError (Builder × List Char) :=
  let word := name.takeWhile (· ≠ '>')
  match name.dropWhile (· ≠ '>') with
  | [] => .error ⟨.namedCapture, start⟩
  | _ :: rest =>
    if isGroupName word then .ok (b.openGroup b.flags true, rest)
    else .error ⟨.namedCapture, between start rest⟩

/-- Adds a boundary. -/
def Builder.edge (b : Builder) (e : Boundary) : Except PatternError Builder :=
  b.push { patterns := [boundary e] }

/-- Reads an escape outside of classes. -/
def readBackslash (b : Builder) (start : List Char) :
    Except PatternError (Builder × List Char) := do
  match start with
  | '\\' :: 'A' :: rest => return (← b.edge .textStart, rest)
  | '\\' :: 'b' :: rest => return (← b.edge .word, rest)
  | '\\' :: 'B' :: rest => return (← b.edge .noWord, rest)
  | '\\' :: 'z' :: rest => return (← b.edge .textEnd, rest)
  | '\\' :: 'Q' :: rest =>
    let (quoted, rest) := quotation rest
    return (← quoted.foldlM (fun b c => b.literal c.toNat) b, rest)
  | '\\' :: rest =>
    match readNamed? ('\\' :: rest) b.flags.folded with
    | some r => do
      let (item, rest) ← r
      return (← b.push (Part.ofClass { items := [item] }), rest)
    | none => do
      let (n, rest) ← readEscape ('\\' :: rest)
      return (← b.literal n, rest)
  | _ => return (b, start)

/-- Reads the next thing of a pattern. -/
def readNext (b : Builder) (c : Char) (rest : List Char) :
    Except PatternError (Builder × List Char) := do
  let start := c :: rest
  let fresh := { b with repeated := none }
  match c with
  | '(' => match rest with
    | '?' :: 'P' :: '<' :: n :: name => openNamed fresh start (n :: name)
    | '?' :: '<' :: n :: name => openNamed fresh start (n :: name)
    | '?' :: flags => match readFlags b.flags true false flags with
      | .ok (flags, true, rest) => return (fresh.openGroup flags false, rest)
      | .ok (flags, false, rest) => return ({ fresh with flags }, rest)
      | .error rest => throw ⟨.perlSyntax, between start rest⟩
    | _ => return (fresh.openGroup b.flags true, rest)
  | '|' => return (← fresh.bar, rest)
  | ')' => return (← fresh.closeGroup, rest)
  | '^' => return (← fresh.edge (if b.flags.lines then .lineStart else .textStart), rest)
  | '$' => return (← fresh.edge (if b.flags.lines then .lineEnd else .textEnd), rest)
  | '.' =>
    let excluded : List ClassItem := if b.flags.dotAll then [] else [{ runs := [⟨10, 10, 1⟩] }]
    return (← fresh.push (Part.ofClass { items := excluded, negated := true }), rest)
  | '[' =>
    let (k, rest) ← readClass start b.flags.folded
    return (← fresh.push (Part.ofClass k), rest)
  | '*' => b.repeatLast start rest star
  | '+' => b.repeatLast start rest plus
  | '?' => b.repeatLast start rest option
  | '{' => match readCounts? start with
    | none => return (← fresh.literal c.toNat, rest)
    | some (least, most, after) =>
      if least > countLimit || most.getD 0 > countLimit || least > most.getD least then
        throw ⟨.repeatCount, between start after⟩
      b.repeatLast start after (counted · least most)
  | '\\' => readBackslash fresh start
  | _ => return (← fresh.literal c.toNat, rest)

/-- Reads the rest of a pattern. Each thing takes a character, so `fuel` is the length of the
text. -/
def readAll : (fuel : Nat) → Builder → List Char → Except PatternError Builder
  | _, b, [] => .ok b
  | 0, b, _ => .ok b
  | fuel + 1, b, c :: rest => do
    let (b, rest) ← readNext b c rest
    readAll fuel b rest

/-- Reads a pattern. -/
def parse (s : String) : Except PatternError Pattern := do
  let chars := s.toList
  let b ← readAll chars.length { text := chars } chars
  let p ← b.whole
  match b.outer with
  | [] => return p.pattern
  | _ => throw ⟨.missingParen, chars⟩

end Pattern

end JvmTaint
