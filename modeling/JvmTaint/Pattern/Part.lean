import JvmTaint.Pattern.Basic

set_option autoImplicit false
set_option relaxedAutoImplicit false

/-!
# Parts of patterns

While a pattern is read, its parts are kept with two measures: how deep parts are nested in parts,
and how many steps a machine has that matches the part. A pattern that is too deep or too large is
refused. Neighbouring characters count as one text, and single characters that are alternatives
count as one class, so that only what nests or repeats adds to the measures.

## Main definitions

* `JvmTaint.Pattern.Part`: a part with its measures.
* `JvmTaint.Pattern.Part.settle`: joins the last two parts if they are texts.
* `JvmTaint.Pattern.Part.sequence`, `Part.choice`, `Part.capture`, `Part.repeated`: parts of parts.
-/

namespace JvmTaint.Pattern

/-- What a part is, as far as joining it with its neighbours goes. -/
inductive Form where
  /-- A text, with its case variants or without. -/
  | literal (folded : Bool)
  /-- One character of a class. -/
  | oneOf
  /-- Parts one after the other. -/
  | sequence
  /-- Alternatives. -/
  | choice
  /-- Anything else. -/
  | other
  deriving DecidableEq, Repr, Inhabited

/-- A part of a pattern. -/
structure Part where
  /-- The patterns that follow each other, last first. -/
  patterns : List Pattern
  form : Form := .other
  /-- How deep parts are nested. -/
  height : Nat := 1
  /-- The steps of a machine that matches the part. -/
  size : Nat := 1
  deriving Repr, Inhabited

/-- How deep parts may be nested. -/
def heightLimit : Nat := 1000

/-- How many steps a part may have: those of 40 bytes that fit in 128 megabytes. -/
def sizeLimit : Nat := 134217728 / 40

namespace Part

/-- The pattern of a part. -/
def pattern (p : Part) : Pattern :=
  match p.patterns with
  | [] => empty
  | last :: before => before.foldl (fun acc q => seq q acc) last

/-- The depth that a part adds to one of the form `outer` around it; a part of the same form is
taken apart there. -/
def innerHeight (outer : Form) (p : Part) : Nat :=
  if p.form = outer then p.height - 1 else p.height

/-- The greatest depth within some parts. -/
def innerHeights (outer : Form) (parts : List Part) : Nat :=
  parts.foldl (fun n p => max n (p.innerHeight outer)) 0

/-- The steps of some parts together. -/
def sizes (parts : List Part) : Nat := parts.foldl (fun n p => n + p.size) 0

/-- Whether a part matches exactly one character. -/
def isOneChar (p : Part) : Bool :=
  match p.form with
  | .literal _ => p.size == 1
  | .oneOf => true
  | _ => false

/-- The last two of some parts, last first, joined if both are texts of one kind. -/
def settle : List Part → List Part
  | q :: p :: rest =>
    match p.form, q.form with
    | .literal a, .literal b =>
      if a = b then
        let joined := q.patterns ++ p.patterns
        { patterns := joined, form := .literal a, size := p.size + q.size } :: rest
      else q :: p :: rest
    | _, _ => q :: p :: rest
  | parts => parts

/-- Some parts, last first, one after the other. -/
def sequence (parts : List Part) : Part :=
  match settle parts with
  | [] => { patterns := [empty] }
  | [p] => p
  | parts =>
    { patterns := parts.flatMap (·.patterns),
      form := .sequence,
      height := 1 + innerHeights .sequence parts,
      size := sizes parts }

/-- Adds an alternative to those before it, last first. -/
def addAlternative (p : Part) : List Part → List Part
  | q :: before =>
    if p.isOneChar && q.isOneChar then
      if p.form = q.form ∧ p.patterns = q.patterns then q :: before
      else { patterns := [either q.pattern p.pattern], form := .oneOf } :: before
    else p :: q :: before
  | [] => [p]

/-- One of some parts, which are given last first. -/
def choice : List Part → Part
  | [] => { patterns := [empty] }
  | [p] => p
  | last :: before =>
    { patterns := [before.foldl (fun acc p => either p.pattern acc) last.pattern],
      form := .choice,
      height := 1 + innerHeights .choice (last :: before),
      size := sizes (last :: before) + before.length }

/-- A group whose match is kept. -/
def capture (p : Part) : Part :=
  { patterns := [p.pattern], height := p.height + 1, size := p.size + 2 }

/-- The steps of a repetition of a part. -/
def repeatedSize (n : Nat) : Pattern → Nat
  | star _ => n + 2
  | plus _ => n + 1
  | option _ => n + 1
  | counted _ least most =>
    match most with
    | none => if least = 0 then n + 2 else least * n + 1
    | some most => max 1 (most * n + (most - least))
  | _ => n

/-- A repetition of a part. -/
def repeated (p : Part) (make : Pattern → Pattern) : Part :=
  let made := make p.pattern
  { patterns := [made], height := p.height + 1, size := repeatedSize p.size made }

/-- The part of one character of a class. A class of one character, or of one and its only case
variant, counts as a text. -/
def ofClass (k : CharClass) : Part :=
  let form := match k.items, k.negated with
    | [i], false => match i.runs, i.negated with
      | [r], false =>
        if r.first ≠ r.last then Form.oneOf
        else match i.folded, (Text.caseVariants r.first).length with
          | false, _ => .literal false
          | true, 1 => .literal false
          | true, 2 => .literal true
          | _, _ => .oneOf
      | _, _ => .oneOf
    | _, _ => .oneOf
  { patterns := [char k], form }

/-- The part of one code point. -/
def ofCodePoint (n : Nat) (folded : Bool) : Part :=
  { patterns := [char (CharClass.single n folded)], form := .literal folded }

end Part

end JvmTaint.Pattern
