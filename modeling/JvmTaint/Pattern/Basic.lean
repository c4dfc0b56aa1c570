import JvmTaint.Pattern.CharClass

set_option autoImplicit false
set_option relaxedAutoImplicit false

/-!
# Patterns

Regular expressions over texts. A pattern maps a set of positions of a text to the positions where
a match that starts at one of them can end.

## Main definitions

* `JvmTaint.Pattern`: a pattern.
* `JvmTaint.Pattern.ends`: where the matches end that start at some positions.
* `JvmTaint.Pattern.found`: whether a pattern matches somewhere in a text.
-/

namespace JvmTaint

/-- A condition on a position of a text. -/
inductive Boundary where
  | textStart | textEnd | lineStart | lineEnd | word | noWord
  deriving DecidableEq, Repr, Inhabited

/-- A pattern. -/
inductive Pattern where
  /-- The empty text. -/
  | empty
  /-- A text of one character. -/
  | char (k : CharClass)
  /-- The empty text at some positions. -/
  | boundary (b : Boundary)
  /-- A match followed by a match. -/
  | seq (p q : Pattern)
  /-- A match of one of two patterns. -/
  | either (p q : Pattern)
  /-- Any number of matches. -/
  | star (p : Pattern)
  /-- At least one match. -/
  | plus (p : Pattern)
  /-- At most one match. -/
  | option (p : Pattern)
  /-- At least `least` matches, and at most `most` if that is given. -/
  | counted (p : Pattern) (least : Nat) (most : Option Nat)
  deriving DecidableEq, Repr, Inhabited

/-- Whether a character is a letter, a digit or an underscore. -/
def isWordChar (c : Char) : Bool := c.isAlphanum || c == '_'

/-- Whether a condition holds at a position of a text. -/
def Boundary.holds (b : Boundary) (text : Array Char) (i : Nat) : Bool :=
  let before := if i = 0 then none else text[i - 1]?
  let after := text[i]?
  let wordBefore := (before.map isWordChar).getD false
  let wordAfter := (after.map isWordChar).getD false
  match b with
  | textStart => i == 0
  | textEnd => i == text.size
  | lineStart => i == 0 || before == some '\n'
  | lineEnd => i == text.size || after == some '\n'
  | word => wordBefore != wordAfter
  | noWord => wordBefore == wordAfter

namespace Pattern

/-- The union of two sets of positions. -/
def union (s t : List Nat) : List Nat := s ++ t.filter (!s.contains ·)

/-- Applies `f` to a set of positions `n` times. -/
def times (f : List Nat → List Nat) : Nat → List Nat → List Nat
  | 0, s => s
  | n + 1, s => times f n (f s)

/-- The positions of `s` and those reached from `fresh` by at most `n` applications of `f`. Only the
positions that the last round added are followed, and it stops when no position is new. -/
def upTo (f : List Nat → List Nat) : Nat → List Nat → List Nat → List Nat
  | 0, s, _ => s
  | n + 1, s, fresh =>
    let next := (f fresh).filter (!s.contains ·)
    if next.isEmpty then s else upTo f n (s ++ next) next

/-- Where the matches end that start at one of the positions `s`. The empty steps of a repetition
add no position, so as many rounds as the text has characters reach every end. -/
def ends (text : Array Char) : Pattern → List Nat → List Nat
  | empty, s => s
  | char k, s => (s.filter fun i => (text[i]?.map k.holds).getD false).map (· + 1)
  | boundary b, s => s.filter (b.holds text)
  | seq p q, s => ends text q (ends text p s)
  | either p q, s => union (ends text p s) (ends text q s)
  | star p, s => upTo (ends text p) text.size s s
  | plus p, s =>
    let start := ends text p s
    upTo (ends text p) text.size start start
  | option p, s => union s (ends text p s)
  | counted p least most, s =>
    let start := times (ends text p) least s
    match most with
    | none => upTo (ends text p) text.size start start
    | some most => upTo (ends text p) (most - least) start start

/-- Whether the pattern matches somewhere in a text. -/
def found (p : Pattern) (text : String) : Bool :=
  let chars := text.toList.toArray
  !(p.ends chars (List.range (chars.size + 1))).isEmpty

end Pattern

end JvmTaint
