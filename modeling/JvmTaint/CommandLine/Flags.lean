import JvmTaint.CommandLine.Numeral
import JvmTaint.Text.Shown
import JvmTaint.Text.Utf8

set_option autoImplicit false
set_option relaxedAutoImplicit false

/-!
# Flags

Flags and arguments of a command. A flag is written `--name value` or `--name=value`; a flag that
is on or off needs no value. Flags and arguments may be mixed; after `--` there are arguments only.
The first mistake is reported.

## Main definitions

* `JvmTaint.CommandLine.Flag`: a flag that a command has.
* `JvmTaint.CommandLine.UsageError`: what is wrong with a command line.
* `JvmTaint.CommandLine.parseFlags`: the flags and arguments that are given.
-/

namespace JvmTaint.CommandLine

/-- The kind of the values of a flag. -/
inductive FlagKind where
  | text
  | integer
  /-- On or off. -/
  | switch
  deriving DecidableEq, Repr

/-- A flag that a command has. -/
structure Flag where
  name : String
  kind : FlagKind
  /-- The letter that stands for the flag. -/
  letter : Option Char := none
  deriving DecidableEq, Repr

/-- How a flag is shown in messages. -/
def Flag.shown (f : Flag) : String :=
  match f.letter with
  | some c => "-" ++ c.toString ++ ", --" ++ f.name
  | none => "--" ++ f.name

/-- What is wrong with a command line. -/
inductive UsageError where
  /-- The command `parent` has no such command; others look like it. -/
  | unknownCommand (name parent : String) (similar : List String)
  | unknownFlag (name : String)
  /-- A letter, of the letters that remain, stands for no flag. -/
  | unknownLetter (letter : Char) (letters : String)
  | badFlag (arg : String)
  | missingValue (arg : String)
  /-- A value that the reader of its kind refuses. -/
  | badValue (value shown reader : String) (fault : ValueFault)
  | tooFewArguments (least received : Nat)
  | wrongArguments (expected received : Nat)
  | missingFlags (names : List String)
  deriving DecidableEq, Repr

/-- A character in single quotes. -/
def quotedLetter (c : Char) : String :=
  let body := if c = '\'' then "\\'" else if c = '"' then "\"" else Text.sanitize c.toString
  "'" ++ body ++ "'"

/-- The message of an error. -/
def UsageError.message : UsageError → String
  | unknownCommand name parent similar =>
    "unknown command " ++ Text.quote name ++ " for " ++ Text.quote parent ++
      (if similar.isEmpty then ""
      else "\n\nDid you mean this?\n" ++ String.join (similar.map fun s => "\t" ++ s ++ "\n"))
  | unknownFlag name => "unknown flag: --" ++ name
  | unknownLetter letter letters =>
    "unknown shorthand flag: " ++ quotedLetter letter ++ " in -" ++ letters
  | badFlag arg => "bad flag syntax: " ++ arg
  | missingValue arg => "flag needs an argument: " ++ arg
  | badValue value shown reader fault =>
    "invalid argument " ++ Text.quote value ++ " for " ++ Text.quote shown ++ " flag: strconv." ++
      reader ++ ": parsing " ++ Text.quote value ++ ": " ++ fault.message
  | tooFewArguments least received =>
    "requires at least " ++ toString least ++ " arg(s), only received " ++ toString received
  | wrongArguments expected received =>
    "accepts " ++ toString expected ++ " arg(s), received " ++ toString received
  | missingFlags names =>
    "required flag(s) " ++ ", ".intercalate (names.map fun n => "\"" ++ n ++ "\"") ++ " not set"

/-- The flags and arguments that are given, in order. -/
structure Given where
  values : List (String × String) := []
  args : List String := []
  deriving DecidableEq, Repr, Inhabited

namespace Given

/-- All values of a flag. -/
def all (g : Given) (name : String) : List String :=
  (g.values.filter (·.1 == name)).map (·.2)

/-- The last value of a flag. -/
def last? (g : Given) (name : String) : Option String := (g.all name).getLast?

/-- Whether a flag is given. -/
def has (g : Given) (name : String) : Bool := (g.last? name).isSome

/-- The text of a flag, empty if it is not given. -/
def text (g : Given) (name : String) : String := (g.last? name).getD ""

/-- Whether a flag is on. -/
def isOn (g : Given) (name : String) : Bool := ((g.last? name).bind parseTruth?).getD false

/-- The number of a flag, zero if it is not given. -/
def int (g : Given) (name : String) : Int :=
  match (g.last? name).map parseInt with
  | some (.ok n) => n
  | _ => 0

end Given

/-- Gives a flag a value. -/
def Flag.set (f : Flag) (value : String) (g : Given) : Except UsageError Given := do
  match f.kind with
  | .text => pure ()
  | .integer =>
    match parseInt value with
    | .ok _ => pure ()
    | .error fault => throw (.badValue value f.shown "ParseInt" fault)
  | .switch =>
    if (parseTruth? value).isNone then throw (.badValue value f.shown "ParseBool" .malformed)
  return { g with values := g.values ++ [(f.name, value)] }

/-- The value that a flag has when it is given without one. -/
def Flag.bare? (f : Flag) : Option String :=
  if f.kind = .switch then some "true" else none

/-- What begins the names of the flags of test programs, which are passed over. -/
def testMark : List Char := ['t', 'e', 's', 't', '.']

/-- Gives the flags of letters that are written together their values. -/
def setLetters (flags : List Flag) : List Char → Given → Except UsageError Given
  | [], g => .ok g
  | c :: cs, g =>
    if testMark.isPrefixOf (c :: cs) then .ok g
    else match flags.find? (·.letter == some c) with
    | none =>
      let first := ((Text.toBytes c.toString).head?.map fun b => Char.ofNat b.toNat).getD c
      .error (.unknownLetter first (String.ofList (c :: cs)))
    | some f =>
      match cs with
      | '=' :: d :: ds => f.set (String.ofList (d :: ds)) g
      | cs => do setLetters flags cs (← f.set "true" g)

/-- The flags and arguments that are given, after those in `g`. -/
def parseFlags (flags : List Flag) : List String → Given → Except UsageError Given
  | [], g => .ok g
  | arg :: rest, g =>
    match arg.toList with
    | '-' :: '-' :: [] => .ok { g with args := g.args ++ rest }
    | '-' :: '-' :: cs =>
      let name := String.ofList (cs.takeWhile (· ≠ '='))
      if name.isEmpty ∨ cs.head? = some '-' then .error (.badFlag arg)
      else match flags.find? (·.name == name) with
        | none => .error (.unknownFlag name)
        | some f =>
          if cs.contains '=' then
            (f.set (String.ofList ((cs.dropWhile (· ≠ '=')).drop 1)) g).bind (parseFlags flags rest)
          else match f.bare? with
            | some value => (f.set value g).bind (parseFlags flags rest)
            | none =>
              match rest with
              | [] => .error (.missingValue arg)
              | value :: rest => (f.set value g).bind (parseFlags flags rest)
    | '-' :: c :: cs => (setLetters flags (c :: cs) g).bind (parseFlags flags rest)
    | _ => parseFlags flags rest { g with args := g.args ++ [arg] }

end JvmTaint.CommandLine
