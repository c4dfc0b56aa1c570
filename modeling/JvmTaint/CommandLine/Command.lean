import JvmTaint.CommandLine.Flags
import JvmTaint.Text.CaseFold

set_option autoImplicit false
set_option relaxedAutoImplicit false

/-!
# Commands

The commands of the program and how a command line names one.

## Main definitions

* `JvmTaint.CommandLine.Verb`: the commands, with their flags and the arguments they take.
* `JvmTaint.CommandLine.Command`: a command with what it is given.
* `JvmTaint.CommandLine.parse`: the command of a command line.
-/

namespace JvmTaint.CommandLine

/-- The name of the program. -/
def programName : String := "jargot"

/-- The version of the program. -/
def version : String := "dev"

/-- The commands that work on a program. -/
inductive Verb where
  | taint
  | flowGraph
  | callGraph
  | convert
  deriving DecidableEq, Repr

namespace Verb

/-- All commands. -/
def all : List Verb := [taint, flowGraph, callGraph, convert]

/-- The name of a command. -/
def name : Verb → String
  | taint => "taint"
  | flowGraph => "cfg"
  | callGraph => "callgraph"
  | convert => "convert"

/-- The flags of a command. -/
def flags : Verb → List Flag
  | taint => [⟨"config", .text, none⟩, ⟨"program", .text, none⟩, ⟨"metrics", .text, none⟩,
      ⟨"format", .text, none⟩, ⟨"verbose", .switch, none⟩, ⟨"max-depth", .integer, none⟩]
  | flowGraph => [⟨"program", .text, none⟩, ⟨"dot", .switch, none⟩]
  | callGraph => [⟨"program", .text, none⟩, ⟨"entry", .text, none⟩,
      ⟨"parallelism", .integer, none⟩, ⟨"metrics", .text, none⟩]
  | convert => []

/-- The flags that a command needs, sorted. -/
def required : Verb → List String
  | taint => ["config"]
  | flowGraph => ["program"]
  | callGraph => ["entry", "program"]
  | convert => []

/-- Refuses arguments that a command does not take. -/
def checkArguments (v : Verb) (args : List String) : Except UsageError Unit :=
  match v, args with
  | .taint, arg :: _ | .callGraph, arg :: _ =>
    .error (.unknownCommand arg (programName ++ " " ++ v.name) [])
  | .flowGraph, [] => .error (.tooFewArguments 1 0)
  | .convert, args => if args.length = 2 then .ok () else .error (.wrongArguments 2 args.length)
  | _, _ => .ok ()

end Verb

/-- What a taint analysis is given. -/
structure TaintOptions where
  settings : String
  /-- The program file, empty for the one that the settings name. -/
  program : String
  /-- The file for the measurements, empty for none. -/
  metrics : String
  format : String
  verbose : Bool
  /-- The largest depth of access paths, zero for the one of the settings. -/
  depth : Int
  deriving DecidableEq, Repr

/-- A command with what it is given. -/
inductive Command where
  | help
  | version
  | taint (o : TaintOptions)
  | flowGraph (program : String) (dot : Bool) (methods : List String)
  | callGraph (program : String) (entries : List String) (metrics : String)
  | convert (source target : String)
  deriving DecidableEq, Repr

/-! ## Similar names -/

/-- The next row of the table of distances: the distances to the beginnings of a list, one element
later. `diagonal` is the distance before the first of `row`, `left` the one that was found last. -/
def distanceRow {α : Type} [BEq α] (a : α) : Nat → Nat → List α → List Nat → List Nat
  | diagonal, left, b :: bs, above :: row =>
    let d := if a == b then diagonal else min (min diagonal left) above + 1
    d :: distanceRow a above d bs row
  | _, _, _, _ => []

/-- The number of changes, removals and insertions that lead from one list to another. -/
def editDistance {α : Type} [BEq α] (xs ys : List α) : Nat :=
  let start : Nat × List Nat := (0, (List.range ys.length).map (· + 1))
  let (first, row) := xs.foldl
    (fun (first, row) x => (first + 1, distanceRow x first (first + 1) ys row)) start
  row.getLast?.getD first

/-- The names of commands that look like a name: they begin with it or differ from it in at most two
bytes, capitals aside. -/
def similarTo (name : String) : List String :=
  let wanted := Text.toBytes (Text.lower name)
  (Verb.all.map Verb.name ++ ["completion"]).filter fun known =>
    let bytes := Text.toBytes known
    decide (editDistance wanted bytes ≤ 2) || wanted.isPrefixOf bytes

/-! ## Reading a command line -/

/-- Whether an argument is a flag whose value is the next argument, as far as can be told before the
command is known. -/
def takesNext (arg : String) : Bool :=
  match arg.toList with
  | '-' :: '-' :: cs => !cs.isEmpty && !cs.contains '='
  | ['-', c] => c != '=' && decide (c.toNat < 128)
  | _ => false

/-- The arguments that are no flags, nor values of flags, as far as can be told before the command
is known. -/
def bareArguments : List String → List String
  | [] => []
  | arg :: rest =>
    if arg == "--" then []
    else if takesNext arg then
      match rest with
      | _ :: next :: rest => bareArguments (next :: rest)
      | _ => []
    else if arg.isEmpty || arg.toList.head? == some '-' then bareArguments rest
    else arg :: bareArguments rest

/-- The arguments without the first that is `name` and no value of a flag. -/
def withoutFirst (name : String) : List String → List String
  | [] => []
  | arg :: rest =>
    if arg == "--" then arg :: rest
    else if takesNext arg then
      match rest with
      | [] => [arg]
      | value :: rest => arg :: value :: withoutFirst name rest
    else if arg == name then rest
    else arg :: withoutFirst name rest

/-- The flag that asks for help. -/
def helpFlag : Flag := ⟨"help", .switch, some 'h'⟩

/-- The flag that asks for the version. -/
def versionFlag : Flag := ⟨"version", .switch, some 'v'⟩

/-- The command of a verb and what it is given. -/
def Verb.command (v : Verb) (g : Given) : Command :=
  match v with
  | taint => .taint
      { settings := g.text "config"
        program := g.text "program"
        metrics := g.text "metrics"
        format := (g.last? "format").getD "text"
        verbose := g.isOn "verbose"
        depth := g.int "max-depth" }
  | flowGraph => .flowGraph (g.text "program") (g.isOn "dot") g.args
  | callGraph => .callGraph (g.text "program") (g.all "entry") (g.text "metrics")
  | convert => .convert (g.args.getD 0 "") (g.args.getD 1 "")

/-- The command of a verb and the arguments after it. -/
def Verb.parse (v : Verb) (args : List String) : Except UsageError Command := do
  let g ← parseFlags (v.flags ++ [helpFlag]) args {}
  if g.isOn "help" then return .help
  v.checkArguments g.args
  match v.required.filter (!g.has ·) with
  | [] => return v.command g
  | missing => throw (.missingFlags missing)

/-- The command of a command line. -/
def parse (args : List String) : Except UsageError Command := do
  match bareArguments args with
  | [] =>
    let g ← parseFlags [helpFlag, versionFlag] args {}
    if g.isOn "version" && !g.isOn "help" then return .version
    return .help
  | name :: _ =>
    match Verb.all.find? (·.name == name) with
    | some v => v.parse (withoutFirst name args)
    | none =>
      if name == "completion" then return .help
      if name == "help" then
        let _ ← parseFlags [helpFlag] (withoutFirst name args) {}
        return .help
      throw (.unknownCommand name programName (similarTo name))

end JvmTaint.CommandLine
