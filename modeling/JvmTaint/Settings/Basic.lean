import JvmTaint.Settings.Location
import JvmTaint.Settings.Spec

set_option autoImplicit false
set_option relaxedAutoImplicit false

/-!
# Settings

The entry points, problems and options of the analyses.

## Main definitions

* `JvmTaint.Options`, `JvmTaint.Settings`: the settings.
* `JvmTaint.checkDepth`: the bounds of the depth of access paths.
* `JvmTaint.Settings.ofDocument`: the settings of a document.
-/

namespace JvmTaint

open Decoder

/-- The depth of access paths if none is given. -/
def defaultDepth : Int := 5

/-- The largest depth of access paths. -/
def depthLimit : Int := 32

/-- The level of a log that shows results and all that is worse. -/
def infoLevel : Int := 3

/-- The options of the analyses. -/
structure Options where
  reportsDir : String := ""
  /-- Whether each flow is written to a file of its own. -/
  reportPaths : Bool := false
  /-- The largest number of selectors of an access path. -/
  depth : Int := defaultDepth
  /-- Whether traces can be asked for. -/
  provenance : Bool := true
  /-- The largest number of path edges of a run; none if it is not positive. -/
  budget : Int := 0
  /-- The number of workers; as many as there are processors if it is not positive. -/
  parallelism : Int := 0
  /-- The largest number of flows that are reported; none if it is not positive. -/
  maxAlarms : Int := 0
  logLevel : Int := infoLevel
  silenceWarn : Bool := false
  deriving DecidableEq, Repr, Inhabited

/-- The settings of the analyses. -/
structure Settings where
  options : Options := {}
  /-- The program file, relative to the settings file. -/
  program : String := ""
  entryPoints : List CodeIdentifier := []
  problems : List ProblemSpec := []
  /-- The name of the settings file. -/
  file : String := ""
  deriving DecidableEq, Repr, Inhabited

/-- Why there are no settings. -/
inductive SettingsError where
  | decode (file : String) (e : DecodeError)
  /-- The depth of access paths is out of bounds. -/
  | depth (k : Int)

/-- The message about a depth out of bounds. -/
def depthMessage (k : Int) : String :=
  "invalid maximum access path depth: " ++ toString k ++ " is not in [1, " ++ toString depthLimit ++
    "]"

/-- The message of an error. -/
def SettingsError.message : SettingsError → String
  | decode file e => "could not unmarshal config file " ++ file ++ ": " ++ e.message
  | depth k => depthMessage k

/-- Whether a depth is within its bounds. -/
def checkDepth (k : Int) : Bool := decide (1 ≤ k) && decide (k ≤ depthLimit)

/-- The options. -/
def Options.decode (start : Options) : Document → Decoder (Option Options) :=
  record "config.Options" false start fun
    | "reports-dir" => setter string fun o v => { o with reportsDir := v }
    | "report-paths" => setter bool fun o v => { o with reportPaths := v }
    | "max-access-path-depth" => setter (int64 "int") fun o v => { o with depth := v }
    | "retain-provenance" => setter bool fun o v => { o with provenance := v }
    | "path-edge-budget" => setter (int64 "int") fun o v => { o with budget := v }
    | "parallelism" => setter (int64 "int") fun o v => { o with parallelism := v }
    | "max-alarms" => setter (int64 "int") fun o v => { o with maxAlarms := v }
    | "log-level" => setter (int64 "int") fun o v => { o with logLevel := v }
    | "silence-warn" => setter bool fun o v => { o with silenceWarn := v }
    | _ => none

namespace Settings

/-- The settings. -/
def decode : Document → Decoder (Option Settings) :=
  record "config.Config" false {} fun
    | "options" => some fun s d => do
      match ← Options.decode s.options d with
      | some options => return { s with options }
      | none => return s
    | "program" => setter string fun s v => { s with program := v }
    | "entry-points" => setter CodeIdentifier.decodeList fun s v => { s with entryPoints := v }
    | "taint-tracking-problems" =>
      setter (list "[]config.TaintSpec" ProblemSpec.decode) fun s v => { s with problems := v }
    | _ => none

/-- The settings with the options that are zero set to their defaults. -/
def withDefaults (s : Settings) : Settings :=
  { s with options := { s.options with
      logLevel := if s.options.logLevel = 0 then infoLevel else s.options.logLevel
      depth := if s.options.depth = 0 then defaultDepth else s.options.depth } }

/-- The settings that a document writes down, before they are checked. -/
def read (file : String) (d : Option Document) : Except SettingsError Settings := do
  match d with
  | none => return { file }
  | some d => match (decode d).run with
    | .error e => throw (.decode file e)
    | .ok s => return { s.getD {} with file }

/-- Settings with their defaults, if they are within their bounds. -/
def check (s : Settings) : Except SettingsError Settings :=
  let s := s.withDefaults
  if checkDepth s.options.depth then .ok s else .error (.depth s.options.depth)

/-- The settings of a document. -/
def ofDocument (file : String) (d : Option Document) : Except SettingsError Settings := do
  (← read file d).check

/-- A name relative to the settings file. -/
def relative (s : Settings) (name : String) : String :=
  if Location.isAbsolute name then name else Location.join (Location.parent s.file) name

/-- The place of the program file; empty if the settings name none. -/
def programPath (s : Settings) : String := if s.program.isEmpty then "" else s.relative s.program

/-- Whether names match an entry point. -/
def isEntryPoint (s : Settings) (names : CodeIdentifier) : Bool :=
  s.entryPoints.any (·.matcher.admits names)

/-- Whether the log shows more than results. -/
def verbose (s : Settings) : Bool := decide (s.options.logLevel > infoLevel)

end Settings

end JvmTaint
