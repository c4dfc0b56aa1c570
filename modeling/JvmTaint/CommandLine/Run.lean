import JvmTaint.ClassFile.ProgramFile
import JvmTaint.CommandLine.Command
import JvmTaint.CommandLine.Host
import JvmTaint.Metrics.Basic
import JvmTaint.Taint.Report

set_option autoImplicit false
set_option relaxedAutoImplicit false

/-!
# Running commands

What the commands do on a host. What a command prints before it fails stays printed.

## Main definitions

* `JvmTaint.CommandLine.RunError`: why a command fails.
* `JvmTaint.CommandLine.Command.run`: runs a command.
* `JvmTaint.CommandLine.execute`: runs a command line.
-/

namespace JvmTaint.CommandLine

/-- Why a command fails. -/
inductive RunError where
  | usage (e : UsageError)
  | unknownFormat (name : String)
  | settingsFile (e : FileError)
  | settings (e : SettingsError)
  | reportsDirectory (dir : String)
  | temporaryDirectory (e : FileError)
  /-- Neither the settings nor a flag name a program. -/
  | noProgram
  /-- The name of a program file tells no format. -/
  | programName (name : String)
  | programFile (e : FileError)
  | program (file : String) (e : ProgramFileError)
  /-- The classes of a program contradict each other. -/
  | classes (file : String) (e : ProgramError)
  | createProgram (e : FileError)
  | methodRef (e : MethodRefError)
  | flowGraph (ref : MethodRef) (e : GraphError)
  | problem (e : ProblemError)
  | analyses (errors : List AnalysisError)
  | report (e : FileError)
  | metrics (e : FileError)

/-- The message of an error. -/
def RunError.message : RunError → String
  | usage e => e.message
  | unknownFormat name => "unknown format " ++ Text.quote name
  | settingsFile e => "could not read config file: " ++ e.message
  | settings e => e.message
  | reportsDirectory dir => "could not create directory " ++ dir
  | temporaryDirectory e => "could not create temp dir for reports: " ++ e.message
  | noProgram => "no program: set program in the config or use --program"
  | programName name => FileFormat.unknownMessage name
  | programFile e => "could not open program file: " ++ e.message
  | program file e => file ++ ": " ++ e.message
  | classes file e => file ++ ": " ++ e.message
  | createProgram e => "could not create program file: " ++ e.message
  | methodRef e => e.message
  | flowGraph ref e => "could not build " ++ ref.render ++ ": " ++ e.message
  | problem e => e.message
  | analyses errors => "\n".intercalate (errors.map AnalysisError.message)
  | report e => "could not write report: " ++ e.message
  | metrics e => "could not write metrics: " ++ e.message

/-- Seconds with some places, rounded. -/
def secondsText (places nanoseconds : Nat) : String :=
  let unit := Nat.pow 10 (9 - places)
  let n := (nanoseconds + unit / 2) / unit
  let fraction := toString (n % Nat.pow 10 places)
  toString (n / Nat.pow 10 places) ++ "." ++ "".pushn '0' (places - fraction.length) ++ fraction

section

variable {m : Type → Type} [Monad m] [Host m]

/-- The outcome of a file operation, its error under a name. -/
def orFail {α : Type} (name : FileError → RunError) (action : m (Except FileError α)) :
    ExceptT RunError m α := do
  match ← action with
  | .ok a => return a
  | .error e => throw (name e)

/-- A pure outcome, its error under a name. -/
def orThrow {ε α : Type} (name : ε → RunError) (outcome : Except ε α) : ExceptT RunError m α :=
  match outcome with
  | .ok a => return a
  | .error e => throw (name e)

/-- Prints a text. -/
def print (text : String) : ExceptT RunError m Unit := ExceptT.lift (Host.print text)

/-- Prints the messages that a log of some options shows. -/
def printLog (o : Options) (time : String) (entries : List LogEntry) : ExceptT RunError m Unit :=
  print (String.join (entries.map fun e => logLine o.logThreshold e.level (e.message time)))

/-- Prints a message if a log of some options shows it. -/
def say (o : Options) (level : LogLevel) (text : String) : ExceptT RunError m Unit :=
  printLog o "" [{ level, text }]

/-! ## Files -/

/-- The settings with a directory for reports, if reports are asked for. -/
def prepareReports (s : Settings) : ExceptT RunError m Settings := do
  if !s.options.reportPaths then return s
  if s.options.reportsDir.isEmpty then
    let name := (← Host.freshNumber (m := m)) ++ "-report"
    let dir := insideDirectory (Location.parent s.file) name
    orFail .temporaryDirectory (Host.makeDirectory (m := m) dir)
    return { s with options := { s.options with reportsDir := dir } }
  match ← (Host.makeDirectory s.options.reportsDir : m (Except FileError Unit)) with
  | .ok () | .error ⟨_, _, .alreadyThere⟩ => return s
  | .error _ => throw (.reportsDirectory s.options.reportsDir)

/-- The settings of a file. -/
def loadSettings (path : String) : ExceptT RunError m Settings := do
  let bytes ← orFail .settingsFile (Host.readFile (m := m) path)
  let document ← orThrow (fun e => .settings (.decode path e)) (Document.read (Text.ofBytes bytes))
  let settings ← prepareReports (← orThrow .settings (Settings.read path document))
  orThrow .settings settings.check

/-- The format of a program file. -/
def formatOf (path : String) : ExceptT RunError m FileFormat :=
  match FileFormat.ofName? path with
  | some format => return format
  | none => throw (.programName path)

/-- The program of a file, and its classes. -/
def loadProgram (path : String) : ExceptT RunError m (Program × ClassTable) := do
  let format ← formatOf path
  let fault (e : FileError) : RunError :=
    if e.wasOpened then .program path (.unreadable format e.message) else .programFile e
  let bytes ← orFail fault (Host.readFile (m := m) path)
  let program ← orThrow (.program path) (Program.ofBytes format bytes)
  return (program, ← orThrow (.classes path) (ClassTable.ofProgram program))

/-- Writes measurements to a file, if one is named. -/
def writeMetrics (path : String) (metrics : Metrics) : ExceptT RunError m Unit := do
  if path.isEmpty then return
  let name := lastPart path ++ (← Host.freshNumber (m := m))
  let temporary := insideDirectory (Location.parent path) name
  orFail .metrics (Host.replaceFile (m := m) path temporary
    (Text.toBytes ((metrics.render?).getD "")))

/-! ## Taint analyses -/

/-- A taint analysis that ended. -/
structure FinishedRun where
  problem : String
  result : Option AnalysisResult
  error : Option AnalysisError
  /-- How long it took, in nanoseconds. -/
  duration : Nat

/-- Prints the log of a session and empties it. -/
def flushLog (s : Session) (duration : Nat) : ExceptT RunError m Session := do
  printLog s.settings.options (secondsText 2 duration) s.log
  return { s with log := [] }

/-- Runs the taint analyses of some rule sets, one after the other. -/
def runAll (entries : List MethodRef) :
    List RuleSet → Session → ExceptT RunError m (List FinishedRun)
  | [], _ => return []
  | rules :: more, s => do
    let id ← Host.freshRunId (m := m)
    let start ← Host.clock (m := m)
    let options := RunOptions.ofOptions s.settings.options
    let (s, result, error) := s.analyze id entries (some rules) options false
    let duration := (← Host.clock (m := m)) - start
    let s ← flushLog s duration
    let runs ← runAll entries more s
    return { problem := rules.name, result, error, duration } :: runs

/-- Writes files one after the other, up to the first that cannot be written. -/
def writeReports (dir : String) :
    List (String × String) → ExceptT RunError m (List String × Option FileError)
  | [] => return ([], none)
  | (name, text) :: rest => do
    let path := Location.join dir name
    match ← (Host.writeFile path (Text.toBytes text) : m (Except FileError Unit)) with
    | .error e => return ([], some e)
    | .ok () =>
      let (written, fault) ← writeReports dir rest
      return (path :: written, fault)

/-- Shows a result: in the log, and in files if they are asked for. -/
def showResult (s : Session) (r : AnalysisResult) : ExceptT RunError m Unit := do
  let o := s.settings.options
  printLog o "" (r.messages s.code)
  if o.reportPaths && !o.reportsDir.isEmpty then
    let (written, fault) ← writeReports o.reportsDir (r.flowFiles s.code)
    printLog o "" (written.map fun path => { level := .info, text := "Report in " ++ path })
    if let some e := fault then throw (.report e)

/-- The settings of a taint analysis with what the flags change. -/
def TaintOptions.adjust (o : TaintOptions) (s : Settings) : Except RunError Settings := do
  let options :=
    if o.verbose then { s.options with logLevel := LogLevel.debug.number } else s.options
  if o.depth = 0 then return { s with options }
  if !checkDepth o.depth then throw (.settings (.depth o.depth))
  return { s with options := { options with depth := o.depth } }

/-- The line that ends the log of a taint analysis. -/
def verdict (flows : Nat) : LogEntry :=
  if flows = 0 then { level := .info, text := "RESULT:\n\t\tNo taint flows detected ✓" }
  else { level := .error, text := "RESULT:\n\t\t" ++ toString flows ++ " taint flows detected!" }

/-- Runs the taint analyses that settings ask for. -/
def runTaint (o : TaintOptions) : ExceptT RunError m Unit := do
  if o.format ≠ "text" ∧ o.format ≠ "yaml" then throw (.unknownFormat o.format)
  let settings ← orThrow id (o.adjust (← loadSettings o.settings))
  let path := if o.program.isEmpty then settings.programPath else o.program
  if path.isEmpty then throw .noProgram
  say settings.options .info ("Jargot taint tool - " ++ version)
  say settings.options .info ("Reading program " ++ path)
  let (_, table) ← loadProgram path
  let start ← Host.clock (m := m)
  let (s, prepared) := Session.prepare { code := CodeBase.ofTable table, settings }
  let s ← flushLog s 0
  let runs ← match prepared with
    | .ok (ruleSets, entries) => runAll entries ruleSets s
    | .error _ => pure []
  let duration := (← Host.clock (m := m)) - start
  say settings.options .info ("Analysis took " ++ secondsText 4 duration ++ " s")
  for run in runs do
    if let some r := run.result then
      if o.format = "yaml" then print r.block.render else showResult s r
  writeMetrics o.metrics { runs := runs.map fun r => RunRecord.of r.problem r.duration r.result }
  if let .error e := prepared then throw (.problem e)
  let errors := runs.filterMap (·.error)
  if !errors.isEmpty then throw (.analyses errors)
  let flows := sumOf (runs.map fun r => (r.result.map (·.flows.length)).getD 0)
  say settings.options .info ("".pushn '*' 80)
  printLog settings.options "" [verdict flows]

/-! ## Graphs and program files -/

/-- The method that an argument names. -/
def methodOf (text : String) : ExceptT RunError m MethodRef :=
  orThrow .methodRef (MethodRef.parse text)

/-- Prints the flow graphs of some methods, up to the first that has none. -/
def printGraphs (code : CodeBase) (dot : Bool) : List String → ExceptT RunError m Unit
  | [] => return
  | text :: rest => do
    let ref ← methodOf text
    let g ← orThrow (.flowGraph ref) (code.graph ref)
    print (if dot then g.renderDot else g.render)
    printGraphs code dot rest

/-- What is printed about a call graph: its edges, its recursive components, its cycles and the
calls without a target. -/
def CallGraph.summary (g : CallGraph) : String :=
  let names (between : String) (refs : List MethodRef) := between.intercalate (refs.map (·.render))
  let calls := g.unresolved.map fun (graph, i) =>
    "  " ++ graph.ref.render ++ "#" ++ toString i ++ ": " ++
      ((graph.statements[i]?).map Statement.render).getD "" ++ "\n"
  g.render ++ "Strongly connected components:\n" ++
    String.join (g.recursiveComponents.map fun c => "  [" ++ names ", " c ++ "]\n") ++
    "Cycles:\n" ++ String.join (g.cycles.map fun c => "  " ++ names " -> " c ++ "\n") ++
    (if calls.isEmpty then ""
    else toString calls.length ++ " call sites without callee\n" ++ String.join calls)

/-- Prints the call graph of some entry methods. -/
def runCallGraph (program : String) (entries : List String) (metrics : String) :
    ExceptT RunError m Unit := do
  let (_, table) ← loadProgram program
  let entries ← entries.mapM methodOf
  let settings : Settings := { options := { logLevel := LogLevel.warn.number } }
  let session : Session := { code := CodeBase.ofTable table, settings }
  let (session, graph) := session.callGraph entries false
  if let some g := graph then
    print (CallGraph.summary g)
    printLog settings.options "" (g.failures.map fun (ref, e) =>
      { level := .warn, text := ref.render ++ ": " ++ e.message })
  writeMetrics metrics { state := some session.stateRecord }

/-- Writes the program of one file to another. Superclasses are written out. -/
def runConvert (source target : String) : ExceptT RunError m Unit := do
  let (program, _) ← loadProgram source
  let format ← formatOf target
  orFail .createProgram (Host.writeFile (m := m) target (program.withSuperclasses.toBytes format))

/-- What is printed for help. -/
def helpText : String :=
  "Jargot analyzes programs given as class databases (YAML or msgpack program files).\n\n" ++
    "Commands:\n" ++
    "  taint       runs the taint analysis problems of a config file\n" ++
    "  cfg         prints the control flow graph of a method\n" ++
    "  callgraph   prints the call graph reachable from entry methods\n" ++
    "  convert     re-encodes a program file\n"

/-- Runs a command. -/
def Command.run : Command → ExceptT RunError m Unit
  | .help => print helpText
  | .version => print (programName ++ " version " ++ CommandLine.version ++ "\n")
  | .taint o => runTaint o
  | .flowGraph program dot methods => do
    let (_, table) ← loadProgram program
    printGraphs (CodeBase.ofTable table) dot methods
  | .callGraph program entries metrics => runCallGraph program entries metrics
  | .convert source target => runConvert source target

/-- Runs a command line. -/
def execute (args : List String) : m (Except RunError Unit) :=
  ExceptT.run do
    let command ← orThrow .usage (parse args)
    command.run

end

end JvmTaint.CommandLine
