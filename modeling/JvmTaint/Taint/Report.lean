import JvmTaint.Document.Block
import JvmTaint.Session
import JvmTaint.Text.Shown

set_option autoImplicit false
set_option relaxedAutoImplicit false

/-!
# Reports

The results of analyses as documents, log messages and files.

## Main definitions

* `JvmTaint.AnalysisResult.block`: the document of a result.
* `JvmTaint.AnalysisResult.messages`: the log messages of a result.
* `JvmTaint.AnalysisResult.flowFiles`: the files of its flows.
-/

namespace JvmTaint

/-- The text of a list of numbers. -/
def bracketed (numbers : List Int) : String := "[" ++ " ".intercalate (numbers.map toString) ++ "]"

/-- The statement at a site. -/
def CodeBase.statementText (c : CodeBase) (site : Site) : String :=
  match c.graph site.method with
  | .ok g => ((g.statements[site.index]?).map Statement.render).getD ""
  | .error _ => ""

/-- The document of a line of a trace. -/
def TraceRecord.block (r : TraceRecord) : Block :=
  .map [("class", .text r.cls), ("method", .text r.method),
    ("index", .int r.index), ("access-path", .text r.accessPath)]

/-- An entry of a record that is left out if it is empty. -/
def optionalText (key value : String) : List (String × Block) :=
  if value.isEmpty then [] else [(key, .text value)]

/-- A list in a record that is left out if it is empty. -/
def optionalList (key : String) (items : List Block) : List (String × Block) :=
  if items.isEmpty then [] else [(key, .seq items)]

/-- The document of a flow. -/
def Flow.block (f : Flow) : Block :=
  .map ([("source", .text f.source.render), ("sink", .text f.sink.render),
      ("access-path", .text ((f.fact.path?.getD {}).render))] ++
    optionalText "mark" f.fact.mark ++ [("rule", .text f.rule.name)] ++
    optionalList "cwe" (f.rule.cwe.map .int) ++
    optionalText "note" f.rule.note ++
    optionalList "trace" (f.records.map TraceRecord.block))

namespace AnalysisResult

/-- The errors of a result, each with what it is about, sorted. -/
def errorLines (r : AnalysisResult) : List String :=
  (r.errors.flatMap fun (key, texts) => texts.map fun text => key ++ ": " ++ text).mergeSort
    fun a b => decide (a ≤ b)

/-- The document of a result. -/
def block (r : AnalysisResult) : Block :=
  .map ([("run-id", .text r.runId)] ++ optionalText "problem" r.problem ++
    (if r.isPartial then [("partial", .bool true)] else []) ++
    [("flows", .seq (r.flows.map Flow.block))] ++
    optionalList "errors" (r.errorLines.map .text))

/-- The log messages of a flow. -/
def flowMessages (c : CodeBase) (f : Flow) : List LogEntry :=
  let shown (site : Site) := Text.sanitize (c.statementText site)
  let note :=
    if f.rule.note.isEmpty && f.rule.cwe.isEmpty then []
    else
      [{ level := .info
         text := " Note: " ++ f.rule.note ++ " (CWE " ++ bracketed f.rule.cwe ++ ")" }]
  [{ level := .info, text := " 💀 Sink reached at " ++ f.sink.render },
    { level := .info, text :=
        " Add new path from " ++ shown f.source ++ " to " ++ shown f.sink ++ " <== " }] ++ note ++
    f.records.map fun line => { level := .debug, text := "TRACE: " ++ line.render }

/-- The log messages of a result. -/
def messages (c : CodeBase) (r : AnalysisResult) : List LogEntry :=
  (if r.isPartial then
    [{ level := .warn, text := "Analysis " ++ r.runId ++ " of " ++ Text.quote r.problem ++
        " is partial: the path edge budget was exceeded" }]
  else []) ++ r.flows.flatMap (flowMessages c) ++
    (r.errors.mergeSort fun a b => decide (a.1 ≤ b.1)).flatMap fun (key, texts) =>
      texts.map fun text => { level := .warn, text := key ++ ": " ++ text }

/-- The text of the file of a flow. -/
def flowText (c : CodeBase) (f : Flow) : String :=
  "Source: " ++ c.statementText f.source ++ "\nAt: " ++ f.source.render ++
    "\nSink: " ++ c.statementText f.sink ++ "\nAt: " ++ f.sink.render ++
    "\nRule: " ++ f.rule.render ++ "\nTrace:\n" ++
    String.join (f.records.map fun line => line.render ++ "\n")

/-- The files of the flows: their names and texts. -/
def flowFiles (c : CodeBase) (r : AnalysisResult) : List (String × String) :=
  r.flows.zipIdx.map fun (f, i) =>
    ("taint-" ++ r.runId ++ "-" ++ toString i ++ ".out", flowText c f)

end AnalysisResult

end JvmTaint
