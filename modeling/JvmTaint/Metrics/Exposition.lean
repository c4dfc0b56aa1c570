import JvmTaint.Metrics.Decimal

set_option autoImplicit false
set_option relaxedAutoImplicit false

/-!
# Exposition of measurements

The text form in which measurements are handed to a monitoring system. The samples of one quantity
are a family with a line of explanation and a line with its kind.

## Main definitions

* `JvmTaint.Sample`: a value with its labels.
* `JvmTaint.MetricFamily`, `JvmTaint.MetricFamily.render`: the samples of one quantity.
* `JvmTaint.histogramSamples`: the samples of a histogram.
-/

namespace JvmTaint

/-- A value with its labels. -/
structure Sample where
  /-- What follows the name of the family. -/
  suffix : String := ""
  labels : List (String × String) := []
  value : Float

/-- The kind of a family. -/
inductive MetricKind where
  /-- A value that may rise and fall. -/
  | gauge
  /-- A value that only rises. -/
  | counter
  /-- Observations, counted by upper bounds. -/
  | histogram
  deriving DecidableEq, Repr

/-- The name of a kind. -/
def MetricKind.name : MetricKind → String
  | gauge => "gauge"
  | counter => "counter"
  | histogram => "histogram"

/-- The samples of one quantity. -/
structure MetricFamily where
  name : String
  help : String
  kind : MetricKind
  samples : List Sample

/-- The value of a label between quotes. -/
def labelText (value : String) : String :=
  String.ofList <| value.toList.flatMap fun
    | '\\' => ['\\', '\\']
    | '\n' => ['\\', 'n']
    | '"' => ['\\', '"']
    | c => [c]

namespace MetricFamily

/-- The line of a sample. -/
def sampleLine (name : String) (s : Sample) : String :=
  let labels :=
    if s.labels.isEmpty then ""
    else "\x7b" ++ ",".intercalate (s.labels.map fun (k, v) => k ++ "=\"" ++ labelText v ++ "\"") ++
      "\x7d"
  name ++ s.suffix ++ labels ++ " " ++ floatText s.value ++ "\n"

/-- The text of a family; a family without samples has none. -/
def render (f : MetricFamily) : String :=
  if f.samples.isEmpty then ""
  else
    "# HELP " ++ f.name ++ " " ++ f.help ++ "\n# TYPE " ++ f.name ++ " " ++ f.kind.name ++ "\n" ++
      String.join (f.samples.map (sampleLine f.name))

end MetricFamily

/-- The text of some families, by name. -/
def renderFamilies (families : List MetricFamily) : String :=
  String.join ((families.mergeSort fun a b => decide (a.name ≤ b.name)).map MetricFamily.render)

/-- Bounds that grow by a factor: `start`, `start * factor` and so on. -/
def growingBounds (factor : Float) : Nat → Float → List Float
  | 0, _ => []
  | n + 1, start => start :: growingBounds factor n (start * factor)

/-- The samples of a histogram of some observations: for each bound how many are not above it, then
their sum and their number. -/
def histogramSamples (labels : List (String × String)) (bounds observed : List Float) :
    List Sample :=
  let bucket (le : String) (n : Nat) : Sample :=
    { suffix := "_bucket", labels := labels ++ [("le", le)], value := n.toFloat }
  bounds.map (fun b => bucket (floatText b) (observed.countP fun x => x ≤ b)) ++
    [bucket "+Inf" observed.length,
      { suffix := "_sum", labels, value := observed.foldl (· + ·) 0 },
      { suffix := "_count", labels, value := observed.length.toFloat }]

end JvmTaint
