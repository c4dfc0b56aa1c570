import JvmTaint.Settings.Basic

set_option autoImplicit false
set_option relaxedAutoImplicit false

/-!
# Logs

Messages of five levels. A log shows the messages up to its own level.

## Main definitions

* `JvmTaint.LogLevel`: the level of a message.
* `JvmTaint.Options.logThreshold`: the level of the log of some options.
* `JvmTaint.logLine`: the line of a message.
-/

namespace JvmTaint

/-- The level of a message. -/
inductive LogLevel where
  | error | warn | info | debug | trace
  deriving DecidableEq, Repr, Inhabited

namespace LogLevel

/-- The number of a level. -/
def number : LogLevel → Int
  | error => 1
  | warn => 2
  | info => 3
  | debug => 4
  | trace => 5

/-- The word before a message. -/
def label : LogLevel → String
  | error => "[ERROR] "
  | warn => "[WARN] "
  | info => "[INFO] "
  | debug => "[DEBUG] "
  | trace => "[TRACE] "

/-- The level with a lower-case name. -/
def ofName? : String → Option LogLevel
  | "error" => some error
  | "warn" => some warn
  | "info" => some info
  | "debug" => some debug
  | "trace" => some trace
  | _ => none

end LogLevel

/-- The level of the log of some options. Silencing warnings matters only for a log that would show
nothing below them. -/
def Options.logThreshold (o : Options) : Int :=
  if o.silenceWarn && o.logLevel == LogLevel.warn.number then LogLevel.error.number else o.logLevel

/-- The text of a message in a log, empty if the log does not show its level. A message that does
not end its line is ended. -/
def logLine (threshold : Int) (level : LogLevel) (message : String) : String :=
  if threshold < level.number then ""
  else
    let line := level.label ++ message
    if line.toList.getLast? == some '\n' then line else line ++ "\n"

end JvmTaint
