import JvmTaint.Text.Shown

set_option autoImplicit false
set_option relaxedAutoImplicit false

/-!
# Hints

What to do about common errors.

## Main definitions

* `JvmTaint.CommandLine.hints`: the texts that messages may hold, with the hints.
* `JvmTaint.CommandLine.hintFor`: the hint for a message.
-/

namespace JvmTaint.CommandLine

/-- The texts that messages may hold, with the hints for them. -/
def hints : List (String × String) := [
  ("unknown program file extension", "program files must end with .yaml, .yml, .msgpack or .mp"),
  ("invalid maximum access path depth",
    "set max-access-path-depth between 1 and 32 in the options of the config"),
  ("no entry point", "check the entry-points of the config against the classes of the program"),
  ("analysis incomplete",
    "increase path-edge-budget in the options of the config, or set it to 0")]

/-- The hint for a message: the first whose text the message holds, empty if there is none. -/
def hintFor (message : String) : String :=
  match hints.find? fun (part, _) => Text.holds message part with
  | some (_, hint) => hint
  | none => ""

end JvmTaint.CommandLine
