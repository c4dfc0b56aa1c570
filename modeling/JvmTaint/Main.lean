import JvmTaint.CommandLine.Hint
import JvmTaint.CommandLine.Run

set_option autoImplicit false
set_option relaxedAutoImplicit false

/-!
# The program

Commands on the files of the machine.

## Main definitions

* `main`: runs the command line.
-/

namespace JvmTaint.CommandLine

/-- The fault of a failed file operation. -/
def faultOf : IO.Error → FileFault
  | .noFileOrDirectory .. | .noSuchThing .. => .notFound
  | .inappropriateType .. => .notDirectory
  | .alreadyExists .. => .alreadyThere
  | .permissionDenied .. => .other "permission denied"
  | e => .other e.toString

/-- The outcome of a file operation. -/
def outcomeOf {α : Type} (action path : String) (io : IO α) : IO (Except FileError α) := do
  try
    return .ok (← io)
  catch e =>
    return .error ⟨action, path, faultOf e⟩

/-- Some random hexadecimal digits. -/
def randomDigits : Nat → IO (List Char)
  | 0 => return []
  | n + 1 => do
    let d ← IO.rand 0 15
    return Text.hexDigit d :: (← randomDigits n)

instance : Host IO where
  readFile path := outcomeOf "open" path do return (← IO.FS.readBinFile path).toList
  writeFile path bytes := outcomeOf "open" path (IO.FS.writeBinFile path ⟨bytes.toArray⟩)
  replaceFile path temporary bytes := outcomeOf "open" temporary do
    IO.FS.writeBinFile temporary ⟨bytes.toArray⟩
    IO.FS.rename temporary path
  makeDirectory path := outcomeOf "mkdir" path (IO.FS.createDir path)
  print text := do
    let out ← IO.getStdout
    out.putStr text
  freshNumber := return toString (← IO.rand 0 4294967295)
  freshRunId := do
    let part (n : Nat) : IO String := return String.ofList (← randomDigits n)
    return (← part 8) ++ "-" ++ (← part 4) ++ "-4" ++ (← part 3) ++ "-8" ++ (← part 3) ++ "-" ++
      (← part 12)
  clock := IO.monoNanosNow

end JvmTaint.CommandLine

open JvmTaint.CommandLine in
/-- Runs the command line. An error is printed with a hint, if there is one. -/
def main (args : List String) : IO UInt32 := do
  match ← execute (m := IO) args with
  | .ok () => return 0
  | .error e =>
    let err ← IO.getStderr
    err.putStr ("error: " ++ e.message ++ "\n")
    let hint := hintFor e.message
    if !hint.isEmpty then err.putStr ("Hint: " ++ hint ++ "\n")
    return 2
