import JvmTaint.Settings.Location

set_option autoImplicit false
set_option relaxedAutoImplicit false

/-!
# Hosts

What commands need from where they run: files and directories, a place to print to, names for runs
and a clock. Commands are written for any host, so that they can run on files in memory as well as
on those of a machine.

## Main definitions

* `JvmTaint.CommandLine.FileError`: why a file operation fails.
* `JvmTaint.CommandLine.Host`: the operations of a host.
-/

namespace JvmTaint.CommandLine

/-- Why a file operation fails. -/
inductive FileFault where
  | notFound
  | notDirectory
  | isDirectory
  | alreadyThere
  | longName
  | invalidName
  /-- Another fault, by the words of the host. -/
  | other (text : String)
  deriving DecidableEq, Repr

/-- The words for a fault. -/
def FileFault.text : FileFault → String
  | notFound => "no such file or directory"
  | notDirectory => "not a directory"
  | isDirectory => "is a directory"
  | alreadyThere => "file exists"
  | longName => "file name too long"
  | invalidName => "invalid argument"
  | other text => text

/-- A file operation that failed. -/
structure FileError where
  action : String
  path : String
  fault : FileFault
  deriving DecidableEq, Repr

/-- The message of an error. -/
def FileError.message (e : FileError) : String :=
  e.action ++ " " ++ e.path ++ ": " ++ e.fault.text

/-- Whether the file was there and its bytes could not be had. -/
def FileError.wasOpened (e : FileError) : Bool := e.action == "read"

/-- A place where commands run. -/
class Host (m : Type → Type) where
  /-- The bytes of a file. -/
  readFile : String → m (Except FileError (List UInt8))
  /-- Makes a file, or gives it new bytes. -/
  writeFile : String → List UInt8 → m (Except FileError Unit)
  /-- Gives a file new bytes at once, by way of a new file beside it with the given name. -/
  replaceFile : String → String → List UInt8 → m (Except FileError Unit)
  makeDirectory : String → m (Except FileError Unit)
  print : String → m Unit
  /-- A number that no call has given before. -/
  freshNumber : m String
  /-- A name for a run that no call has given before. -/
  freshRunId : m String
  /-- The nanoseconds since some moment. -/
  clock : m Nat

/-- A name with a part after its last slash, even if the name is a directory as it stands. -/
def insideDirectory (dir name : String) : String :=
  if dir.toList.getLast? == some '/' then dir ++ name else dir ++ "/" ++ name

/-- The last part of a name, slashes at its end aside. -/
def lastPart (path : String) : String :=
  ((Text.split '/' path).filter (!·.isEmpty)).getLast?.getD ""

end JvmTaint.CommandLine
