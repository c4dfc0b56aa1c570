import JvmTaint.CommandLine.Host

set_option autoImplicit false
set_option relaxedAutoImplicit false

/-!
# Workspaces

A directory tree in memory as a host: what is printed is kept, fresh numbers count up and the clock
stands still.

## Main definitions

* `JvmTaint.CommandLine.Place`: where a path leads.
* `JvmTaint.CommandLine.Workspace`: files, directories and what was printed.
* `JvmTaint.CommandLine.Workspace.resolve`: the place that a path leads to.
-/

namespace JvmTaint.CommandLine

/-- A place that a path leads to. -/
inductive Place where
  /-- A place in the workspace, by the names on the way to it. -/
  | inside (names : List String)
  /-- A directory around the workspace. Nothing is known of what is in it. -/
  | around
  deriving DecidableEq, Repr

/-- A directory tree in memory. -/
structure Workspace where
  files : List (List String × List UInt8) := []
  /-- The directories other than the topmost one. -/
  directories : List (List String) := []
  printed : String := ""
  /-- How many fresh numbers were given. -/
  serial : Nat := 0

namespace Workspace

/-- Whether a place is a directory. -/
def isDirectory (w : Workspace) : Place → Bool
  | .around => true
  | .inside names => names.isEmpty || w.directories.contains names

/-- The bytes of the file at a place. -/
def file? (w : Workspace) : Place → Option (List UInt8)
  | .around => none
  | .inside names => w.files.lookup names

/-- The most bytes that a name can have. -/
def maxNameSize : Nat := 255

/-- Follows the parts of a path from a directory. Every part but the last has to be a directory. -/
def follow (w : Workspace) : Place → List String → Except FileFault Place
  | place, [] => .ok place
  | place, part :: parts =>
    if !w.isDirectory place then
      .error (if (w.file? place).isSome then .notDirectory else .notFound)
    else if part == "" || part == "." then w.follow place parts
    else if part.utf8ByteSize > maxNameSize then .error .longName
    else match place with
      | .around => if part == ".." then w.follow .around parts else .error .notFound
      | .inside names =>
        if part != ".." then w.follow (.inside (names ++ [part])) parts
        else w.follow (if names.isEmpty then .around else .inside names.dropLast) parts

/-- The place that a path leads to. -/
def resolve (w : Workspace) (path : String) : Except FileFault Place :=
  if path.isEmpty then .error .notFound
  else if path.contains (Char.ofNat 0) then .error .invalidName
  else w.follow (if Location.isAbsolute path then .around else .inside []) (Text.split '/' path)

/-- The bytes of the file at a path. -/
def read (w : Workspace) (path : String) : Except FileError (List UInt8) :=
  match w.resolve path with
  | .error fault => .error ⟨"open", path, fault⟩
  | .ok place =>
    if w.isDirectory place then .error ⟨"read", path, .isDirectory⟩
    else match w.file? place with
      | some bytes => .ok bytes
      | none => .error ⟨"open", path, .notFound⟩

/-- The workspace with new bytes in the file at a place. -/
def put (w : Workspace) (place : Place) (bytes : List UInt8) : Workspace :=
  match place with
  | .around => w
  | .inside names => { w with files := w.files.filter (·.1 != names) ++ [(names, bytes)] }

/-- The workspace with new bytes in the file at a path. -/
def write (w : Workspace) (path : String) (bytes : List UInt8) : Except FileError Workspace :=
  match w.resolve path with
  | .error fault => .error ⟨"open", path, fault⟩
  | .ok place =>
    if w.isDirectory place then .error ⟨"open", path, .isDirectory⟩ else .ok (w.put place bytes)

/-- The workspace with new bytes in the file at a path, which were first in the file `temporary`. -/
def replace (w : Workspace) (path temporary : String) (bytes : List UInt8) :
    Except FileError Workspace :=
  match w.resolve temporary, w.resolve path with
  | .error fault, _ => .error ⟨"open", temporary, fault⟩
  | .ok _, .error fault => .error ⟨"rename", temporary ++ " " ++ path, fault⟩
  | .ok _, .ok place =>
    if w.isDirectory place then .error ⟨"rename", temporary ++ " " ++ path, .alreadyThere⟩
    else .ok (w.put place bytes)

/-- A path without the slashes at its end, unless there is nothing else. -/
def withoutSlashes (path : String) : String :=
  match path.toList.reverse.dropWhile (· == '/') with
  | [] => path
  | cs => String.ofList cs.reverse

/-- The workspace with a new directory. -/
def makeDirectory (w : Workspace) (path : String) : Except FileError Workspace :=
  match w.resolve (withoutSlashes path) with
  | .error fault => .error ⟨"mkdir", path, fault⟩
  | .ok place =>
    match place with
    | .around => .error ⟨"mkdir", path, .alreadyThere⟩
    | .inside names =>
      if w.isDirectory place || (w.file? place).isSome then .error ⟨"mkdir", path, .alreadyThere⟩
      else .ok { w with directories := w.directories ++ [names] }

/-- The directories above a file, by the names on the way to it. -/
def above (names : List String) : List (List String) :=
  (List.range (names.length - 1)).map fun i => names.take (i + 1)

/-- The workspace with a file and the directories above it. -/
def withFile (w : Workspace) (path : String) (bytes : List UInt8) : Workspace :=
  let names := Text.split '/' (Location.clean path)
  let fresh := (above names).filter (!w.directories.contains ·)
  { w with directories := w.directories ++ fresh }.put (.inside names) bytes

/-- The number of the fresh number `n`. -/
def numberText (n : Nat) : String := toString (1000000000 + n)

/-- The run name of the fresh number `n`. -/
def runIdText (n : Nat) : String := "00000000-0000-4000-8000-00" ++ numberText n

/-- Runs an operation that may fail. -/
def attempt (f : Workspace → Except FileError Workspace) :
    StateM Workspace (Except FileError Unit) := do
  match f (← get) with
  | .ok w => set w; return .ok ()
  | .error e => return .error e

/-- The next fresh number. -/
def next : StateM Workspace Nat := modifyGet fun w => (w.serial, { w with serial := w.serial + 1 })

instance : Host (StateM Workspace) where
  readFile path := return (← get).read path
  writeFile path bytes := attempt (·.write path bytes)
  replaceFile path temporary bytes := attempt (·.replace path temporary bytes)
  makeDirectory path := attempt (·.makeDirectory path)
  print text := modify fun w => { w with printed := w.printed ++ text }
  freshNumber := return numberText (← next)
  freshRunId := return runIdText (← next)
  clock := return 0

end Workspace

end JvmTaint.CommandLine
