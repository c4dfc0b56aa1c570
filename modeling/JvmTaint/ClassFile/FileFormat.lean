set_option autoImplicit false
set_option relaxedAutoImplicit false

/-!
# Formats of program files

A program file is block text or packed bytes; the extension of its name tells which.

## Main definitions

* `JvmTaint.FileFormat`: the formats.
* `JvmTaint.extension`: the extension of a file name.
* `JvmTaint.FileFormat.ofName?`: the format of a file.
-/

namespace JvmTaint

/-- The format of a program file. -/
inductive FileFormat where
  | text
  | packed
  deriving DecidableEq, Repr

/-- The extension of a file name: from the last dot of its last part on, empty if there is none. -/
def extension (name : String) : String :=
  let last := name.toList.reverse.takeWhile (· ≠ '/')
  if last.contains '.' then String.ofList (last.takeWhile (· ≠ '.') ++ ['.']).reverse else ""

namespace FileFormat

/-- The format of a file, by the extension of its name. -/
def ofName? (name : String) : Option FileFormat :=
  match extension name with
  | ".yaml" | ".yml" => some text
  | ".msgpack" | ".mp" => some packed
  | _ => none

/-- The message about a file without a format. -/
def unknownMessage (name : String) : String :=
  "unknown program file extension for " ++ name ++ " (expected .yaml, .yml, .msgpack or .mp)"

end FileFormat

end JvmTaint
