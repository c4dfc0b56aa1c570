import JvmTaint.ClassFile.Decode
import JvmTaint.ClassFile.Encode
import JvmTaint.ClassFile.FileFormat
import JvmTaint.ClassFile.Pack
import JvmTaint.Document.BlockReader

set_option autoImplicit false
set_option relaxedAutoImplicit false

/-!
# Program files

The bytes of programs in the two formats of program files.

## Main definitions

* `JvmTaint.ProgramFileError`: why a file holds no program.
* `JvmTaint.Program.ofBytes`, `JvmTaint.Program.toBytes`: reading and writing a file.
-/

namespace JvmTaint

/-- Why a file holds no program. -/
inductive ProgramFileError where
  | text (e : DecodeError)
  | packed (e : PackedError)
  /-- The bytes of the file cannot be had, for a reason given in words. -/
  | unreadable (format : FileFormat) (reason : String)

/-- The message of an error. -/
def ProgramFileError.message (e : ProgramFileError) : String :=
  "could not decode program: " ++ match e with
    | text e => e.message
    | packed e => e.message
    | unreadable .text reason => "yaml: input error: " ++ reason
    | unreadable .packed reason => reason

namespace Program

/-- The program of a text. -/
def ofText (text : String) : Except DecodeError Program := do
  ofDocument (← Document.read text)

/-- The program that the block text of a program reads back as. -/
def reread (p : Program) : Except DecodeError Program := do
  let document ← Document.read p.render
  match p.unreadable? with
  | some e => throw e
  | none => ofDocument document

/-- The program of the bytes of a file. -/
def ofBytes (format : FileFormat) (bytes : List UInt8) : Except ProgramFileError Program :=
  match format with
  | .text => (ofText (Text.ofBytes bytes)).mapError .text
  | .packed => (unpack bytes).mapError .packed

/-- The bytes of the file of a program. -/
def toBytes (format : FileFormat) (p : Program) : List UInt8 :=
  match format with
  | .text => Text.toBytes p.render
  | .packed => p.pack

end Program

end JvmTaint
