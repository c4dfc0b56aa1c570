import JvmTaint.ClassFile.Program
import JvmTaint.Document.Decoder

set_option autoImplicit false
set_option relaxedAutoImplicit false

/-!
# Programs from documents

The keys of program files. Program files are strict: a key that a record does not have is a
mismatch. Opcodes are given by mnemonic and flags by a list of names.

## Main definitions

* `JvmTaint.Instruction.decode`, `JvmTaint.ClassDecl.decode`, `JvmTaint.Program.decode`: the
  decoders.
* `JvmTaint.Program.ofDocument`, `JvmTaint.Instruction.ofDocument`: their outcomes.
-/

namespace JvmTaint

open Decoder

/-- An opcode, by mnemonic. -/
def Opcode.decode (d : Document) : Decoder (Option Opcode) := do
  match ← string d with
  | none => return none
  | some mnemonic =>
    match Opcode.ofName? mnemonic with
    | some op => return some op
    | none => refuse ("unknown opcode " ++ Text.quote mnemonic)

/-- Access flags, by a list of names. A list with an element of the wrong type is not looked up. -/
def AccessFlags.decode (d : Document) : Decoder (Option AccessFlags) := do
  match d with
  | .null => return none
  | d =>
    let before := (← get).length
    match ← list "[]string" string d with
    | none => return none
    | some names =>
      if (← get).length > before then return none
      match AccessFlags.ofNames names with
      | .ok flags => return some flags
      | .error name => refuse (AccessFlags.unknownNameMessage name)

/-- A constant. -/
def Constant.decode (strict : Bool) : Document → Decoder (Option Constant) :=
  record "bytecode.Constant" strict ⟨"", ""⟩ fun
    | "kind" => setter (textAs "bytecode.ConstKind") fun c v => { c with kind := v }
    | "value" => setter string fun c v => { c with value := v }
    | _ => none

/-- A 64-bit integer field. -/
def decodeInt : Document → Decoder (Option Int) := int64 "int"

/-- An instruction. -/
def Instruction.decode (strict : Bool) : Document → Decoder (Option Instruction) :=
  record "bytecode.Instruction" strict {} fun
    | "pc" => setter decodeInt fun i v => { i with pc := v }
    | "op" => setter Opcode.decode fun i v => { i with op := v }
    | "var" => setter decodeInt fun i v => { i with slot := v }
    | "int" => setter (int64 "int64") fun i v => { i with immediate := v }
    | "const" => setter (nullable (Constant.decode strict)) fun i v => { i with constant := v }
    | "target" => setter decodeInt fun i v => { i with target := v }
    | "targets" => setter (list "[]int" decodeInt) fun i v => { i with cases := v }
    | "keys" =>
      setter (list "[]int32" (int "int32" (-2147483648) 2147483647)) fun i v => { i with keys := v }
    | "default" => setter decodeInt fun i v => { i with fallback := v }
    | "owner" => setter string fun i v => { i with owner := v }
    | "name" => setter string fun i v => { i with name := v }
    | "desc" => setter string fun i v => { i with desc := v }
    | "type" => setter string fun i v => { i with type := v }
    | "dims" => setter decodeInt fun i v => { i with dims := v }
    | _ => none

/-- An entry of an exception table. -/
def HandlerEntry.decode : Document → Decoder (Option HandlerEntry) :=
  record "bytecode.ExceptionEntry" true {} fun
    | "start" => setter decodeInt fun e v => { e with start := v }
    | "end" => setter decodeInt fun e v => { e with stop := v }
    | "handler" => setter decodeInt fun e v => { e with handler := v }
    | "type" => setter string fun e v => { e with catchType := v }
    | _ => none

/-- A resource scope. -/
def ResourceScope.decode : Document → Decoder (Option ResourceScope) :=
  record "bytecode.ResourceScope" true {} fun
    | "var" => setter decodeInt fun r v => { r with slot := v }
    | "start" => setter decodeInt fun r v => { r with start := v }
    | "end" => setter decodeInt fun r v => { r with stop := v }
    | "type" => setter string fun r v => { r with type := v }
    | _ => none

/-- A method declaration. -/
def MethodDecl.decode : Document → Decoder (Option MethodDecl) :=
  record "classdb.Method" true {} fun
    | "name" => setter string fun m v => { m with name := v }
    | "descriptor" => setter string fun m v => { m with descriptor := v }
    | "flags" => setter AccessFlags.decode fun m v => { m with flags := v }
    | "max-locals" => setter decodeInt fun m v => { m with maxLocals := v }
    | "code" =>
      setter (nullable (list "[]bytecode.Instruction" (Instruction.decode true)))
        fun m v => { m with code := v }
    | "exception-table" =>
      setter (list "[]bytecode.ExceptionEntry" HandlerEntry.decode)
        fun m v => { m with handlers := v }
    | "resources" =>
      setter (list "[]bytecode.ResourceScope" ResourceScope.decode)
        fun m v => { m with resources := v }
    | _ => none

/-- A class declaration. -/
def ClassDecl.decode : Document → Decoder (Option ClassDecl) :=
  record "classdb.Class" true {} fun
    | "name" => setter string fun c v => { c with name := v }
    | "super" => setter string fun c v => { c with super := v }
    | "interfaces" => setter (list "[]string" string) fun c v => { c with interfaces := v }
    | "flags" => setter AccessFlags.decode fun c v => { c with flags := v }
    | "methods" =>
      setter (list "[]*classdb.Method" (nullable MethodDecl.decode))
        fun c v => { c with methods := v }
    | _ => none

/-- A program. -/
def Program.decode : Document → Decoder (Option Program) :=
  record "classdb.Program" true {} fun
    | "classes" =>
      setter (nullable (list "[]*classdb.Class" (nullable ClassDecl.decode)))
        fun p v => { p with classes := v }
    | _ => none

/-- The program of a document. No document at all is an error; a null one has no classes. -/
def Program.ofDocument (d : Option Document) : Except DecodeError Program :=
  match d with
  | none => .error .empty
  | some d => (Program.decode d).run.map (·.getD {})

/-- The instruction of a document; none or a null one is the instruction of zeros. -/
def Instruction.ofDocument (d : Option Document) : Except DecodeError Instruction :=
  match d with
  | none => .ok {}
  | some d => (Instruction.decode false d).run.map (·.getD {})

end JvmTaint
