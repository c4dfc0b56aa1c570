import JvmTaint.ClassFile.Program
import JvmTaint.Packed.Reader

set_option autoImplicit false
set_option relaxedAutoImplicit false

/-!
# Packed programs

The binary form of programs. Records are maps with the keys of program files in the order of the
fields; optional fields are left out when they are zero or empty.

## Main definitions

* `JvmTaint.Program.pack`: the bytes of a program.
* `JvmTaint.Program.unpack`: the program of some bytes.
-/

namespace JvmTaint

open Packed

/-! ## Writing -/

/-- An optional integer in the shortest form. -/
def packInt (key : String) (n : Int) : List (String × Bytes) :=
  if n = 0 then [] else [(key, Packed.int n)]

/-- An optional text. -/
def packText (key : String) (s : String) : List (String × Bytes) :=
  if s = "" then [] else [(key, Packed.text s)]

/-- An optional list. -/
def packList {α : Type} (key : String) (f : α → Bytes) (l : List α) : List (String × Bytes) :=
  if l.isEmpty then [] else [(key, array f l)]

/-- A value that may be absent. -/
def packNullable {α : Type} (f : α → Bytes) : Option α → Bytes
  | none => nil
  | some a => f a

/-- A constant. -/
def Constant.pack (c : Constant) : Bytes :=
  map (packText "kind" c.kind ++ [("value", text c.value)])

/-- An instruction. The immediate operand is always written in eight bytes, the keys of switches in
four and the opcode in one. -/
def Instruction.pack (i : Instruction) : Bytes :=
  map <| [("pc", int i.pc), ("op", uint8 i.op.byte)]
    ++ packInt "var" i.slot
    ++ (if i.immediate = 0 then [] else [("int", int64 i.immediate)])
    ++ (i.constant.toList.map fun c => ("const", c.pack))
    ++ packInt "target" i.target ++ packList "targets" int i.cases
    ++ packList "keys" int32 i.keys ++ packInt "default" i.fallback
    ++ packText "owner" i.owner ++ packText "name" i.name ++ packText "desc" i.desc
    ++ packText "type" i.type ++ packInt "dims" i.dims

/-- An entry of an exception table. -/
def HandlerEntry.pack (e : HandlerEntry) : Bytes :=
  map <| [("start", int e.start), ("end", int e.stop), ("handler", int e.handler)]
    ++ packText "type" e.catchType

/-- A resource scope. -/
def ResourceScope.pack (r : ResourceScope) : Bytes :=
  map [("var", int r.slot), ("start", int r.start), ("end", int r.stop), ("type", text r.type)]

/-- A method declaration. -/
def MethodDecl.pack (m : MethodDecl) : Bytes :=
  map <| [("name", text m.name), ("descriptor", text m.descriptor)]
    ++ packInt "flags" m.flags.toInt
    ++ [("max-locals", int m.maxLocals), ("code", packNullable (array Instruction.pack) m.code)]
    ++ packList "exception-table" HandlerEntry.pack m.handlers
    ++ packList "resources" ResourceScope.pack m.resources

/-- A class declaration. -/
def ClassDecl.pack (c : ClassDecl) : Bytes :=
  map <| [("name", text c.name)] ++ packText "super" c.super
    ++ packList "interfaces" text c.interfaces ++ packInt "flags" c.flags.toInt
    ++ packList "methods" (packNullable MethodDecl.pack) c.methods

/-- The bytes of a program. -/
def Program.pack (p : Program) : Bytes :=
  map [("classes", packNullable (array (packNullable ClassDecl.pack)) p.classes)]

/-! ## Reading -/

/-- A field set from its reader. -/
def field {α β : Type} (key : String) (value : Reader β) (set : α → β → α) : KeyReader α :=
  (key, fun a => return set a (← value))

/-- A field read into the value that it has. -/
def fieldInto {α β : Type} (key : String) (value : Updater β) (get : α → β) (set : α → β → α) :
    KeyReader α :=
  (key, fun a => return set a (← value (get a)))

/-- A list field read into the list that it has; an absent list is empty. -/
def listField {α β : Type} (key : String) (zero : β) (value : Updater β) (get : α → List β)
    (set : α → List β → α) : KeyReader α :=
  (key, fun a => return set a ((← readList zero value (some (get a))).getD []))

/-- Access flags. -/
def AccessFlags.unpack : Reader AccessFlags := return AccessFlags.ofInt (← readInt)

/-- A constant. -/
def Constant.unpack : Updater Constant :=
  readRecord ⟨"", ""⟩ [
    field "kind" readText fun c v => { c with kind := v },
    field "value" readText fun c v => { c with value := v }]

/-- An instruction. -/
def Instruction.unpack : Updater Instruction :=
  readRecord {} [
    field "pc" readInt fun i v => { i with pc := v },
    field "op" readUInt8 fun i v => { i with op := ⟨v⟩ },
    field "var" readInt fun i v => { i with slot := v },
    field "int" readInt fun i v => { i with immediate := v },
    fieldInto "const" (readNullable ⟨"", ""⟩ Constant.unpack) (·.constant)
      fun i v => { i with constant := v },
    field "target" readInt fun i v => { i with target := v },
    listField "targets" 0 (fun _ => readInt) (·.cases) fun i v => { i with cases := v },
    listField "keys" 0 (fun _ => readInt32) (·.keys) fun i v => { i with keys := v },
    field "default" readInt fun i v => { i with fallback := v },
    field "owner" readText fun i v => { i with owner := v },
    field "name" readText fun i v => { i with name := v },
    field "desc" readText fun i v => { i with desc := v },
    field "type" readText fun i v => { i with type := v },
    field "dims" readInt fun i v => { i with dims := v }]

/-- An entry of an exception table. -/
def HandlerEntry.unpack : Updater HandlerEntry :=
  readRecord {} [
    field "start" readInt fun e v => { e with start := v },
    field "end" readInt fun e v => { e with stop := v },
    field "handler" readInt fun e v => { e with handler := v },
    field "type" readText fun e v => { e with catchType := v }]

/-- A resource scope. -/
def ResourceScope.unpack : Updater ResourceScope :=
  readRecord {} [
    field "var" readInt fun r v => { r with slot := v },
    field "start" readInt fun r v => { r with start := v },
    field "end" readInt fun r v => { r with stop := v },
    field "type" readText fun r v => { r with type := v }]

/-- The fields of a method declaration that make up its body. -/
def MethodDecl.bodyFields : List (KeyReader MethodDecl) := [
  field "max-locals" readInt fun m v => { m with maxLocals := v },
  fieldInto "code" (readList {} Instruction.unpack) (·.code) fun m v => { m with code := v },
  listField "exception-table" {} HandlerEntry.unpack (·.handlers)
    fun m v => { m with handlers := v },
  listField "resources" {} ResourceScope.unpack (·.resources)
    fun m v => { m with resources := v }]

/-- A method declaration without its body. -/
def MethodDecl.withoutBody (m : MethodDecl) : MethodDecl :=
  { name := m.name, descriptor := m.descriptor, flags := m.flags }

/-- A method declaration. The fields of its body stand beside the others or in a record of their
own. -/
def MethodDecl.unpack : Updater MethodDecl :=
  readRecordWith {} ([
    field "name" readText fun m v => { m with name := v },
    field "descriptor" readText fun m v => { m with descriptor := v },
    field "flags" AccessFlags.unpack fun m v => { m with flags := v }] ++ bodyFields)
    [("MethodBody", fun m => readRecord m.withoutBody bodyFields m)]

/-- A class declaration. -/
def ClassDecl.unpack : Updater ClassDecl :=
  readRecord {} [
    field "name" readText fun c v => { c with name := v },
    field "super" readText fun c v => { c with super := v },
    fieldInto "interfaces" readTexts (·.interfaces) fun c v => { c with interfaces := v },
    field "flags" AccessFlags.unpack fun c v => { c with flags := v },
    listField "methods" none (readNullable {} MethodDecl.unpack) (·.methods)
      fun c v => { c with methods := v }]

/-- The reader of a program. -/
def Program.unpackReader : Updater Program :=
  readRecord {} [
    fieldInto "classes" (readList none (readNullable {} ClassDecl.unpack)) (·.classes)
      fun p v => { p with classes := v }]

/-- The program that some bytes start with; bytes after it are ignored. -/
def Program.unpack (bytes : Bytes) : Except PackedError Program :=
  ((Program.unpackReader {}).run bytes).map (·.1)

end JvmTaint
