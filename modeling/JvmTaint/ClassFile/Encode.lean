import JvmTaint.ClassFile.Program
import JvmTaint.Document.Block
import JvmTaint.Document.Decoder

set_option autoImplicit false
set_option relaxedAutoImplicit false

/-!
# Programs as block text

The keys of program files in the order in which they are written. Optional keys are left out when
their value is zero or empty.

## Main definitions

* `JvmTaint.Program.toBlock`, `JvmTaint.Program.render`: a program as block text.
* `JvmTaint.Program.unreadable?`: why the block text of a program cannot be read back.
-/

namespace JvmTaint

/-- An optional number. -/
def intEntry (key : String) (n : Int) : List (String × Block) :=
  if n = 0 then [] else [(key, .int n)]

/-- An optional text. -/
def textEntry (key : String) (s : String) : List (String × Block) :=
  if s = "" then [] else [(key, .text s)]

/-- An optional list. -/
def listEntry {α : Type} (key : String) (f : α → Block) (l : List α) : List (String × Block) :=
  if l.isEmpty then [] else [(key, .seq (l.map f))]

/-- Optional flags. -/
def flagsEntry (flags : AccessFlags) : List (String × Block) :=
  if flags.bits = 0#64 then [] else [("flags", .seq (flags.writtenNames.map .text))]

/-- A constant. -/
def Constant.toBlock (c : Constant) : Block :=
  .map (textEntry "kind" c.kind ++ [("value", .text c.value)])

/-- An instruction. -/
def Instruction.toBlock (i : Instruction) : Block :=
  .map <| [("pc", .int i.pc), ("op", .text i.op.name)]
    ++ intEntry "var" i.slot ++ intEntry "int" i.immediate
    ++ (i.constant.toList.map fun c => ("const", c.toBlock))
    ++ intEntry "target" i.target ++ listEntry "targets" .int i.cases
    ++ listEntry "keys" .int i.keys ++ intEntry "default" i.fallback
    ++ textEntry "owner" i.owner ++ textEntry "name" i.name ++ textEntry "desc" i.desc
    ++ textEntry "type" i.type ++ intEntry "dims" i.dims

/-- An entry of an exception table. -/
def HandlerEntry.toBlock (e : HandlerEntry) : Block :=
  .map <| [("start", .int e.start), ("end", .int e.stop), ("handler", .int e.handler)]
    ++ textEntry "type" e.catchType

/-- A resource scope. -/
def ResourceScope.toBlock (r : ResourceScope) : Block :=
  .map [("var", .int r.slot), ("start", .int r.start), ("end", .int r.stop), ("type", .text r.type)]

/-- A method declaration. -/
def MethodDecl.toBlock (m : MethodDecl) : Block :=
  .map <| [("name", .text m.name), ("descriptor", .text m.descriptor)] ++ flagsEntry m.flags
    ++ [("max-locals", .int m.maxLocals),
      ("code", .seq ((m.code.getD []).map Instruction.toBlock))]
    ++ listEntry "exception-table" HandlerEntry.toBlock m.handlers
    ++ listEntry "resources" ResourceScope.toBlock m.resources

/-- A class declaration. -/
def ClassDecl.toBlock (c : ClassDecl) : Block :=
  .map <| [("name", .text c.name)] ++ textEntry "super" c.super
    ++ listEntry "interfaces" .text c.interfaces ++ flagsEntry c.flags
    ++ listEntry "methods" (fun m => (m.map MethodDecl.toBlock).getD .null) c.methods

/-- A program. -/
def Program.toBlock (p : Program) : Block :=
  .map [("classes", .seq ((p.classes.getD []).map fun c => (c.map ClassDecl.toBlock).getD .null))]

/-- The block text of a program. -/
def Program.render (p : Program) : String := p.toBlock.render

/-- Why a written value is refused by the reader of programs: an opcode without a mnemonic, or
flags without a name. -/
def refuseWritten (key : String) (value : Block) : Option String :=
  match key, value with
  | "op", .text mnemonic =>
    match Opcode.ofName? mnemonic with
    | some _ => none
    | none => some ("unknown opcode " ++ Text.quote mnemonic)
  | "flags", .seq items =>
    let names := items.filterMap fun | .text s => some s | _ => none
    match AccessFlags.ofNames names with
    | .ok _ => none
    | .error name => some (AccessFlags.unknownNameMessage name)
  | _, _ => none

/-- Why the block text of a program cannot be read back; `none` if it can. -/
def Program.unreadable? (p : Program) : Option DecodeError :=
  (Block.firstRefused refuseWritten 1 0 p.toBlock).map fun (line, reason) => .refused line reason

end JvmTaint
