import JvmTaint.ClassFile.AccessFlags
import JvmTaint.ClassFile.MethodRef
import JvmTaint.ClassFile.Opcode

set_option autoImplicit false
set_option relaxedAutoImplicit false

/-!
# Instructions and method bodies

Instructions with symbolic operands, as a program file lists them. The record has a field for every
operand that some instruction takes; an instruction uses those of its opcode, and the others keep
whatever the file says.

## Main definitions

* `JvmTaint.Constant`: a constant that is loaded by an instruction.
* `JvmTaint.Instruction`: an instruction, with `Instruction.normalize` (short forms become general
  forms), `Instruction.branchTargets` and `Instruction.render`.
* `JvmTaint.HandlerEntry`, `JvmTaint.ResourceScope`: the ranges of a method body.
* `JvmTaint.MethodBody`: a method with its code.
-/

namespace JvmTaint

/-- A loaded constant. An empty kind is a string. -/
structure Constant where
  kind : String
  value : String
  deriving DecidableEq, Repr, Inhabited

namespace Constant

/-- The type descriptor of a constant. -/
def type (c : Constant) : String :=
  match c.kind with
  | "int" => "I"
  | "long" => "J"
  | "float" => "F"
  | "double" => "D"
  | "class" => "Ljava/lang/Class;"
  | _ => "Ljava/lang/String;"

/-- The literal of a constant: strings are quoted. -/
def render (c : Constant) : String :=
  if c.kind = "" ∨ c.kind = "string" then Text.quote c.value else c.value

end Constant

/-- An instruction with symbolic operands. -/
structure Instruction where
  /-- The offset of the instruction in its method. -/
  pc : Int := 0
  op : Opcode := ⟨0⟩
  /-- The local variable of loads, stores and increments. -/
  slot : Int := 0
  /-- The immediate operand: a number to push, an increment or a code of an array type. -/
  immediate : Int := 0
  constant : Option Constant := none
  /-- The offset that a branch jumps to. -/
  target : Int := 0
  /-- The offsets of the cases of a switch. -/
  cases : List Int := []
  /-- The keys of the cases of a switch. -/
  keys : List Int := []
  /-- The offset of the default case of a switch. -/
  fallback : Int := 0
  owner : String := ""
  name : String := ""
  desc : String := ""
  /-- The class operand of allocations, casts and type tests. -/
  type : String := ""
  /-- The number of dimensions of an array allocation. -/
  dims : Int := 0
  deriving DecidableEq, Repr, Inhabited

namespace Instruction

/-- The general form of an instruction: `aload_1` becomes `aload` of variable 1. -/
def normalize (ins : Instruction) : Instruction :=
  match ins.op.canonical? with
  | some (op, slot) => { ins with op, slot := slot }
  | none => ins

/-- The method that an invocation names. -/
def methodRef (ins : Instruction) : MethodRef := ⟨ins.owner, ins.name, ins.desc⟩

/-- The field that a field access names. -/
def fieldRef (ins : Instruction) : FieldRef := ⟨ins.owner, ins.name, ins.desc⟩

/-- The offsets that the instruction may jump to, without the fall-through. -/
def branchTargets (ins : Instruction) : List Int :=
  if ins.op.isConditional || ins.op.isGoto then [ins.target]
  else if ins.op.isSwitch then ins.cases ++ [ins.fallback]
  else []

/-- The operands in the text of an instruction, each with a leading space. -/
def renderOperands (ins : Instruction) : String :=
  if ins.op.isLoad || ins.op.isStore || ins.op.isRet then " " ++ toString ins.slot
  else if ins.op.isIncrement then " " ++ toString ins.slot ++ " " ++ toString ins.immediate
  else if ins.op.isImmediate then " " ++ toString ins.immediate
  else match ins.constant with
    | some c => " " ++ c.render
    | none =>
      if ins.op.isConditional || ins.op.isGoto then " " ++ toString ins.target
      else if ins.op.isSwitch then
        " [" ++ " ".intercalate (ins.cases.map toString) ++ "] default " ++ toString ins.fallback
      else if ins.owner ≠ "" then " " ++ ins.owner ++ "." ++ ins.name ++ ":" ++ ins.desc
      else if ins.type ≠ "" then " " ++ ins.type
      else ""

/-- The text of an instruction: offset, mnemonic and operands. -/
def render (ins : Instruction) : String :=
  toString ins.pc ++ ": " ++ ins.op.name ++ ins.renderOperands

end Instruction

/-- An entry of an exception table: instructions at offsets in `[start, stop)` are protected by the
handler at offset `handler` against exceptions of type `catchType`; an empty type catches all. -/
structure HandlerEntry where
  start : Int := 0
  stop : Int := 0
  handler : Int := 0
  catchType : String := ""
  deriving DecidableEq, Repr, Inhabited

/-- Whether an entry protects an offset. -/
def HandlerEntry.covers (e : HandlerEntry) (offset : Int) : Bool :=
  decide (e.start ≤ offset ∧ offset < e.stop)

/-- A resource-scoped block: the resource in local variable `slot` is closed when control leaves the
instructions at offsets in `[start, stop)`. A normal exit goes on at offset `stop`. -/
structure ResourceScope where
  slot : Int := 0
  start : Int := 0
  stop : Int := 0
  type : String := ""
  deriving DecidableEq, Repr, Inhabited

/-- A method with its code. -/
structure MethodBody where
  ref : MethodRef
  modifiers : AccessFlags
  maxLocals : Int
  code : List Instruction
  handlers : List HandlerEntry
  resources : List ResourceScope
  deriving DecidableEq, Repr, Inhabited

/-- Abstract and native methods have no code. -/
def MethodBody.hasCode (b : MethodBody) : Bool :=
  !b.modifiers.has .abstract && !b.modifiers.has .native

end JvmTaint
