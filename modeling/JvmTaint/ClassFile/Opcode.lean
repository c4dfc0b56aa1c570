set_option autoImplicit false
set_option relaxedAutoImplicit false

/-!
# Opcodes

The opcodes of the class file format. Every byte is an opcode; the first 202 have a mnemonic. The
families of opcodes are ranges of bytes, as the format lays them out.

## Main definitions

* `JvmTaint.Opcode`: an opcode byte.
* `JvmTaint.Opcode.mnemonics`, `JvmTaint.Opcode.name`, `JvmTaint.Opcode.ofName?`: mnemonics.
* `JvmTaint.Opcode.canonical?`: the general form of a short form such as `aload_1`.
* `JvmTaint.Opcode.isLoad` and its companions: the families of opcodes.
-/

namespace JvmTaint

/-- An opcode of the class file format. -/
structure Opcode where
  byte : UInt8
  deriving DecidableEq, Repr, Inhabited

namespace Opcode

/-- The mnemonics of the defined opcodes, in the order of their bytes. -/
def mnemonics : Array String := #[
  "nop", "aconst_null", "iconst_m1", "iconst_0", "iconst_1", "iconst_2", "iconst_3", "iconst_4",
  "iconst_5", "lconst_0", "lconst_1", "fconst_0", "fconst_1", "fconst_2", "dconst_0", "dconst_1",
  "bipush", "sipush", "ldc", "ldc_w", "ldc2_w", "iload", "lload", "fload", "dload", "aload",
  "iload_0", "iload_1", "iload_2", "iload_3", "lload_0", "lload_1", "lload_2", "lload_3",
  "fload_0", "fload_1", "fload_2", "fload_3", "dload_0", "dload_1", "dload_2", "dload_3",
  "aload_0", "aload_1", "aload_2", "aload_3", "iaload", "laload", "faload", "daload", "aaload",
  "baload", "caload", "saload", "istore", "lstore", "fstore", "dstore", "astore", "istore_0",
  "istore_1", "istore_2", "istore_3", "lstore_0", "lstore_1", "lstore_2", "lstore_3", "fstore_0",
  "fstore_1", "fstore_2", "fstore_3", "dstore_0", "dstore_1", "dstore_2", "dstore_3", "astore_0",
  "astore_1", "astore_2", "astore_3", "iastore", "lastore", "fastore", "dastore", "aastore",
  "bastore", "castore", "sastore", "pop", "pop2", "dup", "dup_x1", "dup_x2", "dup2", "dup2_x1",
  "dup2_x2", "swap", "iadd", "ladd", "fadd", "dadd", "isub", "lsub", "fsub", "dsub", "imul",
  "lmul", "fmul", "dmul", "idiv", "ldiv", "fdiv", "ddiv", "irem", "lrem", "frem", "drem", "ineg",
  "lneg", "fneg", "dneg", "ishl", "lshl", "ishr", "lshr", "iushr", "lushr", "iand", "land", "ior",
  "lor", "ixor", "lxor", "iinc", "i2l", "i2f", "i2d", "l2i", "l2f", "l2d", "f2i", "f2l", "f2d",
  "d2i", "d2l", "d2f", "i2b", "i2c", "i2s", "lcmp", "fcmpl", "fcmpg", "dcmpl", "dcmpg", "ifeq",
  "ifne", "iflt", "ifge", "ifgt", "ifle", "if_icmpeq", "if_icmpne", "if_icmplt", "if_icmpge",
  "if_icmpgt", "if_icmple", "if_acmpeq", "if_acmpne", "goto", "jsr", "ret", "tableswitch",
  "lookupswitch", "ireturn", "lreturn", "freturn", "dreturn", "areturn", "return", "getstatic",
  "putstatic", "getfield", "putfield", "invokevirtual", "invokespecial", "invokestatic",
  "invokeinterface", "invokedynamic", "new", "newarray", "anewarray", "arraylength", "athrow",
  "checkcast", "instanceof", "monitorenter", "monitorexit", "wide", "multianewarray", "ifnull",
  "ifnonnull", "goto_w", "jsr_w"]

/-- The opcode as a number. -/
def code (op : Opcode) : Nat := op.byte.toNat

/-- Whether the format defines the opcode. -/
def isDefined (op : Opcode) : Bool := decide (op.code < mnemonics.size)

/-- The mnemonic of an opcode; an undefined one is shown by its number. -/
def name (op : Opcode) : String :=
  match mnemonics[op.code]? with
  | some m => m
  | none => "opcode(" ++ toString op.code ++ ")"

/-- The opcode with a mnemonic. -/
def ofName? (mnemonic : String) : Option Opcode :=
  (mnemonics.findIdx? (· == mnemonic)).map fun i => ⟨UInt8.ofNat i⟩

/-- Whether the byte of an opcode lies between two bytes, both included. -/
def between (first last : Nat) (op : Opcode) : Bool :=
  decide (first ≤ op.code ∧ op.code ≤ last)

/-- The general form of a short form and the variable it names: `iload_2` is `iload` of variable 2.
The short forms of loads and of stores come in five groups of four. -/
def canonical? (op : Opcode) : Option (Opcode × Nat) :=
  if op.between 26 45 then some (⟨UInt8.ofNat (21 + (op.code - 26) / 4)⟩, (op.code - 26) % 4)
  else if op.between 59 78 then some (⟨UInt8.ofNat (54 + (op.code - 59) / 4)⟩, (op.code - 59) % 4)
  else none

/-- `iload` to `aload`. -/
def isLoad (op : Opcode) : Bool := op.between 21 25

/-- `istore` to `astore`. -/
def isStore (op : Opcode) : Bool := op.between 54 58

/-- `iinc`. -/
def isIncrement (op : Opcode) : Bool := op.code == 132

/-- `bipush`, `sipush` and `newarray`: the opcodes with an immediate operand. -/
def isImmediate (op : Opcode) : Bool := op.between 16 17 || op.code == 188

/-- The conditional branches. -/
def isConditional (op : Opcode) : Bool := op.between 153 166 || op.between 198 199

/-- The unconditional jumps `goto` and `goto_w`. -/
def isGoto (op : Opcode) : Bool := op.code == 167 || op.code == 200

/-- `tableswitch` and `lookupswitch`. -/
def isSwitch (op : Opcode) : Bool := op.between 170 171

/-- `ireturn` to `return`. -/
def isReturn (op : Opcode) : Bool := op.between 172 177

/-- `invokevirtual` to `invokedynamic`. -/
def isInvoke (op : Opcode) : Bool := op.between 182 186

/-- `ret`, which takes a local variable. -/
def isRet (op : Opcode) : Bool := op.code == 169

/-- The obsolete subroutine opcodes `jsr`, `jsr_w` and `ret`. -/
def isSubroutine (op : Opcode) : Bool := op.code == 168 || op.code == 201 || op.isRet

/-- `wide`, which modifies the next instruction. -/
def isWide (op : Opcode) : Bool := op.code == 196

/-- `athrow`. -/
def isThrow (op : Opcode) : Bool := op.code == 191

/-- Whether control never falls through to the next instruction. -/
def endsBlock (op : Opcode) : Bool := op.isGoto || op.isSwitch || op.isReturn || op.isThrow

end Opcode

end JvmTaint
