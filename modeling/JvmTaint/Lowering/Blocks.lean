import JvmTaint.ClassFile.Program
import JvmTaint.Lowering.Flaw

set_option autoImplicit false
set_option relaxedAutoImplicit false

/-!
# Basic blocks

A method body is checked and cut into basic blocks: a block starts at the first instruction, at
every jump target, after every branch, at every handler and at the end of every resource scope.

## Main definitions

* `JvmTaint.MethodBody.indexOf?`: the instruction at an offset.
* `JvmTaint.MethodBody.validate`: the checks on offsets, opcodes, targets and ranges.
* `JvmTaint.BasicBlock`, `JvmTaint.MethodBody.blocks`: the basic blocks.
* `JvmTaint.MethodBody.successorsOf`: the blocks that control can go to from a block.
-/

namespace JvmTaint

namespace MethodBody

/-- The position of the instruction at an offset. -/
def indexOf? (b : MethodBody) (offset : Int) : Option Nat := b.code.findIdx? (·.pc == offset)

/-- Whether some instruction is at an offset. -/
def hasOffset (b : MethodBody) (offset : Int) : Bool := (b.indexOf? offset).isSome

/-! ## Checks -/

/-- Fails with a flaw at an offset if the condition holds. -/
def failIf (cond : Bool) (offset : Int) (flaw : Flaw) : Except (Int × Flaw) Unit :=
  if cond then .error (offset, flaw) else .ok ()

/-- Offsets are natural numbers and increase. -/
def checkOffsets : Option Int → List Instruction → Except (Int × Flaw) Unit
  | _, [] => .ok ()
  | before, ins :: rest => do
    failIf (before.any fun pc => decide (ins.pc ≤ pc)) ins.pc .offsetOrder
    failIf (ins.pc < 0) ins.pc .negativeOffset
    checkOffsets (some ins.pc) rest

/-- The opcode is supported and the jump targets are instructions. -/
def checkInstruction (b : MethodBody) (ins : Instruction) : Except (Int × Flaw) Unit := do
  failIf (!ins.op.isDefined) ins.pc (.undefinedOpcode ins.op)
  failIf ins.op.isSubroutine ins.pc (.subroutine ins.op)
  failIf ins.op.isWide ins.pc .wide
  match ins.branchTargets.find? (!b.hasOffset ·) with
  | some t => .error (ins.pc, .badTarget t)
  | none => .ok ()

/-- The code does not run off its end. -/
def checkLast (b : MethodBody) : Except (Int × Flaw) Unit :=
  match b.code.getLast? with
  | none => .ok ()
  | some last => failIf (!last.op.endsBlock) last.pc .fallsOff

/-- The offset of the last instruction. -/
def lastOffset (b : MethodBody) : Int := (b.code.getLast?.map (·.pc)).getD 0

/-- The range of an exception table entry is a range of instructions, which may reach beyond the
last one, and its handler is an instruction. -/
def checkHandler (b : MethodBody) (e : HandlerEntry) : Except (Int × Flaw) Unit := do
  failIf (!b.hasOffset e.start || decide (e.stop ≤ e.start)) e.start (.badRange e.start e.stop)
  failIf (!b.hasOffset e.stop && decide (e.stop ≤ b.lastOffset)) e.stop .badRangeEnd
  failIf (!b.hasOffset e.handler) e.handler .badHandler

/-- The range of a resource scope is a range of instructions that ends at an instruction. -/
def checkScope (b : MethodBody) (r : ResourceScope) : Except (Int × Flaw) Unit :=
  failIf (!b.hasOffset r.start || !b.hasOffset r.stop || decide (r.stop ≤ r.start) ||
    decide (r.slot < 0)) r.start (.badScope r.start r.stop r.slot)

/-- Checks a body that has code. -/
def validate (b : MethodBody) : Except (Int × Flaw) Unit := do
  checkOffsets none b.code
  b.code.forM b.checkInstruction
  b.checkLast
  b.handlers.forM b.checkHandler
  b.resources.forM b.checkScope

end MethodBody

/-! ## Blocks -/

/-- A basic block. -/
structure BasicBlock where
  /-- The position of the first instruction. -/
  start : Nat
  instructions : List Instruction
  /-- The type that the block receives if it is an exception handler. -/
  catches : Option String
  deriving Inhabited

namespace BasicBlock

/-- The offset of the first instruction. -/
def offset (b : BasicBlock) : Int := (b.instructions.head?.map (·.pc)).getD 0

/-- The last instruction. -/
def last? (b : BasicBlock) : Option Instruction := b.instructions.getLast?

/-- The position after the last instruction. -/
def stop (b : BasicBlock) : Nat := b.start + b.instructions.length

end BasicBlock

namespace MethodBody

/-- The offsets that start a block because something refers to them. -/
def referredOffsets (b : MethodBody) : List Int :=
  b.code.flatMap Instruction.branchTargets ++ b.handlers.map (·.handler) ++ b.resources.map (·.stop)

/-- Whether the instruction `ins` starts a block, `before` being the one in front of it. -/
def isLeader (b : MethodBody) (before ins : Instruction) : Bool :=
  before.op.isConditional || before.op.endsBlock || b.referredOffsets.contains ins.pc

/-- Cuts a list of instructions in front of the leaders. -/
def cut (b : MethodBody) : List Instruction → List (List Instruction)
  | [] => []
  | ins :: rest =>
    match cut b rest with
    | [] => [[ins]]
    | run :: runs =>
      if (rest.head?.any fun next => b.isLeader ins next) then [ins] :: run :: runs
      else (ins :: run) :: runs

/-- The type that the handler at an offset receives: the common type of the entries that name it,
or the root of the exceptions. -/
def caughtType? (b : MethodBody) (offset : Int) : Option String :=
  let types := (b.handlers.filter (·.handler == offset)).map fun e =>
    if e.catchType = "" then javaLangThrowable else e.catchType
  match types with
  | [] => none
  | t :: ts => some (if ts.all (· == t) then t else javaLangThrowable)

/-- Numbers the instructions of runs. -/
def number (b : MethodBody) : Nat → List (List Instruction) → List BasicBlock
  | _, [] => []
  | start, run :: runs =>
    ⟨start, run, run.head?.bind fun ins => b.caughtType? ins.pc⟩ ::
      number b (start + run.length) runs

/-- The basic blocks of a body, in the order of the code. -/
def blocks (b : MethodBody) : List BasicBlock := b.number 0 (b.cut b.code)

end MethodBody

/-- The position of the block that starts at an offset. -/
def blockAt? (blocks : List BasicBlock) (offset : Int) : Option Nat :=
  blocks.findIdx? (·.offset == offset)

/-- The blocks that control can go to from the block at position `i` without an exception: the jump
targets, and the next block unless the last instruction ends the flow. -/
def successorsOf (blocks : List BasicBlock) (i : Nat) : List Nat :=
  match blocks[i]?.bind BasicBlock.last? with
  | none => []
  | some ins =>
    ins.branchTargets.filterMap (blockAt? blocks) ++ (if ins.op.endsBlock then [] else [i + 1])

end JvmTaint
