import JvmTaint.Flow.Statement
import JvmTaint.Lowering.Flaw

set_option autoImplicit false
set_option relaxedAutoImplicit false

/-!
# Operations

What an instruction does to the operand stack and the local variables, with exactly the operands
that it uses. Families of opcodes that differ only in the type of their operands are one operation.

## Main definitions

* `JvmTaint.Test`: what a conditional branch compares.
* `JvmTaint.Operation`: an operation.
* `JvmTaint.Instruction.operation`: the operation of an instruction.
-/

namespace JvmTaint

/-- What a conditional branch compares. -/
inductive Test where
  /-- The top of the stack with zero. -/
  | zero
  /-- The two values on top of the stack. -/
  | pair
  /-- The top of the stack with null. -/
  | null
  deriving DecidableEq, Repr, Inhabited

/-- What an instruction does. -/
inductive Operation where
  | nop
  /-- Pushes a constant. -/
  | push (kind : Kind) (literal type : String)
  | load (kind : Kind) (slot : Int)
  | store (slot : Int)
  /-- Reads an array element. The element type of an array of references is taken from the array if
  `refine` is set. -/
  | arrayLoad (element : String) (refine : Bool)
  | arrayStore
  /-- Drops words from the stack. -/
  | pop (words : Nat)
  /-- Inserts a copy of the top words below some more words. -/
  | dup (top below : Nat)
  | swap
  | binary (operator : String)
  | negate
  /-- Adds a constant to a local variable. -/
  | increment (slot amount : Int)
  | convert (type : String)
  | compare
  | branch (test : Test) (comparison : Comparison) (target : Int)
  | goto (target : Int)
  | switch (targets : List Int)
  | ret (hasValue : Bool)
  | getStatic (field : FieldRef)
  | putStatic (field : FieldRef)
  | getField (field : FieldRef)
  | putField (field : FieldRef)
  | invoke (kind : InvokeKind) (target : MethodRef) (descriptor : MethodDescriptor)
  | new (cls : String)
  | newArray (dims : Nat) (type : String)
  | arrayLength
  | throw
  | checkCast (cls : String)
  | instanceOf (cls : String)
  | monitor
  deriving DecidableEq, Repr, Inhabited

/-- The descriptor of the element type with a code. -/
def arrayTypeOf (code : Int) : String :=
  match code with
  | 4 => "Z"
  | 5 => "C"
  | 6 => "F"
  | 7 => "D"
  | 8 => "B"
  | 9 => "S"
  | 10 => "I"
  | 11 => "J"
  | _ => ""

namespace Instruction

/-- The operations of constants. -/
def pushOperation (ins : Instruction) : Except Flaw Operation :=
  let n := ins.op.code
  if n = 1 then .ok (.push .reference "null" "")
  else if n ≤ 8 then .ok (.push .int (toString ((n : Int) - 3)) "I")
  else if n ≤ 10 then .ok (.push .long (toString (n - 9) ++ "L") "J")
  else if n ≤ 13 then .ok (.push .float (toString (n - 11) ++ ".0f") "F")
  else if n ≤ 15 then .ok (.push .double (toString (n - 14) ++ ".0") "D")
  else if n ≤ 17 then .ok (.push .int (toString ins.immediate) "I")
  else match ins.constant with
    | none => .error (.noConstant ins.op)
    | some c => .ok (.push (Kind.ofDescriptor c.type) c.render c.type)

/-- The kind of values that the `i`-th of five families of opcodes works on. -/
def kindOfFamily (i : Nat) : Kind :=
  match i with
  | 0 => .int
  | 1 => .long
  | 2 => .float
  | 3 => .double
  | _ => .reference

/-- The most lengths of dimensions that an array allocation can take from the stack. -/
def maxDimensions : Int := 4398046511104

/-- The operation of an array allocation. -/
def arrayOperation (dims : Int) (type : String) : Except Flaw Operation :=
  if dims < 1 ∨ type = "[" then .error .badArray
  else if dims > maxDimensions then .error .tooManyDimensions
  else .ok (.newArray dims.toNat type)

/-- The operation of an invocation. -/
def invokeOperation (ins : Instruction) (kind : InvokeKind) : Except Flaw Operation :=
  match MethodDescriptor.parse ins.desc with
  | .error e => .error (.descriptor ins.desc e)
  | .ok d => .ok (.invoke kind ins.methodRef d)

/-- The comparison of the `i`-th of six conditional branches. -/
def comparisonOf (i : Nat) : Comparison :=
  match i with
  | 0 => .eq
  | 1 => .ne
  | 2 => .lt
  | 3 => .ge
  | 4 => .gt
  | _ => .le

/-- The operation of an instruction in general form. -/
def operation (ins : Instruction) : Except Flaw Operation :=
  let n := ins.op.code
  if n = 0 then .ok .nop
  else if n ≤ 20 then ins.pushOperation
  else if ins.op.isLoad then .ok (.load (kindOfFamily (n - 21)) ins.slot)
  else if ins.op.isStore then .ok (.store ins.slot)
  else if ins.op.between 46 53 then
    -- iaload, laload, faload, daload, aaload, baload, caload, saload
    .ok (.arrayLoad (["I", "J", "F", "D", "", "B", "C", "S"].getD (n - 46) "") (n == 50))
  else if ins.op.between 79 86 then .ok .arrayStore
  else if ins.op.between 96 115 then
    .ok (.binary (["+", "-", "*", "/", "%"].getD ((n - 96) / 4) ""))
  else if ins.op.between 116 119 then .ok .negate
  else if ins.op.between 120 131 then
    .ok (.binary (["<<", ">>", ">>>", "&", "|", "^"].getD ((n - 120) / 2) ""))
  else if ins.op.between 133 147 then
    -- i2l, i2f, i2d, l2i, l2f, l2d, f2i, f2l, f2d, d2i, d2l, d2f, i2b, i2c, i2s
    .ok (.convert (["J", "F", "D", "I", "F", "D", "I", "J", "D", "I", "J", "F", "B", "C", "S"].getD
      (n - 133) ""))
  else if ins.op.between 148 152 then .ok .compare
  else if ins.op.between 153 158 then .ok (.branch .zero (comparisonOf (n - 153)) ins.target)
  else if ins.op.between 159 164 then .ok (.branch .pair (comparisonOf (n - 159)) ins.target)
  else if ins.op.isSwitch then .ok (.switch ins.branchTargets)
  else match n with
    | 87 => .ok (.pop 1)
    | 88 => .ok (.pop 2)
    | 89 => .ok (.dup 1 0)
    | 90 => .ok (.dup 1 1)
    | 91 => .ok (.dup 1 2)
    | 92 => .ok (.dup 2 0)
    | 93 => .ok (.dup 2 1)
    | 94 => .ok (.dup 2 2)
    | 95 => .ok .swap
    | 132 => .ok (.increment ins.slot ins.immediate)
    | 165 => .ok (.branch .pair .eq ins.target)
    | 166 => .ok (.branch .pair .ne ins.target)
    | 167 | 200 => .ok (.goto ins.target)
    | 172 | 173 | 174 | 175 | 176 => .ok (.ret true)
    | 177 => .ok (.ret false)
    | 178 => .ok (.getStatic ins.fieldRef)
    | 179 => .ok (.putStatic ins.fieldRef)
    | 180 => .ok (.getField ins.fieldRef)
    | 181 => .ok (.putField ins.fieldRef)
    | 182 => ins.invokeOperation .virtual
    | 183 => ins.invokeOperation .special
    | 184 => ins.invokeOperation .static
    | 185 => ins.invokeOperation .interface
    | 186 => ins.invokeOperation .dynamic
    | 187 => .ok (.new ins.type)
    | 188 => arrayOperation 1 ("[" ++ arrayTypeOf ins.immediate)
    | 189 => arrayOperation 1 ("[" ++ descriptorOf ins.type)
    | 190 => .ok .arrayLength
    | 191 => .ok .throw
    | 192 => .ok (.checkCast ins.type)
    | 193 => .ok (.instanceOf ins.type)
    | 194 | 195 => .ok .monitor
    | 197 => arrayOperation ins.dims ins.type
    | 198 => .ok (.branch .null .eq ins.target)
    | 199 => .ok (.branch .null .ne ins.target)
    | _ => .error (.unsupported ins.op)

end Instruction

end JvmTaint
