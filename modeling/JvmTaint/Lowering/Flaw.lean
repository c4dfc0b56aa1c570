import JvmTaint.ClassFile.Instruction

set_option autoImplicit false
set_option relaxedAutoImplicit false

/-!
# Flaws of method bodies

Why a method body cannot be lowered.

## Main definitions

* `JvmTaint.Flaw`: what is wrong with a body.
* `JvmTaint.BuildError`: a flaw with its place, or a method without code.
-/

namespace JvmTaint

/-- What is wrong with a method body. -/
inductive Flaw where
  | descriptor (desc : String) (cause : DescriptorError)
  | offsetOrder
  | negativeOffset
  | undefinedOpcode (op : Opcode)
  | subroutine (op : Opcode)
  | wide
  | badTarget (target : Int)
  | fallsOff
  | badRange (start stop : Int)
  | badRangeEnd
  | badHandler
  | badScope (start stop slot : Int)
  | handlerAtEntry
  | stackHeights (known incoming : Nat)
  | stackKinds (known incoming : Kind)
  | unreachableRange (start stop : Int)
  | underflow
  /-- The instruction takes half of a value of two words. -/
  | splits (op : Opcode)
  | noConstant (op : Opcode)
  | badArray
  /-- The array has more dimensions than there is room for their lengths. -/
  | tooManyDimensions
  | unsupported (op : Opcode)
  deriving DecidableEq, Repr

/-- The half-open range of two offsets. -/
def renderRange (start stop : Int) : String := "[" ++ toString start ++ ", " ++ toString stop ++ ")"

/-- The message of a flaw. -/
def Flaw.message : Flaw → String
  | descriptor desc cause => cause.message desc
  | offsetOrder => "offsets are not increasing"
  | negativeOffset => "negative offset"
  | undefinedOpcode op => "invalid opcode " ++ toString op.code
  | subroutine op => "subroutines are not supported (" ++ op.name ++ ")"
  | wide => "wide must be folded into the modified instruction"
  | badTarget target => "branch target " ++ toString target ++ " is not an instruction"
  | fallsOff => "execution falls off the end of the code"
  | badRange start stop => "invalid exception range " ++ renderRange start stop
  | badRangeEnd => "exception range end is not an instruction"
  | badHandler => "exception handler is not an instruction"
  | badScope start stop slot =>
    "invalid resource scope " ++ renderRange start stop ++ " on local " ++ toString slot
  | handlerAtEntry => "exception handler at method entry"
  | stackHeights known incoming =>
    "inconsistent stack heights " ++ toString known ++ " and " ++ toString incoming
  | stackKinds known incoming =>
    "inconsistent stack kinds " ++ known.name ++ " and " ++ incoming.name
  | unreachableRange start stop =>
    "exception range " ++ renderRange start stop ++ " is unreachable"
  | underflow => "operand stack underflow"
  | splits op => op.name ++ " splits a category 2 value"
  | noConstant op => op.name ++ " without a constant"
  | badArray => "invalid array allocation"
  | tooManyDimensions => "too many dimensions"
  | unsupported op => "unsupported instruction " ++ op.name

/-- Why a method has no flow graph. -/
inductive BuildError where
  /-- The method is abstract or native. -/
  | noCode (ref : MethodRef)
  /-- The body has a flaw at an offset. -/
  | malformed (ref : MethodRef) (offset : Int) (flaw : Flaw)
  deriving DecidableEq, Repr

/-- The message of an error. -/
def BuildError.message : BuildError → String
  | noCode ref => "method has no code: " ++ ref.render
  | malformed ref offset flaw =>
    "malformed bytecode: " ++ ref.render ++ " at offset " ++ toString offset ++ ": " ++ flaw.message

end JvmTaint
