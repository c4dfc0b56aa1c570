import JvmTaint.ClassFile.MethodRef
import JvmTaint.ClassFile.Opcode
import JvmTaint.Flow.Value

set_option autoImplicit false
set_option relaxedAutoImplicit false

/-!
# Statements

Three-address statements. What a statement does is an `Action`; its jump targets are labels, which
are bytecode offsets while a method is lowered and positions of statements afterwards.

## Main definitions

* `JvmTaint.InvokeKind`, `JvmTaint.Call`: a call site.
* `JvmTaint.Condition`: the condition of a branch.
* `JvmTaint.Action`: what a statement does, with its uses, its result and its text.
* `JvmTaint.Statement`: an action with the offset of the instruction that it comes from.
-/

namespace JvmTaint

/-- How a call selects its target, one kind per invocation opcode. -/
inductive InvokeKind where
  | virtual
  | special
  | static
  | interface
  | dynamic
  deriving DecidableEq, Hashable, Repr, Inhabited

namespace InvokeKind

/-- The mnemonic of a kind of call. -/
def name : InvokeKind → String
  | virtual => "invokevirtual"
  | special => "invokespecial"
  | static => "invokestatic"
  | interface => "invokeinterface"
  | dynamic => "invokedynamic"

/-- Whether the target depends on the class of the receiver. -/
def isDispatched : InvokeKind → Bool
  | virtual | interface => true
  | _ => false

/-- Whether the call has a receiver. -/
def hasReceiver : InvokeKind → Bool
  | static | dynamic => false
  | _ => true

end InvokeKind

/-- A call site. -/
structure Call where
  kind : InvokeKind
  /-- The method that the instruction names. -/
  target : MethodRef
  receiver : Option Value
  args : List Value
  deriving DecidableEq, Repr, Inhabited

namespace Call

/-- The receiver, if any, and the arguments. -/
def operands (c : Call) : List Value := c.receiver.toList ++ c.args

/-- The text of a call. -/
def render (c : Call) : String :=
  let subject := match c.receiver with
    | some v => v.render
    | none => c.target.cls
  c.kind.name ++ " " ++ subject ++ "." ++ c.target.name ++
    "(" ++ ", ".intercalate (c.args.map Value.render) ++ ") [" ++ c.target.render ++ "]"

end Call

/-- The comparison of a condition. -/
inductive Comparison where
  | eq
  | ne
  | lt
  | ge
  | gt
  | le
  deriving DecidableEq, Repr, Inhabited

namespace Comparison

/-- The operator of a comparison. -/
def symbol : Comparison → String
  | eq => "=="
  | ne => "!="
  | lt => "<"
  | ge => ">="
  | gt => ">"
  | le => "<="

/-- The comparison that holds when this one does not. -/
def negate : Comparison → Comparison
  | eq => ne
  | ne => eq
  | lt => ge
  | ge => lt
  | gt => le
  | le => gt

end Comparison

/-- The condition of a branch. -/
structure Condition where
  comparison : Comparison
  left : Value
  right : Value
  deriving DecidableEq, Repr, Inhabited

/-- The text of a condition. -/
def Condition.render (c : Condition) : String :=
  c.left.render ++ " " ++ c.comparison.symbol ++ " " ++ c.right.render

/-- What a statement does. The labels of its jump targets are of type `τ`. -/
inductive Action (τ : Type) where
  | nop
  /-- Stands for an instruction that is never reached. -/
  | unreachable (op : Opcode)
  | assign (lhs : Value) (rhs : Expr)
  | fieldRead (lhs base : Value) (field : FieldRef)
  | fieldWrite (base : Value) (field : FieldRef) (src : Value)
  | staticRead (lhs : Value) (field : FieldRef)
  | staticWrite (field : FieldRef) (src : Value)
  | arrayRead (lhs base element : Value)
  | arrayWrite (base element src : Value)
  | invoke (lhs : Option Value) (call : Call)
  /-- Jumps to the target if the condition holds. -/
  | branch (condition : Condition) (target : τ)
  | switch (key : Value) (targets : List τ)
  | goto (target : τ)
  | ret (src : Option Value)
  | throw (src : Value)
  /-- Receives an exception at the start of a handler; an empty type receives all. -/
  | receive (lhs : Value) (type : String)
  /-- Enters or leaves a monitor. -/
  | monitor (src : Value)
  /-- The exit of exceptions that are not caught in the method. -/
  | exit
  deriving DecidableEq, Repr, Inhabited

namespace Action

variable {τ σ : Type}

/-- The action with its labels renamed. -/
def mapLabels (f : τ → σ) : Action τ → Action σ
  | nop => nop
  | unreachable op => unreachable op
  | assign l r => assign l r
  | fieldRead l b f => fieldRead l b f
  | fieldWrite b f s => fieldWrite b f s
  | staticRead l f => staticRead l f
  | staticWrite f s => staticWrite f s
  | arrayRead l b e => arrayRead l b e
  | arrayWrite b e s => arrayWrite b e s
  | invoke l c => invoke l c
  | branch c t => branch c (f t)
  | switch k ts => switch k (ts.map f)
  | goto t => goto (f t)
  | ret s => ret s
  | throw s => throw s
  | receive l t => receive l t
  | monitor s => monitor s
  | exit => exit

/-- The jump targets. -/
def targets : Action τ → List τ
  | branch _ t | goto t => [t]
  | switch _ ts => ts
  | _ => []

/-- The name of the kind of an action. -/
def kindName : Action τ → String
  | nop | unreachable _ => "nop"
  | assign .. => "assign"
  | fieldRead .. => "field-read"
  | fieldWrite .. => "field-write"
  | staticRead .. => "static-read"
  | staticWrite .. => "static-write"
  | arrayRead .. => "array-read"
  | arrayWrite .. => "array-write"
  | invoke .. => "invoke"
  | branch .. => "if"
  | switch .. => "switch"
  | goto _ => "goto"
  | ret _ => "return"
  | throw _ => "throw"
  | receive .. => "catch"
  | monitor _ => "monitor"
  | exit => "exit"

/-- The value that the action assigns to. -/
def lhs? : Action τ → Option Value
  | assign l _ | fieldRead l _ _ | staticRead l _ | arrayRead l _ _ | receive l _ => some l
  | invoke l _ => l
  | _ => none

/-- The value that is stored, tested, returned, thrown or locked. -/
def src? : Action τ → Option Value
  | fieldWrite _ _ s | staticWrite _ s | arrayWrite _ _ s | throw s | monitor s => some s
  | switch k _ => some k
  | ret s => s
  | _ => none

/-- The field that the action reads or writes. -/
def field? : Action τ → Option FieldRef
  | fieldRead _ _ f | fieldWrite _ f _ | staticRead _ f | staticWrite f _ => some f
  | _ => none

/-- The call of an invocation. -/
def call? : Action τ → Option Call
  | invoke _ c => some c
  | _ => none

/-- The values that the action reads. -/
def operands : Action τ → List Value
  | assign _ e => e.computation.operands
  | fieldRead _ b _ => [b]
  | fieldWrite b _ s => [b, s]
  | arrayRead _ b e => [b, e]
  | arrayWrite b e s => [b, e, s]
  | staticWrite _ s | switch s _ | throw s | monitor s => [s]
  | ret s => s.toList
  | invoke _ c => c.operands
  | branch c _ => [c.left, c.right]
  | _ => []

/-- The variables that the action reads. -/
def uses (a : Action τ) : List Value := a.operands.filter fun v => v.var?.isSome

/-- Whether the action may raise an exception. -/
def mayThrow : Action τ → Bool
  | fieldRead .. | fieldWrite .. | staticRead .. | staticWrite .. | arrayRead .. | arrayWrite ..
  | invoke .. | throw _ | monitor _ => true
  | assign _ e => e.computation.mayThrow
  | _ => false

/-- Whether the action leaves the method. -/
def isExit : Action τ → Bool
  | ret _ | exit => true
  | _ => false

/-- Whether the action stands for an instruction that is never reached. -/
def isUnreachable : Action τ → Bool
  | unreachable _ => true
  | _ => false

/-- The text of an action. -/
def render [ToString τ] : Action τ → String
  | nop => "nop"
  | unreachable op => "unreachable " ++ op.name
  | assign l e => l.render ++ " = " ++ e.render
  | fieldRead l b f => l.render ++ " = " ++ b.render ++ "." ++ f.name
  | fieldWrite b f s => b.render ++ "." ++ f.name ++ " = " ++ s.render
  | staticRead l f => l.render ++ " = " ++ f.render
  | staticWrite f s => f.render ++ " = " ++ s.render
  | arrayRead l b e => l.render ++ " = " ++ b.render ++ "[" ++ e.render ++ "]"
  | arrayWrite b e s => b.render ++ "[" ++ e.render ++ "] = " ++ s.render
  | invoke (some l) c => l.render ++ " = " ++ c.render
  | invoke none c => c.render
  | branch c t => "if " ++ c.render ++ " goto " ++ toString t
  | switch k ts => "switch " ++ k.render ++ " goto " ++ ", ".intercalate (ts.map toString)
  | goto t => "goto " ++ toString t
  | ret none => "return"
  | ret (some s) => "return " ++ s.render
  | throw s => "throw " ++ s.render
  | receive l t => l.render ++ " = catch " ++ (if t = "" then "any" else t)
  | monitor s => "monitor " ++ s.render
  | exit => "exit"

end Action

/-- A statement of a flow graph. -/
structure Statement where
  /-- The offset of the instruction that the statement comes from, `-1` if there is none. -/
  offset : Int
  action : Action Nat
  /-- Whether the statement comes from no instruction. -/
  synthetic : Bool := false
  deriving DecidableEq, Repr, Inhabited

/-- The text of a statement. -/
def Statement.render (s : Statement) : String := s.action.render

end JvmTaint
