import JvmTaint.ClassFile.FieldType

set_option autoImplicit false
set_option relaxedAutoImplicit false

/-!
# Variables, values and expressions

The operands of three-address statements. A variable is a local variable of the method or a
temporary: the temporary `%i` holds the operand stack slot at depth `i`, and scratch temporaries
keep values that are about to be overwritten.

## Main definitions

* `JvmTaint.Var`: a variable, with its name.
* `JvmTaint.Value`: a variable or a constant, with its type where it is known.
* `JvmTaint.Expr`: the right-hand side of an assignment.
-/

namespace JvmTaint

/-- A variable of a method. -/
inductive Var where
  /-- The receiver. -/
  | this
  /-- A parameter, by its position in the descriptor. -/
  | arg (i : Nat)
  /-- Another local variable, by its number. -/
  | loc (i : Int)
  /-- The temporary of the operand stack slot at a depth. -/
  | slot (depth : Nat)
  /-- A temporary that keeps a value which is about to be overwritten. -/
  | scratch (n : Nat)
  deriving DecidableEq, Hashable, Repr, Inhabited

namespace Var

/-- The name of a variable. -/
def name : Var → String
  | this => "this"
  | arg i => "arg" ++ toString i
  | loc i => "local" ++ toString i
  | slot d => "%" ++ toString d
  | scratch n => "$" ++ toString n

/-- Whether the variable is a temporary. -/
def isTemp : Var → Bool
  | slot _ | scratch _ => true
  | _ => false

end Var

/-- An operand: a variable or a constant, with its type descriptor. An unknown type is empty. -/
inductive Value where
  | var (v : Var) (type : String)
  | const (literal type : String)
  deriving DecidableEq, Repr, Inhabited

namespace Value

/-- The type descriptor of a value. -/
def type : Value → String
  | var _ t => t
  | const _ t => t

/-- The name of a variable or the literal of a constant. -/
def render : Value → String
  | var v _ => v.name
  | const literal _ => literal

/-- The variable of a value. -/
def var? : Value → Option Var
  | var v _ => some v
  | const .. => none

/-- Whether the value is the variable `v`. -/
def isVar (value : Value) (v : Var) : Bool := value.var? == some v

/-- Whether the value is known to be a reference. -/
def isReference (v : Value) : Bool := v.type != "" && Kind.ofDescriptor v.type == .reference

/-- The temporary of the operand stack slot at a depth. -/
def ofSlot (depth : Nat) (type : String) : Value := .var (.slot depth) type

end Value

/-- What an expression computes. -/
inductive Computation where
  | copy (v : Value)
  /-- An arithmetic or bitwise operation. -/
  | binary (operator : String) (left right : Value)
  | negate (v : Value)
  /-- A conversion between primitive types. -/
  | convert (mnemonic : String) (v : Value)
  /-- A comparison of longs, floats or doubles. -/
  | compare (mnemonic : String) (left right : Value)
  /-- A reference cast, which keeps the identity of the object. -/
  | cast (v : Value)
  | new
  /-- An array allocation, by its dimensions. -/
  | newArray (dims : List Value)
  | length (v : Value)
  | instanceOf (v : Value) (cls : String)
  deriving DecidableEq, Repr, Inhabited

namespace Computation

/-- The operands of a computation. -/
def operands : Computation → List Value
  | copy v | negate v | convert _ v | cast v | length v | instanceOf v _ => [v]
  | binary _ l r | compare _ l r => [l, r]
  | new => []
  | newArray dims => dims

/-- Whether the computation may raise an exception. -/
def mayThrow : Computation → Bool
  | binary operator _ _ => operator == "/" || operator == "%"
  | cast _ | new | newArray _ | length _ => true
  | _ => false

end Computation

/-- The right-hand side of an assignment, with the type of its result. -/
structure Expr where
  computation : Computation
  type : String
  deriving DecidableEq, Repr, Inhabited

/-- The text of an expression. -/
def Expr.render (e : Expr) : String :=
  match e.computation with
  | .copy v => v.render
  | .binary operator l r => l.render ++ " " ++ operator ++ " " ++ r.render
  | .negate v => "-" ++ v.render
  | .convert mnemonic v => mnemonic ++ "(" ++ v.render ++ ")"
  | .compare mnemonic l r => mnemonic ++ "(" ++ l.render ++ ", " ++ r.render ++ ")"
  | .cast v => "(" ++ classOf e.type ++ ") " ++ v.render
  | .new => "new " ++ classOf e.type
  | .newArray dims =>
    "newarray " ++ e.type ++ "[" ++ "][".intercalate (dims.map Value.render) ++ "]"
  | .length v => "length(" ++ v.render ++ ")"
  | .instanceOf v cls => v.render ++ " instanceof " ++ cls

end JvmTaint
