import JvmTaint.Flow.Graph
import JvmTaint.Taint.AccessPath
import JvmTaint.Text.Blank
import JvmTaint.Text.Digits
import JvmTaint.Text.Quoted

set_option autoImplicit false
set_option relaxedAutoImplicit false

/-!
# Positions

The places of a call that rules are about: the receiver, the result, an argument or all of them,
each with a path of fields.

## Main definitions

* `JvmTaint.Position`: a position; `Position.parse` reads it.
* `JvmTaint.Position.paths`: the access paths of a position at a call.
* `JvmTaint.Position.paramPaths`: the access paths of a position on entry to a method.
-/

namespace JvmTaint

/-- An operand of a call, or all its arguments. -/
inductive Operand where
  | this
  | result
  | arg (i : Nat)
  | anyArg
  deriving DecidableEq, Repr, Inhabited

/-- The name of an operand. -/
def Operand.name : Operand → String
  | this => "this"
  | result => "result"
  | arg i => "arg" ++ toString i
  | anyArg => "any-arg"

/-- A position. -/
structure Position where
  operand : Operand
  fields : List String
  deriving DecidableEq, Repr, Inhabited

/-- Why a text is no position. -/
inductive PositionError where
  | argument (text : String)
  | operand (text : String)
  | fields (text : String)
  deriving DecidableEq, Repr

/-- The message of an error. -/
def PositionError.message : PositionError → String
  | argument s => "invalid argument position " ++ Text.quote s
  | operand s => "invalid position " ++ Text.quote s
  | fields s => "invalid field path in position " ++ Text.quote s

/-- The number of an argument: decimal digits after an optional sign. It fits a signed 64-bit word
and is not negative. -/
def argumentNumber? (digits : List Char) : Option Nat :=
  let (negative, digits) := match digits with
    | '-' :: rest => (true, rest)
    | '+' :: rest => (false, rest)
    | _ => (false, digits)
  if digits.isEmpty || !digits.all Char.isDigit then none
  else
    let n := digitsValue digits
    if n ≥ 9223372036854775808 || (negative && n ≠ 0) then none else some n

namespace Position

/-- Reads a position: an operand, followed by fields after dots. Blanks around it do not count. -/
def parse (s : String) : Except PositionError Position := do
  let parts := Text.split '.' (Text.trim s)
  let head := parts.headD ""
  let fields := parts.tail
  let operand ← match head with
    | "this" => pure .this
    | "result" => pure .result
    | "any-arg" => pure .anyArg
    | _ =>
      if head.toList.take 3 == ['a', 'r', 'g'] then
        match argumentNumber? (head.toList.drop 3) with
        | some n => pure (.arg n)
        | none => throw (.argument s)
      else throw (.operand s)
  if fields.contains "" then throw (.fields s)
  return { operand, fields }

/-- The text of a position. -/
def render (p : Position) : String :=
  p.operand.name ++ String.join (p.fields.map ("." ++ ·))

/-- The variables of a position at a call with a result. -/
def vars (p : Position) (lhs : Option Value) (c : Call) : List Var :=
  let values := match p.operand with
    | .this => c.receiver.toList
    | .result => lhs.toList
    | .arg i => (c.args[i]?).toList
    | .anyArg => c.args
  values.filterMap Value.var?

/-- The path of a position at a variable. -/
def pathFrom (p : Position) (k : Int) (v : Var) : AccessPath :=
  (AccessPath.ofVariable v.name).extendAll p.fields k

/-- The access paths of a position at a call. -/
def paths (p : Position) (lhs : Option Value) (c : Call) (k : Int) : List AccessPath :=
  (p.vars lhs c).map (p.pathFrom k)

/-- The access paths of a position on entry to a method. -/
def paramPaths (p : Position) (g : FlowGraph) (k : Int) : List AccessPath :=
  let (receiver, args) := match g.params with
    | v :: rest => if v.isVar .this then ([v], rest) else ([], g.params)
    | [] => ([], [])
  let params := match p.operand with
    | .this => receiver
    | .result => []
    | .arg i => (args[i]?).toList
    | .anyArg => args
  (params.filterMap Value.var?).map (p.pathFrom k)

end Position

end JvmTaint
