import JvmTaint.Lowering.Shapes
import Mathlib.Logic.Function.Basic

set_option autoImplicit false
set_option relaxedAutoImplicit false

/-!
# Two machines

What the actions of a block do and what its instructions do, as two machines over the same values.
The store machine runs actions on an assignment of variables. The operand-stack machine runs
operations on a stack of cells and numbered local variables. Neither knows what an operator, an
access, an allocation or a call means: each of them is an effect, which is logged with its operand
values and answered by an interpretation.

## Main definitions

* `JvmTaint.Operator`, `JvmTaint.Effect`, `JvmTaint.Interpretation`: effects and their answers.
* `JvmTaint.Departure`: how control leaves a block.
* `JvmTaint.Store`, `JvmTaint.Store.run`: the store machine.
* `JvmTaint.Machine`, `JvmTaint.Machine.step`, `JvmTaint.Machine.run`: the operand-stack machine.

## Design

The answer to an effect may depend on all effects before it, so that two runs with the same effects
in another order are told apart, and it may be that the effect raises an exception. Copies are no
effects. A cell of the operand stack knows how many words its value takes, since some instructions
count words and not values.
-/

namespace JvmTaint

/-! ## Effects -/

/-- What an effect does with its operands. -/
inductive Operator where
  | binary (operator : String)
  | negate
  | convert (mnemonic : String)
  | compare (mnemonic : String)
  | cast (type : String)
  | new (type : String)
  | newArray (type : String)
  | length
  | instanceOf (cls : String)
  | fieldRead (field : FieldRef)
  | fieldWrite (field : FieldRef)
  | staticRead (field : FieldRef)
  | staticWrite (field : FieldRef)
  | arrayRead
  | arrayWrite
  | invoke (kind : InvokeKind) (target : MethodRef)
  | monitor
  deriving DecidableEq, Repr

/-- An operator applied to values. -/
structure Effect (V : Type) where
  operator : Operator
  operands : List V
  deriving DecidableEq, Repr

/-- A meaning of constants and effects. -/
structure Interpretation (V : Type) where
  /-- The value of a literal of a type. -/
  constant : String → String → V
  /-- The result of an effect after the effects so far. There is none if it raises an exception. -/
  respond : List (Effect V) → Effect V → Option V

/-- How control leaves a block before its end, with the values that decide where it goes. -/
inductive Departure (V : Type) where
  | goto (target : Int)
  /-- Jumps to the target or goes on after the block. -/
  | branch (comparison : Comparison) (left right : V) (target : Int)
  | switch (key : V) (targets : List Int)
  | ret (value : Option V)
  | throw (value : V)
  /-- An effect raised an exception. -/
  | raised
  deriving DecidableEq, Repr

/-- Whether control goes on to another block of the normal flow. -/
def Departure.continues {V : Type} : Departure V → Bool
  | goto _ | branch .. | switch .. => true
  | ret _ | throw _ | raised => false

variable {V : Type}

/-! ## Actions on a store -/

/-- The values of the variables and the effects so far. -/
structure Store (V : Type) where
  env : Var → V
  log : List (Effect V)

/-- The value of an operand. -/
def Interpretation.eval (I : Interpretation V) (env : Var → V) : Value → V
  | .var v _ => env v
  | .const literal type => I.constant literal type

/-- The operator of an expression. A copy has none. -/
def Expr.operator? (e : Expr) : Option Operator :=
  match e.computation with
  | .copy _ => none
  | .binary operator _ _ => some (.binary operator)
  | .negate _ => some .negate
  | .convert mnemonic _ => some (.convert mnemonic)
  | .compare mnemonic _ _ => some (.compare mnemonic)
  | .cast _ => some (.cast e.type)
  | .new => some (.new e.type)
  | .newArray _ => some (.newArray e.type)
  | .length _ => some .length
  | .instanceOf _ cls => some (.instanceOf cls)

/-- The operator of an action that is an effect. -/
def Action.operator? {τ : Type} : Action τ → Option Operator
  | .assign _ e => e.operator?
  | .fieldRead _ _ field => some (.fieldRead field)
  | .fieldWrite _ field _ => some (.fieldWrite field)
  | .staticRead _ field => some (.staticRead field)
  | .staticWrite field _ => some (.staticWrite field)
  | .arrayRead .. => some .arrayRead
  | .arrayWrite .. => some .arrayWrite
  | .invoke _ call => some (.invoke call.kind call.target)
  | .monitor _ => some .monitor
  | _ => none

namespace Store

/-- Assigns to the variable of a value. -/
def assign (s : Store V) (lhs : Value) (x : V) : Store V :=
  match lhs with
  | .var v _ => { s with env := Function.update s.env v x }
  | .const .. => s

/-- Assigns a result, if there is a variable for it. -/
def deliver (s : Store V) (lhs : Option Value) (x : V) : Store V :=
  match lhs with
  | none => s
  | some l => s.assign l x

/-- Performs an effect and assigns its result. -/
def perform (I : Interpretation V) (s : Store V) (e : Effect V) (lhs : Option Value) :
    Store V × Option (Departure V) :=
  let done : Store V := { s with log := s.log ++ [e] }
  match I.respond s.log e with
  | none => (done, some .raised)
  | some x => (done.deliver lhs x, none)

/-- Runs an action. An exception that is received is `caught`. -/
def exec (I : Interpretation V) (caught : V) (s : Store V) (a : Action Int) :
    Store V × Option (Departure V) :=
  match a with
  | .assign l ⟨.copy v, _⟩ => (s.assign l (I.eval s.env v), none)
  | .receive l _ => (s.assign l caught, none)
  | .goto target => (s, some (.goto target))
  | .branch c target =>
    (s, some (.branch c.comparison (I.eval s.env c.left) (I.eval s.env c.right) target))
  | .switch key targets => (s, some (.switch (I.eval s.env key) targets))
  | .ret src => (s, some (.ret (src.map (I.eval s.env))))
  | .throw src => (s, some (.throw (I.eval s.env src)))
  | a =>
    match a.operator? with
    | none => (s, none)
    | some operator => s.perform I ⟨operator, a.operands.map (I.eval s.env)⟩ a.lhs?

/-- Runs actions until control leaves. -/
def run (I : Interpretation V) (caught : V) :
    List (Action Int) → Store V → Store V × Option (Departure V)
  | [], s => (s, none)
  | a :: rest, s =>
    match s.exec I caught a with
    | (s, none) => run I caught rest s
    | left => left

variable {I : Interpretation V} {caught : V} {s s' : Store V}

@[simp] lemma assign_var (s : Store V) (v : Var) (type : String) (x : V) :
    s.assign (.var v type) x = { s with env := Function.update s.env v x } := rfl

/-- An action with an operator performs it on the values of its operands. -/
lemma exec_of_operator {a : Action Int} {operator : Operator} (h : a.operator? = some operator) :
    s.exec I caught a = s.perform I ⟨operator, a.operands.map (I.eval s.env)⟩ a.lhs? := by
  cases a with
  | assign l e =>
    obtain ⟨computation, type⟩ := e
    cases computation <;> simp_all [exec, Action.operator?, Expr.operator?]
  | _ => simp_all [exec, Action.operator?]

/-- Runs go on after the actions that control passes. -/
lemma run_append {before after : List (Action Int)} (h : run I caught before s = (s', none)) :
    run I caught (before ++ after) s = run I caught after s' := by
  induction before generalizing s with
  | nil =>
    obtain rfl : s = s' := by simpa [run] using h
    rfl
  | cons a rest ih =>
    rw [List.cons_append, run]
    rw [run] at h
    rcases hx : s.exec I caught a with ⟨t, _ | d⟩ <;> rw [hx] at h
    · exact ih h
    · simp at h

/-- Actions after the one that control leaves at are not run. -/
lemma run_append_of_departure {before after : List (Action Int)} {d : Departure V}
    (h : run I caught before s = (s', some d)) :
    run I caught (before ++ after) s = (s', some d) := by
  induction before generalizing s with
  | nil => simp [run] at h
  | cons a rest ih =>
    rw [List.cons_append, run]
    rw [run] at h
    rcases hx : s.exec I caught a with ⟨t, _ | d'⟩ <;> rw [hx] at h
    · exact ih h
    · exact h

lemma run_singleton (a : Action Int) : run I caught [a] s = s.exec I caught a := by
  rw [run]
  rcases s.exec I caught a with ⟨t, _ | d⟩ <;> rfl

/-- A run to the end is followed by one more action. -/
lemma run_concat {before : List (Action Int)} (h : run I caught before s = (s', none))
    (a : Action Int) : run I caught (before ++ [a]) s = s'.exec I caught a := by
  rw [run_append h, run_singleton]

end Store

/-! ## Operations on an operand stack -/

/-- A value on the operand stack. -/
structure Cell (V : Type) where
  value : V
  /-- The number of words that the value takes. -/
  words : Nat
  deriving DecidableEq, Repr

/-- The operand stack, the local variables and the effects so far. -/
structure Machine (V : Type) where
  /-- The operand stack, from the top to the bottom. -/
  stack : List (Cell V)
  locals : Int → V
  log : List (Effect V)

namespace Machine

/-- Pushes a value that takes a number of words. -/
def push (words : Nat) (x : V) (m : Machine V) : Machine V :=
  { m with stack := ⟨x, words⟩ :: m.stack }

/-- Sets a local variable. -/
def setLocal (n : Int) (x : V) (m : Machine V) : Machine V :=
  { m with locals := Function.update m.locals n x }

/-- Pops a cell. -/
def pop (m : Machine V) : Option (Cell V × Machine V) :=
  match m.stack with
  | [] => none
  | c :: rest => some (c, { m with stack := rest })

/-- Pops `n` cells; they come from the lowest to the topmost. -/
def popN (m : Machine V) (n : Nat) : Option (List (Cell V) × Machine V) :=
  if m.stack.length < n then none
  else some ((m.stack.take n).reverse, { m with stack := m.stack.drop n })

/-- Takes the cells of a number of words from the top of a stack. -/
def takeWords : Nat → List (Cell V) → Option (List (Cell V) × List (Cell V))
  | 0, stack => some ([], stack)
  | _ + 1, [] => none
  | n + 1, c :: stack =>
    if n + 1 < c.words then none
    else do
      let (taken, rest) ← takeWords (n + 1 - c.words) stack
      return (c :: taken, rest)

/-- Performs an effect and goes on with its result. -/
def perform (I : Interpretation V) (m : Machine V) (e : Effect V)
    (next : V → Machine V → Machine V) : Machine V × Option (Departure V) :=
  let done : Machine V := { m with log := m.log ++ [e] }
  match I.respond m.log e with
  | none => (done, some .raised)
  | some x => (next x done, none)

/-- Goes on with the machine as it is when the result of an effect is not used. -/
def ignore (_ : V) (m : Machine V) : Machine V := m

/-- Pushes the result of a call, if its type says that there is one. -/
def pushResult : Option FieldType → V → Machine V → Machine V
  | none => ignore
  | some t => push t.kind.category

/-- The operands that a branch compares. -/
def compared (I : Interpretation V) (m : Machine V) : Test → Option (V × V × Machine V)
  | .zero => do
    let (c, m) ← m.pop
    return (c.value, I.constant "0" "I", m)
  | .null => do
    let (c, m) ← m.pop
    return (c.value, I.constant "null" "", m)
  | .pair => do
    let (r, m) ← m.pop
    let (l, m) ← m.pop
    return (l.value, r.value, m)

/-- Pops the receiver of a call, if its kind has one. -/
def popReceiver (m : Machine V) (kind : InvokeKind) : Option (List V × Machine V) :=
  if kind.hasReceiver then do
    let (r, m) ← m.pop
    return ([r.value], m)
  else some ([], m)

/-- Runs one operation of the instruction with opcode `op`. The machine is stuck if the stack is too
low or a value would be split.

The result of an arithmetic operation takes as many words as its left operand, and an array element
takes those of the type that the instruction reads. -/
def step (I : Interpretation V) (op : Opcode) (m : Machine V) :
    Operation → Option (Machine V × Option (Departure V))
  | .nop => some (m, none)
  | .push kind literal type => some (m.push kind.category (I.constant literal type), none)
  | .load kind slot => some (m.push kind.category (m.locals slot), none)
  | .store slot => do
    let (c, m) ← m.pop
    return (m.setLocal slot c.value, none)
  | .arrayLoad element _ => do
    let (index, m) ← m.pop
    let (array, m) ← m.pop
    return m.perform I ⟨.arrayRead, [array.value, index.value]⟩
      (push (Kind.ofDescriptor element).category)
  | .arrayStore => do
    let (src, m) ← m.pop
    let (index, m) ← m.pop
    let (array, m) ← m.pop
    return m.perform I ⟨.arrayWrite, [array.value, index.value, src.value]⟩ ignore
  | .pop words => do
    let (_, stack) ← takeWords words m.stack
    return ({ m with stack }, none)
  | .dup top below => do
    let (above, stack) ← takeWords top m.stack
    let (under, stack) ← takeWords below stack
    return ({ m with stack := above ++ under ++ above ++ stack }, none)
  | .swap => do
    let (b, m) ← m.pop
    let (a, m) ← m.pop
    return ({ m with stack := a :: b :: m.stack }, none)
  | .binary operator => do
    let (r, m) ← m.pop
    let (l, m) ← m.pop
    return m.perform I ⟨.binary operator, [l.value, r.value]⟩ (push l.words)
  | .negate => do
    let (c, m) ← m.pop
    return m.perform I ⟨.negate, [c.value]⟩ (push c.words)
  | .increment slot amount =>
    some (m.perform I ⟨.binary "+", [m.locals slot, I.constant (toString amount) "I"]⟩
      (setLocal slot))
  | .convert type => do
    let (c, m) ← m.pop
    return m.perform I ⟨.convert op.name, [c.value]⟩ (push (Kind.ofDescriptor type).category)
  | .compare => do
    let (r, m) ← m.pop
    let (l, m) ← m.pop
    return m.perform I ⟨.compare op.name, [l.value, r.value]⟩ (push 1)
  | .branch test comparison target => do
    let (left, right, m) ← m.compared I test
    return (m, some (.branch comparison left right target))
  | .goto target => some (m, some (.goto target))
  | .switch targets => do
    let (key, m) ← m.pop
    return (m, some (.switch key.value targets))
  | .ret false => some (m, some (.ret none))
  | .ret true => do
    let (c, m) ← m.pop
    return (m, some (.ret (some c.value)))
  | .getStatic field =>
    some (m.perform I ⟨.staticRead field, []⟩ (push (Kind.ofDescriptor field.descriptor).category))
  | .putStatic field => do
    let (c, m) ← m.pop
    return m.perform I ⟨.staticWrite field, [c.value]⟩ ignore
  | .getField field => do
    let (base, m) ← m.pop
    return m.perform I ⟨.fieldRead field, [base.value]⟩
      (push (Kind.ofDescriptor field.descriptor).category)
  | .putField field => do
    let (src, m) ← m.pop
    let (base, m) ← m.pop
    return m.perform I ⟨.fieldWrite field, [base.value, src.value]⟩ ignore
  | .invoke kind target d => do
    let (args, m) ← m.popN d.params.length
    let (receiver, m) ← m.popReceiver kind
    return m.perform I ⟨.invoke kind target, receiver ++ args.map (·.value)⟩ (pushResult d.result)
  | .new cls => some (m.perform I ⟨.new (descriptorOf cls), []⟩ (push 1))
  | .newArray dims type => do
    let (counts, m) ← m.popN dims
    return m.perform I ⟨.newArray type, counts.map (·.value)⟩ (push 1)
  | .arrayLength => do
    let (c, m) ← m.pop
    return m.perform I ⟨.length, [c.value]⟩ (push 1)
  | .throw => do
    let (c, m) ← m.pop
    return (m, some (.throw c.value))
  | .checkCast cls => do
    let (c, m) ← m.pop
    return m.perform I ⟨.cast (descriptorOf cls), [c.value]⟩ (push 1)
  | .instanceOf cls => do
    let (c, m) ← m.pop
    return m.perform I ⟨.instanceOf cls, [c.value]⟩ (push 1)
  | .monitor => do
    let (c, m) ← m.pop
    return m.perform I ⟨.monitor, [c.value]⟩ ignore

/-- Runs instructions until control leaves. -/
def run (I : Interpretation V) :
    List Instruction → Machine V → Option (Machine V × Option (Departure V))
  | [], m => some (m, none)
  | ins :: rest, m =>
    match ins.operation with
    | .error _ => none
    | .ok operation => do
      match ← m.step I ins.op operation with
      | (m, none) => run I rest m
      | left => some left

end Machine

end JvmTaint
