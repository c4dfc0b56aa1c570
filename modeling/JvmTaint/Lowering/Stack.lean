import JvmTaint.Lowering.Operation

set_option autoImplicit false
set_option relaxedAutoImplicit false

/-!
# Lowering through the operand stack

Operations become three-address actions by a simulation of the operand stack. A slot of the
simulated stack holds the value that names its content: a load pushes the local variable itself, and
a result goes to the temporary of its depth. Before a variable is overwritten, the slots that hold
it are moved to a scratch temporary; before control leaves a block, every slot is moved to the
temporary of its depth.

## Main definitions

* `JvmTaint.Slot`, `JvmTaint.Frame`: the simulated stack and what has been lowered so far.
* `JvmTaint.Frame.protect`, `JvmTaint.Frame.normalize`: the moves that keep slots in place.
* `JvmTaint.Frame.step`: one operation.
-/

namespace JvmTaint

/-- A slot of the simulated operand stack. -/
structure Slot where
  kind : Kind
  type : String
  value : Value
  deriving DecidableEq, Repr, Inhabited

/-- The local variables that hold the receiver and the parameters on entry, by number. -/
abbrev ParamSlots := List (Int × Value)

/-- The local variable with a number. A known type replaces the declared type of a parameter. -/
def ParamSlots.variable (params : ParamSlots) (slot : Int) (type : String) : Value :=
  match params.lookup slot with
  | some (.var v declared) => .var v (if type = "" then declared else type)
  | some value => value
  | none => .var (.loc slot) type

/-- The simulated stack and what has been lowered so far. -/
structure Frame where
  /-- The operand stack, from the bottom to the top. -/
  stack : List Slot
  /-- The number of scratch temporaries in use. -/
  scratch : Nat
  /-- The types of the local variables stored in the block. -/
  types : List (Int × String) := []
  /-- The actions lowered so far, in order. Labels are offsets. -/
  actions : List (Action Int) := []
  deriving Inhabited

namespace Frame

/-- Lowers to one more action. -/
def emit (f : Frame) (a : Action Int) : Frame := { f with actions := f.actions ++ [a] }

/-- Pushes a slot. -/
def push (f : Frame) (kind : Kind) (type : String) (value : Value) : Frame :=
  { f with stack := f.stack ++ [⟨kind, type, value⟩] }

/-- Pops a slot. -/
def pop (f : Frame) : Except Flaw (Slot × Frame) :=
  match f.stack.getLast? with
  | none => .error .underflow
  | some s => .ok (s, { f with stack := f.stack.dropLast })

/-- Pops `n` slots; they come in the order of the stack. -/
def popN (f : Frame) (n : Nat) : Except Flaw (List Slot × Frame) :=
  if f.stack.length < n then .error .underflow
  else
    let rest := f.stack.length - n
    .ok (f.stack.drop rest, { f with stack := f.stack.take rest })

/-- Pops the slots of a number of words, a value of category 2 being two words. `op` is the
instruction at fault if a value would be split. -/
def popWords (op : Opcode) : Nat → List Slot → Except Flaw (List Slot × List Slot)
  | 0, stack => .ok ([], stack)
  | words + 1, stack =>
    match stack.getLast? with
    | none => .error .underflow
    | some s =>
      if s.kind.category > words + 1 then .error (.splits op)
      else do
        let (taken, rest) ← popWords op (words + 1 - s.kind.category) stack.dropLast
        return (taken ++ [s], rest)
termination_by words => words
decreasing_by
  have : 1 ≤ s.kind.category := by unfold Kind.category; split <;> omega
  omega

/-- A fresh scratch temporary. -/
def fresh (f : Frame) (type : String) : Value × Frame :=
  (.var (.scratch f.scratch) type, { f with scratch := f.scratch + 1 })

/-- Moves the slots that hold the variable of `value` to one scratch temporary, so that the variable
can be overwritten. -/
def protect (f : Frame) (value : Value) : Frame :=
  match value.var? with
  | none => f
  | some v =>
    match f.stack.find? (·.value.isVar v) with
    | none => f
    | some first =>
      let (saved, f) := f.fresh first.type
      let f := f.emit (.assign saved ⟨.copy value, value.type⟩)
      { f with
        stack := f.stack.map fun s => if s.value.isVar v then { s with value := saved } else s }

/-- The temporary that receives a value pushed next, free to be overwritten. -/
def result (f : Frame) (type : String) : Value × Frame :=
  let t := Value.ofSlot f.stack.length type
  (t, f.protect t)

/-- Computes an expression into the temporary on top of the stack. -/
def assign (f : Frame) (kind : Kind) (c : Computation) (type : String) : Frame :=
  let (t, f) := f.result type
  (f.emit (.assign t ⟨c, type⟩)).push kind type t

/-! ## Moving the slots to their temporaries -/

/-- The depths of the slots that are not in the temporary of their depth. -/
def displaced (stack : List Slot) : List Nat :=
  (stack.zipIdx.filter fun (s, i) => !s.value.isVar (.slot i)).map (·.2)

/-- The scratch temporaries that keep the temporaries to be overwritten, by depth. -/
abbrev Saved := List (Nat × Value)

/-- The value to use in place of `value` while the temporaries at the depths `targets` are
overwritten: if it is one of them, a scratch temporary that keeps it. -/
def save (targets : List Nat) (value : Value) (f : Frame) (saved : Saved) :
    Value × Frame × Saved :=
  match value with
  | .var (.slot d) type =>
    if targets.contains d then
      match saved.lookup d with
      | some kept => (kept, f, saved)
      | none =>
        let (kept, f) := f.fresh type
        (kept, f.emit (.assign kept ⟨.copy value, type⟩), (d, kept) :: saved)
    else (value, f, saved)
  | _ => (value, f, saved)

/-- Saves the values of a list, in order. -/
def saveAll (targets : List Nat) : List Value → Frame → Saved → List Value × Frame × Saved
  | [], f, saved => ([], f, saved)
  | v :: vs, f, saved =>
    let (v, f, saved) := save targets v f saved
    let (vs, f, saved) := saveAll targets vs f saved
    (v :: vs, f, saved)

/-- Saves the values of the displaced slots of a stack whose lowest slot is at depth `i`. -/
def saveSlots (targets : List Nat) :
    Nat → List Slot → Frame → Saved → List Slot × Frame × Saved
  | _, [], f, saved => ([], f, saved)
  | i, s :: stack, f, saved =>
    if s.value.isVar (.slot i) then
      let (stack, f, saved) := saveSlots targets (i + 1) stack f saved
      (s :: stack, f, saved)
    else
      let (v, f, saved) := save targets s.value f saved
      let (stack, f, saved) := saveSlots targets (i + 1) stack f saved
      ({ s with value := v } :: stack, f, saved)

/-- The moves of displaced slots to the temporaries of their depths. -/
def moves (stack : List Slot) : List (Action Int) :=
  (stack.zipIdx.filter fun (s, i) => !s.value.isVar (.slot i)).map fun (s, i) =>
    .assign (.ofSlot i s.type) ⟨.copy s.value, s.type⟩

/-- The stack after the moves. -/
def settled (stack : List Slot) : List Slot :=
  stack.zipIdx.map fun (s, i) =>
    if s.value.isVar (.slot i) then s else { s with value := .ofSlot i s.type }

/-- Moves every slot to the temporary of its depth. The values in `keep` are read afterwards and
come back renamed where their temporary is overwritten. -/
def normalize (f : Frame) (keep : List Value) : List Value × Frame :=
  let targets := displaced f.stack
  let (stack, f, saved) := saveSlots targets 0 f.stack f []
  let (keep, f, _) := saveAll targets keep f saved
  (keep, { f with actions := f.actions ++ moves stack, stack := settled stack })

/-! ## Operations -/

/-- Reads an array element. -/
def arrayLoad (f : Frame) (element : String) (refine : Bool) : Except Flaw Frame := do
  let (index, f) ← f.pop
  let (array, f) ← f.pop
  let type :=
    match refine, array.type.toList with
    | true, '[' :: c :: cs => String.ofList (c :: cs)
    | _, _ => element
  let (t, f) := f.result type
  return (f.emit (.arrayRead t array.value index.value)).push (Kind.ofDescriptor type) type t

/-- Branches on a condition. -/
def branch (f : Frame) (test : Test) (comparison : Comparison) (target : Int) :
    Except Flaw Frame := do
  let (left, right, f) ← match test with
    | .zero => do
      let (s, f) ← f.pop
      pure (s.value, Value.const "0" "I", f)
    | .null => do
      let (s, f) ← f.pop
      pure (s.value, Value.const "null" "", f)
    | .pair => do
      let (r, f) ← f.pop
      let (l, f) ← f.pop
      pure (l.value, r.value, f)
  match f.normalize [left, right] with
  | ([left, right], f) => return f.emit (.branch ⟨comparison, left, right⟩ target)
  | (_, f) => return f.emit (.branch ⟨comparison, left, right⟩ target)

/-- Calls a method. -/
def invoke (f : Frame) (kind : InvokeKind) (target : MethodRef) (d : MethodDescriptor) :
    Except Flaw Frame := do
  let (args, f) ← f.popN d.params.length
  let (receiver, f) ←
    if kind.hasReceiver then do
      let (r, f) ← f.pop
      pure (some r.value, f)
    else pure (none, f)
  let call : Call := ⟨kind, target, receiver, args.map (·.value)⟩
  match d.result with
  | none => return f.emit (.invoke none call)
  | some t =>
    let (lhs, f) := f.result t.render
    return (f.emit (.invoke (some lhs) call)).push t.kind t.render lhs

/-- Lowers one operation of the instruction with opcode `op`. -/
def step (params : ParamSlots) (op : Opcode) (f : Frame) : Operation → Except Flaw Frame
  | .nop => .ok f
  | .push kind literal type => .ok (f.push kind type (.const literal type))
  | .load kind slot =>
    let stored := (f.types.lookup slot).getD ""
    let v := params.variable slot stored
    let type := if stored ≠ "" then stored else if v.type ≠ "" then v.type else kind.primitive
    .ok (f.push kind type v)
  | .store slot => do
    let (s, f) ← f.pop
    let l := params.variable slot s.type
    let f := f.protect l
    let f := { f with types := (slot, s.type) :: f.types }
    return f.emit (.assign l ⟨.copy s.value, s.type⟩)
  | .arrayLoad element refine => f.arrayLoad element refine
  | .arrayStore => do
    let (src, f) ← f.pop
    let (index, f) ← f.pop
    let (array, f) ← f.pop
    return f.emit (.arrayWrite array.value index.value src.value)
  | .pop words => do
    let (_, stack) ← popWords op words f.stack
    return { f with stack }
  | .dup top below => do
    let (above, stack) ← popWords op top f.stack
    let (under, stack) ← popWords op below stack
    return { f with stack := stack ++ above ++ under ++ above }
  | .swap => do
    let (b, f) ← f.pop
    let (a, f) ← f.pop
    return { f with stack := f.stack ++ [b, a] }
  | .binary operator => do
    let (r, f) ← f.pop
    let (l, f) ← f.pop
    return f.assign l.kind (.binary operator l.value r.value) l.kind.primitive
  | .negate => do
    let (s, f) ← f.pop
    return f.assign s.kind (.negate s.value) s.kind.primitive
  | .increment slot amount =>
    let l := params.variable slot "I"
    let f := f.protect l
    .ok (f.emit (.assign l ⟨.binary "+" l (.const (toString amount) "I"), "I"⟩))
  | .convert type => do
    let (s, f) ← f.pop
    return f.assign (Kind.ofDescriptor type) (.convert op.name s.value) type
  | .compare => do
    let (r, f) ← f.pop
    let (l, f) ← f.pop
    return f.assign .int (.compare op.name l.value r.value) "I"
  | .branch test comparison target => f.branch test comparison target
  | .goto target => .ok ((f.normalize []).2.emit (.goto target))
  | .switch targets => do
    let (key, f) ← f.pop
    match f.normalize [key.value] with
    | ([k], f) => return f.emit (.switch k targets)
    | (_, f) => return f.emit (.switch key.value targets)
  | .ret false => .ok (f.emit (.ret none))
  | .ret true => do
    let (s, f) ← f.pop
    return f.emit (.ret (some s.value))
  | .getStatic field =>
    let (t, f) := f.result field.descriptor
    let f := f.emit (.staticRead t field)
    .ok (f.push (Kind.ofDescriptor field.descriptor) field.descriptor t)
  | .putStatic field => do
    let (s, f) ← f.pop
    return f.emit (.staticWrite field s.value)
  | .getField field => do
    let (base, f) ← f.pop
    let (t, f) := f.result field.descriptor
    return (f.emit (.fieldRead t base.value field)).push (Kind.ofDescriptor field.descriptor)
      field.descriptor t
  | .putField field => do
    let (src, f) ← f.pop
    let (base, f) ← f.pop
    return f.emit (.fieldWrite base.value field src.value)
  | .invoke kind target d => f.invoke kind target d
  | .new cls => .ok (f.assign .reference .new (descriptorOf cls))
  | .newArray dims type => do
    let (counts, f) ← f.popN dims
    return f.assign .reference (.newArray (counts.map (·.value))) type
  | .arrayLength => do
    let (s, f) ← f.pop
    return f.assign .int (.length s.value) "I"
  | .throw => do
    let (s, f) ← f.pop
    return f.emit (.throw s.value)
  | .checkCast cls => do
    let (s, f) ← f.pop
    return f.assign .reference (.cast s.value) (descriptorOf cls)
  | .instanceOf cls => do
    let (s, f) ← f.pop
    return f.assign .int (.instanceOf s.value cls) "I"
  | .monitor => do
    let (s, f) ← f.pop
    return f.emit (.monitor s.value)

end Frame

end JvmTaint
