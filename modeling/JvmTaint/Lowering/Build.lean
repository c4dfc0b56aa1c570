import JvmTaint.Lowering.Scopes

set_option autoImplicit false
set_option relaxedAutoImplicit false

/-!
# Building flow graphs

The flow graph of a method body: the body is checked and cut into blocks, the shapes of the stack
are found, the blocks are lowered one after the other, and the statements are connected.

## Main definitions

* `JvmTaint.MethodBody.params`: the variables of the receiver and the parameters.
* `JvmTaint.lowerBlocks`: the statements of all blocks.
* `JvmTaint.FlowGraph.build`: the flow graph of a body.
-/

namespace JvmTaint

/-! ## Parameters -/

/-- The variables of parameters whose first one is the `i`-th and sits in local variable `slot`. -/
def paramSlotsFrom : Nat → Int → List FieldType → ParamSlots
  | _, _, [] => []
  | i, slot, t :: ts =>
    (slot, .var (.arg i) t.render) :: paramSlotsFrom (i + 1) (slot + t.kind.category) ts

/-- The variables of the receiver, if any, and of the parameters, by local variable. -/
def MethodBody.paramSlots (b : MethodBody) (d : MethodDescriptor) : ParamSlots :=
  if b.modifiers.has .static then paramSlotsFrom 0 0 d.params
  else (0, .var .this (descriptorOf b.ref.cls)) :: paramSlotsFrom 0 1 d.params

/-! ## Lowering all blocks -/

/-- What has been lowered so far. -/
structure Progression where
  lowered : Array Lowered := #[]
  spans : List Span := []
  scratch : Nat := 0
  deriving Inhabited

/-- The statements of a block that is not reached: one per instruction. -/
def placeholders (block : BasicBlock) : List Lowered :=
  block.instructions.map fun ins => ⟨ins.pc, .unreachable ins.op⟩

/-- Lowers a block, which is not reached if it has no shape. A block without statements gets one
that does nothing. -/
def Progression.add (params : ParamSlots) (handlers : List HandlerEntry) (p : Progression)
    (block : BasicBlock) (shape : Option Shape) : Except (Int × Flaw) Progression := do
  let (lowered, scratch) ← match shape with
    | none => pure (placeholders block, p.scratch)
    | some shape => do
      let (f, lowered) ← lowerBlock params handlers block shape p.scratch
      pure (lowered, f.scratch)
  let lowered := if lowered.isEmpty then [⟨block.offset, .nop⟩] else lowered
  let first := p.lowered.size
  return {
    lowered := p.lowered ++ lowered
    spans := p.spans ++ [⟨block, shape.isSome, first, first + lowered.length - 1⟩]
    scratch }

/-- Lowers all blocks in order. -/
def lowerBlocks (params : ParamSlots) (handlers : List HandlerEntry) (shapes : Shapes) :
    List (BasicBlock × Nat) → Progression → Except (Int × Flaw) Progression
  | [], p => .ok p
  | (block, i) :: rest, p => do
    let p ← p.add params handlers block (shapes.getD i none)
    lowerBlocks params handlers shapes rest p

/-! ## Connecting -/

/-- The statement that exceptions leave the method by. -/
def exitStatement : Statement := { offset := -1, action := .exit, synthetic := true }

/-- The positions of the exits. -/
def exitsOf (statements : Array Statement) : List Nat :=
  (statements.toList.zipIdx.filter (·.1.action.isExit)).map (·.2)

/-- Connects the statements of lowered blocks, in this order: the flow within and between blocks,
the scopes from the shortest to the longest, and the exceptions. -/
def connectAll (types : Option ClassTable) (params : ParamSlots) (handlers : List HandlerEntry)
    (resources : List ResourceScope) (p : Progression) : Wiring :=
  let scopes := placeScopes resources p.lowered.size
  let blockStatements := p.lowered.map fun l =>
    { offset := l.offset, action := l.action.mapLabels (firstAt p.spans) : Statement }
  let scopeStatements := scopes.zipIdx.flatMap fun (s, i) =>
    Scope.statements params s.scope (firstAt p.spans s.scope.stop) (p.scratch + i)
  let statements := (blockStatements ++ scopeStatements).push exitStatement
  let exit := statements.size - 1
  let w : Wiring := ⟨statements, Array.replicate statements.size []⟩
  let w := p.spans.foldl (Wiring.flow p.spans) w
  let w := scopes.foldl (Wiring.redirect p.spans scopes) w
  (List.range statements.size).foldl (Wiring.raise types handlers p.spans scopes exit) w

namespace FlowGraph

/-- The flow graph of a body with code, given the variables of its parameters. -/
def ofCode (types : Option ClassTable) (b : MethodBody) (params : ParamSlots) :
    Except (Int × Flaw) Wiring := do
  b.validate
  let blocks := b.blocks
  let shapes ← findShapes params b.handlers blocks
  checkRanges b.handlers blocks shapes
  let p ← lowerBlocks params b.handlers shapes blocks.zipIdx {}
  return connectAll types params b.handlers b.resources p

/-- The flow graph of a body. Handlers are matched with exceptions by the type hierarchy `types`, if
there is one. A body without instructions only has the exit. -/
def build (types : Option ClassTable) (b : MethodBody) : Except BuildError FlowGraph :=
  if !b.hasCode then .error (.noCode b.ref)
  else match MethodDescriptor.parse b.ref.descriptor with
    | .error e => .error (.malformed b.ref 0 (.descriptor b.ref.descriptor e))
    | .ok d =>
      let params := b.paramSlots d
      let wiring : Except (Int × Flaw) Wiring :=
        if b.code.isEmpty then .ok ⟨#[exitStatement], #[[]]⟩ else ofCode types b params
      match wiring with
      | .error (offset, flaw) => .error (.malformed b.ref offset flaw)
      | .ok w =>
        .ok {
          ref := b.ref
          modifiers := b.modifiers
          params := params.map (·.2)
          statements := w.statements
          succs := markBackEdges w.succs
          exits := exitsOf w.statements }

end FlowGraph

end JvmTaint
