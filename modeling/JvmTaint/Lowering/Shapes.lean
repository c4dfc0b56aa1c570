import JvmTaint.Lowering.Blocks
import JvmTaint.Lowering.Stack
import JvmTaint.Sum

set_option autoImplicit false
set_option relaxedAutoImplicit false

/-!
# Stack shapes

The heights and kinds of the operand stack at the entry of every block, by running the blocks until
nothing changes. All ways into a block agree on height and kinds; where they disagree on the type of
a slot, the type is forgotten, which can happen only once per slot.

## Main definitions

* `JvmTaint.lowerBlock`: runs the instructions of a block from an entry stack.
* `JvmTaint.Shape`: the kinds and types of a stack.
* `JvmTaint.MethodBody.shapes`: the shape of every block that is reached.
-/

namespace JvmTaint

/-- The kinds and types of a stack, from the bottom to the top. -/
abbrev Shape := List (Kind × String)

/-- The shape of a stack. -/
def shapeOf (stack : List Slot) : Shape := stack.map fun s => (s.kind, s.type)

/-- A lowered action with the offset of its instruction. Labels are offsets. -/
structure Lowered where
  offset : Int
  action : Action Int
  deriving Inhabited

/-- The stack of a shape, each slot in the temporary of its depth. -/
def entryStack (shape : Shape) : List Slot :=
  shape.zipIdx.map fun ((kind, type), i) => ⟨kind, type, .ofSlot i type⟩

/-- Runs one instruction; its actions are taken out of the frame. -/
def lowerInstruction (params : ParamSlots) (ins : Instruction) (f : Frame) :
    Except (Int × Flaw) (Frame × List Lowered) :=
  match ins.operation.bind (f.step params ins.op) with
  | .error flaw => .error (ins.pc, flaw)
  | .ok f =>
    -- control that falls through to the next block leaves every slot in its place
    .ok ({ f with actions := [] }, f.actions.map (⟨ins.pc, ·⟩))

/-- Runs a list of instructions. -/
def lowerInstructions (params : ParamSlots) :
    List Instruction → Frame → Except (Int × Flaw) (Frame × List Lowered)
  | [], f => .ok (f, [])
  | ins :: rest, f => do
    let (f, here) ← lowerInstruction params ins f
    let (f, later) ← lowerInstructions params rest f
    return (f, here ++ later)

/-- The type that a handler's statement shows: the common type of the entries that name the handler,
empty if they differ. -/
def shownCatchType (handlers : List HandlerEntry) (offset : Int) : String :=
  match (handlers.filter (·.handler == offset)).map (·.catchType) with
  | [] => ""
  | t :: ts => if ts.all (· == t) then t else ""

/-- Runs a block from an entry stack: first the exception is received if the block is a handler, and
last every slot is moved to its place if control falls through to the next block. The number of
scratch temporaries in use goes in and comes out. -/
def lowerBlock (params : ParamSlots) (handlers : List HandlerEntry) (block : BasicBlock)
    (shape : Shape) (scratch : Nat) : Except (Int × Flaw) (Frame × List Lowered) := do
  let entry : Frame := { stack := entryStack shape, scratch }
  let received : List Lowered :=
    match block.catches with
    | none => []
    | some _ =>
      let type := (shape.head?.map (·.2)).getD ""
      [⟨block.offset, .receive (.ofSlot 0 type) (shownCatchType handlers block.offset)⟩]
  let (f, body) ← lowerInstructions params block.instructions entry
  match block.last? with
  | none => return (f, received ++ body)
  | some last =>
    if last.op.endsBlock || last.op.isConditional then return (f, received ++ body)
    else
      let f := (f.normalize []).2
      return ({ f with actions := [] }, received ++ body ++ f.actions.map (⟨last.pc, ·⟩))

/-! ## Fixed point -/

/-- The shapes of the blocks found so far, by position. -/
abbrev Shapes := Array (Option Shape)

/-- Joins a shape with one that comes in: types that differ are forgotten. The error is the first
pair of kinds that differ. -/
def joinShapes : Shape → Shape → Except (Kind × Kind) Shape
  | (k, t) :: known, (k', t') :: incoming =>
    if k ≠ k' then .error (k, k')
    else do
      let rest ← joinShapes known incoming
      return (k, if t = t' then t else "") :: rest
  | known, _ => .ok known

/-- Lets a shape into the block at position `i`, which starts at `offset`. The block has to be run
again if it is new or its shape changed. -/
def enterBlock (offset : Int) (i : Nat) (incoming : Shape) (shapes : Shapes) :
    Except (Int × Flaw) (Shapes × Bool) :=
  match shapes.getD i none with
  | none => .ok (shapes.setIfInBounds i (some incoming), true)
  | some known =>
    if known.length ≠ incoming.length then
      .error (offset, .stackHeights known.length incoming.length)
    else
      match joinShapes known incoming with
      | .error (k, k') => .error (offset, .stackKinds k k')
      | .ok joined =>
        if joined = known then .ok (shapes, false)
        else .ok (shapes.setIfInBounds i (some joined), true)

/-- The offset of the block at a position. -/
def offsetOf (blocks : List BasicBlock) (i : Nat) : Int :=
  ((blocks[i]?).map BasicBlock.offset).getD 0

/-- Lets a shape into several blocks and returns those to be run again. -/
def enterBlocks (blocks : List BasicBlock) (incoming : Shape) :
    List Nat → Shapes → Except (Int × Flaw) (Shapes × List Nat)
  | [], shapes => .ok (shapes, [])
  | i :: is, shapes => do
    let (shapes, again) ← enterBlock (offsetOf blocks i) i incoming shapes
    let (shapes, more) ← enterBlocks blocks incoming is shapes
    return (shapes, if again then i :: more else more)

/-- Runs the blocks of the worklist until it is empty. The fuel bounds the number of runs. -/
def runShapes (params : ParamSlots) (handlers : List HandlerEntry) (blocks : List BasicBlock) :
    Nat → List Nat → Shapes → Except (Int × Flaw) Shapes
  | 0, _, shapes => .ok shapes
  | _ + 1, [], shapes => .ok shapes
  | fuel + 1, i :: work, shapes =>
    match blocks[i]?, shapes.getD i none with
    | some block, some shape => do
      let (f, _) ← lowerBlock params handlers block shape 0
      let (shapes, again) ← enterBlocks blocks (shapeOf f.stack) (successorsOf blocks i) shapes
      runShapes params handlers blocks fuel (work ++ again) shapes
    | _, _ => runShapes params handlers blocks fuel work shapes

/-- Lets the exception into every handler block. The first block cannot be a handler. -/
def enterHandlers : List (BasicBlock × Nat) → Shapes → Except (Int × Flaw) (Shapes × List Nat)
  | [], shapes => .ok (shapes, [])
  | (block, i) :: rest, shapes =>
    match block.catches with
    | none => enterHandlers rest shapes
    | some type =>
      if i = 0 then .error (0, .handlerAtEntry)
      else do
        let (shapes, again) ←
          enterBlock block.offset i [(.reference, descriptorOf type)] shapes
        let (shapes, more) ← enterHandlers rest shapes
        return (shapes, if again then i :: more else more)

/-- A bound on the number of runs: a block is run when it is found and once per slot of its stack,
and an instruction raises the stack by at most two. -/
def runBound (blocks : List BasicBlock) : Nat :=
  let count := sumOf (blocks.map (·.instructions.length))
  blocks.length * (2 * count + 3) + 1

/-- The shapes of the blocks of a body that are reached from its entry or from a handler. -/
def findShapes (params : ParamSlots) (handlers : List HandlerEntry) (blocks : List BasicBlock) :
    Except (Int × Flaw) Shapes := do
  let start : Shapes := (Array.replicate blocks.length none).setIfInBounds 0 (some [])
  let (shapes, found) ← enterHandlers blocks.zipIdx start
  runShapes params handlers blocks (runBound blocks) (0 :: found) shapes

/-- Every range of the exception table protects some instruction of a block that is reached. -/
def checkRanges (handlers : List HandlerEntry) (blocks : List BasicBlock) (shapes : Shapes) :
    Except (Int × Flaw) Unit :=
  handlers.forM fun e =>
    let live := blocks.zipIdx.any fun (block, i) =>
      (shapes.getD i none).isSome && block.instructions.any fun ins => e.covers ins.pc
    MethodBody.failIf (!live) e.start (.unreachableRange e.start e.stop)

end JvmTaint
