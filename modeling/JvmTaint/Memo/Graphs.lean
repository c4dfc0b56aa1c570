import JvmTaint.Memo.Types

set_option autoImplicit false
set_option relaxedAutoImplicit false

/-!
# Memos of flow graphs

The flow graphs of methods are kept. While a graph is built, questions about the type hierarchy are
asked where a handler is matched with an exception.

## Main definitions

* `JvmTaint.Memo.matchHandler`: whether a handler catches an exception.
* `JvmTaint.Memo.connectAll`, `JvmTaint.Memo.buildGraph`: building a flow graph.
* `JvmTaint.Memo.graph`, `JvmTaint.Memo.failures`: the flow graph of a method, and the methods
  without one.
-/

namespace JvmTaint

/-- The statements of all blocks of a body with code, before they are connected. -/
def MethodBody.lowered (b : MethodBody) (params : ParamSlots) :
    Except (Int × Flaw) Progression := do
  b.validate
  let shapes ← findShapes params b.handlers b.blocks
  checkRanges b.handlers b.blocks shapes
  lowerBlocks params b.handlers shapes b.blocks.zipIdx {}

namespace Memo

variable (t : ClassTable)

/-- Whether a handler for `catchType` catches an exception of static type `raised`. -/
def matchHandler (raised catchType : String) : StateM Memo HandlerMatch :=
  if catchType = "" ∨ catchType = javaLangThrowable ∨ catchType = raised then return .always
  else do
    if !(← knows t raised) then return .maybe
    else if !(← knows t catchType) then return .maybe
    else if ← isSubtype t raised catchType then return .always
    else if ← isSubtype t catchType raised then return .maybe
    else return .never

/-- Adds edges to the handlers that may catch an exception, up to the first one that surely does,
and to the exit if there is none. -/
def raiseTo (i exit : Nat) (raised : String) : List Handler → Wiring → StateM Memo Wiring
  | [], w => return w.connect i exit .exception ""
  | h :: hs, w => do
    match ← matchHandler t raised h.catchType with
    | .always => return w.connect i h.target .exception h.catchType
    | .maybe => raiseTo i exit raised hs (w.connect i h.target .exception h.catchType)
    | .never => raiseTo i exit raised hs w

/-- Adds the exception edges of a statement. -/
def raise (handlers : List HandlerEntry) (spans : List Span) (scopes : List Scope) (exit : Nat)
    (w : Wiring) (i : Nat) : StateM Memo Wiring :=
  match w.statements[i]? with
  | none => return w
  | some st =>
    if st.action.mayThrow then
      raiseTo t i exit (raisedType st.action)
        (handlersFor handlers spans scopes st.offset (ownerOf? scopes i)) w
    else return w

/-- Connects the statements of lowered blocks: the flow within and between blocks, the scopes from
the shortest to the longest, and the exceptions. -/
def connectAll (params : ParamSlots) (handlers : List HandlerEntry)
    (resources : List ResourceScope) (p : Progression) : StateM Memo Wiring :=
  let scopes := placeScopes resources p.lowered.size
  let blockStatements := p.lowered.map fun l =>
    { offset := l.offset, action := l.action.mapLabels (firstAt p.spans) : Statement }
  let scopeStatements := scopes.zipIdx.flatMap fun (s, i) =>
    Scope.statements params s.scope (firstAt p.spans s.scope.stop) (p.scratch + i)
  let statements := (blockStatements ++ scopeStatements).push exitStatement
  let exit := statements.size - 1
  let w : Wiring := ⟨statements, Array.replicate statements.size []⟩
  let w := p.spans.foldl (Wiring.flow p.spans) w
  let w := scopes.foldl (Wiring.redirect p.spans scopes) w
  (List.range statements.size).foldlM (raise t handlers p.spans scopes exit) w

/-- The statements and edges of a body with code, given the variables of its parameters. -/
def ofCode (b : MethodBody) (params : ParamSlots) :
    StateM Memo (Except (Int × Flaw) Wiring) :=
  match b.lowered params with
  | .error e => return .error e
  | .ok p => return .ok (← connectAll t params b.handlers b.resources p)

/-- The flow graph of a body. -/
def buildGraph (b : MethodBody) : StateM Memo (Except BuildError FlowGraph) :=
  if !b.hasCode then return .error (.noCode b.ref)
  else match MethodDescriptor.parse b.ref.descriptor with
    | .error e => return .error (.malformed b.ref 0 (.descriptor b.ref.descriptor e))
    | .ok d => do
      let params := b.paramSlots d
      let wiring : Except (Int × Flaw) Wiring ←
        if b.code.isEmpty then pure (.ok ⟨#[exitStatement], #[[]]⟩) else ofCode t b params
      match wiring with
      | .error (offset, flaw) => return .error (.malformed b.ref offset flaw)
      | .ok w =>
        return .ok {
          ref := b.ref
          modifiers := b.modifiers
          params := params.map (·.2)
          statements := w.statements
          succs := markBackEdges w.succs
          exits := exitsOf w.statements }

/-- Looks up the body of a method and builds its flow graph. -/
def lookupGraph (ref : MethodRef) : StateM Memo (Except GraphError FlowGraph) := do
  modify fun m => { m with lookups := m.lookups + 1 }
  match t.body ref with
  | .error e => return .error (.lookup e)
  | .ok body => return (← buildGraph t body).mapError .build

/-- The flow graph of the method that a class itself declares. Failures are kept as well. -/
def graph : MethodRef → StateM Memo (Except GraphError FlowGraph) :=
  memoized graphs (fun ref g m => { m with graphs := m.graphs.insert ref g }) (lookupGraph t)

/-- The methods asked for that have no flow graph, sorted. -/
def failures (m : Memo) : List MethodRef :=
  (m.graphs.toList.filterMap fun (ref, g) =>
    match g with
    | .ok _ => none
    | .error _ => some ref).mergeSort MethodRef.le

end Memo

end JvmTaint
