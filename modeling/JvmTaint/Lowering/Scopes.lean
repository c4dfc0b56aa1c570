import JvmTaint.ClassFile.Hierarchy
import JvmTaint.Flow.Graph
import JvmTaint.Lowering.Shapes

set_option autoImplicit false
set_option relaxedAutoImplicit false

/-!
# Edges, resource scopes and handlers

The edges of a lowered method. Inside a block control goes from statement to statement; a block ends
in jumps or in a fall-through. A resource scope adds five statements: one that closes the resource
and one that goes on behind the scope on a normal exit, and a handler that closes the resource and
throws the exception again. Every statement that may raise an exception has an edge to each handler
that may catch it, and to the exit if none surely does.

## Main definitions

* `JvmTaint.Scope`: a resource scope with the place of its statements.
* `JvmTaint.Wiring`: statements and edges while they are connected.
* `JvmTaint.Wiring.flow`, `JvmTaint.Wiring.redirect`, `JvmTaint.Wiring.raise`: the three kinds of
  edges.
* `JvmTaint.matchHandler`: whether a handler catches an exception.
-/

namespace JvmTaint

/-- The statements and edges of a method while it is connected. -/
structure Wiring where
  statements : Array Statement
  succs : Successors
  deriving Inhabited

/-- A block of a lowered method: its instructions and the positions of its statements. -/
structure Span where
  block : BasicBlock
  /-- Whether the block is reached. -/
  reached : Bool
  first : Nat
  last : Nat
  deriving Inhabited

/-- The first statement of the block that starts at an offset. -/
def firstAt (spans : List Span) (offset : Int) : Nat :=
  ((spans.find? (·.block.offset == offset)).map (·.first)).getD 0

/-- The first statement of the block that starts at an instruction. -/
def firstFrom (spans : List Span) (start : Nat) : Nat :=
  ((spans.find? (·.block.start == start)).map (·.first)).getD 0

/-! ## Scopes -/

/-- A resource scope and the position of the first of its five statements. -/
structure Scope where
  scope : ResourceScope
  base : Nat
  deriving DecidableEq, Inhabited

namespace Scope

/-- Closes the resource on a normal exit. -/
def closeNormal (s : Scope) : Nat := s.base

/-- Goes on behind the scope. -/
def gotoEnd (s : Scope) : Nat := s.base + 1

/-- Receives an exception that leaves the scope. -/
def handler (s : Scope) : Nat := s.base + 2

/-- Closes the resource after an exception. -/
def closeOnException (s : Scope) : Nat := s.base + 3

/-- Throws the exception again. -/
def rethrow (s : Scope) : Nat := s.base + 4

/-- Whether a statement is one of the scope. -/
def owns (s : Scope) (i : Nat) : Bool := decide (s.base ≤ i ∧ i < s.base + 5)

/-- Whether the range of the scope lies within the range of another one. -/
def within (s o : Scope) : Bool :=
  decide (o.scope.start ≤ s.scope.start ∧ s.scope.stop ≤ o.scope.stop)

/-- Whether the range of the scope contains an offset. -/
def contains (s : Scope) (offset : Int) : Bool :=
  decide (s.scope.start ≤ offset ∧ offset < s.scope.stop)

/-- The five statements of a scope. `stop` is the first statement behind the scope, and `scratch`
the number of the temporary that keeps the exception. -/
def statements (params : ParamSlots) (r : ResourceScope) (stop scratch : Nat) : List Statement :=
  let (cls, kind) :=
    if r.type = "" then ("java/lang/AutoCloseable", InvokeKind.interface)
    else (r.type, InvokeKind.virtual)
  let receiver := params.variable r.slot (descriptorOf cls)
  let close : Action Nat := .invoke none ⟨kind, ⟨cls, "close", "()V"⟩, some receiver, []⟩
  let exception : Value := .var (.scratch scratch) (descriptorOf javaLangThrowable)
  [close, .goto stop, .receive exception "", close, .throw exception].map
    fun action => { offset := -1, action, synthetic := true }

end Scope

/-- The scopes of a body, the shortest first, with the positions of their statements from `base`
on. -/
def placeScopes (resources : List ResourceScope) (base : Nat) : List Scope :=
  let sorted := resources.mergeSort fun x y => decide (x.stop - x.start ≤ y.stop - y.start)
  sorted.zipIdx.map fun (r, i) => ⟨r, base + 5 * i⟩

/-- The scope that owns a statement. -/
def ownerOf? (scopes : List Scope) (i : Nat) : Option Scope := scopes.find? (·.owns i)

/-! ## Edges -/

namespace Wiring

/-- Adds an edge unless there is one with the same ends and kind. -/
def connect (w : Wiring) (source target : Nat) (kind : EdgeKind) (catchType : String) : Wiring :=
  let out := w.succs.getD source []
  if out.any fun e => e.target == target && e.kind == kind then w
  else
    { w with succs := w.succs.setIfInBounds source (out ++ [{ source, target, kind, catchType }]) }

/-- Adds the edges inside a block and from its last statement. -/
def flow (spans : List Span) (w : Wiring) (span : Span) : Wiring :=
  if !span.reached then w
  else
    let w := (List.range (span.last - span.first)).foldl
      (fun w k => w.connect (span.first + k) (span.first + k + 1) .normal "") w
    match span.block.last? with
    | none => w
    | some ins =>
      let targets := ((w.statements[span.last]?).map (·.action.targets)).getD []
      let next := firstFrom spans span.block.stop
      if ins.op.isConditional then
        (w.connect span.last (targets.headD 0) .onTrue "").connect span.last next .onFalse ""
      else if ins.op.isGoto || ins.op.isSwitch then
        targets.foldl (fun w t => w.connect span.last t .normal "") w
      else if ins.op.isReturn || ins.op.isThrow then w
      else w.connect span.last next .normal ""

/-- Whether control at a statement is inside a scope: the statement comes from an instruction in the
range of the scope, or belongs to another scope within it. -/
def isInside (scopes : List Scope) (w : Wiring) (s : Scope) (i : Nat) : Bool :=
  match ownerOf? scopes i with
  | some owner => owner != s && owner.within s
  | none =>
    match w.statements[i]? with
    | some st => decide (0 ≤ st.offset) && s.contains st.offset
    | none => false

/-- Sends the edges that leave a scope for the statement behind it, `stop`, through the statement
that closes the resource, and connects the statements of the scope. -/
def redirect (spans : List Span) (scopes : List Scope) (w : Wiring) (s : Scope) : Wiring :=
  let stop := firstAt spans s.scope.stop
  let move (t : Nat) : Nat := if t = stop then s.closeNormal else t
  let inside := w.isInside scopes s
  let w : Wiring := {
    succs := w.succs.mapIdx fun i es =>
      if inside i then
        es.map fun e => if e.kind = .exception then e else { e with target := move e.target }
      else es
    statements := w.statements.mapIdx fun i st =>
      if inside i then { st with action := st.action.mapLabels move } else st }
  let gone := (((w.statements[s.gotoEnd]?).map (·.action.targets)).getD []).headD 0
  (((w.connect s.closeNormal s.gotoEnd .normal "").connect s.gotoEnd gone .normal "").connect
    s.handler s.closeOnException .normal "").connect s.closeOnException s.rethrow .normal ""

end Wiring

/-! ## Handlers -/

/-- A handler that may receive an exception: its range, the type it catches and its statement. -/
structure Handler where
  start : Int
  stop : Int
  catchType : String
  target : Nat
  deriving Inhabited

/-- Whether a handler lies within the range of a scope. -/
def Handler.within (h : Handler) (s : Scope) : Bool :=
  decide (s.scope.start ≤ h.start ∧ h.stop ≤ s.scope.stop)

/-- Puts the handler of a scope behind the last handler within its range. -/
def insertScope (s : Scope) (hs : List Handler) : List Handler :=
  let inner := hs.length - (hs.reverse.takeWhile fun h => !h.within s).length
  hs.take inner ++ [⟨s.scope.start, s.scope.stop, "", s.handler⟩] ++ hs.drop inner

/-- The handlers that may receive an exception of a statement, the innermost first. Entries of the
exception table keep their order. A statement of a scope is protected only by what encloses the
scope. -/
def handlersFor (handlers : List HandlerEntry) (spans : List Span) (scopes : List Scope)
    (offset : Int) (owner : Option Scope) : List Handler :=
  let offset := match owner with
    | some s => s.scope.start
    | none => offset
  let entries := handlers.filter fun e =>
    e.covers offset &&
      !(owner.any fun s => decide (s.scope.start ≤ e.start ∧ e.stop ≤ s.scope.stop))
  let table := entries.map fun e => ⟨e.start, e.stop, e.catchType, firstAt spans e.handler⟩
  let enclosing := scopes.filter fun s =>
    s.contains offset && !(owner.any fun o => s.within o)
  enclosing.foldl (fun hs s => insertScope s hs) table

/-- Whether a handler catches an exception. -/
inductive HandlerMatch where
  | never
  | maybe
  | always
  deriving DecidableEq, Repr, Inhabited

/-- Whether a handler for `catchType` catches an exception of static type `raised`. Without a type
hierarchy, or outside of it, any two types may be related. -/
def matchHandler (types : Option ClassTable) (raised catchType : String) : HandlerMatch :=
  if catchType = "" ∨ catchType = javaLangThrowable ∨ catchType = raised then .always
  else match types with
    | none => .maybe
    | some t =>
      if !t.knows raised || !t.knows catchType then .maybe
      else if t.isSubtype raised catchType then .always
      else if t.isSubtype catchType raised then .maybe
      else .never

/-- The static type of the exceptions that an action raises. -/
def raisedType (a : Action Nat) : String :=
  match a with
  | .throw src => let cls := classOf src.type; if cls = "" then javaLangThrowable else cls
  | _ => javaLangThrowable

namespace Wiring

/-- Adds edges to the handlers that may catch an exception, up to the first one that surely does,
and to the exit if there is none. -/
def raiseTo (types : Option ClassTable) (i exit : Nat) (raised : String) :
    List Handler → Wiring → Wiring
  | [], w => w.connect i exit .exception ""
  | h :: hs, w =>
    match matchHandler types raised h.catchType with
    | .always => w.connect i h.target .exception h.catchType
    | .maybe => raiseTo types i exit raised hs (w.connect i h.target .exception h.catchType)
    | .never => raiseTo types i exit raised hs w

/-- Adds the exception edges of a statement. -/
def raise (types : Option ClassTable) (handlers : List HandlerEntry) (spans : List Span)
    (scopes : List Scope) (exit : Nat) (w : Wiring) (i : Nat) : Wiring :=
  match w.statements[i]? with
  | none => w
  | some st =>
    if st.action.mayThrow then
      raiseTo types i exit (raisedType st.action)
        (handlersFor handlers spans scopes st.offset (ownerOf? scopes i)) w
    else w

end Wiring

end JvmTaint
