import JvmTaint.Queue
import JvmTaint.Tabulation.Basic
import Std.Data.HashSet

set_option autoImplicit false
set_option relaxedAutoImplicit false

/-!
# The worklist of the tabulation

A tabulation of path edges keeps them in one sequence. The worklist keeps five tables instead: the
path edges that wait in a queue, those that were reached with their numbers, the ones at the calls
that entered a method with a fact, the ones at the exits of a method, and counters. A path edge goes
from the statement that it starts at to the one that it is at, and what follows from it inside its
method starts where it starts.

## Main definitions

* `JvmTaint.SiteEdge`: a path edge with the statement that it starts at.
* `JvmTaint.EdgeList`: distinct path edges in the order in which they were added.
* `JvmTaint.Worklist`: the tables; `Worklist.propagate` adds a path edge to them.
* `JvmTaint.Worklist.process`: what follows from a path edge.
* `JvmTaint.Worklist.step`, `JvmTaint.Worklist.loop`: processing what waits.
* `JvmTaint.Worklist.solve`, `JvmTaint.Worklist.statistics`, `JvmTaint.Worklist.factsAt`: the run
  from some entry methods, and what it says.
-/

namespace JvmTaint

/-- If `startFact` holds before `start`, the entry of the method of `node`, then `fact` holds before
`node`. -/
structure SiteEdge (δ : Type) where
  start : Site
  startFact : δ
  node : Site
  fact : δ
  deriving DecidableEq, Hashable, Repr, Inhabited

namespace SiteEdge

variable {δ : Type}

/-- The path edge, without the statement that it starts at. -/
def pathEdge (e : SiteEdge δ) : PathEdge δ := ⟨e.node.method, e.startFact, e.node.index, e.fact⟩

/-- The path edge from the start of `e` to another statement of its method. -/
def goingOn (e : SiteEdge δ) (node : Site) (fact : δ) : SiteEdge δ := { e with node, fact }

/-- The path edge from a statement to itself. -/
def atStart (n : Site) (d : δ) : SiteEdge δ := ⟨n, d, n, d⟩

end SiteEdge

/-- Path edges in the order in which they were added, each of them once. -/
structure EdgeList (δ : Type) [DecidableEq δ] [Hashable δ] where
  members : Std.HashSet (SiteEdge δ) := ∅
  order : Array (SiteEdge δ) := #[]

/-- Adds a path edge, unless it is there. Says whether it was added. -/
def EdgeList.add {δ : Type} [DecidableEq δ] [Hashable δ] (l : EdgeList δ) (e : SiteEdge δ) :
    EdgeList δ × Bool :=
  if l.members.contains e then (l, false)
  else ({ members := l.members.insert e, order := l.order.push e }, true)

/-- What is noted of a path edge that was reached. -/
structure Mark (δ : Type) where
  /-- What the path edge was derived from, if that is retained. -/
  link : Option (Link δ)
  /-- The number of path edges that were reached before. -/
  number : Nat

/-- The tables of a tabulation. -/
structure Worklist (δ : Type) [DecidableEq δ] [Hashable δ] where
  /-- The path edges that wait to be processed. -/
  waiting : Queue (SiteEdge δ) := {}
  reached : Std.HashMap (SiteEdge δ) (Mark δ) := ∅
  /-- The path edges at the calls that entered a method with a fact. -/
  incoming : Std.HashMap (EntryFact δ) (EdgeList δ) := ∅
  /-- The path edges at the exits of a method entered with a fact. -/
  summaries : Std.HashMap (EntryFact δ) (EdgeList δ) := ∅
  /-- The methods with path edges. -/
  methods : Std.HashSet MethodRef := ∅
  /-- The calls without a known target that were processed. -/
  unresolved : Std.HashSet Site := ∅
  /-- The path edges that the problem was told of. -/
  visits : Array (SiteEdge δ) := #[]
  /-- The number of path edges that were processed. -/
  pathEdges : Nat := 0
  /-- The number of path edges in `summaries`. -/
  summaryEdges : Nat := 0

namespace Worklist

variable {δ : Type} [DecidableEq δ] [Hashable δ]

/-- The path edges at the calls that entered a method with a fact. -/
def callers (w : Worklist δ) (key : EntryFact δ) : EdgeList δ := w.incoming.getD key {}

/-- The path edges at the exits of a method that was entered with a fact. -/
def exits (w : Worklist δ) (key : EntryFact δ) : EdgeList δ := w.summaries.getD key {}

/-! ## Adding path edges -/

/-- Adds a path edge, unless it was reached before. It gets the next number, waits, and the problem
is told of it. -/
def propagate (retain : Bool) (w : Worklist δ) (e : SiteEdge δ) (l : Link δ) : Worklist δ :=
  if w.reached.contains e then w
  else
    { w with
      reached := w.reached.insert e ⟨if retain then some l else none, w.reached.size⟩
      waiting := w.waiting.push e
      methods := w.methods.insert e.node.method
      visits := w.visits.push e }

/-- Adds some path edges in turn. -/
def propagateAll (retain : Bool) (w : Worklist δ) (items : List (SiteEdge δ × Link δ)) :
    Worklist δ :=
  items.foldl (fun w (e, l) => w.propagate retain e l) w

/-- What follows from a path edge inside its method. -/
def localItems (P : FlowProblem δ) (g : FlowGraph) (targets : Option (List MethodRef))
    (e : SiteEdge δ) : List (SiteEdge δ × Link δ) :=
  (P.localItems g targets e.pathEdge).map fun (p, l) => (e.goingOn p.site p.fact, l)

/-- What follows after the call of `c` from an exit `x` of the called method. It starts where `c`
starts. -/
def returnItems (P : FlowProblem δ) (c x : SiteEdge δ) : List (SiteEdge δ × Link δ) :=
  (P.returnItems c.pathEdge x.pathEdge).map fun (p, l) => (c.goingOn p.site p.fact, l)

/-- What holds on entry to some entry methods. -/
def seeds (P : FlowProblem δ) (entries : List MethodRef) : List (SiteEdge δ × Link δ) :=
  (P.seeds entries).map fun (p, l) => (.atStart p.site p.fact, l)

/-! ## Processing path edges -/

/-- Returns from an exit to a call that entered the method. -/
def applyReturn (P : FlowProblem δ) (retain : Bool) (w : Worklist δ) (c x : SiteEdge δ) :
    Worklist δ :=
  w.propagateAll retain (returnItems P c x)

/-- Enters a method with a fact from a call. The call is noted, and the exits that are known are
returned from at once. -/
def enterWith (P : FlowProblem δ) (retain : Bool) (e : SiteEdge δ) (callee : MethodRef)
    (w : Worklist δ) (d : δ) : Worklist δ :=
  let key : EntryFact δ := ⟨callee, d⟩
  let w := { w with incoming := w.incoming.insert key ((w.callers key).add e).1 }
  let w := w.propagate retain (.atStart ⟨callee, (P.graph callee).entry⟩ d) (.call e.pathEdge)
  (w.exits key).order.toList.foldl (fun w x => w.applyReturn P retain e x) w

/-- Processes a path edge at a call. -/
def processCall (P : FlowProblem δ) (retain : Bool) (w : Worklist δ) (e : SiteEdge δ) :
    Worklist δ :=
  let g := P.graph e.node.method
  let found := P.callees g e.node.index
  let w := if found.isNone then { w with unresolved := w.unresolved.insert e.node } else w
  let callees := found.getD []
  let w := w.propagateAll retain (localItems P g (some callees) e)
  callees.foldl
    (fun w callee =>
      (P.enter g e.node.index (P.graph callee) e.fact).foldl (enterWith P retain e callee) w)
    w

/-- Processes a path edge at an exit. It is returned from to the calls that entered the method with
its start fact. -/
def processExit (P : FlowProblem δ) (retain : Bool) (w : Worklist δ) (e : SiteEdge δ) :
    Worklist δ :=
  let key : EntryFact δ := ⟨e.node.method, e.startFact⟩
  let (exits, isNew) := (w.exits key).add e
  let w := { w with summaries := w.summaries.insert key exits }
  if isNew then
    let w := { w with summaryEdges := w.summaryEdges + 1 }
    (w.callers key).order.toList.foldl (fun w c => w.applyReturn P retain c e) w
  else w

/-- Adds what follows from a path edge. -/
def process (P : FlowProblem δ) (retain : Bool) (w : Worklist δ) (e : SiteEdge δ) : Worklist δ :=
  let g := P.graph e.node.method
  if FlowProblem.isCall g e.node.index then w.processCall P retain e
  else if g.isExit e.node.index then w.processExit P retain e
  else w.propagateAll retain (localItems P g none e)

/-- Processes the first path edge that waits, and gives it. -/
def step (P : FlowProblem δ) (retain : Bool) (w : Worklist δ) : Option (SiteEdge δ × Worklist δ) :=
  match w.waiting.pop? with
  | none => none
  | some (e, waiting) =>
    some (e, { w with waiting, pathEdges := w.pathEdges + 1 }.process P retain e)

/-- The path edges that are processed by at most `n` iterations, and the tables after them. -/
def loop (P : FlowProblem δ) (retain : Bool) : Nat → Worklist δ → List (SiteEdge δ) × Worklist δ
  | 0, w => ([], w)
  | n + 1, w =>
    match w.step P retain with
    | none => ([], w)
    | some (e, w) =>
      let (done, w) := loop P retain n w
      (e :: done, w)

/-- The tables before the first iteration. -/
def start (P : FlowProblem δ) (retain : Bool) (entries : List MethodRef) : Worklist δ :=
  ({} : Worklist δ).propagateAll retain (seeds P entries)

/-- Tabulates a problem from some entry methods. A positive `budget` bounds the number of path edges
that are processed. A run that is cancelled before it starts processes none. -/
def solve (P : FlowProblem δ) (retain : Bool) (budget : Int) (cancelled : Bool)
    (entries : List MethodRef) : Worklist δ × SolveOutcome :=
  let w := start P retain entries
  if w.waiting.length = 0 then (w, .complete)
  else if cancelled then (w, .cancelled)
  else
    let steps := if budget > 0 then budget.toNat else FlowProblem.unlimited
    let w := (w.loop P retain steps).2
    (w, if w.waiting.length = 0 then .complete else .overBudget steps w.waiting.length)

/-! ## What a run says -/

/-- The statistics of a run. -/
def statistics (w : Worklist δ) : Statistics where
  pathEdges := w.pathEdges
  reached := w.reached.size
  summaries := w.summaryEdges
  methods := w.methods.size
  unresolved := w.unresolved.size

/-- The facts reached before a statement, in the order in which they were reached. -/
def factsAt (w : Worklist δ) (n : Site) : List δ :=
  let reached := w.reached.toList.filter fun (e, _) => e.node == n
  ((reached.mergeSort fun a b => a.2.number ≤ b.2.number).map (·.1.fact)).eraseDups

end Worklist

end JvmTaint
