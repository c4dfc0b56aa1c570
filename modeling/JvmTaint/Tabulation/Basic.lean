import JvmTaint.Flow.Graph
import JvmTaint.Taint.Fact
import Std.Data.HashMap

set_option autoImplicit false
set_option relaxedAutoImplicit false

/-!
# Tabulation of distributive data flow problems

The facts that hold before each statement of a program along realizable paths: paths in which every
return goes back to the call that it belongs to. They are tabulated as path edges. A path edge says
that a fact holds before a statement if a start fact holds on entry to its method. What a method
does to a start fact is summarized by the path edges at its exits and used for every call that
enters the method with that fact.

The path edges found so far are numbered in the order in which they were found. The first ones have
been processed, the others wait.

## Main definitions

* `JvmTaint.FlowProblem`: the flow functions of a problem.
* `JvmTaint.PathEdge`, `JvmTaint.Link`: a path edge, and what it was derived from.
* `JvmTaint.Tabulation`: the state of a tabulation; `Tabulation.propagate` adds a path edge.
* `JvmTaint.FlowProblem.process`: what follows from a path edge.
* `JvmTaint.FlowProblem.run`, `JvmTaint.FlowProblem.solve`: processing path edges.
* `JvmTaint.Tabulation.factsAt`, `JvmTaint.FlowProblem.statistics`: what a tabulation says.
-/

namespace JvmTaint

/-- A data flow problem. The flow functions give the facts that follow from one fact. -/
structure FlowProblem (δ : Type) where
  /-- The fact that holds wherever control can be. -/
  zero : δ
  /-- The flow graph of a method. -/
  graph : MethodRef → FlowGraph
  /-- The methods that a call is analyzed in; `none` if the call has no known target. -/
  callees : FlowGraph → Nat → Option (List MethodRef)
  /-- The facts besides `zero` that hold on entry to an entry method. -/
  initial : FlowGraph → List δ
  /-- The facts after a statement that is no call, and along the exception edges of a call. -/
  normal : FlowGraph → Nat → Edge → δ → List δ
  /-- The facts after a call that do not go through the methods it is analyzed in. -/
  callToReturn : FlowGraph → Nat → Edge → List MethodRef → δ → List δ
  /-- The facts on entry to a method that follow from a fact before a call of it. -/
  enter : FlowGraph → Nat → FlowGraph → δ → List δ
  /-- The facts after a call that follow from a fact at an exit of the method. -/
  leave : FlowGraph → Nat → Edge → FlowGraph → Nat → δ → List δ

/-- If `startFact` holds on entry to `method` then `fact` holds before its statement `node`. -/
structure PathEdge (δ : Type) where
  method : MethodRef
  startFact : δ
  node : Nat
  fact : δ
  deriving DecidableEq, Hashable, Repr, Inhabited

/-- What a path edge was derived from. -/
inductive Link (δ : Type) where
  /-- The path edge starts at an entry method. -/
  | seed
  /-- An edge of the flow graph was followed from `pred`. -/
  | intra (pred : PathEdge δ)
  /-- The call at `pred` was passed without entering a method. -/
  | callToReturn (pred : PathEdge δ)
  /-- The method was entered by the call at `pred`. -/
  | call (pred : PathEdge δ)
  /-- The method called at `pred` was left at `exit`. -/
  | ret (pred exit : PathEdge δ)
  deriving DecidableEq, Repr, Inhabited

/-- A method with a fact that holds on entry to it. -/
structure EntryFact (δ : Type) where
  method : MethodRef
  fact : δ
  deriving DecidableEq, Hashable, Repr, Inhabited

/-- The site of a path edge. -/
def PathEdge.site {δ : Type} (e : PathEdge δ) : Site := ⟨e.method, e.node⟩

/-- The text of a path edge. -/
def PathEdge.render {δ : Type} (showFact : δ → String) (e : PathEdge δ) : String :=
  "(" ++ e.method.render ++ "#0, " ++ showFact e.startFact ++ ") -> (#" ++ toString e.node ++
    ", " ++ showFact e.fact ++ ")"

/-- The state of a tabulation. -/
structure Tabulation (δ : Type) [DecidableEq δ] [Hashable δ] where
  /-- The path edges, in the order in which they were found. -/
  edges : Array (PathEdge δ) := #[]
  /-- The number of path edges that have been processed. -/
  processed : Nat := 0
  /-- The path edges with what they were derived from, if that is retained. -/
  links : Std.HashMap (PathEdge δ) (Option (Link δ)) := ∅
  /-- The path edges at the calls that entered a method with a fact. -/
  incoming : Std.HashMap (EntryFact δ) (Array (PathEdge δ)) := ∅
  /-- The path edges at the exits of a method entered with a fact. -/
  summaries : Std.HashMap (EntryFact δ) (Array (PathEdge δ)) := ∅
  /-- The number of path edges in `summaries`. -/
  summaryCount : Nat := 0

namespace Tabulation

variable {δ : Type} [DecidableEq δ] [Hashable δ]

/-- Whether a path edge was found. -/
def reached (s : Tabulation δ) (e : PathEdge δ) : Bool := s.links.contains e

/-- The path edge that is to be processed next. -/
def next? (s : Tabulation δ) : Option (PathEdge δ) := s.edges[s.processed]?

/-- The number of path edges that wait. -/
def pending (s : Tabulation δ) : Nat := s.edges.size - s.processed

/-- Adds a path edge, unless it was found before. -/
def propagate (retain : Bool) (s : Tabulation δ) (e : PathEdge δ) (l : Link δ) : Tabulation δ :=
  if s.reached e then s
  else
    { s with
      edges := s.edges.push e
      links := s.links.insert e (if retain then some l else none) }

/-- Adds some path edges in turn. -/
def propagateAll (retain : Bool) (s : Tabulation δ) (items : List (PathEdge δ × Link δ)) :
    Tabulation δ :=
  items.foldl (fun s (e, l) => s.propagate retain e l) s

/-- Adds a path edge to those of an entry fact, unless it is there. -/
def addTo (table : Std.HashMap (EntryFact δ) (Array (PathEdge δ))) (key : EntryFact δ)
    (e : PathEdge δ) : Std.HashMap (EntryFact δ) (Array (PathEdge δ)) :=
  let known := table.getD key #[]
  if known.contains e then table else table.insert key (known.push e)

/-- The facts found before a statement, in the order in which they were found. -/
def factsAt (s : Tabulation δ) (site : Site) : List δ :=
  ((s.edges.toList.filter fun e => e.site == site).map (·.fact)).eraseDups

end Tabulation

/-- The statistics of a tabulation. -/
structure Statistics where
  /-- The number of path edges that were processed. -/
  pathEdges : Nat := 0
  /-- The number of path edges that were found. -/
  reached : Nat := 0
  summaries : Nat := 0
  /-- The number of methods with path edges. -/
  methods : Nat := 0
  /-- The number of calls without a known target that were processed. -/
  unresolved : Nat := 0
  deriving DecidableEq, Repr, Inhabited

/-- How a tabulation ended. -/
inductive SolveOutcome where
  /-- No path edge waits. -/
  | complete
  /-- The budget was used up while some path edges were waiting. -/
  | overBudget (budget pending : Nat)
  /-- The run was cancelled. -/
  | cancelled
  deriving DecidableEq, Repr, Inhabited

namespace FlowProblem

variable {δ : Type} [DecidableEq δ] [Hashable δ]

/-- The path edges that a path edge at a call and one at an exit of the called method give together.
A return goes on along the normal edges of the call, an uncaught exception along its exception
edges. -/
def returnItems (P : FlowProblem δ) (c x : PathEdge δ) : List (PathEdge δ × Link δ) :=
  let caller := P.graph c.method
  let callee := P.graph x.method
  let exceptional := (callee.statements[x.node]?.map (·.action)) == some .exit
  ((caller.successors c.node).filter fun e => (e.kind == .exception) == exceptional).flatMap
    fun e => (P.leave caller c.node e callee x.node x.fact).map
      fun d => (⟨c.method, c.startFact, e.target, d⟩, .ret c x)

/-- The path edges that follow from a path edge in its method: along all edges, or for a call along
those that do not enter the methods it is analyzed in. -/
def localItems (P : FlowProblem δ) (g : FlowGraph) (targets : Option (List MethodRef))
    (e : PathEdge δ) : List (PathEdge δ × Link δ) :=
  (g.successors e.node).flatMap fun edge =>
    let along (facts : List δ) (l : Link δ) : List (PathEdge δ × Link δ) :=
      facts.map fun d => (⟨e.method, e.startFact, edge.target, d⟩, l)
    match targets with
    | some callees =>
      if edge.kind = .exception then along (P.normal g e.node edge e.fact) (.intra e)
      else along (P.callToReturn g e.node edge callees e.fact) (.callToReturn e)
    | none => along (P.normal g e.node edge e.fact) (.intra e)

/-- Enters a method with a fact from a call. What is known about the method is used at once. -/
def enterWith (P : FlowProblem δ) (retain : Bool) (e : PathEdge δ) (callee : MethodRef)
    (s : Tabulation δ) (d : δ) : Tabulation δ :=
  let key : EntryFact δ := ⟨callee, d⟩
  let s := { s with incoming := Tabulation.addTo s.incoming key e }
  let s := s.propagate retain ⟨callee, d, (P.graph callee).entry, d⟩ (.call e)
  s.propagateAll retain ((s.summaries.getD key #[]).toList.flatMap (P.returnItems e))

/-- Processes a path edge at a call. -/
def processCall (P : FlowProblem δ) (retain : Bool) (s : Tabulation δ) (g : FlowGraph)
    (e : PathEdge δ) : Tabulation δ :=
  let callees := (P.callees g e.node).getD []
  let s := s.propagateAll retain (P.localItems g (some callees) e)
  callees.foldl
    (fun s callee =>
      (P.enter g e.node (P.graph callee) e.fact).foldl (P.enterWith retain e callee) s)
    s

/-- Processes a path edge at an exit: it summarizes its method for the calls that entered it. -/
def processExit (P : FlowProblem δ) (retain : Bool) (s : Tabulation δ) (e : PathEdge δ) :
    Tabulation δ :=
  let key : EntryFact δ := ⟨e.method, e.startFact⟩
  if (s.summaries.getD key #[]).contains e then s
  else
    let s := { s with
      summaries := Tabulation.addTo s.summaries key e
      summaryCount := s.summaryCount + 1 }
    s.propagateAll retain ((s.incoming.getD key #[]).toList.flatMap fun c => P.returnItems c e)

/-- Whether a statement is a call. -/
def isCall (g : FlowGraph) (i : Nat) : Bool :=
  ((g.statements[i]?).bind fun s => s.action.call?).isSome

/-- Adds what follows from a path edge. -/
def process (P : FlowProblem δ) (retain : Bool) (s : Tabulation δ) (e : PathEdge δ) :
    Tabulation δ :=
  let g := P.graph e.method
  if isCall g e.node then P.processCall retain s g e
  else if g.isExit e.node then P.processExit retain s e
  else s.propagateAll retain (P.localItems g none e)

/-- Processes the next path edge, if one waits. -/
def step (P : FlowProblem δ) (retain : Bool) (s : Tabulation δ) : Tabulation δ :=
  match s.next? with
  | none => s
  | some e => P.process retain { s with processed := s.processed + 1 } e

/-- Processes at most `n` path edges. -/
def run (P : FlowProblem δ) (retain : Bool) : Nat → Tabulation δ → Tabulation δ
  | 0, s => s
  | n + 1, s => if s.pending = 0 then s else run P retain n (P.step retain s)

/-- The path edges that start the analysis of some entry methods. -/
def seeds (P : FlowProblem δ) (entries : List MethodRef) : List (PathEdge δ × Link δ) :=
  entries.flatMap fun m =>
    let g := P.graph m
    (P.zero :: P.initial g).map fun d => (⟨m, d, g.entry, d⟩, .seed)

/-- The state before any path edge is processed. -/
def start (P : FlowProblem δ) (retain : Bool) (entries : List MethodRef) : Tabulation δ :=
  ({} : Tabulation δ).propagateAll retain (P.seeds entries)

/-- More path edges than a machine can process. -/
def unlimited : Nat := 4611686018427387904

/-- Tabulates a problem from some entry methods. A positive `budget` bounds the number of path edges
that are processed. A run that is cancelled before it starts processes none. -/
def solve (P : FlowProblem δ) (retain : Bool) (budget : Int) (cancelled : Bool)
    (entries : List MethodRef) : Tabulation δ × SolveOutcome :=
  let s := P.start retain entries
  if s.pending = 0 then (s, .complete)
  else if cancelled then (s, .cancelled)
  else
    let steps := if budget > 0 then budget.toNat else unlimited
    let s := P.run retain steps s
    (s, if s.pending = 0 then .complete else .overBudget steps s.pending)

/-- The path edges that were processed at calls. -/
def processedCalls (P : FlowProblem δ) (s : Tabulation δ) : List (PathEdge δ) :=
  (s.edges.toList.take s.processed).filter fun e => isCall (P.graph e.method) e.node

/-- The statistics of a tabulation. -/
def statistics (P : FlowProblem δ) (s : Tabulation δ) : Statistics where
  pathEdges := s.processed
  reached := s.edges.size
  summaries := s.summaryCount
  methods := (s.edges.toList.map (·.method)).eraseDups.length
  unresolved :=
    (((P.processedCalls s).filter fun e =>
      (P.callees (P.graph e.method) e.node).isNone).map (·.site)).eraseDups.length

end FlowProblem

end JvmTaint
