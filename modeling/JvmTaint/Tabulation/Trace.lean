import JvmTaint.Tabulation.Basic

set_option autoImplicit false
set_option relaxedAutoImplicit false

/-!
# Traces

The way a fact took, from the statement where it was generated to the one where it holds. A trace
that goes back into a method from a return leaves the method at the call of that return.

## Main definitions

* `JvmTaint.TraceError`: why there is no trace.
* `JvmTaint.FlowProblem.trace`: the trace of a path edge.
* `JvmTaint.TraceRecord`: a line of a trace.
-/

namespace JvmTaint

/-- A trace: statements with the facts before them. The fact of the first is the one it generates.
-/
abbrev Trace (δ : Type) := List (Site × δ)

/-- Why there is no trace. -/
inductive TraceError (δ : Type) where
  /-- The tabulation did not retain what path edges were derived from. -/
  | notRetained
  /-- The zero fact comes from nowhere. -/
  | zeroFact (e : PathEdge δ)
  /-- The path edge was not found. -/
  | notReached (e : PathEdge δ)
  /-- Going back did not end. -/
  | cyclic (e : PathEdge δ)
  deriving DecidableEq, Repr

/-- The message of an error. -/
def TraceError.message {δ : Type} (showFact : δ → String) : TraceError δ → String
  | notRetained => "incomplete provenance: back-pointers were not retained"
  | zeroFact e => "no trace for the zero fact at " ++ e.site.render
  | notReached e => "incomplete provenance: " ++ e.render showFact ++ " was not reached"
  | cyclic e => "incomplete provenance: cyclic back-pointers from " ++ e.render showFact

namespace FlowProblem

variable {δ : Type} [DecidableEq δ] [Hashable δ]

/-- Goes back from `cur`. `later` is the trace after it and `calls` are the calls of the returns
that were passed, last first. Every step goes to a path edge, so `fuel` is one more than their
number. -/
def traceFrom (P : FlowProblem δ) (s : Tabulation δ) (target : PathEdge δ) :
    Nat → PathEdge δ → List (PathEdge δ) → Trace δ → Except (TraceError δ) (Trace δ)
  | 0, _, _, _ => .error (.cyclic target)
  | fuel + 1, cur, calls, later =>
    let trace := (cur.site, cur.fact) :: later
    -- the fact was generated at `e` if only the zero fact was needed there
    let back (e : PathEdge δ) (calls : List (PathEdge δ)) : Except (TraceError δ) (Trace δ) :=
      if e.fact = P.zero then .ok ((e.site, cur.fact) :: trace)
      else traceFrom P s target fuel e calls trace
    match s.links[cur]? with
    | none => .error (.notReached cur)
    | some none => .ok trace
    | some (some .seed) => .ok trace
    | some (some (.intra pred)) => back pred calls
    | some (some (.callToReturn pred)) => back pred calls
    | some (some (.ret pred exit)) => back exit (pred :: calls)
    | some (some (.call pred)) => match calls with
      | call :: calls => back call calls
      | [] => back pred []

/-- The trace of a path edge. -/
def trace (P : FlowProblem δ) (retain : Bool) (s : Tabulation δ) (e : PathEdge δ) :
    Except (TraceError δ) (Trace δ) :=
  if !retain then .error .notRetained
  else if e.fact = P.zero then .error (.zeroFact e)
  else P.traceFrom s e (s.edges.size + 1) e [] []

end FlowProblem

/-- A line of a trace. -/
structure TraceRecord where
  cls : String
  /-- The name and the descriptor of the method. -/
  method : String
  index : Nat
  accessPath : String
  deriving DecidableEq, Repr, Inhabited

/-- The text of a line. -/
def TraceRecord.render (r : TraceRecord) : String :=
  r.cls ++ "." ++ r.method ++ "#" ++ toString r.index ++ " " ++ r.accessPath

/-- The lines of a trace of tainted paths. -/
def Trace.records (t : Trace Fact) : List TraceRecord :=
  t.map fun (site, fact) =>
    { cls := site.method.cls, method := site.method.name ++ site.method.descriptor,
      index := site.index, accessPath := (fact.path?.getD {}).render }

end JvmTaint
