import JvmTaint.Memo.CallGraph
import JvmTaint.Proofs.Calls.CallGraph
import JvmTaint.Proofs.Memo.Soundness

set_option autoImplicit false
set_option relaxedAutoImplicit false

/-!
# Call graphs from memos are right

A call graph that is built from a sound memo is the call graph of the program: the methods are
explored in the order of the search, and the search comes to its end before the fuel does.

## Main results

* `JvmTaint.Memo.exploreFrom_answers`: what is explored is what the search finds.
* `JvmTaint.Memo.callGraph_answers`: the call graph of some entry methods.
-/

namespace JvmTaint

/-- A method of a code base, explored. -/
def Explored.of (c : CodeBase) (ref : MethodRef) : Explored :=
  match c.graph ref with
  | .error e => { ref, graph := .error e }
  | .ok g =>
    { ref, graph := .ok g, calls := g.calls.map fun (call, i) => (i, c.table.resolve call.key) }

namespace Explored

variable {c : CodeBase} {ref : MethodRef}

@[simp] lemma of_ref : (of c ref).ref = ref := by
  unfold of
  split <;> rfl

@[simp] lemma of_graph : (of c ref).graph = c.graph ref := by
  unfold of
  split <;> simp_all

/-- The edges are those of the flow graph. -/
lemma of_edges : (of c ref).edges = match c.graph ref with
    | .ok g => c.edgesOf g
    | .error _ => [] := by
  unfold edges of
  cases c.graph ref with
  | error e => rfl
  | ok g => exact List.flatMap_map _ _ _

lemma callees_of : (of c ref).edges.map (·.callee) = c.calleesOf ref := by
  rw [of_edges]
  unfold CodeBase.calleesOf
  cases c.graph ref <;> rfl

lemma of_unresolved : (of c ref).unresolved = match c.graph ref with
    | .ok g => (c.unresolvedOf g).map (g, ·)
    | .error _ => [] := by
  unfold unresolved of
  cases c.graph ref with
  | error e => rfl
  | ok g => exact congrArg (List.map (g, ·)) List.filterMap_map

end Explored

/-- The call graph of a program is that of the methods found, explored. -/
lemma CallGraph.ofExplored_reached (c : CodeBase) (entries : List MethodRef) :
    ofExplored entries ((reached c entries).map (Explored.of c)) = build c entries := by
  unfold ofExplored build
  simp only [List.map_map, List.filterMap_map, List.flatMap_map]
  congr 1
  · congr 1
    exact (List.map_congr_left fun ref _ => Explored.of_ref).trans (List.map_id _)
  · refine List.filterMap_congr fun ref _ => ?_
    simp only [Function.comp_apply, Explored.of_ref, Explored.of_edges]
    cases c.graph ref <;> rfl
  · refine List.flatMap_congr fun ref _ => ?_
    rw [Explored.of_unresolved]
    cases c.graph ref <;> rfl
  · refine List.filterMap_congr fun ref _ => ?_
    simp only [Function.comp_apply, Explored.failure?, Explored.of_ref, Explored.of_graph]
    cases c.graph ref <;> rfl

namespace Memo

variable {t : ClassTable}

lemma explore_answers (ref : MethodRef) :
    Answers (Sound t) (explore t ref) (Explored.of (.ofTable t) ref) := by
  refine (graph_answers ref).bind ?_
  unfold Explored.of
  cases (CodeBase.ofTable t).graph ref with
  | error e => exact Answers.pure _
  | ok g =>
    refine (Answers.mapM (f := fun (call, i) => (i, t.resolve call.key)) _ fun x _ => ?_).bind
      (Answers.pure _)
    exact (resolve_answers x.1.key).bind (Answers.pure _)

/-- What is explored is what the search finds from its position on.

**Proof sketch.** Induction on the fuel. A method that was found stays at its position, so the
method that is explored first is the first of the result behind the position. -/
lemma exploreFrom_answers (fuel done : Nat) (seen : List MethodRef) :
    Answers (Sound t) (exploreFrom t fuel done seen)
      ((((closure (CodeBase.ofTable t).calleesOf fuel done seen).drop done).take fuel).map
        (Explored.of (.ofTable t))) := by
  induction fuel generalizing done seen with
  | zero => exact Answers.pure _
  | succ fuel ih =>
    unfold exploreFrom closure
    cases hdone : seen[done]? with
    | none =>
      rw [List.drop_of_length_le (List.getElem?_eq_none_iff.mp hdone), List.take_nil]
      exact Answers.pure _
    | some ref =>
      dsimp only
      refine (explore_answers ref).bind ?_
      rw [Explored.callees_of]
      refine (ih (done + 1) _).bind ?_
      have hprefix : seen <+: closure (CodeBase.ofTable t).calleesOf fuel (done + 1)
          (appendNew seen ((CodeBase.ofTable t).calleesOf ref)) :=
        (isPrefix_appendNew _ _).trans (isPrefix_closure _ _ _)
      obtain ⟨hlt, rfl⟩ := List.getElem?_eq_some_iff.mp hdone
      rw [List.drop_eq_getElem_cons (Nat.lt_of_lt_of_le hlt hprefix.length_le),
        ← hprefix.getElem hlt]
      exact Answers.pure _

/-- The call graph of some entry methods is that of the program. -/
lemma callGraph_answers (entries : List MethodRef) :
    Answers (Sound t) (callGraph t entries) (CallGraph.build (.ofTable t) entries) := by
  refine (exploreFrom_answers _ _ _).bind ?_
  have hall := CallGraph.length_reached_le (.ofTable t) entries
  have hreached := CallGraph.ofExplored_reached (.ofTable t) entries
  unfold CallGraph.reached at hall hreached
  rw [show (CodeBase.ofTable t).table = t from rfl] at hall hreached
  rw [List.drop_zero, List.take_of_length_le hall, hreached]
  exact Answers.pure _

end Memo

end JvmTaint
