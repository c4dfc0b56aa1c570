import JvmTaint.Tabulation.Basic
import Mathlib.Order.Bounds.Basic
import Mathlib.Tactic.Set

set_option autoImplicit false
set_option relaxedAutoImplicit false

/-!
# The rules of the tabulation

The path edges of a problem are defined by five rules, which say nothing about the order in which
path edges are found. A rule derives a path edge from path edges that are known, and its instance
is recorded by a link. A tabulation that has come to its end holds the least set of path edges
which is closed under these rules; this is proved in `JvmTaint.Proofs.Tabulation.Exactness`.

## Main definitions

* `JvmTaint.FlowProblem.AtCall`, `JvmTaint.FlowProblem.AtExit`: what a statement is.
* `JvmTaint.FlowProblem.Enters`: a call enters a method with a fact.
* `JvmTaint.FlowProblem.Follows`: the five rules, each with its link.
* `JvmTaint.FlowProblem.Closed`: a set of path edges is closed under the rules.
* `JvmTaint.FlowProblem.Equivalent`: two problems whose flow functions give the same facts.

## Main results

* `JvmTaint.FlowProblem.Follows.mono`: what follows from a set follows from every larger set.
* `JvmTaint.FlowProblem.closed_iff_of_equivalent`: the order and the repetition of facts, targets
  and entry methods do not matter for the rules.
* `JvmTaint.FlowProblem.mem_localItems_call`, `JvmTaint.FlowProblem.mem_localItems_other`,
  `JvmTaint.FlowProblem.mem_returnItems`, `JvmTaint.FlowProblem.mem_seeds`: the items that a
  tabulation adds are instances of the rules.
-/

namespace JvmTaint

variable {δ : Type}

/-- The path edge that goes on along an edge of the flow graph, in the same context. -/
def PathEdge.along (e : PathEdge δ) (edge : Edge) (d : δ) : PathEdge δ :=
  ⟨e.method, e.startFact, edge.target, d⟩

namespace FlowProblem

/-! ## Statements -/

/-- The outgoing edges of a statement. -/
def outgoing (P : FlowProblem δ) (n : Site) : List Edge := (P.graph n.method).successors n.index

/-- The statement is a call. -/
def AtCall (P : FlowProblem δ) (n : Site) : Prop := isCall (P.graph n.method) n.index = true

/-- The statement is an exit of its method. -/
def AtExit (P : FlowProblem δ) (n : Site) : Prop :=
  ¬ P.AtCall n ∧ (P.graph n.method).isExit n.index = true

/-- The statement is the exit of uncaught exceptions. -/
def AtUncaught (P : FlowProblem δ) (n : Site) : Prop :=
  (P.graph n.method).statements[n.index]?.map (·.action) = some .exit

/-- The edge is followed from the statement by the normal flow function: every edge of a statement
that is neither a call nor an exit, and the exception edges of a call. -/
def FollowedNormally (P : FlowProblem δ) (n : Site) (edge : Edge) : Prop :=
  (P.AtCall n ∧ edge.kind = .exception) ∨ (¬ P.AtCall n ∧ ¬ P.AtExit n)

/-- The methods that a call is analyzed in. -/
def targets (P : FlowProblem δ) (n : Site) : List MethodRef :=
  (P.callees (P.graph n.method) n.index).getD []

/-- The entry of a method. -/
def entrySite (P : FlowProblem δ) (m : MethodRef) : Site := ⟨m, (P.graph m).entry⟩

/-- The path edge at the entry of a method that is entered with a fact. -/
def entryEdge (P : FlowProblem δ) (m : MethodRef) (d : δ) : PathEdge δ :=
  ⟨m, d, (P.graph m).entry, d⟩

/-- The call `n`, with the fact `d` before it, enters the method `m` with the fact `d'`. -/
def Enters (P : FlowProblem δ) (n : Site) (d : δ) (m : MethodRef) (d' : δ) : Prop :=
  P.AtCall n ∧ m ∈ P.targets n ∧ d' ∈ P.enter (P.graph n.method) n.index (P.graph m) d

/-! ## Rules -/

/-- A path edge follows from the path edges in `S` by one of the five rules. The link names the
rule and its premises. -/
inductive Follows (P : FlowProblem δ) (entries : List MethodRef) (S : Set (PathEdge δ)) :
    PathEdge δ → Link δ → Prop
  /-- The zero fact and the initial facts hold on entry to an entry method. -/
  | seed {m : MethodRef} {d : δ} (hm : m ∈ entries)
      (hd : d ∈ P.zero :: P.initial (P.graph m)) : Follows P entries S (P.entryEdge m d) .seed
  /-- The edges of a statement that is neither a call nor an exit are followed, and the exception
  edges of a call. -/
  | intra {e : PathEdge δ} {edge : Edge} {d : δ} (he : e ∈ S) (hedge : edge ∈ P.outgoing e.site)
      (hkind : P.FollowedNormally e.site edge)
      (hd : d ∈ P.normal (P.graph e.method) e.node edge e.fact) :
      Follows P entries S (e.along edge d) (.intra e)
  /-- The other edges of a call are followed without entering a method. -/
  | callToReturn {c : PathEdge δ} {edge : Edge} {d : δ} (hc : c ∈ S) (hcall : P.AtCall c.site)
      (hedge : edge ∈ P.outgoing c.site) (hkind : edge.kind ≠ .exception)
      (hd : d ∈ P.callToReturn (P.graph c.method) c.node edge (P.targets c.site) c.fact) :
      Follows P entries S (c.along edge d) (.callToReturn c)
  /-- A call enters its targets. -/
  | call {c : PathEdge δ} {m : MethodRef} {d : δ} (hc : c ∈ S)
      (henters : P.Enters c.site c.fact m d) : Follows P entries S (P.entryEdge m d) (.call c)
  /-- A method that the call at `c` entered is left at `x`: along the exception edges of the call if
  `x` is at the exit of uncaught exceptions, and along the other ones if it is not. -/
  | ret {c x : PathEdge δ} {edge : Edge} {d : δ} (hc : c ∈ S) (hx : x ∈ S)
      (henters : P.Enters c.site c.fact x.method x.startFact) (hexit : P.AtExit x.site)
      (hedge : edge ∈ P.outgoing c.site) (hkind : edge.kind = .exception ↔ P.AtUncaught x.site)
      (hd : d ∈ P.leave (P.graph c.method) c.node edge (P.graph x.method) x.node x.fact) :
      Follows P entries S (c.along edge d) (.ret c x)

/-- Every path edge that follows from the set is in it. -/
def Closed (P : FlowProblem δ) (entries : List MethodRef) (S : Set (PathEdge δ)) : Prop :=
  ∀ e l, P.Follows entries S e l → e ∈ S

/-- What follows from a set of path edges follows from every larger set. -/
lemma Follows.mono {P : FlowProblem δ} {entries : List MethodRef} {S T : Set (PathEdge δ)}
    (hST : S ⊆ T) {e : PathEdge δ} {l : Link δ} (h : P.Follows entries S e l) :
    P.Follows entries T e l := by
  cases h with
  | seed hm hd => exact .seed hm hd
  | intra he hedge hkind hd => exact .intra (hST he) hedge hkind hd
  | callToReturn hc hcall hedge hkind hd => exact .callToReturn (hST hc) hcall hedge hkind hd
  | call hc henters => exact .call (hST hc) henters
  | ret hc hx henters hexit hedge hkind hd =>
    exact .ret (hST hc) (hST hx) henters hexit hedge hkind hd

/-! ## Problems that differ in the order of facts -/

/-- Two problems on the same flow graphs whose flow functions give the same facts and whose calls
have the same targets, up to order and repetition. -/
structure Equivalent (P Q : FlowProblem δ) : Prop where
  zero : P.zero = Q.zero
  graph : P.graph = Q.graph
  targets : ∀ g n m, m ∈ (P.callees g n).getD [] ↔ m ∈ (Q.callees g n).getD []
  initial : ∀ g d, d ∈ P.initial g ↔ d ∈ Q.initial g
  normal : ∀ g n edge d d', d' ∈ P.normal g n edge d ↔ d' ∈ Q.normal g n edge d
  callToReturn : ∀ g n edge d d',
    d' ∈ P.callToReturn g n edge ((P.callees g n).getD []) d ↔
      d' ∈ Q.callToReturn g n edge ((Q.callees g n).getD []) d
  enter : ∀ g n callee d d', d' ∈ P.enter g n callee d ↔ d' ∈ Q.enter g n callee d
  leave : ∀ g n edge callee x d d',
    d' ∈ P.leave g n edge callee x d ↔ d' ∈ Q.leave g n edge callee x d

namespace Equivalent

variable {P Q : FlowProblem δ}

/-- Every problem is equivalent to itself. -/
lemma refl (P : FlowProblem δ) : P.Equivalent P :=
  ⟨rfl, rfl, by simp, by simp, by simp, by simp, by simp, by simp⟩

/-- Equivalence of problems is symmetric. -/
lemma symm (h : P.Equivalent Q) : Q.Equivalent P where
  zero := h.zero.symm
  graph := h.graph.symm
  targets g n m := (h.targets g n m).symm
  initial g d := (h.initial g d).symm
  normal g n edge d d' := (h.normal g n edge d d').symm
  callToReturn g n edge d d' := (h.callToReturn g n edge d d').symm
  enter g n callee d d' := (h.enter g n callee d d').symm
  leave g n edge callee x d d' := (h.leave g n edge callee x d d').symm

/-- Calls of equivalent problems enter the same methods with the same facts. -/
lemma enters (h : P.Equivalent Q) {n : Site} {m : MethodRef} {d d' : δ}
    (henters : P.Enters n d m d') : Q.Enters n d m d' := by
  obtain ⟨hcall, hm, hd⟩ := henters
  simp only [AtCall, FlowProblem.targets, h.graph] at hcall hm hd
  exact ⟨hcall, (h.targets _ _ _).mp hm, (h.enter _ _ _ _ _).mp hd⟩

/-- The rules of equivalent problems derive the same path edges. -/
lemma follows (h : P.Equivalent Q) {entries entries' : List MethodRef}
    (hentries : ∀ m, m ∈ entries ↔ m ∈ entries') {S : Set (PathEdge δ)} {e : PathEdge δ}
    {l : Link δ} (hf : P.Follows entries S e l) : Q.Follows entries' S e l := by
  have hcall : ∀ n, P.AtCall n ↔ Q.AtCall n := by intro n; simp only [AtCall, h.graph]
  have hexit : ∀ n, P.AtExit n ↔ Q.AtExit n := by
    intro n; simp only [AtExit, hcall, h.graph]
  have hout : ∀ n, P.outgoing n = Q.outgoing n := by intro n; simp only [outgoing, h.graph]
  have hentry : ∀ m d, P.entryEdge m d = Q.entryEdge m d := by
    intro m d; simp only [entryEdge, h.graph]
  cases hf with
  | seed hm hd =>
    rw [hentry]
    refine .seed ((hentries _).mp hm) ?_
    rw [h.graph, h.zero, List.mem_cons, h.initial] at hd
    exact List.mem_cons.mpr hd
  | intra he hedge hkind hd =>
    rw [FollowedNormally, hcall, hexit] at hkind
    rw [h.graph] at hd
    exact .intra he (hout _ ▸ hedge) hkind ((h.normal _ _ _ _ _).mp hd)
  | callToReturn hc hat hedge hkind hd =>
    rw [FlowProblem.targets, h.graph] at hd
    exact .callToReturn hc ((hcall _).mp hat) (hout _ ▸ hedge) hkind
      ((h.callToReturn _ _ _ _ _).mp hd)
  | call hc henters =>
    rw [hentry]
    exact .call hc (h.enters henters)
  | ret hc hx henters hat hedge hkind hd =>
    rw [AtUncaught, h.graph] at hkind
    rw [h.graph] at hd
    exact .ret hc hx (h.enters henters) ((hexit _).mp hat) (hout _ ▸ hedge) hkind
      ((h.leave _ _ _ _ _ _ _).mp hd)

end Equivalent

/-- Equivalent problems have the same closed sets, whatever the order and the repetition of the
entry methods. -/
lemma closed_iff_of_equivalent {P Q : FlowProblem δ} (h : P.Equivalent Q)
    {entries entries' : List MethodRef} (hentries : ∀ m, m ∈ entries ↔ m ∈ entries')
    (S : Set (PathEdge δ)) : P.Closed entries S ↔ Q.Closed entries' S := by
  constructor
  · intro hS e l hf
    exact hS e l (h.symm.follows (fun m => (hentries m).symm) hf)
  · intro hS e l hf
    exact hS e l (h.follows hentries hf)

/-! ## The items that a tabulation adds -/

/-- The items that follow from a path edge at a call inside its method. -/
lemma mem_localItems_call {P : FlowProblem δ} {callees : List MethodRef} {e e' : PathEdge δ}
    {l : Link δ} :
    (e', l) ∈ P.localItems (P.graph e.method) (some callees) e ↔
      ∃ edge ∈ P.outgoing e.site, ∃ d, e' = e.along edge d ∧
        ((edge.kind = .exception ∧ d ∈ P.normal (P.graph e.method) e.node edge e.fact ∧
            l = .intra e) ∨
          (edge.kind ≠ .exception ∧
            d ∈ P.callToReturn (P.graph e.method) e.node edge callees e.fact ∧
            l = .callToReturn e)) := by
  simp only [localItems, List.mem_flatMap]
  refine exists_congr fun edge => and_congr_right fun _ => ?_
  by_cases hkind : edge.kind = .exception
  · simp only [hkind, ↓reduceIte, List.mem_map, Prod.mk.injEq, true_and, ne_eq, not_true_eq_false,
      false_and, or_false, PathEdge.along]
    exact exists_congr fun d => by constructor <;> (rintro ⟨h₁, h₂, h₃⟩; simp_all)
  · simp only [hkind, ↓reduceIte, List.mem_map, Prod.mk.injEq, false_and, ne_eq, not_false_eq_true,
      true_and, false_or, PathEdge.along]
    exact exists_congr fun d => by constructor <;> (rintro ⟨h₁, h₂, h₃⟩; simp_all)

/-- The items that follow from a path edge at another statement. -/
lemma mem_localItems_other {P : FlowProblem δ} {e e' : PathEdge δ} {l : Link δ} :
    (e', l) ∈ P.localItems (P.graph e.method) none e ↔
      ∃ edge ∈ P.outgoing e.site, ∃ d, e' = e.along edge d ∧
        d ∈ P.normal (P.graph e.method) e.node edge e.fact ∧ l = .intra e := by
  simp only [localItems, List.mem_flatMap, List.mem_map, Prod.mk.injEq, PathEdge.along]
  refine exists_congr fun edge => and_congr_right fun _ => exists_congr fun d => ?_
  constructor <;> (rintro ⟨h₁, h₂, h₃⟩; simp_all)

/-- The items that a path edge at a call and one at an exit of the called method give together. -/
lemma mem_returnItems {P : FlowProblem δ} {c x e' : PathEdge δ} {l : Link δ} :
    (e', l) ∈ P.returnItems c x ↔
      ∃ edge ∈ P.outgoing c.site, (edge.kind = .exception ↔ P.AtUncaught x.site) ∧
        ∃ d ∈ P.leave (P.graph c.method) c.node edge (P.graph x.method) x.node x.fact,
          e' = c.along edge d ∧ l = .ret c x := by
  have hkind : ∀ edge : Edge, ((edge.kind == .exception) ==
      ((P.graph x.method).statements[x.node]?.map (·.action) == some .exit)) = true ↔
      (edge.kind = .exception ↔ P.AtUncaught x.site) := by
    intro edge
    rw [beq_iff_eq, Bool.eq_iff_iff, beq_iff_eq, beq_iff_eq]
    exact Iff.rfl
  simp only [returnItems, List.mem_flatMap, List.mem_filter, hkind, List.mem_map, Prod.mk.injEq,
    and_assoc, PathEdge.along]
  refine exists_congr fun edge => and_congr_right fun _ => and_congr_right fun _ =>
    exists_congr fun d => and_congr_right fun _ => ?_
  constructor <;> (rintro ⟨rfl, rfl⟩; exact ⟨rfl, rfl⟩)

/-- The items that start the analysis of entry methods. -/
lemma mem_seeds {P : FlowProblem δ} {entries : List MethodRef} {e : PathEdge δ} {l : Link δ} :
    (e, l) ∈ P.seeds entries ↔
      ∃ m ∈ entries, ∃ d ∈ P.zero :: P.initial (P.graph m), e = P.entryEdge m d ∧ l = .seed := by
  simp only [seeds, List.mem_flatMap, List.mem_map, Prod.mk.injEq, entryEdge]
  refine exists_congr fun m => and_congr_right fun _ => exists_congr fun d =>
    and_congr_right fun _ => ?_
  constructor <;> (rintro ⟨rfl, rfl⟩; exact ⟨rfl, rfl⟩)

end FlowProblem

end JvmTaint
