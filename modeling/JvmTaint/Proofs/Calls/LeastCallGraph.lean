import JvmTaint.Proofs.Calls.CallGraph
import JvmTaint.Proofs.Calls.Selection
import JvmTaint.Proofs.Graph.Digraphs
import JvmTaint.Proofs.Memo.CallGraph
import Mathlib.Order.Bounds.Basic

set_option autoImplicit false
set_option relaxedAutoImplicit false

/-!
# Call graphs are least

The methods of a call graph are the least set that has the entry methods and, with a method, all
targets of its call statements. What goes wrong is recorded for exactly these methods: why a method
has no flow graph, and which of its calls have no target. The edges of the graph over the positions
of the methods are the calls between them.

## Main definitions

* `JvmTaint.CodeBase.ClosedUnderCalls`: a set has entry methods and all targets of its methods.
* `JvmTaint.CallGraph.Exact`: what a call graph records, and nothing else.

## Main results

* `JvmTaint.CallGraph.isLeast_methods`: the methods.
* `JvmTaint.CallGraph.hasEdge_digraph_iff`: the edges between their positions.
* `JvmTaint.CallGraph.exact_of_ofProgram`: every call graph of a program is exact.
-/

namespace JvmTaint

/-- A set of methods that has the entry methods and the targets of the call statements of its
methods. -/
structure CodeBase.ClosedUnderCalls (c : CodeBase) (entries : List MethodRef)
    (S : Set MethodRef) : Prop where
  entry : ∀ ref ∈ entries, ref ∈ S
  callee : ∀ ref ∈ S, ∀ callee, c.Calls ref callee → callee ∈ S

/-- A call graph records the methods that can be called from entry methods, what they call, and what
goes wrong, and nothing else. -/
structure CallGraph.Exact (c : CodeBase) (entries : List MethodRef) (g : CallGraph) : Prop where
  sorted : g.methods.Pairwise fun ref ref' => ref.lt ref' = true
  least : IsLeast {S | c.ClosedUnderCalls entries S} {ref | ref ∈ g.methods}
  failures_nodup : (g.failures.map (·.1)).Nodup
  mem_failures_iff : ∀ ref e, (ref, e) ∈ g.failures ↔
    ref ∈ g.methods ∧ c.graph ref = .error e ∧ e.isNoCode = false
  unresolved_nodup : (g.unresolved.map fun (m, i) => (m.ref, i)).Nodup
  mem_unresolved_iff : ∀ m i, (m, i) ∈ g.unresolved ↔
    ∃ ref ∈ g.methods, c.graph ref = .ok m ∧
      ∃ call e, m.CallsAt i call ∧ c.table.resolve call.key = .error e
  /-- The id of a method is its position. -/
  idOf?_iff : ∀ ref i, g.idOf? ref = some i ↔ g.methods[i]? = some ref
  hasEdge_iff : ∀ a b : Int, g.digraph.hasEdge a b = true ↔
    ∃ (ref callee : MethodRef) (i j : Nat), a = i ∧ b = j ∧ g.idOf? ref = some i ∧
      g.idOf? callee = some j ∧ c.Calls ref callee

namespace CallGraph

variable {c : CodeBase} {entries : List MethodRef} {ref callee : MethodRef}

/-! ## The methods -/

/-- **Methods.** The methods of a call graph are the least set with the entry methods and the
targets of its methods.

**Proof sketch.** The search finds all targets of what it finds, and it finds nothing else: a set
that is closed has all that is found. -/
lemma isLeast_methods (c : CodeBase) (entries : List MethodRef) :
    IsLeast {S | c.ClosedUnderCalls entries S} {ref | ref ∈ (build c entries).methods} := by
  constructor
  · refine ⟨fun ref href => mem_methods_of_mem_entries href, fun ref href callee hcalls => ?_⟩
    exact mem_methods_of_callee href (CodeBase.mem_calleesOf_iff.mpr hcalls)
  · intro S hS ref href
    refine forall_mem_closure (p := (· ∈ S)) (fun ref href callee hcallee => ?_) _ 0 ?_ ref
      (List.mem_mergeSort.mp href)
    · exact hS.callee ref href callee (CodeBase.mem_calleesOf_iff.mp hcallee)
    · intro ref href
      rcases mem_appendNew.mp href with href | href
      · cases href
      · exact hS.entry ref href

/-- The call graph of a method that calls nothing has no other method. -/
lemma eq_of_mem_methods_of_calleesOf_eq_nil (hcallees : c.calleesOf ref = [])
    (h : callee ∈ (build c [ref]).methods) : callee = ref := by
  have hclosed : c.ClosedUnderCalls [ref] {ref} := by
    refine ⟨fun entry hentry => List.mem_singleton.mp hentry, ?_⟩
    rintro _ rfl callee hcalls
    rw [← CodeBase.mem_calleesOf_iff, hcallees] at hcalls
    cases hcalls
  exact (isLeast_methods c [ref]).2 hclosed h

lemma nodup_reached (c : CodeBase) (entries : List MethodRef) : (reached c entries).Nodup :=
  nodup_closure _ 0 (nodup_appendNew List.nodup_nil _)

/-- The methods are listed in increasing order. -/
lemma pairwise_methods (c : CodeBase) (entries : List MethodRef) :
    (build c entries).methods.Pairwise fun ref ref' => ref.lt ref' = true :=
  MethodRef.pairwise_lt_mergeSort_le (nodup_reached c entries)

lemma nodup_methods (c : CodeBase) (entries : List MethodRef) :
    (build c entries).methods.Nodup :=
  (List.mergeSort_perm _ _).nodup_iff.mpr (nodup_reached c entries)

/-! ## What goes wrong -/

/-- The methods without a flow graph that may have code are recorded with the reason. -/
lemma mem_failures_iff {e : GraphError} : (ref, e) ∈ (build c entries).failures ↔
    ref ∈ (build c entries).methods ∧ c.graph ref = .error e ∧ e.isNoCode = false := by
  simp only [build, List.mem_filterMap, List.mem_map, List.mem_mergeSort]
  constructor
  · rintro ⟨_, ⟨ref', href, rfl⟩, hsome⟩
    cases hgraph : c.graph ref' with
    | ok m => simp [hgraph] at hsome
    | error e' =>
      simp only [hgraph, Option.ite_none_left_eq_some, Option.some.injEq, Prod.mk.injEq] at hsome
      obtain ⟨hcode, rfl, rfl⟩ := hsome
      exact ⟨href, hgraph, by simpa using hcode⟩
  · rintro ⟨href, hgraph, hcode⟩
    exact ⟨_, ⟨ref, href, rfl⟩, by simp [hgraph, hcode]⟩

/-- What is kept of a list has keys of the list, in the same order. -/
lemma sublist_filterMap {α β γ : Type} {f : α → Option β} {key : β → γ} (key' : α → γ)
    (h : ∀ x y, f x = some y → key y = key' x) (xs : List α) :
    ((xs.filterMap f).map key).Sublist (xs.map key') := by
  induction xs with
  | nil => simp
  | cons x xs ih =>
    rw [List.filterMap_cons]
    split
    · exact ih.cons _
    · rename_i y hy
      rw [List.map_cons, List.map_cons, h x y hy]
      exact ih.cons_cons _

/-- No method is recorded twice. -/
lemma nodup_failures (c : CodeBase) (entries : List MethodRef) :
    ((build c entries).failures.map (·.1)).Nodup := by
  simp only [build, List.filterMap_map]
  refine ((sublist_filterMap id ?_ (reached c entries)).nodup ?_)
  · intro ref p hp
    cases hgraph : c.graph ref with
    | ok m => simp [hgraph] at hp
    | error e =>
      simp only [Function.comp_apply, hgraph, Option.ite_none_left_eq_some,
        Option.some.injEq] at hp
      rw [← hp.2]
      rfl
  · simpa using nodup_reached c entries

lemma mem_unresolvedOf_iff {m : FlowGraph} {i : Nat} : i ∈ c.unresolvedOf m ↔
    ∃ call e, m.CallsAt i call ∧ c.table.resolve call.key = .error e := by
  simp only [CodeBase.unresolvedOf, List.mem_filterMap, Prod.exists]
  constructor
  · rintro ⟨call, j, hcall, hsome⟩
    cases hresolve : c.table.resolve call.key with
    | ok r => simp [hresolve] at hsome
    | error e =>
      simp only [hresolve, Option.some.injEq] at hsome
      exact ⟨call, e, hsome ▸ FlowGraph.mem_calls_iff.mp hcall, hresolve⟩
  · rintro ⟨call, e, hcall, hresolve⟩
    exact ⟨call, i, FlowGraph.mem_calls_iff.mpr hcall, by simp [hresolve]⟩

/-- The call statements without a target are recorded. -/
lemma mem_unresolved_iff {m : FlowGraph} {i : Nat} : (m, i) ∈ (build c entries).unresolved ↔
    ∃ ref ∈ (build c entries).methods, c.graph ref = .ok m ∧
      ∃ call e, m.CallsAt i call ∧ c.table.resolve call.key = .error e := by
  simp only [← mem_unresolvedOf_iff]
  simp only [build, List.mem_flatMap, List.mem_map, List.mem_mergeSort]
  constructor
  · rintro ⟨_, ⟨ref, href, rfl⟩, hmem⟩
    cases hgraph : c.graph ref with
    | error e => simp [hgraph] at hmem
    | ok m' =>
      simp only [hgraph, List.mem_map, Prod.mk.injEq] at hmem
      obtain ⟨i', hi, rfl, rfl⟩ := hmem
      exact ⟨ref, href, hgraph, hi⟩
  · rintro ⟨ref, href, hgraph, hi⟩
    exact ⟨_, ⟨ref, href, rfl⟩, by simpa [hgraph] using hi⟩

/-- The positions of the calls without a target are increasing. -/
lemma nodup_unresolvedOf (m : FlowGraph) : (c.unresolvedOf m).Nodup := by
  have hcalls : (m.calls.map (·.2)).Sublist (m.statements.toList.zipIdx.map (·.2)) := by
    refine sublist_filterMap _ (fun p q hq => ?_) _
    obtain ⟨call, -, rfl⟩ := Option.map_eq_some_iff.mp hq
    rfl
  have hunresolved : ((c.unresolvedOf m).map id).Sublist (m.calls.map (·.2)) := by
    refine sublist_filterMap _ (fun p i hi => ?_) _
    cases hresolve : c.table.resolve p.1.key with
    | ok r => simp [hresolve] at hi
    | error e => simpa [hresolve] using hi.symm
  rw [List.zipIdx_map_snd] at hcalls
  simpa using (hunresolved.trans hcalls).nodup List.nodup_range'

/-- No call statement is recorded twice.

**Proof sketch.** The flow graphs of different methods carry different names, and the positions in
one flow graph are different. -/
lemma nodup_unresolved (hname : ∀ ref m, c.graph ref = .ok m → m.ref = ref)
    (entries : List MethodRef) :
    ((build c entries).unresolved.map fun (m, i) => (m.ref, i)).Nodup := by
  have hpositions : (build c entries).unresolved.map (fun (m, i) => (m.ref, i)) =
      (reached c entries).flatMap fun ref =>
        (c.graph ref).toOption.toList.flatMap fun m => (c.unresolvedOf m).map (ref, ·) := by
    simp only [build, List.flatMap_map, List.map_flatMap]
    refine List.flatMap_congr fun ref _ => ?_
    cases hgraph : c.graph ref with
    | error e => rfl
    | ok m => simp [Except.toOption, Function.comp_def, hname ref m hgraph]
  rw [hpositions, List.nodup_flatMap]
  constructor
  · intro ref _
    cases c.graph ref with
    | error e => exact List.nodup_nil
    | ok m =>
      have hmap : ((c.unresolvedOf m).map fun i => (ref, i)).Nodup :=
        (nodup_unresolvedOf m).map fun i j hij => (Prod.mk.inj hij).2
      simpa [Except.toOption] using hmap
  · refine (nodup_reached c entries).imp fun {ref ref'} hne p hp hp' => ?_
    simp only [List.mem_flatMap, List.mem_map] at hp hp'
    obtain ⟨m, -, i, -, rfl⟩ := hp
    obtain ⟨m', -, i', -, heq⟩ := hp'
    exact hne (Prod.mk.inj heq).1.symm

/-! ## The graph over the positions -/

/-- The position of a method. -/
lemma idOf?_eq_some_iff {i : Nat} : (build c entries).idOf? ref = some i ↔
    (build c entries).methods[i]? = some ref := by
  unfold idOf?
  rw [List.findIdx?_eq_some_iff_getElem]
  constructor
  · rintro ⟨hlt, heq, -⟩
    rw [List.getElem?_eq_getElem hlt, eq_of_beq heq]
  · intro hget
    obtain ⟨hlt, rfl⟩ := List.getElem?_eq_some_iff.mp hget
    refine ⟨hlt, by simp, fun j hji heq => ?_⟩
    have := (List.Nodup.getElem_inj_iff (nodup_methods c entries)).mp (eq_of_beq heq)
    omega

/-- Adds an edge for a call edge. -/
def addCall (g : CallGraph) (caller : MethodRef) (d : Digraph) (e : CallEdge) : Digraph :=
  match g.idOf? caller, g.idOf? e.callee with
  | some i, some j => d.addEdge i j
  | _, _ => d

lemma digraph_eq (g : CallGraph) : g.digraph =
    g.out.foldl (fun d p => p.2.foldl (g.addCall p.1) d)
      (g.methods.zipIdx.foldl (fun d p => d.addNode p.2 p.1.render)
        (Digraph.empty g.methods.length)) := rfl

/-- What adding the edges of some methods adds to a graph. -/
lemma mem_successors_foldl_addCall {g : CallGraph} {a b : Int}
    (out : List (MethodRef × List CallEdge)) (d : Digraph) :
    b ∈ (out.foldl (fun d p => p.2.foldl (g.addCall p.1) d) d).successors a ↔
      b ∈ d.successors a ∨ ∃ p ∈ out, ∃ e ∈ p.2, ∃ i j : Nat, a = i ∧ b = j ∧
        g.idOf? p.1 = some i ∧ g.idOf? e.callee = some j := by
  have hinner : ∀ (caller : MethodRef) (es : List CallEdge) (d : Digraph),
      b ∈ (es.foldl (g.addCall caller) d).successors a ↔
      b ∈ d.successors a ∨ ∃ e ∈ es, ∃ i j : Nat, a = i ∧ b = j ∧
        g.idOf? caller = some i ∧ g.idOf? e.callee = some j := by
    intro caller es
    induction es with
    | nil => simp
    | cons e es ih =>
      intro d
      rw [List.foldl_cons, ih, List.exists_mem_cons_iff, ← or_assoc]
      refine or_congr_left ?_
      unfold addCall
      cases g.idOf? caller with
      | none => simp
      | some i =>
        cases g.idOf? e.callee with
        | none => simp
        | some j => simp [Digraph.mem_successors_addEdge, or_comm]
  induction out generalizing d with
  | nil => simp
  | cons p out ih =>
    rw [List.foldl_cons]
    refine (ih _).trans ?_
    rw [List.exists_mem_cons_iff, ← or_assoc, hinner]

/-- The methods with edges are recorded with their edges. -/
lemma exists_mem_out_iff : (∃ p ∈ (build c entries).out, p.1 = ref ∧ ∃ e ∈ p.2, e.callee = callee) ↔
    ref ∈ (build c entries).methods ∧ c.Calls ref callee := by
  rw [← CodeBase.mem_calleesOf_iff]
  simp only [build, List.mem_filterMap, List.mem_map, List.mem_mergeSort, CodeBase.calleesOf]
  constructor
  · rintro ⟨p, ⟨_, ⟨ref', href, rfl⟩, hsome⟩, rfl, e, he, rfl⟩
    cases hgraph : c.graph ref' with
    | error e => simp [hgraph] at hsome
    | ok m =>
      simp only [hgraph] at hsome
      split at hsome
      · cases hsome
      · cases hsome
        exact ⟨href, by simpa [hgraph] using ⟨e, he, rfl⟩⟩
  · rintro ⟨href, hcallee⟩
    cases hgraph : c.graph ref with
    | error e => simp [hgraph] at hcallee
    | ok m =>
      simp only [hgraph, List.mem_map] at hcallee
      obtain ⟨e, he, rfl⟩ := hcallee
      refine ⟨(ref, c.edgesOf m), ⟨_, ⟨ref, href, rfl⟩, ?_⟩, rfl, e, he, rfl⟩
      simp only [hgraph]
      split
      · rename_i hnil
        rw [hnil] at he
        cases he
      · rfl

/-- **Edges.** An edge leads from the position of a method to that of a target of its calls. -/
lemma hasEdge_digraph_iff {a b : Int} : (build c entries).digraph.hasEdge a b = true ↔
    ∃ (ref callee : MethodRef) (i j : Nat), a = i ∧ b = j ∧
      (build c entries).idOf? ref = some i ∧ (build c entries).idOf? callee = some j ∧
      c.Calls ref callee := by
  have hnodes : ∀ (nodes : List (MethodRef × Nat)) (d : Digraph), (nodes.foldl
      (fun d p => d.addNode p.2 p.1.render) d).successors a = d.successors a := by
    intro nodes
    induction nodes with
    | nil => exact fun _ => rfl
    | cons p nodes ih => exact fun d => ih _
  rw [Digraph.hasEdge_iff, digraph_eq, mem_successors_foldl_addCall, hnodes]
  simp only [Digraph.successors, Digraph.empty, Std.HashMap.getD_empty, List.not_mem_nil, false_or]
  constructor
  · rintro ⟨p, hp, e, he, i, j, rfl, rfl, hi, hj⟩
    exact ⟨p.1, e.callee, i, j, rfl, rfl, hi, hj,
      (exists_mem_out_iff.mp ⟨p, hp, rfl, e, he, rfl⟩).2⟩
  · rintro ⟨ref, callee, i, j, rfl, rfl, hi, hj, hcalls⟩
    have href : ref ∈ (build c entries).methods :=
      List.mem_of_getElem? (idOf?_eq_some_iff.mp hi)
    obtain ⟨p, hp, rfl, e, he, rfl⟩ := exists_mem_out_iff.mpr ⟨href, hcalls⟩
    exact ⟨p, hp, e, he, i, j, rfl, rfl, hi, hj⟩

/-- **Call graphs.** The call graph of any entry methods of a program is exact. From a memo that
keeps right answers, the same call graph is made. -/
theorem exact_of_ofProgram (program : Program) (t : ClassTable)
    (ht : ClassTable.ofProgram program = .ok t) (entries : List MethodRef) :
    (build (.ofTable t) entries).Exact (.ofTable t) entries ∧
      ∀ m, Memo.Sound t m →
        ((Memo.callGraph t entries).run m).1 = build (.ofTable t) entries := by
  refine ⟨?_, fun m hm => (Memo.callGraph_answers entries m hm).1⟩
  constructor
  case sorted => exact pairwise_methods _ entries
  case least => exact isLeast_methods _ entries
  case failures_nodup => exact nodup_failures _ entries
  case mem_failures_iff => exact fun ref e => mem_failures_iff
  case unresolved_nodup =>
    exact nodup_unresolved (fun ref m hm => (CodeBase.ofTable_graph ht hm).1) entries
  case mem_unresolved_iff => exact fun m i => mem_unresolved_iff
  case idOf?_iff => exact fun ref i => idOf?_eq_some_iff
  case hasEdge_iff => exact fun a b => hasEdge_digraph_iff

/-- In the program with the diamond, the class does not declare the method itself: the call graph
has the method all the same, and records why it has no flow graph. -/
theorem specificTable_exact :
    let entries := [printSignature.inClass "Show", printSignature.inClass "Doc"]
    ClassTable.ofProgram (diamondProgram ["Pretty", "Show"]) = .ok specificTable ∧
      (build (.ofTable specificTable) entries).Exact (.ofTable specificTable) entries ∧
      Memo.Sound specificTable {} ∧
      ((Memo.callGraph specificTable entries).run {}).1 =
        build (.ofTable specificTable) entries ∧
      ∃ e, (printSignature.inClass "Doc", e) ∈
        (build (.ofTable specificTable) entries).failures := by
  intro entries
  obtain ⟨hexact, hmemo⟩ := exact_of_ofProgram _ specificTable ofProgram_specificTable entries
  have hbody : specificTable.body (printSignature.inClass "Doc") =
      .error (.methodNotFound (printSignature.inClass "Doc")) := by cbv
  have hgraph : (CodeBase.ofTable specificTable).graph (printSignature.inClass "Doc") =
      .error (.lookup (.methodNotFound (printSignature.inClass "Doc"))) := by
    rw [CodeBase.graph_ofTable, hbody]
    rfl
  have hempty : Memo.Sound specificTable {} := Memo.sound_empty specificTable
  exact ⟨ofProgram_specificTable, hexact, hempty, hmemo {} hempty, _,
    (hexact.mem_failures_iff _ _).mpr
      ⟨hexact.least.1.entry _ (by simp [entries]), hgraph, rfl⟩⟩

end CallGraph

end JvmTaint
