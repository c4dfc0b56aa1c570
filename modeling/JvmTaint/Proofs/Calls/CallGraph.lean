import JvmTaint.Calls.CallGraph
import JvmTaint.Proofs.Graph.Closure
import JvmTaint.Proofs.Lowering.Assignments

set_option autoImplicit false
set_option relaxedAutoImplicit false

/-!
# Call graphs are complete

The targets of a call are methods that the program declares, so the search of a call graph comes to
its end: a call graph has its entry methods and, with a method, all targets of its calls.

## Main definitions

* `JvmTaint.CodeBase.Calls`: a method is a target of some call statement of another one.

## Main results

* `JvmTaint.ClassTable.mem_bodies_of_resolve`: the targets of a call are declared.
* `JvmTaint.CallGraph.mem_methods_of_mem_entries`, `JvmTaint.CallGraph.mem_methods_of_callee`: the
  methods of a call graph.
-/

namespace JvmTaint

namespace ClassTable

variable {t : ClassTable}

/-- A method that a class implements is declared. -/
lemma mem_bodies_of_implements {sig : Signature} {cls : String}
    (h : t.implements sig cls = true) : sig.inClass cls ∈ t.bodies := by
  unfold implements at h
  split at h
  · rename_i body hbody
    exact Std.HashMap.mem_iff_isSome_getElem?.mpr (by simp [getElem?_of_body hbody])
  · cases h

/-- A method that a class declares is declared. -/
lemma mem_bodies_of_declares {sig : Signature} {cls : String}
    (h : t.declares sig cls = true) : sig.inClass cls ∈ t.bodies := by
  unfold declares at h
  split at h
  · rename_i body hbody
    exact Std.HashMap.mem_iff_isSome_getElem?.mpr (by simp [getElem?_of_body hbody])
  · cases h

/-- The implementation that a class uses is declared. -/
lemma mem_bodies_of_select? {sig : Signature} {cls : String} {ref : MethodRef}
    (h : t.select? sig cls = some ref) : ref ∈ t.bodies := by
  unfold select? at h
  obtain ⟨c, hc, rfl⟩ := Option.map_eq_some_iff.mp h
  exact mem_bodies_of_implements (List.find?_some hc)

/-- The implementations that the receivers of a call use are declared. -/
lemma mem_bodies_of_implementations {sig : Signature} {cls : String} {ref : MethodRef}
    (h : ref ∈ t.implementations sig cls) : ref ∈ t.bodies := by
  unfold implementations at h
  split at h
  · exact mem_bodies_of_select? (Option.mem_toList.mp h)
  · obtain ⟨c, -, hc⟩ := List.mem_filterMap.mp (List.mem_eraseDups.mp h)
    exact mem_bodies_of_select? hc

/-- The targets of a call are declared. -/
lemma mem_bodies_of_resolve {k : CallKey} {r : Resolution} {ref : MethodRef}
    (h : t.resolve k = .ok r) (href : ref ∈ r.callees) : ref ∈ t.bodies := by
  have hnearest : ∀ found, t.nearest? k.target.signature k.target.cls = some found →
      found ∈ t.bodies := by
    intro found hfound
    obtain ⟨c, hc, rfl⟩ := Option.map_eq_some_iff.mp hfound
    exact mem_bodies_of_declares (List.find?_some hc)
  have hdispatched : ∀ found ∈ (t.implementations k.target.signature k.target.cls).mergeSort
      MethodRef.le, found ∈ t.bodies := by
    intro found hfound
    exact mem_bodies_of_implementations (List.mem_mergeSort.mp hfound)
  unfold resolve at h
  dsimp only at h
  split at h
  case h_5 => cases h
  case h_1 | h_2 =>
    split at h
    · rename_i found hfound
      cases h
      rw [List.mem_singleton.mp href]
      exact hnearest found hfound
    · cases h
  case h_3 | h_4 =>
    split at h
    · cases h
    · rename_i found hrefs
      rw [hrefs] at hdispatched
      cases h
      exact hdispatched ref href
    · cases h
      exact hdispatched ref href

end ClassTable

/-! ## The search -/

/-- The calls of a flow graph are listed with their positions. -/
lemma FlowGraph.mem_calls_iff {g : FlowGraph} {call : Call} {i : Nat} : (call, i) ∈ g.calls ↔
    ∃ st, g.statements[i]? = some st ∧ st.action.call? = some call := by
  unfold calls
  simp [List.mem_filterMap, List.mem_zipIdx_iff_getElem?]

/-- The statement at a position is a call. -/
def FlowGraph.CallsAt (g : FlowGraph) (i : Nat) (call : Call) : Prop :=
  ∃ st, g.statements[i]? = some st ∧ st.action.call? = some call

namespace CodeBase

variable {c : CodeBase}

/-- A method is a target of some call statement of another one. -/
def Calls (c : CodeBase) (ref callee : MethodRef) : Prop :=
  ∃ g i call r, c.graph ref = .ok g ∧ g.CallsAt i call ∧ c.table.resolve call.key = .ok r ∧
    callee ∈ r.callees

/-- The targets of a method are those of its call statements. -/
lemma mem_calleesOf_iff {ref callee : MethodRef} :
    callee ∈ c.calleesOf ref ↔ c.Calls ref callee := by
  unfold calleesOf
  constructor
  · intro h
    split at h
    · rename_i g hg
      obtain ⟨e, he, rfl⟩ := List.mem_map.mp h
      obtain ⟨⟨call, i⟩, hcall, he⟩ := List.mem_flatMap.mp he
      dsimp only at he
      split at he
      · rename_i r hr
        obtain ⟨callee, hcallee, rfl⟩ := List.mem_map.mp he
        exact ⟨g, i, call, r, hg, FlowGraph.mem_calls_iff.mp hcall, hr, hcallee⟩
      · cases he
    · cases h
  · rintro ⟨g, i, call, r, hg, hcall, hr, hcallee⟩
    simp only [hg, edgesOf, List.mem_map, List.mem_flatMap]
    refine ⟨⟨g.ref, i, callee, r.dispatch⟩, ⟨(call, i), FlowGraph.mem_calls_iff.mpr hcall, ?_⟩, rfl⟩
    simp only [hr]
    exact List.mem_map_of_mem hcallee

/-- The targets of a call of a method are targets of the method. -/
lemma mem_calleesOf {ref callee : MethodRef} {g : FlowGraph} {call : Call} {i : Nat}
    {r : Resolution} (hg : c.graph ref = .ok g) (hcall : (call, i) ∈ g.calls)
    (hr : c.table.resolve call.key = .ok r) (hcallee : callee ∈ r.callees) :
    callee ∈ c.calleesOf ref :=
  mem_calleesOf_iff.mpr ⟨g, i, call, r, hg, FlowGraph.mem_calls_iff.mp hcall, hr, hcallee⟩

/-- The targets of the calls of a method are declared. -/
lemma mem_bodies_of_mem_calleesOf {ref callee : MethodRef} (h : callee ∈ c.calleesOf ref) :
    callee ∈ c.table.bodies := by
  obtain ⟨g, i, call, r, -, -, hr, hcallee⟩ := mem_calleesOf_iff.mp h
  exact ClassTable.mem_bodies_of_resolve hr hcallee

end CodeBase

namespace CallGraph

variable {c : CodeBase} {entries : List MethodRef}

/-- The entry methods are in the call graph. -/
lemma mem_methods_of_mem_entries {ref : MethodRef} (h : ref ∈ entries) :
    ref ∈ (build c entries).methods := by
  refine List.mem_mergeSort.mpr (mem_closure_of_mem ?_)
  exact mem_appendNew.mpr (Or.inr h)

/-- The methods that a search can find: the entry methods and those that are declared. -/
lemma mem_append_keys_of_mem_calleesOf (entries : List MethodRef) :
    ∀ ref, ∀ callee ∈ c.calleesOf ref, callee ∈ entries ++ c.table.bodies.keys :=
  fun _ _ h => List.mem_append_right _
    (Std.HashMap.mem_keys.mpr (CodeBase.mem_bodies_of_mem_calleesOf h))

lemma mem_append_keys_of_mem_entries :
    ∀ ref ∈ appendNew [] entries, ref ∈ entries ++ c.table.bodies.keys := by
  intro ref href
  rcases mem_appendNew.mp href with href | href
  · cases href
  · exact List.mem_append_left _ href

/-- The fuel of the search exceeds the number of methods that it can find. -/
lemma length_append_keys_le (c : CodeBase) (entries : List MethodRef) :
    (entries ++ c.table.bodies.keys).length ≤ entries.length + c.table.bodies.size + 1 := by
  rw [List.length_append, Std.HashMap.length_keys]
  omega

/-- The targets of the calls of a method of the call graph are in it. -/
lemma mem_methods_of_callee {ref callee : MethodRef} (href : ref ∈ (build c entries).methods)
    (h : callee ∈ c.calleesOf ref) : callee ∈ (build c entries).methods :=
  List.mem_mergeSort.mpr (mem_closure_of_next (mem_append_keys_of_mem_calleesOf entries)
    mem_append_keys_of_mem_entries (nodup_appendNew List.nodup_nil _)
    (length_append_keys_le c entries) (List.mem_mergeSort.mp href) h)

/-- The search ends before its fuel does. -/
lemma length_reached_le (c : CodeBase) (entries : List MethodRef) :
    (reached c entries).length ≤ entries.length + c.table.bodies.size + 1 :=
  Nat.le_trans (length_closure_le (mem_append_keys_of_mem_calleesOf entries) _ _
    mem_append_keys_of_mem_entries (nodup_appendNew List.nodup_nil _))
    (length_append_keys_le c entries)

end CallGraph

end JvmTaint
