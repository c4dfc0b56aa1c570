import JvmTaint.Memo.Graphs
import JvmTaint.Memo.Resolution
import JvmTaint.Proofs.Lowering.Assignments
import JvmTaint.Proofs.Memo.Answers

set_option autoImplicit false
set_option relaxedAutoImplicit false

/-!
# Memos keep right answers

A memo is sound if all that it keeps is what would be computed. Every question about the program
then has the answer of the program itself, whatever is kept already, and leaves the memo sound.

## Main definitions

* `JvmTaint.Remembers`: a table has values of a function.
* `JvmTaint.Memo.Sound`: a memo keeps right answers.

## Main results

* `JvmTaint.Memo.memoized_answers`: an answer that is kept or computed is right.
* `JvmTaint.Memo.supertypes_answers`, `JvmTaint.Memo.subtypes_answers`: the type hierarchy.
* `JvmTaint.Memo.resolve_answers`: the targets of calls.
* `JvmTaint.Memo.graph_answers`: the flow graphs of methods.
-/

namespace JvmTaint

/-- All that a table has are values of `f`. -/
def Remembers {κ β : Type} [BEq κ] [Hashable κ] (f : κ → β) (table : Std.HashMap κ β) : Prop :=
  ∀ key b, table[key]? = some b → b = f key

namespace Remembers

variable {κ β : Type} [BEq κ] [LawfulBEq κ] [Hashable κ] {f : κ → β} {table : Std.HashMap κ β}

lemma empty : Remembers f ∅ := by simp [Remembers]

/-- A value of the function may be added. -/
lemma insert (h : Remembers f table) (key : κ) : Remembers f (table.insert key (f key)) := by
  intro key' b hb
  rw [Std.HashMap.getElem?_insert] at hb
  split at hb
  · rename_i heq
    rw [← eq_of_beq heq, ← Option.some.inj hb]
  · exact h key' b hb

end Remembers

namespace Memo

/-- All that a memo keeps is what would be computed. -/
structure Sound (t : ClassTable) (m : Memo) : Prop where
  types : Remembers t.typeEntry? m.types
  supers : Remembers t.transitiveSupertypes m.supers
  subs : Remembers t.transitiveSubtypes m.subs
  resolutions : Remembers t.resolve m.resolutions
  graphs : Remembers (CodeBase.ofTable t).graph m.graphs

variable {t : ClassTable}

/-- Nothing is kept at first. -/
lemma sound_empty (t : ClassTable) : Sound t {} := ⟨.empty, .empty, .empty, .empty, .empty⟩

/-- An answer that is kept, or is computed and kept, is right if what is computed is right. -/
lemma memoized_answers {κ β : Type} [BEq κ] [Hashable κ] {table : Memo → Std.HashMap κ β}
    {keep : κ → β → Memo → Memo} {compute : κ → StateM Memo β} {f : κ → β} {key : κ}
    (htable : ∀ m, Sound t m → Remembers f (table m))
    (hkeep : ∀ m, Sound t m → Sound t (keep key (f key) m))
    (hcompute : Answers (Sound t) (compute key) (f key)) :
    Answers (Sound t) (memoized table keep compute key) (f key) := by
  unfold memoized
  refine Gives.get_bind fun m hm => ?_
  cases hkept : (table m)[key]? with
  | some b => exact Gives.pure (htable m hm key b hkept)
  | none => exact hcompute.gives_bind ((Gives.modify hkeep).bind fun _ _ => Gives.pure rfl)

/-! ## The type hierarchy -/

lemma entryOf_answers (cls : String) :
    Answers (Sound t) (entryOf t cls) (t.typeEntry? cls) :=
  memoized_answers (fun _ hm => hm.types) (fun _ hm => { hm with types := hm.types.insert cls })
    (Answers.pure _)

lemma knows_answers (cls : String) : Answers (Sound t) (knows t cls) (t.knows cls) :=
  (entryOf_answers cls).bind (Answers.pure _)

lemma isInterface_answers (cls : String) :
    Answers (Sound t) (isInterface t cls) (t.isInterface cls) := by
  refine (entryOf_answers cls).bind ?_
  unfold ClassTable.isInterface
  cases t.typeEntry? cls <;> exact Answers.pure _

lemma directSupertypes_answers (cls : String) :
    Answers (Sound t) (directSupertypes t cls) (t.directSupertypes cls) := by
  refine (entryOf_answers cls).bind ?_
  unfold ClassTable.directSupertypes
  cases t.typeEntry? cls <;> exact Answers.pure _

/-- A class that is not known has no direct subtypes. -/
lemma directSubtypes_eq (t : ClassTable) (cls : String) :
    ((t.typeEntry? cls).map (·.subtypes)).getD [] = t.directSubtypes cls := by
  unfold ClassTable.typeEntry?
  split
  · rfl
  · split
    · rename_i hnone
      exact hnone.symm
    · rfl

lemma directSubtypes_answers (cls : String) :
    Answers (Sound t) (directSubtypes t cls) (t.directSubtypes cls) := by
  refine (entryOf_answers cls).bind ?_
  rw [directSubtypes_eq]
  exact Answers.pure _

/-- The transitive supertypes of a class are those of the program. -/
lemma supertypes_answers (cls : String) :
    Answers (Sound t) (supertypes t cls) (t.transitiveSupertypes cls) :=
  memoized_answers (fun _ hm => hm.supers) (fun _ hm => { hm with supers := hm.supers.insert cls })
    ((Answers.closureM directSupertypes_answers _ _ _).bind (Answers.pure _))

/-- The transitive subtypes of a class are those of the program, kept or not. -/
lemma subtypes_answers (cls : String) :
    Answers (Sound t) (subtypes t cls) (t.transitiveSubtypes cls) := by
  refine memoized_answers (fun _ hm => hm.subs) (fun m hm => ?_)
    ((Answers.closureM directSubtypes_answers _ _ _).bind (Answers.pure _))
  split
  · exact hm
  · exact { hm with subs := hm.subs.insert cls }

lemma isSubtype_answers (sub super : String) :
    Answers (Sound t) (isSubtype t sub super) (t.isSubtype sub super) := by
  unfold isSubtype ClassTable.isSubtype
  cases sub == super || super == javaLangObject with
  | true => exact Answers.pure _
  | false => exact (supertypes_answers sub).bind (Answers.pure _)

lemma isConcrete_answers (cls : String) :
    Answers (Sound t) (isConcrete t cls) (t.isConcrete cls) := by
  refine (entryOf_answers cls).bind ?_
  unfold ClassTable.isConcrete
  cases t.typeEntry? cls <;> exact Answers.pure _

lemma concreteSubtypes_answers (cls : String) :
    Answers (Sound t) (concreteSubtypes t cls) (t.concreteSubtypes cls) :=
  (subtypes_answers cls).bind ((Answers.filterM _ isConcrete_answers).bind (Answers.pure _))

/-! ## The targets of calls -/

/-- Looking up a body is counted, and no more. -/
lemma lookup_answers (accepts : String → Bool) (cls : String) :
    Answers (Sound t) (lookup accepts cls) (accepts cls) :=
  Answers.after (Gives.modify fun _ hm => { hm with }) (Answers.pure _)

/-- The search stops at the first class that is accepted. -/
lemma searchChain_answers (accepts : String → Bool) (fuel : Nat) (cls : String) :
    Answers (Sound t) (searchChain t accepts fuel cls) ((t.chainFrom fuel cls).find? accepts) := by
  induction fuel generalizing cls with
  | zero => exact Answers.pure _
  | succ fuel ih =>
    unfold searchChain ClassTable.chainFrom
    split
    · exact Answers.pure _
    · refine (lookup_answers accepts cls).bind ?_
      rw [List.find?_cons]
      cases accepts cls with
      | true => exact Answers.pure _
      | false =>
        refine (entryOf_answers cls).bind ?_
        cases t.typeEntry? cls with
        | none => exact Answers.pure _
        | some e => exact ih e.super

lemma searchInterfaces_answers (accepts : String → Bool) (names : List String) :
    Answers (Sound t) (searchInterfaces t accepts names)
      ((names.filter t.isInterface).find? accepts) := by
  induction names with
  | nil => exact Answers.pure _
  | cons cls names ih =>
    refine (isInterface_answers cls).bind ?_
    rw [List.filter_cons]
    cases t.isInterface cls with
    | false => exact ih
    | true =>
      refine (lookup_answers accepts cls).bind ?_
      rw [if_pos rfl, List.find?_cons]
      cases accepts cls with
      | true => exact Answers.pure _
      | false => exact ih

lemma nearest?_answers (sig : Signature) (cls : String) :
    Answers (Sound t) (nearest? t sig cls) (t.nearest? sig cls) :=
  (searchChain_answers _ _ _).bind (Answers.pure _)

lemma select?_answers (sig : Signature) (cls : String) :
    Answers (Sound t) (select? t sig cls) (t.select? sig cls) := by
  refine (searchChain_answers _ _ _).bind ?_
  unfold ClassTable.select? ClassTable.implementationOrder ClassTable.superclassChain
  rw [List.find?_append]
  cases (t.chainFrom (t.order.length + 2) cls).find? (t.implements sig) with
  | some found => exact Answers.pure _
  | none =>
    exact (supertypes_answers cls).bind ((searchInterfaces_answers _ _).bind (Answers.pure _))

lemma implementations_answers (sig : Signature) (cls : String) :
    Answers (Sound t) (implementations t sig cls) (t.implementations sig cls) := by
  refine (concreteSubtypes_answers cls).bind ?_
  refine (Answers.mapM _ fun c _ => select?_answers sig c).bind ?_
  unfold ClassTable.implementations
  rw [show ((t.concreteSubtypes cls).map (t.select? sig)).reduceOption =
    (t.concreteSubtypes cls).filterMap (t.select? sig) from List.filterMap_map]
  cases (t.concreteSubtypes cls).filterMap (t.select? sig) with
  | nil => exact (select?_answers sig cls).bind (Answers.pure _)
  | cons ref refs => exact Answers.pure _

lemma searchTargets_answers (k : CallKey) :
    Answers (Sound t) (searchTargets t k) (t.resolve k) := by
  obtain ⟨kind, target⟩ := k
  unfold searchTargets ClassTable.resolve
  dsimp only
  cases kind with
  | dynamic => exact Answers.pure _
  | static | special =>
    refine (nearest?_answers _ _).bind ?_
    cases t.nearest? target.signature target.cls <;> exact Answers.pure _
  | virtual | interface =>
    refine (implementations_answers _ _).bind ?_
    generalize (t.implementations target.signature target.cls).mergeSort MethodRef.le = refs
    match refs with
    | [] => exact Answers.pure _
    | [ref] => exact (subtypes_answers _).bind (Answers.pure _)
    | _ :: _ :: _ => exact Answers.pure _

/-- The targets of a call are those of the program. -/
lemma resolve_answers (k : CallKey) : Answers (Sound t) (resolve t k) (t.resolve k) := by
  refine Answers.after (Gives.modify fun m hm => ?_) (memoized_answers (fun _ hm => hm.resolutions)
    (fun _ hm => { hm with resolutions := hm.resolutions.insert k }) (searchTargets_answers k))
  split <;> exact { hm with }

/-! ## Flow graphs -/

lemma matchHandler_answers (raised catchType : String) :
    Answers (Sound t) (matchHandler t raised catchType)
      (JvmTaint.matchHandler (some t) raised catchType) := by
  unfold matchHandler JvmTaint.matchHandler
  split
  · exact Answers.pure _
  · simp only [Bool.or_eq_true, ite_or]
    refine (knows_answers raised).bind (Answers.ite (Answers.pure _) ?_)
    refine (knows_answers catchType).bind (Answers.ite (Answers.pure _) ?_)
    refine (isSubtype_answers raised catchType).bind (Answers.ite (Answers.pure _) ?_)
    exact (isSubtype_answers catchType raised).bind (Answers.ite (Answers.pure _) (Answers.pure _))

lemma raiseTo_answers (i exit : Nat) (raised : String) (handlers : List Handler) (w : Wiring) :
    Answers (Sound t) (raiseTo t i exit raised handlers w)
      (Wiring.raiseTo (some t) i exit raised handlers w) := by
  induction handlers generalizing w with
  | nil => exact Answers.pure _
  | cons h handlers ih =>
    unfold raiseTo Wiring.raiseTo
    refine (matchHandler_answers raised h.catchType).bind ?_
    cases JvmTaint.matchHandler (some t) raised h.catchType with
    | always => exact Answers.pure _
    | maybe | never => exact ih _

lemma raise_answers (handlers : List HandlerEntry) (spans : List Span) (scopes : List Scope)
    (exit : Nat) (w : Wiring) (i : Nat) :
    Answers (Sound t) (raise t handlers spans scopes exit w i)
      (Wiring.raise (some t) handlers spans scopes exit w i) := by
  unfold raise Wiring.raise
  cases w.statements[i]? with
  | none => exact Answers.pure _
  | some st => exact Answers.ite (raiseTo_answers _ _ _ _ _) (Answers.pure _)

lemma connectAll_answers (params : ParamSlots) (handlers : List HandlerEntry)
    (resources : List ResourceScope) (p : Progression) :
    Answers (Sound t) (connectAll t params handlers resources p)
      (JvmTaint.connectAll (some t) params handlers resources p) :=
  Answers.foldlM _ _ fun w i => raise_answers handlers p.spans _ _ w i

/-- The type hierarchy has a part only where the statements are connected. -/
lemma ofCode_eq (types : Option ClassTable) (b : MethodBody) (params : ParamSlots) :
    FlowGraph.ofCode types b params =
      JvmTaint.connectAll types params b.handlers b.resources <$> b.lowered params := by
  simp only [FlowGraph.ofCode, MethodBody.lowered, map_eq_pure_bind, bind_assoc]

lemma ofCode_answers (b : MethodBody) (params : ParamSlots) :
    Answers (Sound t) (ofCode t b params) (FlowGraph.ofCode (some t) b params) := by
  rw [ofCode_eq]
  unfold ofCode
  cases b.lowered params with
  | error e => exact Answers.pure _
  | ok p => exact (connectAll_answers params b.handlers b.resources p).bind (Answers.pure _)

lemma buildGraph_answers (b : MethodBody) :
    Answers (Sound t) (buildGraph t b) (FlowGraph.build (some t) b) := by
  unfold buildGraph FlowGraph.build
  split
  · exact Answers.pure _
  · cases MethodDescriptor.parse b.ref.descriptor with
    | error e => exact Answers.pure _
    | ok d =>
      dsimp only
      cases b.code.isEmpty with
      | true => exact Answers.pure _
      | false =>
        refine (ofCode_answers b (b.paramSlots d)).bind ?_
        simp only [Bool.false_eq_true, ↓reduceIte]
        cases FlowGraph.ofCode (some t) b (b.paramSlots d) <;> exact Answers.pure _

lemma lookupGraph_answers (ref : MethodRef) :
    Answers (Sound t) (lookupGraph t ref) ((CodeBase.ofTable t).graph ref) := by
  refine Answers.after (Gives.modify fun _ hm => { hm with }) ?_
  rw [CodeBase.graph_ofTable]
  cases t.body ref with
  | error e => exact Answers.pure _
  | ok body => exact (buildGraph_answers body).bind (Answers.pure _)

/-- The flow graph of a method is that of the program. -/
lemma graph_answers (ref : MethodRef) :
    Answers (Sound t) (graph t ref) ((CodeBase.ofTable t).graph ref) :=
  memoized_answers (fun _ hm => hm.graphs) (fun _ hm => { hm with graphs := hm.graphs.insert ref })
    (lookupGraph_answers ref)

end Memo

end JvmTaint
