import JvmTaint.Proofs.ClassFile.Hierarchy
import JvmTaint.Proofs.Lowering.Frames
import JvmTaint.Proofs.Lowering.Positions

set_option autoImplicit false
set_option relaxedAutoImplicit false

/-!
# Dispatch of exceptions

When an exception is raised, control goes to the first handler that covers the instruction and
catches the class of the exception, or leaves the method if there is none. Which classes a handler
catches depends on the superclasses of all classes, also of those that the program does not declare.
The edges of a statement lead to all handlers that may receive an exception, whatever the other
classes are, if the declared superclasses are enough to compare the types.

## Main definitions

* `JvmTaint.ClassTree`: the superclasses of all classes, with `JvmTaint.ClassTree.Agrees` for a tree
  that has the superclasses of a program.
* `JvmTaint.ClassTree.Receives`: the handler of an entry receives an exception of a class.
* `JvmTaint.ClassTable.decides`: the declared superclasses are enough to compare two types.
* `JvmTaint.FlowGraph.Raises`: a statement has an exception edge to another one.

## Main results

* `JvmTaint.ClassTree.catches_of_always`, `JvmTaint.ClassTree.not_catches_of_never`: what the match
  of a handler says about all trees.
* `JvmTaint.FlowGraph.exceptions_dispatched`: the exception edges lead to the handler that receives
  an exception.
* `JvmTaint.netProgram_not_dispatched`: a handler without an edge, for a class whose superclass is
  not declared.
-/

namespace JvmTaint

/-! ## Trees of classes -/

/-- The superclasses of all classes: a tree with the root class at its root. -/
structure ClassTree where
  parent : String → Option String
  parent_root : parent javaLangObject = none
  rooted : ∀ cls, Relation.ReflTransGen (fun c s => parent c = some s) cls javaLangObject

namespace ClassTree

variable (tree : ClassTree)

/-- A class is another one or one of its subclasses. -/
def Le (cls super : String) : Prop :=
  Relation.ReflTransGen (fun c s => tree.parent c = some s) cls super

/-- The tree has the superclasses that the classes of a program name. -/
def Agrees (t : ClassTable) : Prop :=
  ∀ cls super, t.superclass? cls = some super → tree.parent cls = some super

/-- A handler catches exceptions of a class. -/
def Catches (catchType cls : String) : Prop := catchType = "" ∨ tree.Le cls catchType

/-- The entry is the first one that covers the offset and catches exceptions of the class. -/
def Receives (handlers : List HandlerEntry) (offset : Int) (cls : String) (e : HandlerEntry) :
    Prop :=
  ∃ before after, handlers = before ++ e :: after ∧ e.covers offset = true ∧
    tree.Catches e.catchType cls ∧
    ∀ e' ∈ before, e'.covers offset = true → ¬ tree.Catches e'.catchType cls

variable {tree} {t : ClassTable} {cls super : String}

/-- No class is its own superclass.

**Proof sketch.** Induction on the way to the root, which has no superclass: a way from a class back
to itself starts with the step to its superclass, so the superclass would be on such a way, too. -/
lemma not_transGen_self (tree : ClassTree) (cls : String) :
    ¬ Relation.TransGen (fun c s => tree.parent c = some s) cls cls := by
  induction tree.rooted cls using Relation.ReflTransGen.head_induction_on with
  | refl =>
    intro hcycle
    obtain ⟨s, hs, -⟩ := Relation.TransGen.head'_iff.mp hcycle
    rw [tree.parent_root] at hs
    cases hs
  | @head c s hs _ ih =>
    intro hcycle
    obtain ⟨s', hs', hback⟩ := Relation.TransGen.head'_iff.mp hcycle
    obtain rfl : s = s' := Option.some.inj (hs.symm.trans hs')
    exact ih (Relation.TransGen.tail' hback hs)

/-- Two superclasses of a class are comparable. -/
lemma le_total_of_le {super' : String} (h : tree.Le cls super) (h' : tree.Le cls super') :
    tree.Le super super' ∨ tree.Le super' super :=
  Relation.ReflTransGen.total_of_right_unique
    (fun _ _ _ hs hs' => Option.some.inj (hs.symm.trans hs')) h h'

namespace Agrees

variable (h : tree.Agrees t)

include h

lemma superclassesEnd : t.SuperclassesEnd := fun cls hcycle =>
  tree.not_transGen_self cls (Relation.TransGen.mono h _ _ hcycle)

/-- The superclasses of a chain are superclasses in the tree. -/
lemma le_of_mem_superclassChain (hsuper : super ∈ t.superclassChain cls) : tree.Le cls super :=
  Relation.ReflTransGen.mono h _ _ (ClassTable.reaches_of_mem_chainFrom hsuper)

/-- A superclass in the tree is one of the chain or lies above its last class. -/
lemma mem_superclassChain_or (ht : t.Indexed) (hle : tree.Le cls super) (hcls : cls ≠ "") :
    super ∈ t.superclassChain cls ∨ ∃ last, (t.superclassChain cls).getLast? = some last ∧
      Relation.TransGen (fun c s => tree.parent c = some s) last super := by
  induction hle using Relation.ReflTransGen.head_induction_on with
  | refl =>
    rw [ClassTable.superclassChain_eq ht h.superclassesEnd hcls]
    exact .inl List.mem_cons_self
  | @head c s hs hle ih =>
    rw [ClassTable.superclassChain_eq ht h.superclassesEnd hcls]
    cases hs' : t.superclass? c with
    | none => exact .inr ⟨c, rfl, Relation.TransGen.head' hs hle⟩
    | some s' =>
      obtain rfl : s = s' := Option.some.inj (hs.symm.trans (h c s' hs'))
      have hne : s ≠ "" := (ClassTable.superclass?_eq_some_iff.mp hs').1
      rw [Option.map_some, Option.getD_some]
      refine (ih hne).imp (List.mem_cons_of_mem _) ?_
      rintro ⟨last, hlast, habove⟩
      exact ⟨last, by rw [List.getLast?_cons, hlast]; rfl, habove⟩

/-- If two chains end in the same class, the tree compares their classes as the chains do. -/
lemma mem_superclassChain (ht : t.Indexed) (hle : tree.Le cls super) (hcls : cls ≠ "")
    (hlast : (t.superclassChain cls).getLast? = (t.superclassChain super).getLast?) :
    super ∈ t.superclassChain cls := by
  rcases h.mem_superclassChain_or ht hle hcls with hmem | ⟨last, hlast', habove⟩
  · exact hmem
  · rw [hlast] at hlast'
    have hbelow := h.le_of_mem_superclassChain (List.mem_of_getLast? hlast')
    exact absurd (Relation.TransGen.trans_left habove hbelow) (tree.not_transGen_self last)

end Agrees

/-- The declared classes are enough to see that a tree agrees with a program. -/
lemma agrees_of_order {tree : ClassTree} {t : ClassTable} (ht : t.Indexed)
    (h : (t.order.all fun c => (t.superclass? c).all fun s => tree.parent c == some s) = true) :
    tree.Agrees t := by
  intro cls super hsuper
  have hmem := (ht.mem_order_iff cls).mpr (ClassTable.mem_classes_of_superclass? hsuper)
  have hparent := List.all_eq_true.mp h cls hmem
  rw [hsuper] at hparent
  simpa using hparent

end ClassTree

/-! ## Matching -/

/-- Whether the declared superclasses are enough to compare the static type of an exception with the
type that a handler catches: a handler that surely catches the exception does so because of a
superclass, and for a handler that does not, both chains of superclasses end in the same class. -/
def ClassTable.decides (t : ClassTable) (raised catchType : String) : Bool :=
  match matchHandler (some t) raised catchType with
  | .always => ["", javaLangThrowable, javaLangObject].contains catchType ||
      (t.superclassChain raised).contains catchType
  | .maybe => true
  | .never => (t.superclassChain raised).getLast? == (t.superclassChain catchType).getLast?

lemma ClassTable.isSubtype_of_mem_superclassChain {t : ClassTable} (ht : t.Indexed)
    {cls super : String} (hsuper : super ∈ t.superclassChain cls) (hne : super ≠ "") :
    t.isSubtype cls super = true := by
  by_cases heq : super = cls
  · simp [isSubtype, heq]
  · have hmem : super ∈ t.transitiveSupertypes cls := by
      refine (mem_transitiveSupertypes_iff ht hne).mpr ⟨heq, ?_⟩
      exact Relation.ReflTransGen.mono (fun _ _ => names_of_superclass?) _ _
        (reaches_of_mem_chainFrom hsuper)
    simp [isSubtype, hmem]

lemma raisedType_ne (a : Action Nat) : raisedType a ≠ "" := by
  unfold raisedType
  split
  · dsimp only
    split
    · decide
    · assumption
  · decide

lemma of_matchHandler_never {t : ClassTable} {raised catchType : String}
    (h : matchHandler (some t) raised catchType = .never) :
    catchType ≠ "" ∧ t.isSubtype raised catchType = false ∧
      t.isSubtype catchType raised = false := by
  unfold matchHandler at h
  split at h
  · cases h
  · rename_i hne
    dsimp only at h
    split at h
    · cases h
    · split at h
      · cases h
      · split at h
        · cases h
        · rename_i hup hdown
          exact ⟨fun heq => hne (.inl heq), by simpa using hup, by simpa using hdown⟩

namespace ClassTree

variable {tree : ClassTree} {t : ClassTable} {cls raised catchType : String}

/-- A handler that surely catches an exception does so in every tree. -/
lemma catches_of_always (h : tree.Agrees t) (hraised : tree.Le cls raised)
    (hthrowable : tree.Le cls javaLangThrowable) (hdecides : t.decides raised catchType = true)
    (hmatch : matchHandler (some t) raised catchType = .always) :
    tree.Catches catchType cls := by
  unfold ClassTable.decides at hdecides
  rw [hmatch] at hdecides
  simp only [Bool.or_eq_true, List.contains_iff_mem, List.mem_cons, List.not_mem_nil, or_false]
    at hdecides
  rcases hdecides with (rfl | rfl | rfl) | hmem
  · exact .inl rfl
  · exact .inr hthrowable
  · exact .inr (tree.rooted cls)
  · exact .inr (Relation.ReflTransGen.trans hraised (h.le_of_mem_superclassChain hmem))

/-- A handler that surely does not catch an exception does not catch it in any tree.

**Proof sketch.** A class that is caught would make the two types comparable in the tree. As their
chains end in the same class, one of them is then a declared superclass of the other. -/
lemma not_catches_of_never (h : tree.Agrees t) (ht : t.Indexed) (hne : raised ≠ "")
    (hraised : tree.Le cls raised) (hdecides : t.decides raised catchType = true)
    (hmatch : matchHandler (some t) raised catchType = .never) :
    ¬ tree.Catches catchType cls := by
  obtain ⟨hne', hup, hdown⟩ := of_matchHandler_never hmatch
  have hlast : (t.superclassChain raised).getLast? = (t.superclassChain catchType).getLast? := by
    unfold ClassTable.decides at hdecides
    rw [hmatch] at hdecides
    simpa using hdecides
  rintro (rfl | hcaught)
  · exact hne' rfl
  rcases le_total_of_le hraised hcaught with hle | hle
  · have hmem := h.mem_superclassChain ht hle hne hlast
    rw [ClassTable.isSubtype_of_mem_superclassChain ht hmem hne'] at hup
    cases hup
  · have hmem := h.mem_superclassChain ht hle hne' hlast.symm
    rw [ClassTable.isSubtype_of_mem_superclassChain ht hmem hne] at hdown
    cases hdown

end ClassTree

/-! ## Edges to handlers -/

section CatchEdges

variable {types : Option ClassTable} {i exit : Nat} {raised : String}

/-- A handler that may catch an exception has an edge if no handler in front of it surely does. -/
lemma mem_catchEdges {hs before after : List Handler} {h : Handler}
    (hsplit : hs = before ++ h :: after)
    (hbefore : ∀ h' ∈ before, matchHandler types raised h'.catchType ≠ .always)
    (hh : matchHandler types raised h.catchType ≠ .never) :
    ⟨i, h.target, .exception, h.catchType, false⟩ ∈ catchEdges types i exit raised hs := by
  subst hsplit
  induction before with
  | nil =>
    rw [List.nil_append, catchEdges]
    split
    · exact List.mem_cons_self
    · exact List.mem_cons_self
    · contradiction
  | cons h' before ih =>
    have hrest := ih fun h'' hh'' => hbefore h'' (List.mem_cons_of_mem _ hh'')
    rw [List.cons_append, catchEdges]
    split
    · rename_i halways
      exact absurd halways (hbefore h' List.mem_cons_self)
    · exact List.mem_cons_of_mem _ hrest
    · exact hrest

/-- Without a handler that surely catches an exception, there is an edge to the exit. -/
lemma mem_catchEdges_exit {hs : List Handler}
    (hhs : ∀ h ∈ hs, matchHandler types raised h.catchType ≠ .always) :
    ⟨i, exit, .exception, "", false⟩ ∈ catchEdges types i exit raised hs := by
  induction hs with
  | nil => exact List.mem_singleton.mpr rfl
  | cons h hs ih =>
    have hrest := ih fun h' hh' => hhs h' (List.mem_cons_of_mem _ hh')
    rw [catchEdges]
    split
    · rename_i halways
      exact absurd halways (hhs h List.mem_cons_self)
    · exact List.mem_cons_of_mem _ hrest
    · exact hrest

/-- If surely no handler catches an exception, the only edge is the one to the exit. -/
lemma catchEdges_of_never {hs : List Handler}
    (h : ∀ handler ∈ hs, matchHandler types raised handler.catchType = .never) :
    catchEdges types i exit raised hs = [⟨i, exit, .exception, "", false⟩] := by
  induction hs with
  | nil => rfl
  | cons handler hs ih =>
    rw [catchEdges, h handler List.mem_cons_self]
    exact ih fun handler' hhandler => h handler' (List.mem_cons_of_mem _ hhandler)

end CatchEdges

/-- The handler of an entry of the exception table. -/
def HandlerEntry.toHandler (spans : List Span) (e : HandlerEntry) : Handler :=
  ⟨e.start, e.stop, e.catchType, firstAt spans e.handler⟩

/-- Without scopes, the handlers are the entries of the table that cover the offset. -/
lemma handlersFor_nil (handlers : List HandlerEntry) (spans : List Span) (offset : Int) :
    handlersFor handlers spans [] offset none =
      (handlers.filter (·.covers offset)).map (HandlerEntry.toHandler spans) := by
  simp [handlersFor, HandlerEntry.toHandler]

namespace FlowGraph

/-- The statement `i` has an exception edge to the statement `t`. -/
def Raises (g : FlowGraph) (i t : Nat) : Prop := ∃ e ∈ g.successors i, e.Leads t .exception

variable {types : Option ClassTable} {b : MethodBody} {g : FlowGraph}

/-- The first statement of a handler. -/
lemma Connects.entryOf_handler {params : ParamSlots} {p : Progression}
    (h : g.Connects types b params p) {e : HandlerEntry} (he : e ∈ b.handlers) :
    g.entryOf e.handler = firstAt p.spans e.handler := by
  have hreferred : e.handler ∈ b.referredOffsets := by
    unfold MethodBody.referredOffsets
    exact List.mem_append_left _ (List.mem_append_right _ (List.mem_map_of_mem he))
  obtain ⟨s, hs, hfirst, hoffset⟩ :=
    h.complete.starts_firstAt (h.complete.valid.handlers e he) hreferred
  rw [← hfirst, ← hoffset, h.entryOf_offset hs]

/-- The exception edges of a statement lead to where its exceptions are caught. -/
lemma Connects.raises_iff {params : ParamSlots} {p : Progression}
    (h : g.Connects types b params p) (hresources : b.resources = []) {i : Nat} {st : Statement}
    (hst : g.statements[i]? = some st) (hthrow : st.action.mayThrow = true) {target : Nat} :
    g.Raises i target ↔ ∃ e ∈ catchEdges types i g.unhandledExit (raisedType st.action)
      ((b.handlers.filter (·.covers st.offset)).map (HandlerEntry.toHandler p.spans)),
      e.target = target := by
  obtain ⟨mark, hmark⟩ := h.exists_successors
  have hi := (Array.getElem?_eq_some_iff.mp hst).1
  rw [h.size_statements] at hi
  have hscopes : p.scopes b.resources = [] :=
    List.eq_nil_of_length_eq_zero (by rw [Progression.length_scopes, hresources, List.length_nil])
  have hraised : raisedEdges types b.handlers p.spans (p.scopes b.resources)
      (p.exit b.resources) (p.unlinked params b.resources) i =
      catchEdges types i g.unhandledExit (raisedType st.action)
        ((b.handlers.filter (·.covers st.offset)).map (HandlerEntry.toHandler p.spans)) := by
    rw [← raisedEdges_mapIdx types b.handlers _ _ _ _ (p.leadsTo params b.resources),
      ← connectAll_statements h.complete types params b.handlers b.resources, ← h.statements_eq,
      raisedEdges, hst, h.unhandledExit_eq, ← handlersFor_nil]
    simp [hthrow, hscopes, ownerOf?]
  have hmarked : g.Raises i target ↔ ∃ e ∈ (raisedEdges types b.handlers p.spans
      (p.scopes b.resources) (p.exit b.resources) (p.unlinked params b.resources) i).foldl
      insertEdge ((flowEdges (p.unlinked params b.resources) i).map
        (Edge.retarget (p.leadsTo params b.resources i))), e.Leads target .exception := by
    unfold Raises
    rw [hmark i hi]
    simp only [List.mem_map, exists_exists_and_eq_and]
    rfl
  rw [hmarked, exists_foldl_insertEdge, hraised]
  constructor
  · rintro (⟨e, he, hleads⟩ | ⟨e, he, hleads⟩)
    · obtain ⟨e', he', rfl⟩ := List.mem_map.mp he
      exact absurd hleads.2 (source_of_mem_flowEdges he').2
    · exact ⟨e, he, hleads.1⟩
  · rintro ⟨e, he, rfl⟩
    exact .inr ⟨e, he, rfl, (of_mem_catchEdges he).2.1⟩

/-- **Dispatch of exceptions.** A statement that may raise an exception has an exception edge to the
handler that receives it, or to the exit if there is none, in every tree of classes that agrees with
the program. This is so if the declared superclasses are enough to compare the static type of the
exception with the types that are caught.

**Proof sketch.** The handlers in front of the one that receives the exception do not catch it, so
none of them surely does, and the one that receives it is not one that surely does not catch it. -/
theorem exceptions_dispatched {program : Program} {t : ClassTable}
    (ht : ClassTable.ofProgram program = .ok t) (hresources : b.resources = [])
    (hbuild : FlowGraph.build (some t) b = .ok g) {i : Nat} {st : Statement}
    (hst : g.statements[i]? = some st) (hthrow : st.action.mayThrow = true)
    (hdecides : ∀ e ∈ b.handlers, e.covers st.offset = true →
      t.decides (raisedType st.action) e.catchType = true)
    {tree : ClassTree} (hagrees : tree.Agrees t) {cls : String}
    (hthrowable : tree.Le cls javaLangThrowable) (hraised : tree.Le cls (raisedType st.action)) :
    (∀ e, tree.Receives b.handlers st.offset cls e → g.Raises i (g.entryOf e.handler)) ∧
    ((∀ e ∈ b.handlers, e.covers st.offset = true → ¬ tree.Catches e.catchType cls) →
      g.Raises i g.unhandledExit) := by
  have hindexed := ClassTable.indexed_of_ofProgram ht
  rcases build_cases hbuild with ⟨-, hstatements, -⟩ | ⟨d, p, -, h⟩
  · rw [hstatements] at hst
    obtain ⟨hi, rfl⟩ := Array.getElem?_eq_some_iff.mp hst
    obtain rfl : i = 0 := by simpa using hi
    cases hthrow
  -- an entry that does not catch the exception does not end the search for handlers
  have hpasses : ∀ entries : List HandlerEntry, (∀ e ∈ entries, e ∈ b.handlers) →
      (∀ e ∈ entries, e.covers st.offset = true → ¬ tree.Catches e.catchType cls) →
      ∀ handler ∈ (entries.filter (·.covers st.offset)).map (HandlerEntry.toHandler p.spans),
        matchHandler (some t) (raisedType st.action) handler.catchType ≠ .always := by
    intro entries hentries hmisses handler hhandler halways
    obtain ⟨e, he, rfl⟩ := List.mem_map.mp hhandler
    obtain ⟨he, hcovers⟩ := List.mem_filter.mp he
    exact hmisses e he hcovers (ClassTree.catches_of_always hagrees hraised hthrowable
      (hdecides e (hentries e he) hcovers) halways)
  constructor
  · rintro e ⟨before, after, hhandlers, hcovers, hcatches, hfirst⟩
    have hmem : e ∈ b.handlers := by simp [hhandlers]
    have hmatch : matchHandler (some t) (raisedType st.action) e.catchType ≠ .never := fun hnever =>
      ClassTree.not_catches_of_never hagrees hindexed (raisedType_ne _) hraised
        (hdecides e hmem hcovers) hnever hcatches
    have hsplit : (b.handlers.filter (·.covers st.offset)).map (HandlerEntry.toHandler p.spans) =
        (before.filter (·.covers st.offset)).map (HandlerEntry.toHandler p.spans) ++
          e.toHandler p.spans ::
            (after.filter (·.covers st.offset)).map (HandlerEntry.toHandler p.spans) := by
      simp [hhandlers, hcovers]
    rw [h.entryOf_handler hmem, h.raises_iff hresources hst hthrow]
    exact ⟨_, mem_catchEdges hsplit
      (hpasses before (fun e' he' => by simp [hhandlers, he']) hfirst) hmatch, rfl⟩
  · intro hmisses
    rw [h.raises_iff hresources hst hthrow]
    exact ⟨_, mem_catchEdges_exit (hpasses b.handlers (fun _ he => he) hmisses), rfl⟩

/-- The statements of a lowered body do not depend on the types of exceptions. -/
lemma exists_ofCode {params : ParamSlots} {w : Wiring}
    (h : ofCode types b params = .ok w) (types' : Option ClassTable) :
    ∃ w', ofCode types' b params = .ok w' ∧ w'.statements = w.statements := by
  unfold ofCode at h ⊢
  obtain ⟨_, hvalid, h⟩ := bind_eq_ok.mp h
  obtain ⟨shapes, hshapes, h⟩ := bind_eq_ok.mp h
  obtain ⟨_, hranges, h⟩ := bind_eq_ok.mp h
  obtain ⟨p, hp, h⟩ := bind_eq_ok.mp h
  cases h
  refine ⟨connectAll types' params b.handlers b.resources p, ?_, ?_⟩
  · exact bind_eq_ok.mpr ⟨_, hvalid, bind_eq_ok.mpr ⟨shapes, hshapes,
      bind_eq_ok.mpr ⟨_, hranges, bind_eq_ok.mpr ⟨p, hp, rfl⟩⟩⟩⟩
  · exact (connectAll_extends types' params b.handlers b.resources).statements.trans
      (connectAll_extends types params b.handlers b.resources).statements.symm

/-- The statements of a flow graph do not depend on the types of exceptions. -/
lemma exists_build (h : FlowGraph.build types b = .ok g) (types' : Option ClassTable) :
    ∃ g', FlowGraph.build types' b = .ok g' ∧ g'.statements = g.statements := by
  unfold build at h ⊢
  split at h
  · cases h
  rename_i hcode
  rw [if_neg hcode]
  cases hd : MethodDescriptor.parse b.ref.descriptor with
  | error e => simp [hd] at h
  | ok d =>
    simp only [hd] at h ⊢
    by_cases hempty : b.code.isEmpty = true
    · simp only [hempty, if_true] at h ⊢
      cases h
      exact ⟨_, rfl, rfl⟩
    · simp only [hempty] at h ⊢
      cases hw : ofCode types b (b.paramSlots d) with
      | error e => simp [hw] at h
      | ok w =>
        obtain ⟨w', hw', heq⟩ := exists_ofCode hw types'
        simp only [hw] at h
        cases h
        simp only [hw']
        exact ⟨_, rfl, heq⟩

end FlowGraph

/-! ## A class whose superclass is not declared -/

/-- The superclasses of some exceptions. All other classes extend the root class. -/
def failureParent : String → Option String
  | "Failure" => some javaLangThrowable
  | "IOError" | "BadInput" => some "Failure"
  | "NetError" => some "IOError"
  | "Timeout" => some "NetError"
  | cls => if cls = javaLangObject then none else some javaLangObject

lemma failureParent_cases (cls : String) : cls = javaLangObject ∨
    ∃ s ∈ [javaLangObject, javaLangThrowable, "Failure", "IOError", "NetError"],
      failureParent cls = some s := by
  unfold failureParent
  split
  case h_6 =>
    split
    · exact .inl (by assumption)
    · exact .inr ⟨_, by decide, rfl⟩
  all_goals exact .inr ⟨_, by decide, rfl⟩

/-- The tree of these superclasses. -/
def failureTree : ClassTree where
  parent := failureParent
  parent_root := rfl
  rooted cls := by
    let Extends (c s : String) : Prop := failureParent c = some s
    have hthrowable : Relation.ReflTransGen Extends javaLangThrowable javaLangObject := .single rfl
    have hfailure : Relation.ReflTransGen Extends "Failure" javaLangObject := .head rfl hthrowable
    have hio : Relation.ReflTransGen Extends "IOError" javaLangObject := .head rfl hfailure
    have hnet : Relation.ReflTransGen Extends "NetError" javaLangObject := .head rfl hio
    rcases failureParent_cases cls with rfl | ⟨s, hs, hparent⟩
    · exact .refl
    · refine .head hparent ?_
      simp only [List.mem_cons, List.not_mem_nil, or_false] at hs
      rcases hs with rfl | rfl | rfl | rfl | rfl
      · exact .refl
      · exact hthrowable
      · exact hfailure
      · exact hio
      · exact hnet

/-- The superclasses of the class `Timeout`, which no program below declares. -/
def timeoutSuperclasses : List String :=
  ["Timeout", "NetError", "IOError", "Failure", javaLangThrowable, javaLangObject]

lemma failureTree_mem_of_le {super : String} (h : failureTree.Le "Timeout" super) :
    super ∈ timeoutSuperclasses := by
  have hclosed : (timeoutSuperclasses.all fun c =>
      (failureParent c).all timeoutSuperclasses.contains) = true := by decide
  induction h with
  | refl => exact List.mem_cons_self
  | @tail c s _ hs ih =>
    have hparent := List.all_eq_true.mp hclosed c ih
    rw [show failureParent c = some s from hs] at hparent
    simpa using hparent

lemma failureTree_le : failureTree.Le "Timeout" "NetError" ∧ failureTree.Le "Timeout" "Failure" ∧
    failureTree.Le "Timeout" javaLangThrowable := by
  have hnet : failureTree.Le "Timeout" "NetError" := .single rfl
  have hio : failureTree.Le "Timeout" "IOError" := hnet.tail rfl
  have hfailure : failureTree.Le "Timeout" "Failure" := hio.tail rfl
  exact ⟨hnet, hfailure, hfailure.tail rfl⟩

/-- A method that throws an exception that is given to it. The first handler catches exceptions of
another class. -/
def raiseMethod : MethodDecl where
  name := "raise"
  descriptor := "(LNetError;)V"
  flags := AccessFlags.empty.insert .static
  maxLocals := 2
  code := some [
    { pc := 0, op := ⟨25⟩, slot := 0 },
    { pc := 2, op := ⟨191⟩ },
    { pc := 3, op := ⟨58⟩, slot := 1 },
    { pc := 5, op := ⟨177⟩ },
    { pc := 6, op := ⟨58⟩, slot := 1 },
    { pc := 8, op := ⟨177⟩ }]
  handlers := [{ start := 0, stop := 3, handler := 3, catchType := "BadInput" },
    { start := 0, stop := 3, handler := 6, catchType := "Failure" }]

/-- The interface with this method. -/
def netType : ClassDecl where
  name := "Net"
  flags := AccessFlags.empty.insert .interface
  methods := [some raiseMethod]

/-- The declaration of a class of exceptions. -/
def failureType (name super : String) : ClassDecl := { name, super }

/-- A program with the method and two classes of exceptions. -/
def netProgram : Program where
  classes := some [some netType, some (failureType "NetError" "IOError"),
    some (failureType "BadInput" "Failure")]

/-- The program with the superclass of the first one. -/
def ioProgram : Program where
  classes := some [some netType, some (failureType "NetError" "IOError"),
    some (failureType "BadInput" "Failure"), some (failureType "IOError" "Failure")]

/-- The body of the method. -/
def raiseBody : MethodBody := ClassTable.bodyOf netType raiseMethod

/-- The class table of the first program. -/
def netTable : ClassTable where
  classes := (((∅ : Std.HashMap String ClassDecl).insert "Net" netType).insert
    "NetError" (failureType "NetError" "IOError")).insert
    "BadInput" (failureType "BadInput" "Failure")
  order := ["Net", "NetError", "BadInput"]
  bodies := (∅ : Std.HashMap MethodRef MethodBody).insert raiseBody.ref raiseBody
  subtypes := ((∅ : Std.HashMap String (List String)).insert "IOError" ["NetError"]).insert
    "Failure" ["BadInput"]

/-- The class table of the second program. -/
def ioTable : ClassTable where
  classes := netTable.classes.insert "IOError" (failureType "IOError" "Failure")
  order := netTable.order ++ ["IOError"]
  bodies := netTable.bodies
  subtypes := netTable.subtypes.insert "Failure" ["BadInput", "IOError"]

lemma ofProgram_netProgram : ClassTable.ofProgram netProgram = .ok netTable := by cbv

lemma ofProgram_ioProgram : ClassTable.ofProgram ioProgram = .ok ioTable := by cbv

lemma body_netTable : netTable.body raiseBody.ref = .ok raiseBody := by cbv

lemma parents_netTable : (netTable.order.all fun c =>
    (netTable.superclass? c).all fun s => failureParent c == some s) = true := by cbv

lemma parents_ioTable : (ioTable.order.all fun c =>
    (ioTable.superclass? c).all fun s => failureParent c == some s) = true := by cbv

/-- How a table compares the type of the exception with the types that the handlers catch. -/
def comparisons (t : ClassTable) : Bool × List (Bool × Bool × Bool) :=
  (t.knows "NetError", ["BadInput", "Failure"].map fun c =>
    (t.knows c, t.isSubtype "NetError" c, t.isSubtype c "NetError"))

lemma comparisons_netTable :
    comparisons netTable = (true, [(true, false, false), (true, false, false)]) := by cbv

lemma comparisons_ioTable :
    comparisons ioTable = (true, [(true, false, false), (true, true, false)]) := by cbv

lemma superclassChain_ioTable : ["NetError", "BadInput"].map ioTable.superclassChain =
    [["NetError", "IOError", "Failure"], ["BadInput", "Failure"]] := by cbv

lemma build_raiseBody : (FlowGraph.build none raiseBody).map (fun g =>
    (g.entryOf 6, g.unhandledExit, (g.statements[0]?).map fun st : Statement =>
      (st.offset, st.action.mayThrow, raisedType st.action))) =
    .ok (4, 7, some (2, true, "NetError")) := by decide +kernel

/-- The flow graph of the method, whatever the types are. -/
lemma exists_build_raiseBody (types : Option ClassTable) : ∃ (g : FlowGraph) (st : Statement),
    FlowGraph.build types raiseBody = .ok g ∧ g.entryOf 6 = 4 ∧ g.unhandledExit = 7 ∧
    g.statements[0]? = some st ∧ st.offset = 2 ∧ st.action.mayThrow = true ∧
    raisedType st.action = "NetError" := by
  obtain ⟨g, hg, hfacts⟩ := exists_of_map_eq_ok build_raiseBody
  simp only [Prod.mk.injEq] at hfacts
  obtain ⟨hentry, hexit, hst⟩ := hfacts
  obtain ⟨st, hst, heq⟩ := Option.map_eq_some_iff.mp hst
  simp only [Prod.mk.injEq] at heq
  obtain ⟨g', hg', hstatements⟩ := FlowGraph.exists_build hg types
  refine ⟨g', st, hg', ?_, ?_, by rw [hstatements, hst], heq⟩
  · rw [← hentry, FlowGraph.entryOf, FlowGraph.entryOf, hstatements]
  · rw [← hexit, FlowGraph.unhandledExit, FlowGraph.unhandledExit, hstatements]

/-- The entry whose handler receives the exception. -/
def failureEntry : HandlerEntry := { start := 0, stop := 3, handler := 6, catchType := "Failure" }

lemma failureTree_receives :
    failureTree.Receives raiseBody.handlers 2 "Timeout" failureEntry := by
  refine ⟨[{ start := 0, stop := 3, handler := 3, catchType := "BadInput" }], [], rfl, rfl,
    .inr failureTree_le.2.1, fun e he _ => ?_⟩
  rw [List.mem_singleton.mp he]
  rintro (hempty | hle)
  · exact absurd hempty (by decide)
  · exact absurd (failureTree_mem_of_le hle) (by decide)

lemma mem_handlers_raiseBody {e : HandlerEntry} (he : e ∈ raiseBody.handlers) :
    e.catchType = "BadInput" ∨ e.catchType = "Failure" := by
  rcases List.mem_cons.mp he with rfl | he
  · exact .inl rfl
  · rw [List.mem_singleton.mp he]
    exact .inr rfl

lemma decides_ioTable {e : HandlerEntry} (he : e ∈ raiseBody.handlers) :
    ioTable.decides "NetError" e.catchType = true := by
  have hcomparisons := comparisons_ioTable
  have hchains := superclassChain_ioTable
  simp only [comparisons, List.map_cons, List.map_nil, List.cons.injEq, Prod.mk.injEq,
    and_true] at hcomparisons hchains
  rcases mem_handlers_raiseBody he with heq | heq <;>
    simp [heq, ClassTable.decides, matchHandler, hcomparisons, hchains, javaLangThrowable]

/-- In the program that declares the superclass of the exception, the second handler has an edge. -/
theorem ioProgram_exceptions_dispatched : ∃ g st,
    ClassTable.ofProgram ioProgram = .ok ioTable ∧
    FlowGraph.build (some ioTable) raiseBody = .ok g ∧ g.statements[0]? = some st ∧
    raisedType st.action = "NetError" ∧ failureTree.Agrees ioTable ∧
    failureTree.Receives raiseBody.handlers st.offset "Timeout" failureEntry ∧
    g.Raises 0 (g.entryOf failureEntry.handler) := by
  obtain ⟨g, st, hg, -, -, hst, hoffset, hthrow, hraised⟩ := exists_build_raiseBody (some ioTable)
  have hagrees : failureTree.Agrees ioTable :=
    ClassTree.agrees_of_order (ClassTable.indexed_of_ofProgram ofProgram_ioProgram) parents_ioTable
  have hreceives : failureTree.Receives raiseBody.handlers st.offset "Timeout" failureEntry := by
    rw [hoffset]
    exact failureTree_receives
  refine ⟨g, st, ofProgram_ioProgram, hg, hst, hraised, hagrees, hreceives, ?_⟩
  refine (FlowGraph.exceptions_dispatched ofProgram_ioProgram rfl hg hst hthrow ?_ hagrees
    failureTree_le.2.2 ?_).1 failureEntry hreceives
  · rw [hraised]
    exact fun e he _ => decides_ioTable he
  · rw [hraised]
    exact failureTree_le.1

lemma matchHandler_netTable {e : HandlerEntry} (he : e ∈ raiseBody.handlers) :
    matchHandler (some netTable) "NetError" e.catchType = .never := by
  have hcomparisons := comparisons_netTable
  simp only [comparisons, List.map_cons, List.map_nil, List.cons.injEq, Prod.mk.injEq,
    and_true] at hcomparisons
  rcases mem_handlers_raiseBody he with heq | heq <;>
    simp [heq, matchHandler, hcomparisons, javaLangThrowable]

/-- In the program that does not declare the superclass of the exception, the handler that receives
the exception has no edge, although both types are known. -/
theorem netProgram_not_dispatched : ∃ g st,
    ClassTable.ofProgram netProgram = .ok netTable ∧
    netTable.body raiseBody.ref = .ok raiseBody ∧ raiseBody.resources = [] ∧
    FlowGraph.build (some netTable) raiseBody = .ok g ∧ g.statements[0]? = some st ∧
    st.action.mayThrow = true ∧ failureTree.Agrees netTable ∧
    failureTree.Le "Timeout" javaLangThrowable ∧ failureTree.Le "Timeout" (raisedType st.action) ∧
    failureTree.Receives raiseBody.handlers st.offset "Timeout" failureEntry ∧
    ¬ g.Raises 0 (g.entryOf failureEntry.handler) := by
  obtain ⟨g, st, hg, hentry, hexit, hst, hoffset, hthrow, hraised⟩ :=
    exists_build_raiseBody (some netTable)
  have hindexed := ClassTable.indexed_of_ofProgram ofProgram_netProgram
  have hagrees : failureTree.Agrees netTable :=
    ClassTree.agrees_of_order hindexed parents_netTable
  refine ⟨g, st, ofProgram_netProgram, body_netTable, rfl, hg, hst, hthrow, hagrees,
    failureTree_le.2.2, by rw [hraised]; exact failureTree_le.1,
    by rw [hoffset]; exact failureTree_receives, ?_⟩
  rcases FlowGraph.build_cases hg with ⟨hnil, -⟩ | ⟨d, p, -, h⟩
  · cases hnil
  rw [show failureEntry.handler = 6 from rfl, h.raises_iff rfl hst hthrow, catchEdges_of_never,
    hentry, hexit]
  · simp
  · intro handler hhandler
    obtain ⟨e, he, rfl⟩ := List.mem_map.mp hhandler
    rw [hraised]
    exact matchHandler_netTable (List.mem_filter.mp he).1

end JvmTaint
