import JvmTaint.Proofs.Calls.CallGraph
import JvmTaint.Proofs.ClassFile.Hierarchy
import JvmTaint.Proofs.Lists
import Mathlib.Data.List.Permutation
import Mathlib.Data.Set.Finite.Basic

set_option autoImplicit false
set_option relaxedAutoImplicit false

/-!
# Selection of methods

A virtual call runs the method that the class of its receiver selects: the nearest one in the class
and its superclasses, or else the most specific one of its interfaces. The targets of a call are the
methods that the classes of the possible receivers select, if the search through the supertypes
comes to the most specific interface first.

## Main definitions

* `JvmTaint.ClassTable.Instantiable`: a declared class can have instances.
* `JvmTaint.ClassTable.Inherits`: the nearest implementation in the superclasses.
* `JvmTaint.ClassTable.Offers`, `JvmTaint.ClassTable.MostSpecific`: implementations in interfaces.
* `JvmTaint.ClassTable.SpecificFirst`: the search comes to no interface before a more specific one.

## Main results

* `JvmTaint.ClassTable.select?_of_inherits`, `JvmTaint.ClassTable.select?_of_mostSpecific`: what a
  class selects.
* `JvmTaint.ClassTable.selected_mem_callees`: the targets of a call.
* `JvmTaint.generalTable_selected_not_mem`: a target that is missing where the search comes to the
  less specific interface first.
-/

namespace JvmTaint

namespace ClassTable

variable {t : ClassTable} {sig : Signature} {cls : String}

/-! ## What a class selects -/

/-- The class is declared, and it is neither abstract nor an interface. -/
def Instantiable (t : ClassTable) (cls : String) : Prop :=
  ∃ d, t.classes[cls]? = some d ∧ d.flags.has .abstract = false ∧ d.flags.has .interface = false

/-- The nearest class with an implementation, among the class and its superclasses. -/
inductive Inherits (t : ClassTable) (sig : Signature) : String → String → Prop
  | here {cls : String} (h : t.implements sig cls = true) : Inherits t sig cls cls
  | up {cls super found : String} (h : t.implements sig cls = false)
    (hsuper : t.superclass? cls = some super) (hfound : Inherits t sig super found) :
    Inherits t sig cls found

/-- The interface is a supertype of the class and has an implementation. -/
def Offers (t : ClassTable) (sig : Signature) (cls i : String) : Prop :=
  Relation.TransGen t.Names cls i ∧ t.isInterface i = true ∧ t.implements sig i = true

/-- The interface offers an implementation, and none of its subinterfaces does. -/
def MostSpecific (t : ClassTable) (sig : Signature) (cls i : String) : Prop :=
  t.Offers sig cls i ∧ ∀ j, t.Offers sig cls j → ¬ Relation.TransGen t.Names j i

/-- Of two interfaces with an implementation, the one that is found first among the supertypes of
the class is not a supertype of the other one. -/
def SpecificFirst (t : ClassTable) (sig : Signature) (cls : String) : Prop :=
  ((t.transitiveSupertypes cls).filter fun i => t.isInterface i && t.implements sig i).Pairwise
    fun i j => i ∉ t.transitiveSupertypes j

/-- A class with an implementation is declared. -/
lemma mem_classes_of_implements (h : t.implements sig cls = true) : cls ∈ t.classes := by
  unfold implements body at h
  split at h
  · rename_i b hb
    split at hb
    · rename_i hcontains
      exact hcontains
    · cases hb
  · cases h

/-- What is found in the superclasses is inherited. -/
lemma inherits_of_find?_chainFrom {fuel : Nat} {found : String}
    (h : (t.chainFrom fuel cls).find? (t.implements sig) = some found) :
    t.Inherits sig cls found := by
  induction fuel generalizing cls with
  | zero => cases h
  | succ fuel ih =>
    by_cases hcls : cls = ""
    · rw [hcls, chainFrom_empty] at h
      cases h
    rw [chainFrom_succ fuel hcls, List.find?_cons] at h
    split at h
    · rename_i himplements
      obtain rfl := Option.some.inj h
      exact .here himplements
    · rename_i himplements
      cases hs : t.superclass? cls with
      | none => simp [hs] at h
      | some s =>
        rw [hs] at h
        exact .up himplements hs (ih h)

/-- **Inheritance.** The search in the superclasses finds what is inherited. -/
lemma find?_superclassChain_eq_some_iff (h : t.Indexed) (hends : t.SuperclassesEnd)
    {found : String} : (t.superclassChain cls).find? (t.implements sig) = some found ↔
      t.Inherits sig cls found := by
  refine ⟨inherits_of_find?_chainFrom, fun hinherits => ?_⟩
  induction hinherits with
  | here himplements =>
    have hne := h.name_ne _ (mem_classes_of_implements himplements)
    rw [superclassChain_eq h hends hne, List.find?_cons_of_pos himplements]
  | up himplements hsuper _ ih =>
    have hne := h.name_ne _ (mem_classes_of_superclass? hsuper)
    rw [superclassChain_eq h hends hne, List.find?_cons_of_neg (by simp [himplements]), hsuper]
    exact ih

/-- A class selects what it inherits. -/
lemma select?_of_inherits (h : t.Indexed) (hends : t.SuperclassesEnd) {found : String}
    (hinherits : t.Inherits sig cls found) : t.select? sig cls = some (sig.inClass found) := by
  unfold select? implementationOrder
  rw [List.find?_append, (find?_superclassChain_eq_some_iff h hends).mpr hinherits]
  rfl

/-- A supertype with an implementation has a name. -/
lemma Offers.ne (h : t.Indexed) {i : String} (hi : t.Offers sig cls i) : i ≠ "" :=
  h.name_ne _ (mem_classes_of_implements hi.2.2)

lemma mem_transitiveSupertypes_iff_transGen (h : t.Indexed) (hacyclic : t.Acyclic) {super : String}
    (hsuper : super ≠ "") :
    super ∈ t.transitiveSupertypes cls ↔ Relation.TransGen t.Names cls super := by
  rw [mem_transitiveSupertypes_iff h hsuper]
  constructor
  · rintro ⟨hne, hreaches⟩
    exact (Relation.reflTransGen_iff_eq_or_transGen.mp hreaches).resolve_left hne
  · intro hreaches
    refine ⟨?_, hreaches.to_reflTransGen⟩
    rintro rfl
    exact hacyclic _ hreaches

/-- The interfaces that offer an implementation are found among the supertypes. -/
lemma mem_filter_transitiveSupertypes_iff (h : t.Indexed) (hacyclic : t.Acyclic) {i : String} :
    i ∈ (t.transitiveSupertypes cls).filter (fun i => t.isInterface i && t.implements sig i) ↔
      t.Offers sig cls i := by
  rw [List.mem_filter, Bool.and_eq_true]
  constructor
  · rintro ⟨hmem, hinterface, himplements⟩
    have hne := h.name_ne _ (mem_classes_of_implements himplements)
    exact ⟨(mem_transitiveSupertypes_iff_transGen h hacyclic hne).mp hmem, hinterface, himplements⟩
  · intro hi
    exact ⟨(mem_transitiveSupertypes_iff_transGen h hacyclic (hi.ne h)).mpr hi.1, hi.2⟩

/-- If only one interface is most specific, all others with an implementation are supertypes of it.

**Proof sketch.** There are finitely many of these interfaces and naming is acyclic, so induction
goes from an interface to its subinterfaces. An interface that is not the most specific one has a
subinterface with an implementation, which is the most specific one or has it as a subtype. -/
lemma transGen_of_mostSpecific (h : t.Indexed) (hacyclic : t.Acyclic) {i : String}
    (hunique : ∀ j, t.MostSpecific sig cls j → j = i) {j : String} (hj : t.Offers sig cls j)
    (hne : j ≠ i) : Relation.TransGen t.Names i j := by
  let offers := (t.transitiveSupertypes cls).filter fun i => t.isInterface i && t.implements sig i
  let Below (j k : { j // j ∈ offers }) : Prop := Relation.TransGen t.Names j k
  have hbelow : WellFounded Below := by
    have : Finite { j // j ∈ offers } := List.finite_toSet offers
    have : IsTrans _ Below := ⟨fun _ _ _ => Relation.TransGen.trans⟩
    have : Std.Irrefl Below := ⟨fun j => hacyclic j⟩
    exact Finite.wellFounded_of_trans_of_irrefl Below
  have hoffers : ∀ {j}, j ∈ offers ↔ t.Offers sig cls j :=
    mem_filter_transitiveSupertypes_iff h hacyclic
  suffices hall : ∀ k : { j // j ∈ offers }, k.1 ≠ i → Relation.TransGen t.Names i k from
    hall ⟨j, hoffers.mpr hj⟩ hne
  intro k
  induction k using hbelow.induction with
  | _ k ih =>
    intro hne
    by_contra hnot
    refine hne (hunique k ⟨hoffers.mp k.2, fun j hj hjk => hnot ?_⟩)
    by_cases hji : j = i
    · exact hji ▸ hjk
    · exact (ih ⟨j, hoffers.mpr hj⟩ hjk hji).trans hjk

/-- A class that inherits nothing selects the most specific implementation of its interfaces. -/
lemma select?_of_mostSpecific (h : t.Indexed) (hacyclic : t.Acyclic)
    (hnone : ∀ found, ¬ t.Inherits sig cls found) {i : String} (hi : t.MostSpecific sig cls i)
    (hunique : ∀ j, t.MostSpecific sig cls j → j = i) (hfirst : t.SpecificFirst sig cls) :
    t.select? sig cls = some (sig.inClass i) := by
  have hchain : (t.superclassChain cls).find? (t.implements sig) = none :=
    Option.eq_none_iff_forall_ne_some.mpr fun found hfound =>
      hnone found (inherits_of_find?_chainFrom hfound)
  have hmem := (mem_filter_transitiveSupertypes_iff h hacyclic).mpr hi.1
  have hhead : ((t.transitiveSupertypes cls).filter
      fun i => t.isInterface i && t.implements sig i).head? = some i := by
    unfold SpecificFirst at hfirst
    cases hoffers : (t.transitiveSupertypes cls).filter
        fun i => t.isInterface i && t.implements sig i with
    | nil =>
      rw [hoffers] at hmem
      cases hmem
    | cons j rest =>
      rw [hoffers] at hmem hfirst
      rcases List.mem_cons.mp hmem with rfl | hmem
      · rfl
      by_cases hji : j = i
      · rw [hji, List.head?_cons]
      have hj : t.Offers sig cls j := by
        rw [← mem_filter_transitiveSupertypes_iff h hacyclic, hoffers]
        exact List.mem_cons_self
      have habove := transGen_of_mostSpecific h hacyclic hunique hj hji
      refine absurd ?_ ((List.pairwise_cons.mp hfirst).1 i hmem)
      exact (mem_transitiveSupertypes_iff_transGen h hacyclic (hj.ne h)).mpr habove
  have hfind : ((t.transitiveSupertypes cls).filter t.isInterface).find? (t.implements sig) =
      some i := by
    rw [← List.head?_filter, List.filter_filter, ← hhead]
    simp only [Bool.and_comm]
  unfold select? implementationOrder
  rw [List.find?_append, hchain, Option.none_or, hfind]
  rfl

/-! ## Targets of calls -/

/-- A dispatched call has the implementations of its receivers as its targets, if there are any. -/
lemma resolve_cases {k : CallKey} (hk : k.kind = .virtual ∨ k.kind = .interface) :
    (t.implementations k.target.signature k.target.cls = [] ∧ t.resolve k = .error ⟨k⟩) ∨
      ∃ dispatch, t.resolve k =
        .ok ⟨(t.implementations k.target.signature k.target.cls).mergeSort MethodRef.le,
          dispatch⟩ := by
  have hperm := List.mergeSort_perm (t.implementations k.target.signature k.target.cls) MethodRef.le
  unfold resolve
  dsimp only
  generalize (t.implementations k.target.signature k.target.cls).mergeSort MethodRef.le = refs
    at hperm ⊢
  match refs with
  | [] => exact .inl ⟨hperm.nil_eq.symm, by rcases hk with hk | hk <;> simp only [hk]⟩
  | [ref] => rcases hk with hk | hk <;> simp only [hk] <;> exact .inr ⟨_, rfl⟩
  | ref :: ref' :: refs => rcases hk with hk | hk <;> simp only [hk] <;> exact .inr ⟨_, rfl⟩

/-- The implementations that receivers use are implementations, each of them once. -/
lemma implementations_spec (t : ClassTable) (sig : Signature) (cls : String) :
    (t.implementations sig cls).Nodup ∧ ∀ ref ∈ t.implementations sig cls,
      ∃ c, ref = sig.inClass c ∧ t.implements sig c = true := by
  have hselect : ∀ c ref, t.select? sig c = some ref →
      ∃ c', ref = sig.inClass c' ∧ t.implements sig c' = true := by
    intro c ref hselect
    obtain ⟨c', hfind, rfl⟩ := Option.map_eq_some_iff.mp hselect
    exact ⟨c', rfl, List.find?_some hfind⟩
  unfold implementations
  split
  · refine ⟨?_, fun ref href => hselect cls ref (Option.mem_toList.mp href)⟩
    cases t.select? sig cls <;> simp
  · refine ⟨nodup_eraseDups _, fun ref href => ?_⟩
    obtain ⟨c, -, hc⟩ := List.mem_filterMap.mp (List.mem_eraseDups.mp href)
    exact hselect c ref hc

/-- An implementation that a possible receiver selects is one of those. -/
lemma mem_implementations_of_select? {ref : MethodRef} {super : String}
    (hcls : cls ∈ t.concreteSubtypes super) (hselect : t.select? sig cls = some ref) :
    ref ∈ t.implementations sig super := by
  have hmem : ref ∈ (t.concreteSubtypes super).filterMap (t.select? sig) :=
    List.mem_filterMap.mpr ⟨cls, hcls, hselect⟩
  unfold implementations
  split
  · rename_i hnil
    rw [hnil] at hmem
    cases hmem
  · exact List.mem_eraseDups.mpr hmem

/-- A class that can have instances is one of the possible receivers of a call to its
supertypes. -/
lemma mem_concreteSubtypes (h : t.Indexed) {super : String} (hcls : t.Instantiable cls)
    (hsuper : Relation.ReflTransGen t.Names cls super) : cls ∈ t.concreteSubtypes super := by
  obtain ⟨d, hd, habstract, hinterface⟩ := hcls
  have hne := h.name_ne cls (mem_classes_of_getElem? hd)
  have hroot : d.super = "" → cls = javaLangObject := fun hsuper =>
    (h.super_ne cls d hd hsuper).resolve_right (by simp [hinterface])
  have hconcrete : t.isConcrete cls = true := by
    unfold isConcrete typeEntry?
    rw [hd]
    simp only [habstract, hinterface, Bool.not_false, Bool.and_true, Bool.and_eq_true,
      Bool.or_eq_true, bne_iff_ne, beq_iff_eq]
    exact ⟨hne, (em (d.super = "")).symm.imp id hroot⟩
  unfold concreteSubtypes
  refine List.mem_mergeSort.mpr (List.mem_filter.mpr ⟨List.mem_cons.mpr ?_, hconcrete⟩)
  by_cases heq : cls = super
  · exact .inl heq
  · exact .inr ((mem_transitiveSubtypes_iff h).mpr ⟨heq, hsuper⟩)

/-- **Selection.** The method that the class of a possible receiver selects is a target of the call:
the nearest one in the superclasses, or else the only most specific one of the interfaces, if the
search through the supertypes comes to no interface before a more specific one. The targets are
strictly sorted, and all of them are implementations. -/
theorem selected_mem_callees {program : Program} (ht : ClassTable.ofProgram program = .ok t)
    (hacyclic : t.Acyclic) {k : CallKey} (hk : k.kind = .virtual ∨ k.kind = .interface) :
    (∀ cls, t.Instantiable cls → Relation.ReflTransGen t.Names cls k.target.cls →
      (∀ found, t.Inherits k.target.signature cls found →
        ∃ r, t.resolve k = .ok r ∧ k.target.signature.inClass found ∈ r.callees) ∧
      ((∀ found, ¬ t.Inherits k.target.signature cls found) →
        t.SpecificFirst k.target.signature cls →
        ∀ i, t.MostSpecific k.target.signature cls i →
          (∀ j, t.MostSpecific k.target.signature cls j → j = i) →
          ∃ r, t.resolve k = .ok r ∧ k.target.signature.inClass i ∈ r.callees)) ∧
    ∀ r, t.resolve k = .ok r → r.callees.Pairwise (fun m o => m.lt o = true) ∧
      ∀ ref ∈ r.callees, ∃ b, t.body ref = .ok b ∧ b.modifiers.has .abstract = false := by
  have hindexed := indexed_of_ofProgram ht
  have hcallee : ∀ cls ref, t.Instantiable cls →
      Relation.ReflTransGen t.Names cls k.target.cls →
      t.select? k.target.signature cls = some ref →
      ∃ r, t.resolve k = .ok r ∧ ref ∈ r.callees := by
    intro cls ref hcls hsuper hselect
    have hmem := mem_implementations_of_select? (mem_concreteSubtypes hindexed hcls hsuper) hselect
    rcases t.resolve_cases hk with ⟨hnil, -⟩ | ⟨dispatch, hresolve⟩
    · rw [hnil] at hmem
      cases hmem
    · exact ⟨_, hresolve, List.mem_mergeSort.mpr hmem⟩
  refine ⟨fun cls hcls hsuper => ⟨fun found hfound => ?_, fun hnone hfirst i hi hunique => ?_⟩,
    fun r hr => ?_⟩
  · exact hcallee cls _ hcls hsuper
      (select?_of_inherits hindexed hacyclic.superclassesEnd hfound)
  · exact hcallee cls _ hcls hsuper
      (select?_of_mostSpecific hindexed hacyclic hnone hi hunique hfirst)
  · obtain ⟨hnodup, himplements⟩ := t.implementations_spec k.target.signature k.target.cls
    rcases t.resolve_cases hk with ⟨-, herror⟩ | ⟨dispatch, hresolve⟩
    · rw [herror] at hr
      cases hr
    · rw [hresolve] at hr
      obtain rfl := Except.ok.inj hr
      refine ⟨MethodRef.pairwise_lt_mergeSort_le hnodup, fun ref href => ?_⟩
      obtain ⟨c, rfl, hc⟩ := himplements ref (List.mem_mergeSort.mp href)
      unfold implements at hc
      split at hc
      · rename_i b hb
        exact ⟨b, hb, by simpa using hc⟩
      · cases hc

end ClassTable

/-! ## Two interfaces -/

namespace ClassTable

variable {t : ClassTable} {sig : Signature} {cls : String}

/-- A hierarchy is acyclic if the declared classes rank above what they name. -/
lemma acyclic_of_rank (h : t.Indexed) (rank : String → Nat)
    (hrank : (t.order.all fun c => (t.directSupertypes c).all fun s => decide (rank s < rank c)) =
      true) : t.Acyclic := by
  have hstep : ∀ c s, t.Names c s → rank s < rank c := by
    intro c s hs
    have hmem := h.mem_order_of_directSupertypes hs.2
    simpa using List.all_eq_true.mp (List.all_eq_true.mp hrank c hmem) s hs.2
  have hway : ∀ c s, Relation.TransGen t.Names c s → rank s < rank c := by
    intro c s hreaches
    induction hreaches with
    | single hs => exact hstep _ _ hs
    | tail _ hs ih => exact Nat.lt_trans (hstep _ _ hs) ih
  exact fun c hcycle => Nat.lt_irrefl _ (hway c c hcycle)

/-- The most specific interfaces can be found among the supertypes. -/
lemma mostSpecific_iff (h : t.Indexed) (hacyclic : t.Acyclic) {i : String} :
    t.MostSpecific sig cls i ↔
      i ∈ ((t.transitiveSupertypes cls).filter fun i => t.isInterface i && t.implements sig i) ∧
      ∀ j ∈ (t.transitiveSupertypes cls).filter fun i => t.isInterface i && t.implements sig i,
        i ∉ t.transitiveSupertypes j := by
  unfold MostSpecific
  simp only [mem_filter_transitiveSupertypes_iff h hacyclic]
  refine and_congr_right fun hi => forall_congr' fun j => imp_congr_right fun _ => not_congr ?_
  exact (mem_transitiveSupertypes_iff_transGen h hacyclic (hi.ne h)).symm

end ClassTable

/-- The method of the interfaces below. -/
def printMethod : MethodDecl where
  name := "print"
  descriptor := "()V"
  code := some [{ pc := 0, op := ⟨177⟩ }]

/-- The signature of the method. -/
def printSignature : Signature := ⟨"print", "()V"⟩

/-- An interface with this method. -/
def printing (name : String) (interfaces : List String) : ClassDecl where
  name
  interfaces
  flags := AccessFlags.empty.insert .interface
  methods := [some printMethod]

/-- A class that implements interfaces. -/
def document (interfaces : List String) : ClassDecl where
  name := "Doc"
  super := "Text"
  interfaces

/-- A program with an interface, a subinterface that has the same method, and a class that
implements both. -/
def diamondProgram (interfaces : List String) : Program where
  classes := some [some (printing "Show" []), some (printing "Pretty" ["Show"]),
    some (document interfaces)]

/-- The class table of the program, with an index of the subtypes. -/
def diamondTable (interfaces : List String) (subtypes : List (String × List String)) :
    ClassTable where
  classes := (((∅ : Std.HashMap String ClassDecl).insert "Show" (printing "Show" [])).insert
    "Pretty" (printing "Pretty" ["Show"])).insert "Doc" (document interfaces)
  order := ["Show", "Pretty", "Doc"]
  bodies := ((∅ : Std.HashMap MethodRef MethodBody).insert (printSignature.inClass "Show")
    (ClassTable.bodyOf (printing "Show" []) printMethod)).insert (printSignature.inClass "Pretty")
    (ClassTable.bodyOf (printing "Pretty" ["Show"]) printMethod)
  subtypes := subtypes.foldl (fun index e => index.insert e.1 e.2) ∅

/-- The table in which the class names the subinterface first. -/
def specificTable : ClassTable := diamondTable ["Pretty", "Show"]
  [("Show", ["Pretty"]), ("Text", ["Doc"]), ("Pretty", ["Doc"]), ("Show", ["Doc", "Pretty"])]

/-- The table in which the class names the subinterface last. -/
def generalTable : ClassTable := diamondTable ["Show", "Pretty"]
  [("Show", ["Pretty"]), ("Text", ["Doc"]), ("Show", ["Doc", "Pretty"]), ("Pretty", ["Doc"])]

lemma ofProgram_specificTable :
    ClassTable.ofProgram (diamondProgram ["Pretty", "Show"]) = .ok specificTable := by cbv

lemma ofProgram_generalTable :
    ClassTable.ofProgram (diamondProgram ["Show", "Pretty"]) = .ok generalTable := by cbv

/-- The rank of the classes of the program. -/
def diamondRank (cls : String) : Nat :=
  if cls = "Doc" then 3 else if cls = "Pretty" then 2 else if cls = "Show" then 1 else 0

lemma specificTable_acyclic : specificTable.Acyclic :=
  ClassTable.acyclic_of_rank (ClassTable.indexed_of_ofProgram ofProgram_specificTable) diamondRank
    (by cbv)

lemma generalTable_acyclic : generalTable.Acyclic :=
  ClassTable.acyclic_of_rank (ClassTable.indexed_of_ofProgram ofProgram_generalTable) diamondRank
    (by cbv)

/-- The class is declared and inherits nothing, and its interfaces are found in this order. -/
structure IsDiamond (t : ClassTable) (interfaces : List String) : Prop where
  indexed : t.Indexed
  acyclic : t.Acyclic
  instantiable : t.Instantiable "Doc"
  inherited : (t.superclassChain "Doc").find? (t.implements printSignature) = none
  offers : ((t.transitiveSupertypes "Doc").filter fun i =>
    t.isInterface i && t.implements printSignature i) = interfaces
  supertypes : ["Show", "Pretty"].map t.transitiveSupertypes = [[], ["Show"]]

lemma specificTable_isDiamond : IsDiamond specificTable ["Pretty", "Show"] where
  indexed := ClassTable.indexed_of_ofProgram ofProgram_specificTable
  acyclic := specificTable_acyclic
  instantiable := ⟨document ["Pretty", "Show"], by cbv, by decide, by decide⟩
  inherited := by cbv
  offers := by cbv
  supertypes := by cbv

lemma generalTable_isDiamond : IsDiamond generalTable ["Show", "Pretty"] where
  indexed := ClassTable.indexed_of_ofProgram ofProgram_generalTable
  acyclic := generalTable_acyclic
  instantiable := ⟨document ["Show", "Pretty"], by cbv, by decide, by decide⟩
  inherited := by cbv
  offers := by cbv
  supertypes := by cbv

namespace IsDiamond

variable {t : ClassTable} {interfaces : List String} (h : IsDiamond t interfaces)

include h

lemma not_inherits (found : String) : ¬ t.Inherits printSignature "Doc" found := by
  rw [← ClassTable.find?_superclassChain_eq_some_iff h.indexed h.acyclic.superclassesEnd,
    h.inherited]
  exact nofun

/-- The subinterface is the most specific one, in whatever order the class names both. -/
lemma mostSpecific_iff (hinterfaces : ∀ i, i ∈ interfaces ↔ i = "Show" ∨ i = "Pretty")
    (i : String) : t.MostSpecific printSignature "Doc" i ↔ i = "Pretty" := by
  have hsupertypes := h.supertypes
  simp only [List.map_cons, List.map_nil, List.cons.injEq, and_true] at hsupertypes
  rw [ClassTable.mostSpecific_iff h.indexed h.acyclic, h.offers, hinterfaces]
  constructor
  · rintro ⟨rfl | rfl, hall⟩
    · have := hall "Pretty" ((hinterfaces _).mpr (.inr rfl))
      simp [hsupertypes.2] at this
    · rfl
  · rintro rfl
    refine ⟨.inr rfl, fun j hj => ?_⟩
    rcases (hinterfaces j).mp hj with rfl | rfl
    · simp [hsupertypes.1]
    · simp [hsupertypes.2]

end IsDiamond

/-- A call of the method on a class. -/
def printCall (kind : InvokeKind) (cls : String) : CallKey := ⟨kind, printSignature.inClass cls⟩

lemma directSupertypes_specificTable :
    specificTable.directSupertypes "Doc" = ["Text", "Pretty", "Show"] := by cbv

/-- If the class names the subinterface first, a call to the other interface has the method of the
subinterface as a target. -/
theorem specificTable_selected_mem_callees :
    ClassTable.ofProgram (diamondProgram ["Pretty", "Show"]) = .ok specificTable ∧
    specificTable.Acyclic ∧ specificTable.Instantiable "Doc" ∧
    Relation.ReflTransGen specificTable.Names "Doc" "Show" ∧
    (∀ found, ¬ specificTable.Inherits printSignature "Doc" found) ∧
    (∀ i, specificTable.MostSpecific printSignature "Doc" i ↔ i = "Pretty") ∧
    ∃ r, specificTable.resolve (printCall .interface "Show") = .ok r ∧
      printSignature.inClass "Pretty" ∈ r.callees := by
  have h := specificTable_isDiamond
  have hmost := h.mostSpecific_iff (by simp [or_comm])
  have hnames : Relation.ReflTransGen specificTable.Names "Doc" "Show" :=
    .single ⟨by decide, by simp [directSupertypes_specificTable]⟩
  have hfirst : specificTable.SpecificFirst printSignature "Doc" := by
    have hsupertypes := h.supertypes
    simp only [List.map_cons, List.map_nil, List.cons.injEq, and_true] at hsupertypes
    rw [ClassTable.SpecificFirst, h.offers]
    simp [hsupertypes.1]
  refine ⟨ofProgram_specificTable, h.acyclic, h.instantiable, hnames, h.not_inherits, hmost, ?_⟩
  exact ((ClassTable.selected_mem_callees ofProgram_specificTable h.acyclic
    (k := printCall .interface "Show") (.inr rfl)).1 "Doc" h.instantiable hnames).2
    h.not_inherits hfirst "Pretty" ((hmost _).mpr rfl) fun j hj => (hmost j).mp hj

lemma resolve_generalTable : generalTable.resolve (printCall .virtual "Doc") =
    .ok ⟨[printSignature.inClass "Show"], .exact⟩ := by cbv

/-- If the class names the subinterface last, a call to the class has the method of the other
interface as its only target, although the one of the subinterface is the most specific one. -/
theorem generalTable_selected_not_mem : ∃ r,
    ClassTable.ofProgram (diamondProgram ["Show", "Pretty"]) = .ok generalTable ∧
    generalTable.Acyclic ∧ generalTable.Instantiable "Doc" ∧
    Relation.ReflTransGen generalTable.Names "Doc" "Doc" ∧
    (∀ found, ¬ generalTable.Inherits printSignature "Doc" found) ∧
    (∀ i, generalTable.MostSpecific printSignature "Doc" i ↔ i = "Pretty") ∧
    generalTable.resolve (printCall .virtual "Doc") = .ok r ∧
    printSignature.inClass "Pretty" ∉ r.callees := by
  have h := generalTable_isDiamond
  exact ⟨_, ofProgram_generalTable, h.acyclic, h.instantiable, .refl, h.not_inherits,
    h.mostSpecific_iff (by simp), resolve_generalTable, by decide⟩

end JvmTaint
