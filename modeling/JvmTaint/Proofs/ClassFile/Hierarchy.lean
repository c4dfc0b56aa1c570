import JvmTaint.ClassFile.Hierarchy
import JvmTaint.Proofs.Graph.Closure
import JvmTaint.Proofs.Lowering.Assignments

set_option autoImplicit false
set_option relaxedAutoImplicit false

/-!
# The type hierarchy of a program

A class names its superclass and its interfaces. The table of a program has all classes with what
they name, and an index of the direct subtypes, so that the transitive supertypes and subtypes of a
class are those that can be reached by naming. If no class is its own superclass, the chain of
superclasses goes up to the last one that is named.

## Main definitions

* `JvmTaint.ClassTable.Indexed`: the parts of a table agree.
* `JvmTaint.ClassTable.superclass?`, `JvmTaint.ClassTable.Names`: what a class names.
* `JvmTaint.ClassTable.SuperclassesEnd`, `JvmTaint.ClassTable.Acyclic`: no class is its own
  superclass, or its own supertype.

## Main results

* `JvmTaint.ClassTable.indexed_of_ofProgram`: the table of a program is indexed.
* `JvmTaint.ClassTable.superclassChain_eq`: a class in front of the chain of its superclass.
* `JvmTaint.ClassTable.mem_transitiveSupertypes_iff`,
  `JvmTaint.ClassTable.mem_transitiveSubtypes_iff`: the transitive supertypes and subtypes of a
  class.
-/

namespace JvmTaint

namespace ClassTable

/-! ## What classes name -/

/-- The superclass that a declared class names. -/
def superclass? (t : ClassTable) (cls : String) : Option String :=
  (t.classes[cls]?).bind fun d => if d.super = "" then none else some d.super

/-- A class names another one as its superclass or as an interface. -/
def Names (t : ClassTable) (cls super : String) : Prop :=
  super ≠ "" ∧ super ∈ t.directSupertypes cls

/-- No class comes to itself on the way up through its superclasses. -/
def SuperclassesEnd (t : ClassTable) : Prop :=
  ∀ cls, ¬ Relation.TransGen (fun c s => t.superclass? c = some s) cls cls

/-- No class comes to itself on the way up through its supertypes. -/
def Acyclic (t : ClassTable) : Prop := ∀ cls, ¬ Relation.TransGen t.Names cls cls

variable {t : ClassTable} {cls super : String}

lemma superclass?_eq_some_iff : t.superclass? cls = some super ↔
    super ≠ "" ∧ ∃ d, t.classes[cls]? = some d ∧ d.super = super := by
  unfold superclass?
  rw [Option.bind_eq_some_iff]
  constructor
  · rintro ⟨d, hd, heq⟩
    split at heq
    · cases heq
    · rename_i hne
      cases heq
      exact ⟨hne, d, hd, rfl⟩
  · rintro ⟨hne, d, hd, rfl⟩
    exact ⟨d, hd, if_neg hne⟩

lemma mem_classes_of_getElem? {d : ClassDecl} (h : t.classes[cls]? = some d) : cls ∈ t.classes :=
  Std.HashMap.mem_iff_isSome_getElem?.mpr (by simp [h])

lemma mem_classes_of_superclass? (h : t.superclass? cls = some super) : cls ∈ t.classes := by
  obtain ⟨-, d, hd, -⟩ := superclass?_eq_some_iff.mp h
  exact mem_classes_of_getElem? hd

/-- What a class that is not declared is known by says nothing about its supertypes. -/
lemma directSupertypes_eq : t.directSupertypes cls = match t.classes[cls]? with
    | some d => (if d.super = "" then [] else [d.super]) ++ d.interfaces
    | none => [] := by
  unfold directSupertypes typeEntry?
  cases t.classes[cls]? with
  | some d => rfl
  | none =>
    cases t.directSubtypes cls with
    | nil => rfl
    | cons s subs => rfl

lemma names_iff : t.Names cls super ↔
    super ≠ "" ∧ ∃ d, t.classes[cls]? = some d ∧ super ∈ d.super :: d.interfaces := by
  unfold Names
  rw [directSupertypes_eq]
  cases t.classes[cls]? with
  | none => simp
  | some d =>
    by_cases hd : d.super = ""
    · by_cases hsuper : super = "" <;> simp [hd, hsuper]
    · simp [hd]

/-- A class names its superclass. -/
lemma names_of_superclass? (h : t.superclass? cls = some super) : t.Names cls super := by
  obtain ⟨hne, d, hd, rfl⟩ := superclass?_eq_some_iff.mp h
  exact names_iff.mpr ⟨hne, d, hd, List.mem_cons_self⟩

lemma Acyclic.superclassesEnd (h : t.Acyclic) : t.SuperclassesEnd :=
  fun cls hcls => h cls (Relation.TransGen.mono (fun _ _ => names_of_superclass?) _ _ hcls)

/-! ## Tables of programs -/

/-- The parts of a table agree with its classes. -/
structure Indexed (t : ClassTable) : Prop where
  mem_order_iff : ∀ cls, cls ∈ t.order ↔ cls ∈ t.classes
  name_ne : ∀ cls ∈ t.classes, cls ≠ ""
  /-- Every class but the root and interfaces has a superclass. -/
  super_ne : ∀ cls d, t.classes[cls]? = some d → d.super = "" →
    cls = javaLangObject ∨ d.flags.has .interface = true
  mem_directSubtypes_iff : ∀ cls super, cls ∈ t.directSubtypes super ↔ t.Names cls super

lemma mem_insertName {name n : String} {names : List String} :
    n ∈ insertName name names ↔ n = name ∨ n ∈ names := by
  induction names with
  | nil => simp [insertName]
  | cons m names ih =>
    unfold insertName
    split
    · simp
    · rw [List.mem_cons, ih, List.mem_cons]
      tauto

section AddSubtype

variable (name : String) (supers : List String) (t : ClassTable)

lemma classes_foldl_addSubtype : (supers.foldl (addSubtype name) t).classes = t.classes := by
  induction supers generalizing t with
  | nil => rfl
  | cons s supers ih =>
    rw [List.foldl_cons, ih, addSubtype]
    split <;> rfl

lemma order_foldl_addSubtype : (supers.foldl (addSubtype name) t).order = t.order := by
  induction supers generalizing t with
  | nil => rfl
  | cons s supers ih =>
    rw [List.foldl_cons, ih, addSubtype]
    split <;> rfl

lemma mem_directSubtypes_addSubtype (s cls super : String) :
    cls ∈ (addSubtype name t s).directSubtypes super ↔
      cls ∈ t.directSubtypes super ∨ cls = name ∧ super = s ∧ super ≠ "" := by
  unfold addSubtype
  split
  · rename_i hs
    simp +contextual [hs]
  · rename_i hs
    unfold directSubtypes
    rw [Std.HashMap.getD_insert]
    by_cases heq : s = super
    · subst heq
      rw [if_pos (beq_self_eq_true s), mem_insertName]
      simp only [hs, ne_eq, not_false_eq_true, and_true]
      exact or_comm
    · rw [if_neg (by simpa using heq)]
      simp [Ne.symm heq]

lemma mem_directSubtypes_foldl_addSubtype (cls super : String) :
    cls ∈ (supers.foldl (addSubtype name) t).directSubtypes super ↔
      cls ∈ t.directSubtypes super ∨ cls = name ∧ super ∈ supers ∧ super ≠ "" := by
  induction supers generalizing t with
  | nil => simp
  | cons s supers ih =>
    rw [List.foldl_cons, ih, mem_directSubtypes_addSubtype, List.mem_cons]
    tauto

end AddSubtype

/-- Only the classes, their order and the index of subtypes matter. -/
lemma Indexed.of_eq {t' : ClassTable} (h : t.Indexed) (hclasses : t'.classes = t.classes)
    (horder : t'.order = t.order) (hsubtypes : t'.subtypes = t.subtypes) : t'.Indexed := by
  obtain ⟨classes', order', bodies', subtypes'⟩ := t'
  obtain ⟨classes, order, bodies, subtypes⟩ := t
  subst hclasses horder hsubtypes
  refine ⟨h.mem_order_iff, h.name_ne, h.super_ne, fun cls super => ?_⟩
  refine (h.mem_directSubtypes_iff cls super).trans ?_
  rw [names_iff, names_iff]

lemma Indexed.addMethod (h : t.Indexed) (c : ClassDecl) (m : Option MethodDecl) :
    Ensures (ClassTable.addMethod c t m) Indexed := by
  unfold ClassTable.addMethod
  split
  · exact ensures_error
  · dsimp only
    split
    · exact ensures_error
    · split
      · exact ensures_error
      · exact ensures_ok (h.of_eq rfl rfl rfl)

/-- Adding a class keeps a table indexed.

**Proof sketch.** The class is a new one, so what the other classes name stays the same, and the
index gets the new class for everything that it names. -/
lemma Indexed.addClass (h : t.Indexed) (c : Option ClassDecl) :
    Ensures (ClassTable.addClass t c) Indexed := by
  unfold ClassTable.addClass
  split
  · exact ensures_error
  rename_i c
  split
  · exact ensures_error
  rename_i hname
  split
  · exact ensures_error
  rename_i hnew
  refine ensures_foldlM (fun t m ht => ht.addMethod _ m) _ ?_
  have hnew' : c.name ∉ t.classes := by simpa using hnew
  refine ⟨fun cls => ?_, fun cls hcls => ?_, fun cls d hd hsuper => ?_, fun cls super => ?_⟩
  · rw [order_foldl_addSubtype, classes_foldl_addSubtype, List.mem_append, List.mem_singleton,
      Std.HashMap.mem_insert, h.mem_order_iff, beq_iff_eq]
    tauto
  · rw [classes_foldl_addSubtype, Std.HashMap.mem_insert, beq_iff_eq] at hcls
    rcases hcls with rfl | hcls
    · exact hname
    · exact h.name_ne cls hcls
  · rw [classes_foldl_addSubtype, Std.HashMap.getElem?_insert] at hd
    split at hd
    · rename_i heq
      obtain rfl := beq_iff_eq.mp heq
      obtain rfl := Option.some.inj hd
      change superclassOf c = "" at hsuper
      unfold superclassOf at hsuper
      split at hsuper
      · exact absurd hsuper (by decide)
      · rename_i hc
        by_contra hneither
        rw [not_or] at hneither
        exact hc ⟨hsuper, hneither.1, by simpa using hneither.2⟩
    · exact h.super_ne cls d hd hsuper
  · rw [mem_directSubtypes_foldl_addSubtype, names_iff, classes_foldl_addSubtype,
      Std.HashMap.getElem?_insert]
    have hold := h.mem_directSubtypes_iff cls super
    rw [names_iff] at hold
    by_cases heq : c.name = cls
    · subst heq
      have hnone : t.classes[c.name]? = none := Std.HashMap.getElem?_eq_none hnew'
      rw [hnone] at hold
      simp only [beq_self_eq_true, if_true]
      refine (or_congr_left hold).trans ?_
      simp [and_comm]
    · rw [if_neg (by simpa using heq)]
      refine (or_congr_left hold).trans ?_
      simp [Ne.symm heq]

/-- **Tables.** The table of a program is indexed. -/
lemma indexed_of_ofProgram {program : Program} (h : ClassTable.ofProgram program = .ok t) :
    t.Indexed := by
  have hempty : ClassTable.empty.Indexed := by
    refine ⟨?_, ?_, ?_, fun cls super => ?_⟩
    · simp [ClassTable.empty]
    · simp [ClassTable.empty]
    · simp [ClassTable.empty]
    · rw [names_iff]
      simp [ClassTable.empty, directSubtypes]
  exact ensures_foldlM (fun t c ht => ht.addClass c) _ hempty t h

/-! ## Chains of superclasses -/

lemma chainFrom_empty (fuel : Nat) : t.chainFrom fuel "" = [] := by
  cases fuel <;> rfl

lemma chainFrom_succ (fuel : Nat) (hcls : cls ≠ "") : t.chainFrom (fuel + 1) cls =
    cls :: ((t.superclass? cls).map (t.chainFrom fuel)).getD [] := by
  rw [chainFrom, if_neg hcls]
  unfold typeEntry? superclass?
  cases t.classes[cls]? with
  | some d =>
    by_cases hd : d.super = ""
    · simp [hd, chainFrom_empty]
    · simp [hd]
  | none =>
    cases t.directSubtypes cls with
    | nil => rfl
    | cons s subs => simp [chainFrom_empty]

/-- The classes of a chain are superclasses of its first one. -/
lemma reaches_of_mem_chainFrom {fuel : Nat} (h : super ∈ t.chainFrom fuel cls) :
    Relation.ReflTransGen (fun c s => t.superclass? c = some s) cls super := by
  induction fuel generalizing cls with
  | zero => cases h
  | succ fuel ih =>
    by_cases hcls : cls = ""
    · rw [hcls, chainFrom_empty] at h
      cases h
    rw [chainFrom_succ fuel hcls] at h
    rcases List.mem_cons.mp h with rfl | h
    · exact .refl
    · cases hs : t.superclass? cls with
      | none => simp [hs] at h
      | some s =>
        rw [hs] at h
        exact (ih h).head hs

/-- A chain goes up. -/
lemma pairwise_chainFrom (fuel : Nat) (cls : String) : (t.chainFrom fuel cls).Pairwise
    (Relation.TransGen fun c s => t.superclass? c = some s) := by
  induction fuel generalizing cls with
  | zero => exact .nil
  | succ fuel ih =>
    by_cases hcls : cls = ""
    · rw [hcls, chainFrom_empty]
      exact .nil
    rw [chainFrom_succ fuel hcls]
    cases hs : t.superclass? cls with
    | none => exact List.pairwise_singleton _ _
    | some s =>
      exact .cons (fun x hx => Relation.TransGen.head' hs (reaches_of_mem_chainFrom hx)) (ih s)

/-- All classes of a chain but the last one name a superclass. -/
lemma mem_order_of_mem_dropLast (h : t.Indexed) {fuel : Nat}
    (hsuper : super ∈ (t.chainFrom fuel cls).dropLast) : super ∈ t.order := by
  induction fuel generalizing cls with
  | zero => cases hsuper
  | succ fuel ih =>
    by_cases hcls : cls = ""
    · rw [hcls, chainFrom_empty] at hsuper
      cases hsuper
    rw [chainFrom_succ fuel hcls] at hsuper
    cases hs : t.superclass? cls with
    | none => simp [hs] at hsuper
    | some s =>
      rw [hs, Option.map_some, Option.getD_some] at hsuper
      cases hchain : t.chainFrom fuel s with
      | nil => simp [hchain] at hsuper
      | cons x xs =>
        rw [hchain, List.dropLast_cons_cons, ← hchain] at hsuper
        rcases List.mem_cons.mp hsuper with rfl | hsuper
        · exact (h.mem_order_iff _).mpr (mem_classes_of_superclass? hs)
        · exact ih hsuper

/-- A chain has at most one class that is not declared. -/
lemma length_chainFrom_le (h : t.Indexed) (hends : t.SuperclassesEnd) (fuel : Nat) (cls : String) :
    (t.chainFrom fuel cls).length ≤ t.order.length + 1 := by
  have hnodup : (t.chainFrom fuel cls).Nodup := (pairwise_chainFrom fuel cls).imp fun hreaches => by
    rintro rfl
    exact hends _ hreaches
  have hle := (List.subperm_of_subset (hnodup.sublist (List.dropLast_sublist _))
    fun _ hx => mem_order_of_mem_dropLast h hx).length_le
  rw [List.length_dropLast] at hle
  omega

/-- A chain that is shorter than its fuel does not need more. -/
lemma chainFrom_succ_of_length_lt {fuel : Nat} (h : (t.chainFrom fuel cls).length < fuel) :
    t.chainFrom (fuel + 1) cls = t.chainFrom fuel cls := by
  induction fuel generalizing cls with
  | zero => cases h
  | succ fuel ih =>
    by_cases hcls : cls = ""
    · rw [hcls, chainFrom_empty, chainFrom_empty]
    rw [chainFrom_succ fuel hcls] at h ⊢
    rw [chainFrom_succ (fuel + 1) hcls]
    cases hs : t.superclass? cls with
    | none => rfl
    | some s =>
      rw [hs, Option.map_some, Option.getD_some, List.length_cons] at h
      rw [Option.map_some, Option.getD_some, Option.map_some, Option.getD_some, ih (by omega)]

/-- **Chains of superclasses.** The chain of a class is the class and the chain of its
superclass. -/
lemma superclassChain_eq (h : t.Indexed) (hends : t.SuperclassesEnd) (hcls : cls ≠ "") :
    t.superclassChain cls = cls :: ((t.superclass? cls).map t.superclassChain).getD [] := by
  have hlength := length_chainFrom_le h hends (t.order.length + 2) cls
  unfold superclassChain
  rw [← chainFrom_succ_of_length_lt (by omega), chainFrom_succ _ hcls]

/-! ## Supertypes and subtypes -/

/-- The bound of a search exceeds the number of names. -/
lemma nameBound_eq (t : ClassTable) : t.nameBound =
    2 * t.order.length + (t.order.flatMap t.directSupertypes).length + 1 := by
  have hsum : ∀ names : List String, sumOf (names.map fun n => 2 + (t.directSupertypes n).length) =
      2 * names.length + (names.flatMap t.directSupertypes).length := by
    intro names
    induction names with
    | nil => rfl
    | cons n names ih =>
      rw [List.map_cons, sumOf, ih, List.flatMap_cons, List.length_append, List.length_cons]
      omega
  rw [nameBound, hsum]

/-- A class that names another one is declared. -/
lemma Indexed.mem_order_of_directSupertypes (h : t.Indexed)
    (hsuper : super ∈ t.directSupertypes cls) : cls ∈ t.order := by
  rw [directSupertypes_eq] at hsuper
  cases hd : t.classes[cls]? with
  | none => simp [hd] at hsuper
  | some d => exact (h.mem_order_iff cls).mpr (mem_classes_of_getElem? hd)

/-- The classes named by a class whose name is not empty, or reached from it, have names. -/
lemma reflTransGen_names_iff (h : t.Indexed) (hsuper : super ≠ "") :
    Relation.ReflTransGen (fun a b => b ∈ t.directSupertypes a) cls super ↔
      Relation.ReflTransGen t.Names cls super := by
  refine ⟨fun hreaches => ?_, Relation.ReflTransGen.mono (fun _ _ hnames => And.right hnames) _ _⟩
  induction hreaches with
  | refl => exact .refl
  | tail _ hstep ih =>
    have hdeclared := (h.mem_order_iff _).mp (h.mem_order_of_directSupertypes hstep)
    exact (ih (h.name_ne _ hdeclared)).tail ⟨hsuper, hstep⟩

/-- The bound of a search is enough for a class and all that are named. -/
lemma Indexed.exists_supertypes_bound (h : t.Indexed) (cls : String) :
    ∃ all : List String, cls ∈ all ∧ (∀ c, ∀ s ∈ t.directSupertypes c, s ∈ all) ∧
      all.length ≤ t.nameBound := by
  refine ⟨cls :: t.order.flatMap t.directSupertypes, List.mem_cons_self, fun c s hs => ?_, ?_⟩
  · exact List.mem_cons_of_mem _
      (List.mem_flatMap.mpr ⟨c, h.mem_order_of_directSupertypes hs, hs⟩)
  · rw [nameBound_eq, List.length_cons]
    omega

/-- The bound of a search is enough for a class and all that name one. -/
lemma Indexed.exists_subtypes_bound (h : t.Indexed) (cls : String) :
    ∃ all : List String, cls ∈ all ∧ (∀ c, ∀ s ∈ t.directSubtypes c, s ∈ all) ∧
      all.length ≤ t.nameBound := by
  refine ⟨cls :: t.order, List.mem_cons_self, fun s c hc => ?_, ?_⟩
  · exact List.mem_cons_of_mem _
      (h.mem_order_of_directSupertypes ((h.mem_directSubtypes_iff c s).mp hc).2)
  · rw [nameBound_eq, List.length_cons]
    omega

/-- **Supertypes.** The transitive supertypes of a class are the other ones that it comes to by
naming. -/
lemma mem_transitiveSupertypes_iff (h : t.Indexed) (hsuper : super ≠ "") :
    super ∈ t.transitiveSupertypes cls ↔
      super ≠ cls ∧ Relation.ReflTransGen t.Names cls super := by
  obtain ⟨all, hcls, hnext, hfuel⟩ := h.exists_supertypes_bound cls
  rw [← reflTransGen_names_iff h hsuper]
  exact mem_drop_closure_iff all hnext hcls hfuel

/-- **Subtypes.** The transitive subtypes of a class are the other ones that come to it by
naming. -/
lemma mem_transitiveSubtypes_iff (h : t.Indexed) :
    cls ∈ t.transitiveSubtypes super ↔ cls ≠ super ∧ Relation.ReflTransGen t.Names cls super := by
  have hswap : (fun a b => b ∈ t.directSubtypes a) = Function.swap t.Names := by
    funext a b
    exact propext (h.mem_directSubtypes_iff b a)
  obtain ⟨all, hsuper, hnext, hfuel⟩ := h.exists_subtypes_bound super
  rw [transitiveSubtypes, List.mem_mergeSort, ← Relation.reflTransGen_swap, ← hswap]
  exact mem_drop_closure_iff all hnext hsuper hfuel

end ClassTable

end JvmTaint
