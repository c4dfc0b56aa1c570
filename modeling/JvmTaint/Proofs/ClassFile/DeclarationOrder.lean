import JvmTaint.Proofs.ClassFile.Hierarchy
import JvmTaint.Proofs.Lists
import Mathlib.Data.List.Flatten
import Mathlib.Data.List.Forall2
import Mathlib.Logic.Function.Iterate

set_option autoImplicit false
set_option relaxedAutoImplicit false

/-!
# The order of declarations

A table is made by adding classes and their methods one after another, and adding one may fail.
Whether all can be added, and what the table then says, does not depend on their order: any two
declarations can change places. The names of the classes are kept in their order, but they are
sorted before they are given out.

## Main definitions

* `JvmTaint.SameOutcome`: two computations both fail, or have related results.
* `JvmTaint.Declaration`, `JvmTaint.ClassTable.declare`: a class without its methods, or one method,
  is added to a table.
* `JvmTaint.ClassTable.Agree`: two tables agree apart from the order of their classes.
* `JvmTaint.Program.Reorders`: two programs with the same declarations in another order.

## Main results

* `JvmTaint.sameOutcome_foldlM_of_perm`: steps that can change places can be permuted.
* `JvmTaint.ClassTable.declare_comm`: declarations can change places.
* `JvmTaint.ClassTable.sameOutcome_of_reorders`: the tables of reordered programs agree.
-/

namespace JvmTaint

/-! ## Steps that may fail -/

/-- Both computations fail, or both have results, which are related. -/
def SameOutcome {ε σ : Type} (R : σ → σ → Prop) : Except ε σ → Except ε σ → Prop
  | .ok s, .ok s' => R s s'
  | .error _, .error _ => True
  | _, _ => False

section SameOutcome

variable {ε σ α β : Type} {R : σ → σ → Prop} {r r' r'' : Except ε σ}

lemma SameOutcome.trans (htrans : ∀ s s' s'', R s s' → R s' s'' → R s s'')
    (h : SameOutcome R r r') (h' : SameOutcome R r' r'') : SameOutcome R r r'' := by
  cases r <;> cases r' <;> cases r'' <;> simp_all only [SameOutcome]
  exact htrans _ _ _ h h'

lemma SameOutcome.symm (hsymm : ∀ s s', R s s' → R s' s) (h : SameOutcome R r r') :
    SameOutcome R r' r := by
  cases r <;> cases r'
  all_goals first | exact h | exact hsymm _ _ h

/-- Computations with the same outcome have results together. -/
lemma SameOutcome.exists_ok_iff (h : SameOutcome R r r') :
    (∃ s, r = .ok s) ↔ ∃ s', r' = .ok s' := by
  cases r <;> cases r' <;> simp_all [SameOutcome]

/-- Related computations go on with related ones. -/
lemma SameOutcome.bind {f f' : σ → Except ε σ} (h : SameOutcome R r r')
    (hf : ∀ s s', R s s' → SameOutcome R (f s) (f' s')) : SameOutcome R (r >>= f) (r' >>= f') := by
  cases r <;> cases r' <;> simp_all only [SameOutcome]
  · trivial
  · exact hf _ _ h

/-- Steps that keep states related can be taken one after another. -/
lemma sameOutcome_foldlM {P : α → β → Prop} {f : σ → α → Except ε σ} {g : σ → β → Except ε σ}
    (hstep : ∀ {s s' a b}, R s s' → P a b → SameOutcome R (f s a) (g s' b)) {xs : List α}
    {ys : List β} (h : List.Forall₂ P xs ys) {s s' : σ} (hs : R s s') :
    SameOutcome R (xs.foldlM f s) (ys.foldlM g s') := by
  induction h generalizing s s' with
  | nil => exact hs
  | cons hab _ ih =>
    rw [List.foldlM_cons, List.foldlM_cons]
    exact (hstep hs hab).bind fun _ _ => ih

/-- **Permuted steps.** If any two steps can change places, then steps can be taken in any order.

**Proof sketch.** By induction on the permutation. The related states carry the difference of an
exchange through the steps that follow. -/
lemma sameOutcome_foldlM_of_perm {f : σ → α → Except ε σ} (hrefl : ∀ s, R s s)
    (htrans : ∀ s s' s'', R s s' → R s' s'' → R s s'')
    (hstep : ∀ {s s'} a, R s s' → SameOutcome R (f s a) (f s' a))
    (hcomm : ∀ s a b, SameOutcome R (f s a >>= (f · b)) (f s b >>= (f · a)))
    {xs ys : List α} (h : xs.Perm ys) {s s' : σ} (hs : R s s') :
    SameOutcome R (xs.foldlM f s) (ys.foldlM f s') := by
  induction h generalizing s s' with
  | nil => exact hs
  | cons a _ ih =>
    rw [List.foldlM_cons, List.foldlM_cons]
    exact (hstep a hs).bind fun _ _ => ih
  | swap a b xs =>
    simp only [List.foldlM_cons, ← bind_assoc]
    have hfirst : SameOutcome R (f s b >>= (f · a)) (f s' b >>= (f · a)) :=
      (hstep b hs).bind fun _ _ => hstep a
    refine (hfirst.trans htrans (hcomm s' b a)).bind fun t t' ht => ?_
    refine sameOutcome_foldlM (P := Eq) (fun hs hab => ?_) (List.forall₂_same.mpr fun _ _ => rfl) ht
    subst hab
    exact hstep _ hs
  | trans _ _ ih ih' => exact (ih (hrefl s)).trans htrans (ih' hs)

end SameOutcome

/-! ## Declarations -/

/-- A class without its methods, a method of a class, or a null entry. -/
inductive Declaration where
  | cls (c : ClassDecl)
  | method (c : ClassDecl) (m : MethodDecl)
  | missing

/-- The class without its methods. -/
def ClassDecl.withoutMethods (c : ClassDecl) : ClassDecl := { c with methods := [] }

/-- A method of a class, or a null entry. -/
def Declaration.ofMethod (c : ClassDecl) : Option MethodDecl → Declaration
  | none => .missing
  | some m => .method c.withoutMethods m

/-- A class followed by its methods, or a null entry. -/
def Declaration.ofClass : Option ClassDecl → List Declaration
  | none => [.missing]
  | some c => .cls c.withoutMethods :: c.methods.map (Declaration.ofMethod c)

/-- What may be declared once. -/
def Declaration.key : Declaration → Option (String ⊕ MethodRef)
  | .cls c => some (.inl c.name)
  | .method c m => some (.inr (ClassTable.bodyOf c m).ref)
  | .missing => none

/-- The same class with its methods in another order. -/
structure ClassDecl.Reorders (c c' : ClassDecl) : Prop where
  methods : c.methods.Perm c'.methods
  rest : c.withoutMethods = c'.withoutMethods

/-- The same classes in another order, each with its methods in another order. -/
def Program.Reorders (p p' : Program) : Prop :=
  ∃ mid, (p.classes.getD []).Perm mid ∧
    List.Forall₂ (Option.Rel ClassDecl.Reorders) mid (p'.classes.getD [])

/-- The declarations of a class with its methods in another order are permuted. -/
lemma Declaration.ofClass_perm {c c' : Option ClassDecl} (h : Option.Rel ClassDecl.Reorders c c') :
    (Declaration.ofClass c).Perm (Declaration.ofClass c') := by
  cases h with
  | none => exact .refl _
  | @some c c' hreorders =>
    have hmethod : Declaration.ofMethod c = Declaration.ofMethod c' := by
      funext m
      cases m with
      | none => rfl
      | some m => simp only [Declaration.ofMethod, hreorders.rest]
    simp only [Declaration.ofClass, hreorders.rest, hmethod]
    exact (hreorders.methods.map _).cons _

/-- The declarations of a reordered program are permuted. -/
lemma Program.Reorders.declarations_perm {p p' : Program} (h : p.Reorders p') :
    ((p.classes.getD []).flatMap Declaration.ofClass).Perm
      ((p'.classes.getD []).flatMap Declaration.ofClass) := by
  obtain ⟨mid, hperm, hrel⟩ := h
  refine (hperm.flatMap_right _).trans ?_
  clear hperm
  generalize p'.classes.getD [] = classes at hrel
  induction hrel with
  | nil => exact .refl _
  | cons hclass _ ih =>
    rw [List.flatMap_cons, List.flatMap_cons]
    exact (Declaration.ofClass_perm hclass).append ih

namespace ClassTable

variable {t t' t'' : ClassTable}

/-! ### Tables that agree -/

/-- The tables agree apart from the order of their classes, and from the methods in the declarations
of classes, whose bodies are kept apart. -/
structure Agree (t t' : ClassTable) : Prop where
  classes : ∀ cls : String, (t.classes[cls]?).map ClassDecl.withoutMethods =
    (t'.classes[cls]?).map ClassDecl.withoutMethods
  order : t.order.Perm t'.order
  bodies : ∀ ref : MethodRef, t.bodies[ref]? = t'.bodies[ref]?
  subtypes : ∀ cls, t.directSubtypes cls = t'.directSubtypes cls

lemma Agree.refl (t : ClassTable) : t.Agree t := ⟨fun _ => rfl, .refl _, fun _ => rfl, fun _ => rfl⟩

lemma Agree.symm (h : t.Agree t') : t'.Agree t where
  classes cls := (h.classes cls).symm
  order := h.order.symm
  bodies ref := (h.bodies ref).symm
  subtypes cls := (h.subtypes cls).symm

lemma Agree.trans (h : t.Agree t') (h' : t'.Agree t'') : t.Agree t'' where
  classes cls := (h.classes cls).trans (h'.classes cls)
  order := h.order.trans h'.order
  bodies ref := (h.bodies ref).trans (h'.bodies ref)
  subtypes cls := (h.subtypes cls).trans (h'.subtypes cls)

/-- The same classes are declared. -/
lemma Agree.contains_classes (h : t.Agree t') (cls : String) :
    t.classes.contains cls = t'.classes.contains cls := by
  have := congrArg Option.isSome (h.classes cls)
  simpa only [Option.isSome_map, Std.HashMap.isSome_getElem?_eq_contains] using this

/-- The same methods are declared. -/
lemma Agree.contains_bodies (h : t.Agree t') (ref : MethodRef) :
    t.bodies.contains ref = t'.bodies.contains ref := by
  rw [← Std.HashMap.isSome_getElem?_eq_contains, h.bodies,
    Std.HashMap.isSome_getElem?_eq_contains]

/-! ### Adding a declaration -/

/-- Whether a declaration can be added. -/
def fits (t : ClassTable) : Declaration → Bool
  | .cls c => c.name != "" && !t.classes.contains c.name
  | .method c m => (MethodDescriptor.parse m.descriptor).toOption.isSome &&
      !t.bodies.contains (bodyOf c m).ref
  | .missing => false

/-- The table with the body of a method. -/
def withBody (t : ClassTable) (body : MethodBody) : ClassTable :=
  { t with bodies := t.bodies.insert body.ref body }

/-- The table with a class, which is among the subtypes of its supertypes. -/
def withClass (t : ClassTable) (c : ClassDecl) : ClassTable :=
  (c.super :: c.interfaces).foldl (addSubtype c.name)
    { t with classes := t.classes.insert c.name c, order := t.order ++ [c.name] }

/-- The table with a declaration that can be added. -/
def extended (t : ClassTable) : Declaration → ClassTable
  | .cls c => t.withClass { c with super := superclassOf c, methods := [] }
  | .method c m => t.withBody (bodyOf c m)
  | .missing => t

/-- Adds a declaration to a table. -/
def declare (t : ClassTable) : Declaration → Except ProgramError ClassTable
  | .cls c => t.addClass (some c.withoutMethods)
  | .method c m => t.addMethod c (some m)
  | .missing => .error .nullEntry

/-- A class is added, and then its methods, if it has a name that is new. -/
lemma addClass_some (t : ClassTable) (c : ClassDecl) : ∃ e, t.addClass (some c) =
    if t.fits (.cls c) then
      c.methods.foldlM (addMethod c) (t.withClass { c with super := superclassOf c })
    else .error e := by
  unfold addClass fits
  by_cases hname : c.name = ""
  · exact ⟨.unnamedClass, by simp [hname]⟩
  · by_cases hnew : c.name ∈ t.classes
    · exact ⟨.duplicateClass c.name, by simp [hname, hnew]⟩
    · refine ⟨.nullEntry, ?_⟩
      simp only [hname, hnew, Std.HashMap.contains_iff_mem, ↓reduceIte, bne_iff_ne, ne_eq,
        not_false_eq_true, Bool.and_eq_true, Bool.not_eq_true', and_self,
        Std.HashMap.contains_eq_false_iff_not_mem]
      rfl

/-- A method is added if its descriptor is well-formed and it is new. -/
lemma addMethod_some (t : ClassTable) (c : ClassDecl) (m : MethodDecl) : ∃ e,
    t.addMethod c (some m) =
      if t.fits (.method c m) then .ok (t.withBody (bodyOf c m)) else .error e := by
  have hfits : t.fits (.method c m) = ((MethodDescriptor.parse m.descriptor).toOption.isSome &&
      !t.bodies.contains (bodyOf c m).ref) := rfl
  rw [hfits]
  unfold addMethod
  dsimp only
  generalize MethodDescriptor.parse m.descriptor = parsed
  cases parsed with
  | error e => exact ⟨_, rfl⟩
  | ok d =>
    by_cases hnew : (bodyOf c m).ref ∈ t.bodies
    · exact ⟨.duplicateMethod (bodyOf c m).ref, by simp [hnew]⟩
    · exact ⟨.nullEntry, by simp [hnew, Except.toOption, withBody]⟩

/-- A declaration is added exactly if it can be. -/
lemma declare_eq (t : ClassTable) (d : Declaration) :
    ∃ e, t.declare d = if t.fits d then .ok (t.extended d) else .error e := by
  cases d with
  | cls c => exact addClass_some t c.withoutMethods
  | method c m => exact addMethod_some t c m
  | missing => exact ⟨.nullEntry, rfl⟩

/-! ### Declarations change places -/

/-- Names are inserted in any order. -/
lemma insertName_comm (name name' : String) (names : List String) :
    insertName name (insertName name' names) = insertName name' (insertName name names) := by
  induction names with
  | nil =>
    unfold insertName insertName
    grind
  | cons n names ih =>
    simp only [insertName]
    grind [insertName]

/-- How often a class names another one. -/
def mentions (c : ClassDecl) (cls : String) : Nat :=
  if cls = "" then 0 else (c.super :: c.interfaces).count cls

section WithClass

variable (t : ClassTable) (c : ClassDecl)

lemma withClass_classes : (t.withClass c).classes = t.classes.insert c.name c :=
  classes_foldl_addSubtype ..

lemma withClass_order : (t.withClass c).order = t.order ++ [c.name] := order_foldl_addSubtype ..

lemma withClass_bodies : (t.withClass c).bodies = t.bodies := addSubtype_bodies ..

/-- A class is inserted once for every time that it names a supertype. -/
lemma withClass_directSubtypes (cls : String) : (t.withClass c).directSubtypes cls =
    (insertName c.name)^[mentions c cls] (t.directSubtypes cls) := by
  have hfold : ∀ (supers : List String) (u : ClassTable),
      (supers.foldl (addSubtype c.name) u).directSubtypes cls =
        (insertName c.name)^[if cls = "" then 0 else supers.count cls] (u.directSubtypes cls) := by
    intro supers
    induction supers with
    | nil => simp
    | cons s supers ih =>
      intro u
      rw [List.foldl_cons, ih, List.count_cons]
      unfold addSubtype directSubtypes
      by_cases hs : s = ""
      · by_cases hcls : cls = ""
        · simp [hs, hcls]
        · simp [hs, hcls, Ne.symm hcls]
      · by_cases heq : s = cls
        · subst heq
          simp [hs, Function.iterate_succ_apply]
        · simp [hs, heq, Std.HashMap.getD_insert]
  exact hfold _ _

end WithClass

/-- Only what a class declares besides its methods is noticed. -/
lemma Agree.withClass (h : t.Agree t') {c c' : ClassDecl}
    (hc : c.withoutMethods = c'.withoutMethods) : (t.withClass c).Agree (t'.withClass c') := by
  have hname : c.name = c'.name := congrArg (·.name) hc
  have hmentions : mentions c = mentions c' := by
    funext cls
    unfold mentions
    rw [show c.super = c'.super from congrArg (·.super) hc,
      show c.interfaces = c'.interfaces from congrArg (·.interfaces) hc]
  refine ⟨fun cls => ?_, ?_, fun ref => ?_, fun cls => ?_⟩
  · rw [withClass_classes, withClass_classes, Std.HashMap.getElem?_insert,
      Std.HashMap.getElem?_insert, hname]
    split
    · exact congrArg some hc
    · exact h.classes cls
  · rw [withClass_order, withClass_order, hname]
    exact h.order.append_right _
  · rw [withClass_bodies, withClass_bodies]
    exact h.bodies ref
  · rw [withClass_directSubtypes, withClass_directSubtypes, h.subtypes, hname, hmentions]

lemma Agree.withBody (h : t.Agree t') (b : MethodBody) : (t.withBody b).Agree (t'.withBody b) where
  classes := h.classes
  order := h.order
  bodies ref := by
    unfold ClassTable.withBody
    rw [Std.HashMap.getElem?_insert, Std.HashMap.getElem?_insert, h.bodies]
  subtypes := h.subtypes

/-- The same declarations can be added to tables that agree. -/
lemma Agree.fits_eq (h : t.Agree t') (d : Declaration) : t.fits d = t'.fits d := by
  cases d with
  | cls c => simp only [fits, h.contains_classes]
  | method c m => simp only [fits, h.contains_bodies]
  | missing => rfl

/-- Tables agree after a declaration is added to both. -/
lemma Agree.extended (h : t.Agree t') (d : Declaration) : (t.extended d).Agree (t'.extended d) := by
  cases d with
  | cls c => exact h.withClass rfl
  | method c m => exact h.withBody _
  | missing => exact h

/-- A declaration can be added behind another one if it could be added before, and declares
something else. -/
lemma fits_extended {a : Declaration} (ha : t.fits a = true) (b : Declaration) :
    (t.extended a).fits b = (t.fits b && decide (a.key ≠ b.key)) := by
  cases a with
  | cls c =>
    cases b with
    | cls c' =>
      rw [Bool.eq_iff_iff]
      simp only [extended, fits, withClass_classes, Declaration.key]
      grind
    | method c' m => simp [extended, fits, withClass_bodies, Declaration.key]
    | missing => rfl
  | method c m =>
    cases b with
    | cls c' => simp [extended, fits, withBody, Declaration.key]
    | method c' m' =>
      rw [Bool.eq_iff_iff]
      simp only [extended, fits, withBody, Declaration.key]
      grind
    | missing => rfl
  | missing => cases ha

/-- A method does not notice whether a class was added before it. -/
lemma extended_method_cls (t : ClassTable) (c c' : ClassDecl) (m : MethodDecl) :
    ((t.extended (.cls c)).extended (.method c' m)).Agree
      ((t.extended (.method c' m)).extended (.cls c)) := by
  refine ⟨fun cls => ?_, ?_, fun ref => ?_, fun cls => ?_⟩
  · simp only [extended, withBody, withClass_classes]
  · simp only [extended, withBody, withClass_order]
    exact .refl _
  · simp only [extended, withBody, withClass_bodies]
  · simp only [extended]
    rw [withClass_directSubtypes]
    exact withClass_directSubtypes t _ cls

/-- What a table says does not depend on which of two declarations was added first. -/
lemma agree_extended_comm (t : ClassTable) {a b : Declaration} (hne : a.key ≠ b.key) :
    ((t.extended a).extended b).Agree ((t.extended b).extended a) := by
  cases a with
  | cls c =>
    cases b with
    | cls c' =>
      have hname : c.name ≠ c'.name := fun heq => hne (by simp [Declaration.key, heq])
      refine ⟨fun cls => ?_, ?_, fun ref => ?_, fun cls => ?_⟩
      · simp only [extended, withClass_classes, Std.HashMap.getElem?_insert]
        grind
      · simp only [extended, withClass_order, List.append_assoc]
        exact (List.Perm.swap _ _ _).append_left _
      · simp only [extended, withClass_bodies]
      · simp only [extended, withClass_directSubtypes]
        exact Function.Commute.iterate_iterate (insertName_comm c'.name c.name) _ _ _
    | method c' m => exact extended_method_cls t c c' m
    | missing => exact .refl _
  | method c m =>
    cases b with
    | cls c' => exact (extended_method_cls t c' c m).symm
    | method c' m' =>
      have href : (bodyOf c m).ref ≠ (bodyOf c' m').ref :=
        fun heq => hne (by simp [Declaration.key, heq])
      refine ⟨fun _ => rfl, .refl _, fun ref => ?_, fun _ => rfl⟩
      simp only [extended, withBody, Std.HashMap.getElem?_insert]
      grind
    | missing => exact .refl _
  | missing => exact .refl _

/-- Tables that agree still do so after a declaration is added to both, if it can be. -/
lemma Agree.declare (h : t.Agree t') (d : Declaration) :
    SameOutcome Agree (t.declare d) (t'.declare d) := by
  obtain ⟨e, heq⟩ := t.declare_eq d
  obtain ⟨e', heq'⟩ := t'.declare_eq d
  rw [heq, heq', ← h.fits_eq]
  cases t.fits d with
  | false => trivial
  | true => exact h.extended d

/-- Two declarations are added in either order. -/
lemma declare_bind_eq (t : ClassTable) (a b : Declaration) : ∃ e, (t.declare a >>= (·.declare b)) =
    if t.fits a = true ∧ t.fits b = true ∧ a.key ≠ b.key then .ok ((t.extended a).extended b)
    else .error e := by
  obtain ⟨e, ha⟩ := t.declare_eq a
  rw [ha]
  cases hfits : t.fits a with
  | false => exact ⟨e, by simp [bind, Except.bind]⟩
  | true =>
    obtain ⟨e', hb⟩ := (t.extended a).declare_eq b
    refine ⟨e', ?_⟩
    simp only [bind, Except.bind, ↓reduceIte, hb, fits_extended hfits, Bool.and_eq_true,
      decide_eq_true_eq, true_and]

/-- **Declarations change places.** Two declarations can be added one after the other if each of
them can be added and they declare different things, and the tables agree whichever is first. -/
lemma declare_comm (t : ClassTable) (a b : Declaration) :
    SameOutcome Agree (t.declare a >>= (·.declare b)) (t.declare b >>= (·.declare a)) := by
  obtain ⟨e, hab⟩ := t.declare_bind_eq a b
  obtain ⟨e', hba⟩ := t.declare_bind_eq b a
  rw [hab, hba]
  by_cases hfits : t.fits a = true ∧ t.fits b = true ∧ a.key ≠ b.key
  · rw [if_pos hfits, if_pos ⟨hfits.2.1, hfits.1, hfits.2.2.symm⟩]
    exact t.agree_extended_comm hfits.2.2
  · rw [if_neg hfits, if_neg fun h => hfits ⟨h.2.1, h.1, h.2.2.symm⟩]
    trivial

/-! ## Reordered programs -/

/-- The methods of a class are its declarations, whatever else the class declares. -/
lemma declare_ofMethod (t : ClassTable) (c : ClassDecl) (m : Option MethodDecl) :
    t.declare (Declaration.ofMethod c m) = t.addMethod c m := by
  cases m <;> rfl

/-- Adding a class adds its declarations. -/
lemma addClass_sameOutcome (h : t.Agree t') (c : Option ClassDecl) :
    SameOutcome Agree (t.addClass c) ((Declaration.ofClass c).foldlM declare t') := by
  cases c with
  | none => trivial
  | some c =>
    obtain ⟨e, hclass⟩ := t.addClass_some c
    obtain ⟨e', hdeclare⟩ := t'.declare_eq (.cls c.withoutMethods)
    rw [Declaration.ofClass, List.foldlM_cons, hclass, hdeclare, ← h.fits_eq,
      show t.fits (.cls c.withoutMethods) = t.fits (.cls c) from rfl]
    cases t.fits (.cls c) with
    | false => trivial
    | true =>
      simp only [↓reduceIte, bind, Except.bind, List.foldlM_map, declare_ofMethod]
      refine sameOutcome_foldlM (P := Eq) (fun {u u' m m'} hu hm => ?_)
        (List.forall₂_same.mpr fun _ _ => rfl) ?_
      · subst hm
        rw [← declare_ofMethod, ← declare_ofMethod]
        exact hu.declare _
      · exact h.withClass rfl

/-- The table of a program is made by adding its declarations. -/
lemma foldlM_addClass_sameOutcome (classes : List (Option ClassDecl)) (h : t.Agree t') :
    SameOutcome Agree (classes.foldlM addClass t)
      ((classes.flatMap Declaration.ofClass).foldlM declare t') := by
  induction classes generalizing t t' with
  | nil => exact h
  | cons c classes ih =>
    rw [List.foldlM_cons, List.flatMap_cons, List.foldlM_append]
    exact (addClass_sameOutcome h c).bind fun _ _ => ih

/-- **Reordered programs.** Either both have no table, or both have one, and the tables agree.

**Proof sketch.** The table of a program is made by adding its declarations, those of the other
program are permuted, and any two declarations change places. -/
lemma sameOutcome_of_reorders {p p' : Program} (h : p.Reorders p') :
    SameOutcome Agree (ofProgram p) (ofProgram p') := by
  have hperm : SameOutcome Agree
      (((p.classes.getD []).flatMap Declaration.ofClass).foldlM declare empty)
      (((p'.classes.getD []).flatMap Declaration.ofClass).foldlM declare empty) :=
    sameOutcome_foldlM_of_perm Agree.refl (fun _ _ _ => Agree.trans) (fun d hd => hd.declare d)
      declare_comm h.declarations_perm (.refl _)
  have htrans : ∀ t t' t'' : ClassTable, t.Agree t' → t'.Agree t'' → t.Agree t'' :=
    fun _ _ _ => Agree.trans
  have hp := foldlM_addClass_sameOutcome (p.classes.getD []) (.refl empty)
  have hp' := foldlM_addClass_sameOutcome (p'.classes.getD []) (.refl empty)
  exact (hp.trans htrans hperm).trans htrans (hp'.symm fun _ _ => Agree.symm)

/-! ## Answers of tables that agree -/

namespace Agree

variable (h : t.Agree t')
include h

/-- A method has the same body. -/
lemma body_eq : t.body = t'.body := by
  funext ref
  unfold body
  rw [h.contains_classes, h.bodies]

/-- A class has the same neighbours. -/
lemma typeEntry?_eq : t.typeEntry? = t'.typeEntry? := by
  funext cls
  have hclass := h.classes cls
  unfold typeEntry?
  rw [h.subtypes]
  cases hc : t.classes[cls]? <;> cases hc' : t'.classes[cls]? <;>
    simp_all [ClassDecl.withoutMethods]

/-- The same classes are declared. -/
lemma classNames_eq : t.classNames = t'.classNames :=
  mergeSort_eq_of_perm Function.injective_id (fun _ _ => rfl) h.order

/-- The methods with a body are permuted. -/
lemma keys_perm : t.bodies.keys.Perm t'.bodies.keys := by
  refine (List.perm_ext_iff_of_nodup t.bodies.nodup_keys t'.bodies.nodup_keys).mpr fun ref => ?_
  rw [Std.HashMap.mem_keys, Std.HashMap.mem_keys, ← Std.HashMap.contains_iff_mem,
    h.contains_bodies, Std.HashMap.contains_iff_mem]

/-- The same methods are declared. -/
lemma methods_eq : t.methods = t'.methods :=
  mergeSort_eq_of_perm MethodRef.key_injective MethodRef.le_eq h.keys_perm

lemma size_eq : t.bodies.size = t'.bodies.size := by
  rw [← Std.HashMap.length_keys, ← Std.HashMap.length_keys, h.keys_perm.length_eq]

/-- A class has the same supertypes. -/
lemma directSupertypes_eq : t.directSupertypes = t'.directSupertypes := by
  funext cls
  unfold directSupertypes
  rw [h.typeEntry?_eq]

lemma directSubtypes_eq : t.directSubtypes = t'.directSubtypes := funext h.subtypes

/-- Searches of the hierarchy have the same bound. -/
lemma nameBound_eq : t.nameBound = t'.nameBound := by
  rw [ClassTable.nameBound_eq, ClassTable.nameBound_eq, h.directSupertypes_eq, h.order.length_eq,
    (h.order.flatMap_right _).length_eq]

/-- A class has the same transitive supertypes, in the same order. -/
lemma transitiveSupertypes_eq : t.transitiveSupertypes = t'.transitiveSupertypes := by
  funext cls
  unfold transitiveSupertypes
  rw [h.directSupertypes_eq, h.nameBound_eq]

/-- A class has the same transitive subtypes. -/
lemma transitiveSubtypes_eq : t.transitiveSubtypes = t'.transitiveSubtypes := by
  funext cls
  unfold transitiveSubtypes
  rw [h.directSubtypes_eq, h.nameBound_eq]

/-- The same classes are known. -/
lemma knows_eq : t.knows = t'.knows := by
  funext cls
  unfold knows
  rw [h.typeEntry?_eq]

/-- The same classes are subtypes of each other. -/
lemma isSubtype_eq : t.isSubtype = t'.isSubtype := by
  funext sub super
  unfold isSubtype
  rw [h.transitiveSupertypes_eq]

/-- The same classes can have instances. -/
lemma concreteSubtypes_eq : t.concreteSubtypes = t'.concreteSubtypes := by
  have hconcrete : t.isConcrete = t'.isConcrete := by
    funext cls
    unfold isConcrete
    rw [h.typeEntry?_eq]
  funext cls
  unfold concreteSubtypes
  rw [h.transitiveSubtypes_eq, hconcrete]

/-- A class has the same superclasses. -/
lemma superclassChain_eq : t.superclassChain = t'.superclassChain := by
  have hchain : t.chainFrom = t'.chainFrom := by
    funext fuel
    induction fuel with
    | zero => rfl
    | succ fuel ih =>
      funext cls
      rw [chainFrom, chainFrom, ih, h.typeEntry?_eq]
  funext cls
  unfold superclassChain
  rw [hchain, h.order.length_eq]

end Agree

end ClassTable

end JvmTaint
