import JvmTaint.Proofs.ClassFile.DeclarationOrder
import JvmTaint.Proofs.Memo.Soundness

set_option autoImplicit false
set_option relaxedAutoImplicit false

/-!
# Questions about the type hierarchy

Supertypes are followed upwards through the declarations, subtypes downwards through an index that
is made when classes are declared, and answers are kept. All the same both searches come to their
end, also in a hierarchy with cycles, and they find what the declarations say, whatever has been
asked before: a class is a supertype of another one if that one is a subtype of it.

## Main definitions

* `JvmTaint.Program.Extends`: the direct supertypes of a class, as declared.
* `JvmTaint.TypeQuery`: the questions about the type hierarchy.
* `JvmTaint.Memo.answerAfter`: the answer to a question after others.
* `JvmTaint.Program.HierarchyExact`: the answers are the closures of the declarations.

## Main results

* `JvmTaint.ClassTable.getElem?_classes_iff`: the classes of a table are those of its program.
* `JvmTaint.ClassTable.mem_directSupertypes_iff`: direct supertypes are the declared ones.
* `JvmTaint.Program.hierarchy_exact`: the answers about the table of a program are exact.

## Design

The empty name may stand among the interfaces of a class, and is then one of its supertypes; but it
has no place in the index of subtypes. So it is excluded on the way down.
-/

namespace JvmTaint

open Relation

/-! ## Direct supertypes as declared -/

/-- The direct supertypes that a declaration gives: the superclass, the root class if there is none
and the class is neither the root nor an interface, and the interfaces. -/
inductive ClassDecl.Gives (c : ClassDecl) : String → Prop
  | superclass (hsuper : c.super ≠ "") : c.Gives c.super
  | root (hsuper : c.super = "") (hname : c.name ≠ javaLangObject)
    (hclass : c.flags.has .interface = false) : c.Gives javaLangObject
  | interface {i : String} (hi : i ∈ c.interfaces) : c.Gives i

/-- A class of the program is declared with a direct supertype. -/
def Program.Extends (p : Program) (cls super : String) : Prop :=
  ∃ c, some c ∈ p.classes.getD [] ∧ c.name = cls ∧ c.Gives super

namespace ClassTable

variable {t t' : ClassTable} {p : Program} {cls super : String}

/-- A class that is added has a new name, and its superclass is filled in. -/
lemma addClass_classes {c : Option ClassDecl} (h : t.addClass c = .ok t') :
    ∃ c', c = some c' ∧ c'.name ∉ t.classes ∧
      t'.classes = t.classes.insert c'.name { c' with super := superclassOf c' } := by
  cases c with
  | none => cases h
  | some c =>
    obtain ⟨e, he⟩ := addClass_some t c
    rw [he] at h
    split at h
    · rename_i hfits
      have hnew : c.name ∉ t.classes := by
        simp only [fits, Bool.and_eq_true, Bool.not_eq_true'] at hfits
        exact Std.HashMap.contains_eq_false_iff_not_mem.mp hfits.2
      have hmethods : Ensures (c.methods.foldlM (addMethod c)
          (t.withClass { c with super := superclassOf c }))
          fun u => u.classes = t.classes.insert c.name { c with super := superclassOf c } := by
        refine ensures_foldlM (fun u m hu => ?_) _ (withClass_classes ..)
        cases m with
        | none => exact ensures_error
        | some m =>
          obtain ⟨e, he⟩ := addMethod_some u c m
          rw [he]
          split
          · exact ensures_ok hu
          · exact ensures_error
      exact ⟨c, rfl, hnew, hmethods t' h⟩
    · cases h

/-- The classes that are added to a table are in it, with their superclasses. -/
lemma getElem?_classes_foldlM {classes : List (Option ClassDecl)} {d : ClassDecl}
    (h : classes.foldlM addClass t = .ok t') : t'.classes[cls]? = some d ↔
      t.classes[cls]? = some d ∨
        ∃ c, some c ∈ classes ∧ c.name = cls ∧ { c with super := superclassOf c } = d := by
  induction classes generalizing t with
  | nil =>
    cases h
    simp
  | cons c classes ih =>
    rw [List.foldlM_cons] at h
    cases hadd : t.addClass c with
    | error e =>
      rw [hadd] at h
      cases h
    | ok u =>
      rw [hadd] at h
      obtain ⟨c, rfl, hnew, hclasses⟩ := addClass_classes hadd
      rw [ih h, hclasses, Std.HashMap.getElem?_insert]
      by_cases hname : c.name = cls
      · subst hname
        have hnone : t.classes[c.name]? = none := Std.HashMap.getElem?_eq_none hnew
        simp [hnone]
      · simp [hname]

/-- **Declared classes.** The classes of the table of a program are those of the program, with their
superclasses. -/
lemma getElem?_classes_iff (ht : ofProgram p = .ok t) {d : ClassDecl} :
    t.classes[cls]? = some d ↔
      ∃ c, some c ∈ p.classes.getD [] ∧ c.name = cls ∧ { c with super := superclassOf c } = d := by
  rw [getElem?_classes_foldlM ht]
  simp [ClassTable.empty]

/-- The supertypes of a declaration with its superclass filled in are those that it gives. -/
lemma mem_supertypes_iff_gives (c : ClassDecl) :
    super ∈ (if superclassOf c = "" then [] else [superclassOf c]) ++ c.interfaces ↔
      c.Gives super := by
  have hroot : javaLangObject ≠ "" := by decide
  rw [List.mem_append]
  constructor
  · rintro (hsuper | hi)
    · unfold superclassOf at hsuper
      split at hsuper
      · rename_i hc
        rw [List.mem_singleton.mp hsuper]
        exact .root hc.1 hc.2.1 (by simpa using hc.2.2)
      · split at hsuper
        · cases hsuper
        · rename_i hne
          rw [List.mem_singleton.mp hsuper]
          exact .superclass hne
    · exact .interface hi
  · intro hgives
    unfold superclassOf
    cases hgives with
    | superclass hsuper => exact .inl (by simp [hsuper])
    | root hsuper hname hclass => exact .inl (by simp [hsuper, hname, hclass, hroot])
    | interface hi => exact .inr hi

/-- **Direct supertypes.** The direct supertypes of a class are those that its declaration gives. -/
lemma mem_directSupertypes_iff (ht : ofProgram p = .ok t) :
    super ∈ t.directSupertypes cls ↔ p.Extends cls super := by
  rw [directSupertypes_eq]
  constructor
  · intro hsuper
    cases hd : t.classes[cls]? with
    | some d =>
      obtain ⟨c, hc, hname, rfl⟩ := (getElem?_classes_iff ht).mp hd
      rw [hd] at hsuper
      exact ⟨c, hc, hname, (mem_supertypes_iff_gives c).mp hsuper⟩
    | none =>
      rw [hd] at hsuper
      cases hsuper
  · rintro ⟨c, hc, hname, hgives⟩
    rw [(getElem?_classes_iff ht).mpr ⟨c, hc, hname, rfl⟩]
    exact (mem_supertypes_iff_gives c).mpr hgives

/-- **Direct subtypes.** The index has a class for every supertype with a name that its declaration
gives. -/
lemma mem_directSubtypes_iff (ht : ofProgram p = .ok t) :
    cls ∈ t.directSubtypes super ↔ super ≠ "" ∧ p.Extends cls super := by
  rw [(indexed_of_ofProgram ht).mem_directSubtypes_iff, Names, mem_directSupertypes_iff ht]

/-! ## Transitive supertypes and subtypes -/

/-- **Supertypes.** The transitive supertypes of a class are the other classes that it comes to by
declarations, each of them once. -/
lemma mem_transitiveSupertypes_iff_extends (ht : ofProgram p = .ok t) :
    super ∈ t.transitiveSupertypes cls ↔ super ≠ cls ∧ TransGen p.Extends cls super := by
  have hextends : (fun a b => b ∈ t.directSupertypes a) = p.Extends := by
    funext a b
    exact propext (mem_directSupertypes_iff ht)
  obtain ⟨all, hcls, hnext, hfuel⟩ := (indexed_of_ofProgram ht).exists_supertypes_bound cls
  rw [transitiveSupertypes, mem_drop_closure_iff all hnext hcls hfuel, hextends,
    reflTransGen_iff_eq_or_transGen]
  tauto

/-- **Subtypes.** The transitive subtypes of a class are the other classes that come to it by
declarations. -/
lemma mem_transitiveSubtypes_iff_extends (ht : ofProgram p = .ok t) :
    cls ∈ t.transitiveSubtypes super ↔
      cls ≠ super ∧ TransGen (fun a b => a ≠ "" ∧ p.Extends b a) super cls := by
  have hextends : (fun a b => b ∈ t.directSubtypes a) = fun a b => a ≠ "" ∧ p.Extends b a := by
    funext a b
    exact propext (mem_directSubtypes_iff ht)
  obtain ⟨all, hsuper, hnext, hfuel⟩ := (indexed_of_ofProgram ht).exists_subtypes_bound super
  rw [transitiveSubtypes, List.mem_mergeSort, mem_drop_closure_iff all hnext hsuper hfuel, hextends,
    reflTransGen_iff_eq_or_transGen]
  tauto

lemma nodup_transitiveSupertypes (t : ClassTable) (cls : String) :
    (t.transitiveSupertypes cls).Nodup :=
  (nodup_closure _ _ (by simp)).sublist (List.drop_sublist 1 _)

/-- The transitive subtypes of a class are sorted, and each of them is there once. -/
lemma pairwise_transitiveSubtypes (t : ClassTable) (cls : String) :
    (t.transitiveSubtypes cls).Pairwise (· < ·) :=
  pairwise_lt_mergeSort_self ((nodup_closure _ _ (by simp)).sublist (List.drop_sublist 1 _))

/-- **Duality.** A class with a name is a transitive supertype of another one if that one is a
transitive subtype of it. -/
lemma mem_transitiveSupertypes_iff_mem_transitiveSubtypes (ht : ofProgram p = .ok t)
    (hsuper : super ≠ "") (hne : cls ≠ super) :
    super ∈ t.transitiveSupertypes cls ↔ cls ∈ t.transitiveSubtypes super := by
  have h := indexed_of_ofProgram ht
  rw [mem_transitiveSupertypes_iff h hsuper, mem_transitiveSubtypes_iff h]
  simp [hne, Ne.symm hne]

/-- Subtyping is equality, or leads to the root class or to what a class comes to by
declarations. -/
lemma isSubtype_iff (ht : ofProgram p = .ok t) : t.isSubtype cls super = true ↔
    super = javaLangObject ∨ ReflTransGen p.Extends cls super := by
  rw [isSubtype, Bool.or_eq_true, Bool.or_eq_true, beq_iff_eq, beq_iff_eq, List.contains_iff_mem,
    mem_transitiveSupertypes_iff_extends ht, reflTransGen_iff_eq_or_transGen]
  tauto

/-- **Subtyping is transitive** if the root class has no supertype.

**Proof sketch.** Only at the root class does subtyping say more than the declarations. What is a
supertype of the root class is then the root class itself. -/
lemma isSubtype_trans (ht : ofProgram p = .ok t) (hroot : ∀ s, ¬ p.Extends javaLangObject s)
    {mid : String} (h : t.isSubtype cls mid = true) (h' : t.isSubtype mid super = true) :
    t.isSubtype cls super = true := by
  rw [isSubtype_iff ht] at h h' ⊢
  rcases h' with rfl | h'
  · exact .inl rfl
  · rcases h with rfl | h
    · rcases h'.cases_head with rfl | ⟨s, hs, -⟩
      · exact .inl rfl
      · exact absurd hs (hroot s)
    · exact .inr (h.trans h')

end ClassTable

/-! ## Questions in any order -/

/-- A question about the type hierarchy. -/
inductive TypeQuery where
  | entry (cls : String)
  | knows (cls : String)
  | isInterface (cls : String)
  | supertypes (cls : String)
  | subtypes (cls : String)
  | isSubtype (sub super : String)
  | concreteSubtypes (cls : String)

/-- Asks a question, for what is kept of its answer. -/
def TypeQuery.ask (t : ClassTable) : TypeQuery → StateM Memo PUnit
  | entry cls => discard (Memo.entryOf t cls)
  | knows cls => discard (Memo.knows t cls)
  | isInterface cls => discard (Memo.isInterface t cls)
  | supertypes cls => discard (Memo.supertypes t cls)
  | subtypes cls => discard (Memo.subtypes t cls)
  | isSubtype sub super => discard (Memo.isSubtype t sub super)
  | concreteSubtypes cls => discard (Memo.concreteSubtypes t cls)

namespace Memo

open TypeQuery

variable {α : Type} {t : ClassTable} {asked : List TypeQuery}

/-- The answer to a question, asked after other ones, of which nothing is kept at first. -/
def answerAfter (t : ClassTable) (asked : List TypeQuery) (question : StateM Memo α) : α :=
  ((do asked.forM (TypeQuery.ask t); question).run {}).1

/-- Every question leaves right answers only. -/
lemma ask_gives (q : TypeQuery) : Gives (Sound t) (q.ask t) fun _ => True := by
  cases q with
  | entry cls => exact (entryOf_answers cls).discard
  | knows cls => exact (knows_answers cls).discard
  | isInterface cls => exact (isInterface_answers cls).discard
  | supertypes cls => exact (supertypes_answers cls).discard
  | subtypes cls => exact (subtypes_answers cls).discard
  | isSubtype sub super => exact (isSubtype_answers sub super).discard
  | concreteSubtypes cls => exact (concreteSubtypes_answers cls).discard

/-- **Any order.** What has been asked before makes no difference to an answer. -/
lemma answerAfter_eq {question : StateM Memo α} {answer : α}
    (h : Answers (Sound t) question answer) : answerAfter t asked question = answer :=
  ((Answers.after (Gives.forM ask_gives asked) h) {} (sound_empty t)).1

end Memo

/-! ## Exact answers -/

namespace Program

open Memo

/-- The answers to questions about the type hierarchy are what the declarations say, whatever has
been asked before. -/
structure HierarchyExact (p : Program) (t : ClassTable) : Prop where
  /-- The search for supertypes ends by itself: more fuel makes no difference. -/
  supertypes_ends : ∀ asked cls fuel, t.nameBound ≤ fuel →
    answerAfter t asked (closureM (directSupertypes t) fuel 0 [cls]) =
      answerAfter t asked (closureM (directSupertypes t) t.nameBound 0 [cls])
  subtypes_ends : ∀ asked cls fuel, t.nameBound ≤ fuel →
    answerAfter t asked (closureM (directSubtypes t) fuel 0 [cls]) =
      answerAfter t asked (closureM (directSubtypes t) t.nameBound 0 [cls])
  supertypes_nodup : ∀ asked cls, (answerAfter t asked (supertypes t cls)).Nodup
  mem_supertypes_iff : ∀ asked cls super, super ∈ answerAfter t asked (supertypes t cls) ↔
    super ≠ cls ∧ TransGen p.Extends cls super
  /-- Subtypes are sorted and without repetitions. -/
  subtypes_sorted : ∀ asked cls, (answerAfter t asked (subtypes t cls)).Pairwise (· < ·)
  mem_subtypes_iff : ∀ asked cls sub, sub ∈ answerAfter t asked (subtypes t cls) ↔
    sub ≠ cls ∧ TransGen (fun a b => a ≠ "" ∧ p.Extends b a) cls sub
  dual : ∀ asked asked' cls super, super ≠ "" → cls ≠ super →
    (super ∈ answerAfter t asked (supertypes t cls) ↔
      cls ∈ answerAfter t asked' (subtypes t super))
  isSubtype_refl : ∀ asked cls, answerAfter t asked (isSubtype t cls cls) = true
  isSubtype_trans : (∀ s, ¬ p.Extends javaLangObject s) → ∀ asked asked' asked'' cls mid super,
    answerAfter t asked (isSubtype t cls mid) = true →
    answerAfter t asked' (isSubtype t mid super) = true →
    answerAfter t asked'' (isSubtype t cls super) = true

/-- **The type hierarchy.** For every program that has a table, also one with cycles in its
hierarchy, the answers are exact: searches for supertypes and subtypes end and find what is reached
by direct supertypes and subtypes, they are dual, and subtyping is a preorder. -/
theorem hierarchy_exact (p : Program) (t : ClassTable) (ht : ClassTable.ofProgram p = .ok t) :
    p.HierarchyExact t := by
  have hindexed := ClassTable.indexed_of_ofProgram ht
  have hsupers : ∀ asked cls, answerAfter t asked (supertypes t cls) =
      t.transitiveSupertypes cls := fun asked cls => answerAfter_eq (supertypes_answers cls)
  have hsubs : ∀ asked cls, answerAfter t asked (subtypes t cls) = t.transitiveSubtypes cls :=
    fun asked cls => answerAfter_eq (subtypes_answers cls)
  have hsub : ∀ asked cls super, answerAfter t asked (isSubtype t cls super) =
      t.isSubtype cls super := fun asked cls super => answerAfter_eq (isSubtype_answers cls super)
  constructor
  case supertypes_ends =>
    intro asked cls fuel hfuel
    obtain ⟨all, hcls, hnext, hbound⟩ := hindexed.exists_supertypes_bound cls
    obtain ⟨more, rfl⟩ := Nat.exists_eq_add_of_le hfuel
    rw [answerAfter_eq (Answers.closureM directSupertypes_answers _ _ _),
      answerAfter_eq (Answers.closureM directSupertypes_answers _ _ _)]
    exact closure_add hnext _ more (by simpa using hcls) (by simp) hbound
  case subtypes_ends =>
    intro asked cls fuel hfuel
    obtain ⟨all, hcls, hnext, hbound⟩ := hindexed.exists_subtypes_bound cls
    obtain ⟨more, rfl⟩ := Nat.exists_eq_add_of_le hfuel
    rw [answerAfter_eq (Answers.closureM directSubtypes_answers _ _ _),
      answerAfter_eq (Answers.closureM directSubtypes_answers _ _ _)]
    exact closure_add hnext _ more (by simpa using hcls) (by simp) hbound
  case supertypes_nodup =>
    intro asked cls
    rw [hsupers]
    exact t.nodup_transitiveSupertypes cls
  case mem_supertypes_iff =>
    intro asked cls super
    rw [hsupers]
    exact ClassTable.mem_transitiveSupertypes_iff_extends ht
  case subtypes_sorted =>
    intro asked cls
    rw [hsubs]
    exact t.pairwise_transitiveSubtypes cls
  case mem_subtypes_iff =>
    intro asked cls sub
    rw [hsubs]
    exact ClassTable.mem_transitiveSubtypes_iff_extends ht
  case dual =>
    intro asked asked' cls super hsuper hne
    rw [hsupers, hsubs]
    exact ClassTable.mem_transitiveSupertypes_iff_mem_transitiveSubtypes ht hsuper hne
  case isSubtype_refl =>
    intro asked cls
    rw [hsub, ClassTable.isSubtype_iff ht]
    exact .inr .refl
  case isSubtype_trans =>
    intro hroot asked asked' asked'' cls mid super h h'
    rw [hsub] at h h' ⊢
    exact ClassTable.isSubtype_trans ht hroot h h'

/-- Two classes that extend each other, and one of them names an interface without a name. -/
def knotProgram : Program where
  classes := some [
    some { name := "Knot", super := "Rope", interfaces := [""] },
    some { name := "Rope", super := "Knot" }]

/-- In the knot both classes are supertypes of each other, and neither is one of itself. The answer
is the same after other questions. -/
theorem hierarchy_exact_knot :
    ∃ t, ClassTable.ofProgram knotProgram = .ok t ∧ knotProgram.HierarchyExact t ∧
      (∀ s, ¬ knotProgram.Extends javaLangObject s) ∧
      "Rope" ∈ answerAfter t [.subtypes "Rope"] (supertypes t "Knot") ∧
      "Knot" ∈ answerAfter t [.supertypes "Knot"] (subtypes t "Rope") ∧
      "Knot" ∉ answerAfter t [.subtypes "Rope"] (supertypes t "Knot") := by
  obtain ⟨t, ht⟩ : ∃ t, ClassTable.ofProgram knotProgram = .ok t := by
    simp [ClassTable.ofProgram, knotProgram, ClassTable.addClass, ClassTable.empty,
      ClassTable.superclassOf, ClassTable.addSubtype, bind, Except.bind, pure, Except.pure]
  have hexact := hierarchy_exact knotProgram t ht
  have hextends : knotProgram.Extends "Knot" "Rope" :=
    ⟨_, List.mem_cons_self, rfl, .superclass (by decide)⟩
  have hrope : "Rope" ∈ answerAfter t [.subtypes "Rope"] (supertypes t "Knot") :=
    (hexact.mem_supertypes_iff _ _ _).mpr ⟨by decide, .single hextends⟩
  refine ⟨t, ht, hexact, ?_, hrope, ?_, ?_⟩
  · rintro s ⟨c, hc, hname, -⟩
    simp only [knotProgram, Option.getD_some, List.mem_cons, Option.some.injEq,
      List.not_mem_nil, or_false] at hc
    rcases hc with rfl | rfl
    · exact absurd hname (by decide)
    · exact absurd hname (by decide)
  · exact (hexact.dual _ _ _ _ (by decide) (by decide)).mp hrope
  · intro hknot
    exact ((hexact.mem_supertypes_iff _ _ _).mp hknot).1 rfl

end Program

end JvmTaint
