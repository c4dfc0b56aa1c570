import JvmTaint.Proofs.Taint.Interchange

set_option autoImplicit false
set_option relaxedAutoImplicit false

/-!
# Programs with their declarations in another order

The classes of a program, and the methods of each class, can be declared in any order. The tables of
two orders agree, so their code bases are interchangeable.

## Main results

* `JvmTaint.Program.Reorders.same_answers`: the order of declarations is not noticed.
-/

namespace JvmTaint

namespace Program.Reorders

/-- **Order of declarations.** If the classes of a program and the methods of its classes are
permuted, then both programs have a table or none has, and the two tables give the same answers: the
body of a method, the neighbours of a class, the classes and the methods. So methods have the same
flow graphs and calls the same targets, call graphs are the same, and every analysis ends with the
same result and the same error. -/
theorem same_answers {p p' : Program} (h : p.Reorders p') :
    ((∃ t, ClassTable.ofProgram p = .ok t) ↔ ∃ t', ClassTable.ofProgram p' = .ok t') ∧
    ∀ t t', ClassTable.ofProgram p = .ok t → ClassTable.ofProgram p' = .ok t' →
      (t.body = t'.body ∧ t.typeEntry? = t'.typeEntry? ∧ t.classNames = t'.classNames ∧
        t.methods = t'.methods) ∧
      (CodeBase.ofTable t).graph = (CodeBase.ofTable t').graph ∧ t.resolve = t'.resolve ∧
      CallGraph.build (.ofTable t) = CallGraph.build (.ofTable t') ∧
      ∀ (s : Session) (runId : String) (entries : List MethodRef) (rules : Option RuleSet)
          (o : RunOptions) (cancelled : Bool),
        (({ s with code := .ofTable t } : Session).analyze runId entries rules o cancelled).2 =
          (({ s with code := .ofTable t' } : Session).analyze runId entries rules o
            cancelled).2 := by
  have houtcome := ClassTable.sameOutcome_of_reorders h
  refine ⟨houtcome.exists_ok_iff, fun t t' ht ht' => ?_⟩
  have hagree : t.Agree t' := by
    rw [ht, ht'] at houtcome
    exact houtcome
  have hcode := hagree.interchangeable
  refine ⟨⟨hagree.body_eq, hagree.typeEntry?_eq, hagree.classNames_eq, hagree.methods_eq⟩,
    hcode.graph, hcode.resolve, hcode.callGraph_eq, fun s runId entries rules o cancelled => ?_⟩
  exact (congrArg Prod.snd (Session.analyze_withCode (s := { s with code := .ofTable t }) hcode
    runId entries rules o cancelled)).symm

/-- A method that returns at once. -/
def returning (name : String) : MethodDecl where
  name := name
  descriptor := "()V"
  flags := AccessFlags.empty.insert .static
  code := some [{ pc := 0, op := ⟨177⟩ }]

/-- A class with two methods, and the class that it extends, which has none. -/
def shopProgram : Program where
  classes := some [
    some { name := "Shop", super := "Place", methods := [returning "open", returning "close"] },
    some { name := "Place" }]

/-- The same declarations in the opposite order. -/
def reversedShopProgram : Program where
  classes := some [
    some { name := "Place" },
    some { name := "Shop", super := "Place", methods := [returning "close", returning "open"] }]

lemma shopProgram_reorders : shopProgram.Reorders reversedShopProgram := by
  refine ⟨_, .swap _ _ _, .cons (.some ⟨.refl _, rfl⟩) (.cons (.some ⟨?_, rfl⟩) .nil)⟩
  exact .swap _ _ _

/-- The declarations have a table. -/
lemma exists_shopTable : ∃ t, ClassTable.ofProgram shopProgram = .ok t := by
  have hparse : MethodDescriptor.parse "()V" = .ok ⟨[], none⟩ := by cbv
  simp [ClassTable.ofProgram, shopProgram, ClassTable.addClass, ClassTable.addMethod, hparse,
    returning, ClassTable.bodyOf, ClassTable.empty, ClassTable.superclassOf, ClassTable.addSubtype,
    bind, Except.bind, pure, Except.pure]

/-- The two programs are different, both have a table, and their tables have the same answers. -/
theorem same_answers_shop : shopProgram ≠ reversedShopProgram ∧
    ∃ t t', ClassTable.ofProgram shopProgram = .ok t ∧
      ClassTable.ofProgram reversedShopProgram = .ok t' ∧
      t.body = t'.body ∧ t.typeEntry? = t'.typeEntry? ∧ t.resolve = t'.resolve ∧
      CallGraph.build (.ofTable t) = CallGraph.build (.ofTable t') ∧
      ∀ (s : Session) (runId : String) (entries : List MethodRef) (rules : Option RuleSet)
          (o : RunOptions) (cancelled : Bool),
        (({ s with code := .ofTable t } : Session).analyze runId entries rules o cancelled).2 =
          (({ s with code := .ofTable t' } : Session).analyze runId entries rules o
            cancelled).2 := by
  obtain ⟨hiff, hanswers⟩ := same_answers shopProgram_reorders
  obtain ⟨t, ht⟩ := exists_shopTable
  obtain ⟨t', ht'⟩ := hiff.mp ⟨t, ht⟩
  obtain ⟨⟨hbody, hentry, -, -⟩, -, hresolve, hgraph, hanalyze⟩ := hanswers t t' ht ht'
  exact ⟨by decide, t, t', ht, ht', hbody, hentry, hresolve, hgraph, hanalyze⟩

end Program.Reorders

end JvmTaint
