import JvmTaint.Proofs.Taint.HeapTaint

set_option autoImplicit false
set_option relaxedAutoImplicit false

/-!
# Handing taint over at calls

What a call that is analyzed does not keep goes through the methods that it is analyzed in. Each of
them is entered with something for it: a static path as it is, and a path of an operand as one of
the parameter at the same position. When the method is left, taint of the heap at a parameter is
taint at the operand of that position, and what the method was entered with is mapped back to the
path of the caller.

The way back is exact for paths whose depth is the number of their selectors. A field whose name has
dots counts once when a path is extended by it, and as several selectors when the path is moved, so
a path with such a field comes back as another one.

## Main definitions

* `JvmTaint.Call.Passes`: the variable and the parameter at a position of a call.

## Main results

* `JvmTaint.AccessPath.exists_substitute?_ofVariable`: every path moves from variable to variable.
* `JvmTaint.TaintProblem.mem_leave_iff_of_mem_enter`: when a path comes back as it was.
* `JvmTaint.TaintProblem.handed_over_and_back`: taint is handed over and comes back.
* `JvmTaint.dotsProgram_comes_back_different`: a path that comes back as another one.
-/

namespace JvmTaint

namespace AccessPath

variable {p q : AccessPath} {k : Int} {name : String}

/-- Every path of a variable can be moved to another variable. Its selectors are counted anew, so
that the result is regular. -/
lemma exists_substitute?_ofVariable (hk : 0 ≤ k) (hnonneg : 0 ≤ p.depth) (hdots : p.DotFree)
    (hroot : p.rootedAt name = true) (name' : String) :
    ∃ q, p.substitute? (ofVariable name) (ofVariable name') k = some q ∧ q.Regular k ∧
      q.rootedAt name' = true := by
  obtain ⟨hstatic, hbase⟩ : p.isStatic = false ∧ p.base = name := by
    simpa [rootedAt] using hroot
  have hbegins : p.beginsWith (ofVariable name) = true := by
    simp [beginsWith, ofVariable, hbase, hstatic, hnonneg]
  have hmoved : ((ofVariable name').extendAll p.fields k).Regular k :=
    (regular_ofVariable name' hk).extendAll hdots
  refine ⟨{ (ofVariable name').extendAll p.fields k with
    truncated := ((ofVariable name').extendAll p.fields k).truncated || p.truncated }, ?_,
    hmoved.withTruncated _, ?_⟩
  · unfold substitute?
    rw [if_pos hbegins]
    exact congrArg some (if_pos hmoved.depth_le)
  · simp [rootedAt, ofVariable]

end AccessPath

/-- The variable `v` is passed at position `j` of the call, where the method has the parameter
`param`. -/
structure Call.Passes (c : Call) (callee : FlowGraph) (j : Nat) (v param : Value) : Prop where
  operand : c.operands[j]? = some v
  parameter : callee.params[j]? = some param
  isVariable : v.isVariable = true

/-- What is bound together is at the same position. -/
lemma mem_zip_iff_getElem? {α β : Type} {xs : List α} {ys : List β} {x : α} {y : β} :
    (x, y) ∈ xs.zip ys ↔ ∃ j : Nat, xs[j]? = some x ∧ ys[j]? = some y := by
  rw [List.mem_iff_getElem?]
  exact exists_congr fun j => List.getElem?_zip_eq_some

namespace TaintProblem

variable {p : TaintProblem} {g callee : FlowGraph} {i exit : Nat} {e : Edge} {d' : Fact}
  {path : AccessPath} {origin : Site} {m : String} {lhs : Option Value} {c : Call}

/-- A tainted path on entry to a method: static paths are visible, and those of an operand are bound
to the parameter at the same position. -/
lemma mem_enter_iff_passes (ha : actionAt g i = .invoke lhs c) :
    d' ∈ p.enter g i callee (.taint path origin m) ↔
      (path.isStatic = true ∧ d' = .taint path origin m) ∨
      ∃ j v param q, c.Passes callee j v param ∧ path.rootedAt v.render = true ∧
        path.substitute? v.path param.path p.k = some q ∧ d' = .taint q origin m := by
  rw [mem_enter ha]
  refine or_congr Iff.rfl ⟨?_, ?_⟩
  · rintro ⟨v, param, q, hmem, hvar, hroot, hq, rfl⟩
    obtain ⟨j, hv, hparam⟩ := mem_zip_iff_getElem?.mp hmem
    exact ⟨j, v, param, q, ⟨hv, hparam, hvar⟩, hroot, hq, rfl⟩
  · rintro ⟨j, v, param, q, hpass, hroot, hq, rfl⟩
    exact ⟨v, param, q, mem_zip_iff_getElem?.mpr ⟨j, hpass.operand, hpass.parameter⟩,
      hpass.isVariable, hroot, hq, rfl⟩

/-- Taint of the heap at a parameter is taint at the operand of the same position when the method is
left, unless the call assigns to that operand. -/
lemma mem_leave_of_passes (ha : actionAt g i = .invoke lhs c) {j : Nat} {v param : Value}
    (hpass : c.Passes callee j v param) {inside q : AccessPath} (hheap : inside.OnHeap)
    (hroot : inside.rootedAt param.render = true)
    (hlhs : ∀ l, lhs = some l → l.render ≠ v.render)
    (hq : inside.substitute? param.path v.path p.k = some q) :
    Fact.taint q origin m ∈ p.leave g i e callee exit (.taint inside origin m) := by
  have hstatic : inside.isStatic = false := by
    simp only [AccessPath.rootedAt, Bool.and_eq_true, Bool.not_eq_true'] at hroot
    exact hroot.1
  refine (mem_leave ha).mpr (.inr (.inr ⟨fun hdepth => ?_, param, v, q,
    mem_zip_iff_getElem?.mpr ⟨j, hpass.parameter, hpass.operand⟩, hroot, hpass.isVariable, hlhs,
    hq, rfl⟩))
  rcases hheap with h | h | h
  · rw [hstatic] at h
    cases h
  · exact absurd hdepth h
  · exact h

/-- What a call that is analyzed does not keep goes through the methods. -/
lemma handedOver_of_not_mem_callToReturn (ha : actionAt g i = .invoke lhs c)
    {targets : List MethodRef} (htargets : p.callees g i = some targets) (hne : targets ≠ [])
    (hlhs : ∀ l, lhs = some l → path.rootedAt l.render = false)
    (hreceiver : ∀ v, c.receiver = some v → (Fact.taint path origin m).isNullOf v = false)
    (h : Fact.taint path origin m ∉ p.callToReturn g i e targets (.taint path origin m)) :
    handedOver c path = true := by
  have hclear : (CallRules.of p.rules c).isOpaque = false := by
    rw [← Bool.not_eq_true]
    intro hopaque
    simp only [callees, ha, hopaque, if_true, Option.some.injEq] at htargets
    exact hne htargets.symm
  have hderef : p.dereferenced (.invoke lhs c) (.taint path origin m) = false := by
    cases hr : c.receiver with
    | none => simp [dereferenced, Action.dereferenced?, hr]
    | some v => simp [dereferenced, Action.dereferenced?, hr, hreceiver v hr]
  by_contra hkept
  exact h ((mem_callToReturn ha).mpr ⟨hderef, .inl ⟨rfl, fun _ => by simpa using hkept,
    not_sanitizes_of_not_isOpaque hclear, hlhs⟩⟩)

section

variable (ha : actionAt g i = .invoke lhs c) (hk : 1 ≤ p.k) (hbounded : path.Bounded p.k)
  (hdots : path.DotFree)

include ha hk hbounded hdots

/-- A method is entered with every path that goes through it.

**Proof sketch.** A path of an operand is at a position of the call, and the method has a parameter
at this position. -/
lemma enter_ne_nil_of_handedOver (hparams : callee.params.length = c.operands.length)
    (h : handedOver c path = true) : p.enter g i callee (.taint path origin m) ≠ [] := by
  simp only [handedOver, Bool.or_eq_true, List.any_eq_true, Bool.and_eq_true] at h
  rcases h with hstatic | ⟨v, hv, ⟨hvar, hroot⟩, -⟩
  · exact List.ne_nil_of_mem ((mem_enter ha).mpr (.inl ⟨hstatic, rfl⟩))
  · have hk₀ : 0 ≤ p.k := by omega
    obtain ⟨j, hj⟩ := List.mem_iff_getElem?.mp hv
    have hlt : j < callee.params.length := hparams ▸ (List.getElem?_eq_some_iff.mp hj).1
    obtain ⟨q, hq, -⟩ := AccessPath.exists_substitute?_ofVariable hk₀ hbounded.nonneg
      hdots hroot callee.params[j].render
    exact List.ne_nil_of_mem ((mem_enter_iff_passes ha).mpr (.inr
      ⟨j, v, _, q, ⟨hj, List.getElem?_eq_getElem hlt, hvar⟩, hroot, hq, rfl⟩))

/-- Taint of the heap that a method was entered with comes back as it was exactly if its path is
static or its depth is the number of its selectors.

**Proof sketch.** Whatever comes back was moved to a variable, so its depth is the number of its
selectors. For a path of which this is true as well, both moves change the root only. -/
lemma mem_leave_iff_of_mem_enter
    (hlhs : ∀ l, lhs = some l → path.rootedAt l.render = false) (hheap : path.OnHeap)
    (hd' : d' ∈ p.enter g i callee (.taint path origin m)) :
    Fact.taint path origin m ∈ p.leave g i e callee exit d' ↔
      path.isStatic = true ∨ path.depth = path.fields.length := by
  rcases (mem_enter_iff_passes ha).mp hd' with ⟨hstatic, rfl⟩ |
    ⟨j, v, param, q, hpass, hroot, hq, rfl⟩
  · exact iff_of_true ((mem_leave ha).mpr (.inl ⟨hstatic, rfl⟩)) (.inl hstatic)
  obtain ⟨hstatic, -⟩ : path.isStatic = false ∧ path.base = v.render := by
    simpa [AccessPath.rootedAt] using hroot
  have hk₀ : 0 ≤ p.k := by omega
  obtain ⟨q', hq', hregular, hroot'⟩ := AccessPath.exists_substitute?_ofVariable hk₀
    hbounded.nonneg hdots hroot param.render
  obtain rfl : q' = q := Option.some.inj (hq'.symm.trans hq)
  have hback : ∀ (v v' : Value) (q : AccessPath), q'.substitute? v.path v'.path p.k = some q →
      q.depth = q.fields.length := fun v v' q h =>
    (hregular.substitute? (AccessPath.regular_ofVariable v.render hk₀)
      (AccessPath.regular_ofVariable v'.render hk₀) h).1.depth_eq
  constructor
  · intro h
    rcases (mem_leave ha).mp h with ⟨hstatic', -⟩ | ⟨v₁, l, q, -, -, -, -, hq, heq⟩ |
      ⟨-, param₁, v₁, q, -, -, -, -, hq, heq⟩
    · simp [AccessPath.rootedAt, hstatic'] at hroot'
    · cases heq
      exact .inr (hback _ _ _ hq)
    · cases heq
      exact .inr (hback _ _ _ hq)
  · rintro (hstatic' | hdepth)
    · simp [hstatic] at hstatic'
    have hpath : path.Regular p.k := ⟨hdepth, hbounded.depth_le, hdots⟩
    -- both moves change the root only
    have hinside := hpath.substitute?_ofVariable hroot param.render
    rw [show v.path = AccessPath.ofVariable v.render from rfl,
      show param.path = AccessPath.ofVariable param.render from rfl, hinside,
      Option.some_inj] at hq
    subst hq
    refine mem_leave_of_passes ha hpass hheap hroot' (fun l hl heq => ?_) ?_
    · have := hlhs l hl
      rw [heq, hroot] at this
      cases this
    · rw [show v.path = AccessPath.ofVariable v.render from rfl,
        show param.path = AccessPath.ofVariable param.render from rfl,
        hregular.substitute?_ofVariable hroot' v.render]
      simp only [AccessPath.rootedAt, Bool.and_eq_true, beq_iff_eq] at hroot
      rw [← hroot.2]

end

/-- **Handing over.** Consider a call that is analyzed in some methods, a method with as many
parameters as the call has operands, and taint that is neither of a variable that the call assigns
to nor a null receiver. If the call does not keep the taint then the method is entered with
something for it. Whatever the method is entered with for taint of the heap comes back from every
exit as what it was, exactly if the path is static or its depth is the number of its selectors,
which is true unless the name of a field has dots. A path of an operand is bound to the parameter at
the same position, at each position where the variable is passed and nowhere else, and taint of the
heap at a parameter is bound back to the operand at its position. -/
theorem handed_over_and_back (p : TaintProblem) (hk : 1 ≤ p.k) (g : FlowGraph) (i : Nat)
    (lhs : Option Value) (c : Call) (haction : actionAt g i = .invoke lhs c)
    (targets : List MethodRef) (htargets : p.callees g i = some targets) (hne : targets ≠ [])
    (callee : FlowGraph) (hparams : callee.params.length = c.operands.length) (path : AccessPath)
    (origin : Site) (mark : String) (hbounded : path.Bounded p.k) (hdots : path.DotFree)
    (hlhs : ∀ l, lhs = some l → path.rootedAt l.render = false)
    (hreceiver : ∀ v, c.receiver = some v → (Fact.taint path origin mark).isNullOf v = false) :
    (∀ e, Fact.taint path origin mark ∉ p.callToReturn g i e targets (.taint path origin mark) →
      p.enter g i callee (.taint path origin mark) ≠ []) ∧
    (path.OnHeap → ∀ d' ∈ p.enter g i callee (.taint path origin mark), ∀ e exit,
      (Fact.taint path origin mark ∈ p.leave g i e callee exit d' ↔
        path.isStatic = true ∨ path.depth = path.fields.length)) ∧
    (∀ d' ∈ p.enter g i callee (.taint path origin mark), path.isStatic = false →
      ∃ j v param q, c.Passes callee j v param ∧ path.rootedAt v.render = true ∧
        path.substitute? v.path param.path p.k = some q ∧ d' = .taint q origin mark) ∧
    ∀ j v param, c.Passes callee j v param →
      (path.rootedAt v.render = true → ∃ q, path.substitute? v.path param.path p.k = some q ∧
        q.rootedAt param.render = true ∧
        Fact.taint q origin mark ∈ p.enter g i callee (.taint path origin mark)) ∧
      ∀ inside : AccessPath, inside.Bounded p.k → inside.DotFree → inside.OnHeap →
        inside.rootedAt param.render = true → (∀ l, lhs = some l → l.render ≠ v.render) →
        ∀ e exit, ∃ q, inside.substitute? param.path v.path p.k = some q ∧
          q.rootedAt v.render = true ∧
          Fact.taint q origin mark ∈ p.leave g i e callee exit (.taint inside origin mark) := by
  have hk₀ : 0 ≤ p.k := by omega
  refine ⟨fun e h => ?_, fun hheap d' hd' e exit => ?_, fun d' hd' hstatic => ?_, ?_⟩
  · exact enter_ne_nil_of_handedOver haction hk hbounded hdots hparams
      (handedOver_of_not_mem_callToReturn haction htargets hne hlhs hreceiver h)
  · exact mem_leave_iff_of_mem_enter haction hk hbounded hdots hlhs hheap hd'
  · refine ((mem_enter_iff_passes haction).mp hd').resolve_left fun h => ?_
    rw [hstatic] at h
    cases h.1
  · intro j v param hpass
    refine ⟨fun hroot => ?_, fun inside hin hindots hheap hroot hother e exit => ?_⟩
    · obtain ⟨q, hq, -, hqroot⟩ := AccessPath.exists_substitute?_ofVariable hk₀ hbounded.nonneg
        hdots hroot param.render
      exact ⟨q, hq, hqroot,
        (mem_enter_iff_passes haction).mpr (.inr ⟨j, v, param, q, hpass, hroot, hq, rfl⟩)⟩
    · obtain ⟨q, hq, -, hqroot⟩ := AccessPath.exists_substitute?_ofVariable hk₀ hin.nonneg
        hindots hroot v.render
      exact ⟨q, hq, hqroot, mem_leave_of_passes haction hpass hheap hroot hother hq⟩

end TaintProblem

/-- The call is analyzed in `Jar.keep`. -/
lemma jarSession_callees :
    (jarSession.problem (fieldRules "f") {}).callees jarMainGraph 0 = some [jarKeepRef] := by
  have hagrees : CodeBase.Agrees jarSession.code ({ code := jarCode } : Session).code :=
    jarCode_agrees
  have hsame := congrArg FlowProblem.callees (hagrees.flowProblem_eq (fieldRules "f") {})
  refine (congrFun (congrFun hsame jarMainGraph) 0).trans ?_
  cbv

/-- `Jar.main` hands the taint of the field `f` of its argument over to `Jar.keep`, and gets it
back. -/
theorem jarProgram_handed_over_and_back :
    let p := jarSession.problem (fieldRules "f") {}
    1 ≤ p.k ∧ TaintProblem.actionAt jarMainGraph 0 = .invoke none (jarCall jarKeepRef) ∧
      p.callees jarMainGraph 0 = some [jarKeepRef] ∧
      jarKeepGraph.params.length = (jarCall jarKeepRef).operands.length ∧
      jarPath.Bounded p.k ∧ jarPath.DotFree ∧ jarPath.OnHeap ∧
      (∀ e, jarTaint ∉ p.callToReturn jarMainGraph 0 e [jarKeepRef] jarTaint) ∧
      p.enter jarMainGraph 0 jarKeepGraph jarTaint ≠ [] ∧
      ∀ d' ∈ p.enter jarMainGraph 0 jarKeepGraph jarTaint, ∀ e exit,
        jarTaint ∈ p.leave jarMainGraph 0 e jarKeepGraph exit d' := by
  intro p
  have hk : 1 ≤ p.k := by decide
  have hcallees : p.callees jarMainGraph 0 = some [jarKeepRef] := jarSession_callees
  have hbounded : jarPath.Bounded p.k := ⟨by decide, by decide, by simp [jarPath]⟩
  have hdots : jarPath.DotFree := by simp [AccessPath.DotFree, jarPath]
  have hheap : jarPath.OnHeap := .inr (.inl (by decide))
  have hnot : ∀ e, jarTaint ∉ p.callToReturn jarMainGraph 0 e [jarKeepRef] jarTaint := by
    intro e
    have hgone : jarTaint ∉ (jarSession.problem (fieldRules "f") {}).callToReturn jarMainGraph 0
        ⟨0, 1, .normal, "", false⟩ [jarKeepRef] jarTaint := by decide
    exact hgone
  obtain ⟨henter, hback, -⟩ := TaintProblem.handed_over_and_back p hk jarMainGraph 0 none
    (jarCall jarKeepRef) rfl [jarKeepRef] hcallees (List.cons_ne_nil _ _) jarKeepGraph rfl jarPath
    ⟨jarMainRef, 0⟩ "" hbounded hdots (by simp) (by simp [jarCall])
  exact ⟨hk, rfl, hcallees, rfl, hbounded, hdots, hheap, hnot,
    henter ⟨0, 1, .normal, "", false⟩ (hnot _),
    fun d' hd' e exit => (hback hheap d' hd' e exit).mpr (.inr rfl)⟩

/-! ## A program with a path that comes back as another one -/

/-- A method that writes its second argument to the field `a.b` of the first one and hands the first
one to `Jar.keep`: `aload_0`, `aload_1`, `putfield`, `aload_0`, `invokestatic`, `return`. -/
def dotsMain : MethodDecl where
  name := "main"
  descriptor := "(LJar;LJar;)V"
  flags := AccessFlags.empty.insert .static
  maxLocals := 2
  code := some [
    { pc := 0, op := ⟨42⟩ },
    { pc := 1, op := ⟨43⟩ },
    { pc := 2, op := ⟨181⟩, owner := "Jar", name := "a.b", desc := "LJar;" },
    { pc := 5, op := ⟨42⟩ },
    { pc := 6, op := ⟨184⟩, owner := "Jar", name := "keep", desc := "(LJar;)V" },
    { pc := 9, op := ⟨177⟩ }]

/-- A method that returns: `return`. -/
def dotsKeep : MethodDecl where
  name := "keep"
  descriptor := "(LJar;)V"
  flags := AccessFlags.empty.insert .static
  maxLocals := 1
  code := some [{ pc := 0, op := ⟨177⟩ }]

/-- The type of the two methods. -/
def dotsType : ClassDecl where
  name := "Jar"
  flags := AccessFlags.empty.insert .interface
  methods := [some dotsMain, some dotsKeep]

/-- The program of the two methods. -/
def dotsProgram : Program where
  classes := some [some dotsType]

/-- The name of the first method. -/
def dotsMainRef : MethodRef := ⟨"Jar", "main", "(LJar;LJar;)V"⟩

/-- The flow graph of the first method. -/
def dotsMainGraph : FlowGraph where
  ref := dotsMainRef
  modifiers := AccessFlags.empty.insert .static
  params := [jarArg, .var (.arg 1) "LJar;"]
  statements := #[
    ⟨2, .fieldWrite jarArg ⟨"Jar", "a.b", "LJar;"⟩ (.var (.arg 1) "LJar;"), false⟩,
    ⟨6, .invoke none (jarCall jarKeepRef), false⟩,
    ⟨9, .ret none, false⟩,
    ⟨-1, .exit, true⟩]
  succs := #[
    [⟨0, 1, .normal, "", false⟩, ⟨0, 3, .exception, "", false⟩],
    [⟨1, 2, .normal, "", false⟩, ⟨1, 3, .exception, "", false⟩], [], []]
  exits := [2, 3]

/-- The flow graph of the second method. -/
def dotsKeepGraph : FlowGraph where
  ref := jarKeepRef
  modifiers := AccessFlags.empty.insert .static
  params := [jarArg]
  statements := #[⟨0, .ret none, false⟩, ⟨-1, .exit, true⟩]
  succs := #[[], []]
  exits := [0, 1]

/-- The class table of the program. -/
def dotsTable : ClassTable where
  classes := (∅ : Std.HashMap String ClassDecl).insert "Jar" dotsType
  order := ["Jar"]
  bodies := ((∅ : Std.HashMap MethodRef MethodBody).insert dotsMainRef
    (ClassTable.bodyOf dotsType dotsMain)).insert jarKeepRef (ClassTable.bodyOf dotsType dotsKeep)
  subtypes := ∅

/-- The class table with the flow graphs of the program. -/
def dotsCode : CodeBase where
  table := dotsTable
  graphs := ((∅ : Std.HashMap MethodRef (Except BuildError FlowGraph)).insert dotsMainRef
    (.ok dotsMainGraph)).insert jarKeepRef (.ok dotsKeepGraph)

lemma build_dotsProgram :
    FlowGraph.build (some dotsTable) (ClassTable.bodyOf dotsType dotsMain) = .ok dotsMainGraph ∧
      FlowGraph.build (some dotsTable) (ClassTable.bodyOf dotsType dotsKeep) =
        .ok dotsKeepGraph := by
  decide +kernel

/-- The flow graphs are those that are built. -/
lemma dotsCode_agrees : (CodeBase.ofTable dotsTable).Agrees dotsCode :=
  ((CodeBase.Records.nil.insert dotsMainRef build_dotsProgram.1).insert jarKeepRef
    build_dotsProgram.2).agrees

/-- The second argument is tainted on entry, and taint of the first one is reported at every call.
-/
def dotsSpec : ProblemSpec where
  name := "second"
  sinks := [{ positions := ["arg0"] }]
  entryPoints := [{ positions := ["arg1"] }]

/-- The rules about the arguments. -/
def dotsRules : RuleSet where
  name := "second"
  rules := [
    { kind := .sink, matcher := .any, positions := [⟨.arg 0, []⟩] },
    { kind := .entryPoint, matcher := .any, positions := [⟨.arg 1, []⟩], index := 1 }]

lemma ofSpec_dotsSpec : RuleSet.ofSpec dotsSpec = .ok dotsRules := by
  simp [RuleSet.ofSpec, dotsSpec, RuleSet.specsOf, Rule.ofSpec, Rule.parsePositions, dotsRules,
    CodeIdentifier.matcher_empty, Position.parse_written, Except.mapError, bind, Except.bind, pure,
    Except.pure, List.zipIdx]

/-- The field `a.b` of the first argument, which counts once. -/
def dotsPath : AccessPath := { base := "arg0", fields := ["a", "b"], depth := 1 }

/-- The taint of the field after the write. -/
def dotsTaint : Fact := .taint dotsPath ⟨dotsMainRef, 0⟩ ""

/-- The session of the program. -/
def dotsSession : Session := { code := .ofTable dotsTable }

section

variable {k : Int} (hk : k = 1 ∨ k = 2)

include hk

/-- The call is analyzed in `Jar.keep`. -/
lemma dotsSession_callees :
    (dotsSession.problem dotsRules { depth := k }).callees dotsMainGraph 1 = some [jarKeepRef] := by
  have hagrees : CodeBase.Agrees dotsSession.code ({ code := dotsCode } : Session).code :=
    dotsCode_agrees
  have hsame := congrArg FlowProblem.callees (hagrees.flowProblem_eq dotsRules { depth := k })
  refine (congrFun (congrFun hsame dotsMainGraph) 1).trans ?_
  rcases hk with rfl | rfl <;> cbv

/-- The taint of the field is found before the call, and not behind it. -/
lemma dotsSession_tabulate :
    ∃ tab, dotsSession.tabulate [dotsMainRef] dotsRules { depth := k } false = (tab, .complete) ∧
      tab.reached ⟨dotsMainRef, .taint (.ofVariable "arg1") ⟨dotsMainRef, 0⟩ "", 1, dotsTaint⟩ =
        true ∧
      tab.reached ⟨dotsMainRef, .taint (.ofVariable "arg1") ⟨dotsMainRef, 0⟩ "", 2, dotsTaint⟩ =
        false := by
  have hagrees : CodeBase.Agrees dotsSession.code ({ code := dotsCode } : Session).code :=
    dotsCode_agrees
  have hrun : (fun r : Tabulation Fact × SolveOutcome =>
      (r.2,
        r.1.reached ⟨dotsMainRef, .taint (.ofVariable "arg1") ⟨dotsMainRef, 0⟩ "", 1, dotsTaint⟩,
        r.1.reached ⟨dotsMainRef, .taint (.ofVariable "arg1") ⟨dotsMainRef, 0⟩ "", 2, dotsTaint⟩))
      (({ code := dotsCode } : Session).tabulate [dotsMainRef] dotsRules { depth := k } false) =
      (.complete, true, false) := by
    rcases hk with rfl | rfl <;> cbv
  rw [← hagrees.tabulate_eq] at hrun
  simp only [Prod.mk.injEq] at hrun
  exact ⟨_, Prod.ext rfl hrun.1, hrun.2⟩

end

/-- **A path that comes back as another one.** The field `a.b` counts once when it is written, and
as two selectors when its path is moved to the parameter of `Jar.keep`. Its taint is found before
the call, which does not keep it; the method is entered with something for it, which does not come
back as what it was, and the taint is not found behind the call. This is so whether one selector or
two are within the bound. -/
theorem dotsProgram_comes_back_different :
    ClassTable.ofProgram dotsProgram = .ok dotsTable ∧ dotsSession.code = .ofTable dotsTable ∧
      dotsSession.code.graph dotsMainRef = .ok dotsMainGraph ∧
      dotsSession.code.graph jarKeepRef = .ok dotsKeepGraph ∧
      TaintProblem.actionAt dotsMainGraph 1 = .invoke none (jarCall jarKeepRef) ∧
      dotsKeepGraph.params.length = (jarCall jarKeepRef).operands.length ∧
      RuleSet.ofSpec dotsSpec = .ok dotsRules ∧ dotsPath.DotFree ∧ dotsPath.OnHeap ∧
      ∀ k ∈ [(1 : Int), 2], let p := dotsSession.problem dotsRules { depth := k }
        p.k = k ∧ p.callees dotsMainGraph 1 = some [jarKeepRef] ∧ dotsPath.Bounded p.k ∧
        (∀ e, dotsTaint ∉ p.callToReturn dotsMainGraph 1 e [jarKeepRef] dotsTaint) ∧
        p.enter dotsMainGraph 1 dotsKeepGraph dotsTaint ≠ [] ∧
        (∀ d' ∈ p.enter dotsMainGraph 1 dotsKeepGraph dotsTaint, ∀ e exit,
          dotsTaint ∉ p.leave dotsMainGraph 1 e dotsKeepGraph exit d') ∧
        ∃ tab, dotsSession.tabulate [dotsMainRef] dotsRules { depth := k } false =
            (tab, .complete) ∧
          tab.reached
            ⟨dotsMainRef, .taint (.ofVariable "arg1") ⟨dotsMainRef, 0⟩ "", 1, dotsTaint⟩ = true ∧
          tab.reached
            ⟨dotsMainRef, .taint (.ofVariable "arg1") ⟨dotsMainRef, 0⟩ "", 2, dotsTaint⟩ =
              false := by
  have hagrees : CodeBase.Agrees dotsSession.code ({ code := dotsCode } : Session).code :=
    dotsCode_agrees
  have hdots : dotsPath.DotFree := by simp [AccessPath.DotFree, dotsPath]
  have hheap : dotsPath.OnHeap := .inr (.inl (by decide))
  have haction : TaintProblem.actionAt dotsMainGraph 1 = .invoke none (jarCall jarKeepRef) := rfl
  refine ⟨by cbv, rfl, by rw [hagrees.graph]; cbv, by rw [hagrees.graph]; cbv, haction, rfl,
    ofSpec_dotsSpec, hdots, hheap, ?_⟩
  intro k hk p
  have hk : k = 1 ∨ k = 2 := by simpa using hk
  have hpk : p.k = k := by rcases hk with rfl | rfl <;> rfl
  have hle : 1 ≤ p.k := by omega
  have hbounded : dotsPath.Bounded p.k := ⟨by decide, hle, by simp [dotsPath]⟩
  refine ⟨hpk, dotsSession_callees hk, hbounded, fun e => ?_, ?_, fun d' hd' e exit h => ?_,
    dotsSession_tabulate hk⟩
  · -- no rule is about the call, and the edge is not looked at
    have hgone : dotsTaint ∉ p.callToReturn dotsMainGraph 1 ⟨1, 2, .normal, "", false⟩ [jarKeepRef]
        dotsTaint := by
      rcases hk with rfl | rfl <;> decide
    exact hgone
  · rcases hk with rfl | rfl <;> decide
  · rcases (TaintProblem.mem_leave_iff_of_mem_enter haction hle hbounded hdots (by simp) hheap
      hd').mp h with hstatic | hdepth
    · cases hstatic
    · cases hdepth

end JvmTaint
