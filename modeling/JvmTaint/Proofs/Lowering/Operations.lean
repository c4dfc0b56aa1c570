import JvmTaint.Proofs.Lowering.Moves
import Mathlib.Tactic.IntervalCases

set_option autoImplicit false
set_option relaxedAutoImplicit false

/-!
# Lowering single operations

Every operation that is lowered does on the store what it does on the operand-stack machine, if the
frame describes the machine before it. There is one exception: the words of an element that `aaload`
reads are taken from the recorded type of the array, and not from the instruction, so a reference
that is read from an array recorded as one of longs is taken for a long.

## Main definitions

* `JvmTaint.Frame.misreads`: an array element is recorded with another number of words than it
  takes.

## Main results

* `JvmTaint.Frame.misreads_aaload_iff`: `aaload` misreads arrays recorded as arrays of longs or of
  doubles.
* `JvmTaint.Describes.arrayLoad_iff`: the frame describes the machine after an array element was
  read if and only if it did not misread it.
* `JvmTaint.step_simulates`: every operation has the same outcome on both sides.
-/

namespace JvmTaint

variable {V : Type} {I : Interpretation V} {params : ParamSlots} {counted : Prop} {caught : V}
  {s₀ s : Store V} {f f' : Frame} {m : Machine V}

/-! ## Array elements -/

/-- The type that the lowering gives to an element of an array of a type. -/
def elementType (array element : String) (refine : Bool) : String :=
  match refine, array.toList with
  | true, '[' :: c :: cs => String.ofList (c :: cs)
  | _, _ => element

/-- Whether the operation reads an array element that is recorded with another number of words than
the elements that it reads. The array is below the index. -/
def Frame.misreads (f : Frame) : Operation → Bool
  | .arrayLoad element refine =>
    f.stack.dropLast.getLast?.any fun array =>
      (Kind.ofDescriptor (elementType array.type element refine)).category !=
        (Kind.ofDescriptor element).category
  | _ => false

/-- Whether the operation counts the words of the values that it takes, and not the values. -/
def Operation.countsWords : Operation → Bool
  | pop _ | dup .. => true
  | _ => false

/-- An operation that counts words reads no array. -/
lemma Frame.misreads_of_countsWords (f : Frame) {operation : Operation}
    (h : operation.countsWords = true) : f.misreads operation = false := by
  cases operation <;> simp_all [Operation.countsWords, Frame.misreads]

/-- Whether a type is that of arrays of longs or of doubles. -/
def isWideArray (type : String) : Bool :=
  match type.toList with
  | '[' :: 'J' :: _ | '[' :: 'D' :: _ => true
  | _ => false

/-- The type that `aaload` takes from an array has the one word of a reference if and only if the
array is not recorded as one of longs or of doubles. -/
lemma category_elementType_eq_one_iff (array : String) :
    (Kind.ofDescriptor (elementType array "" true)).category = 1 ↔ isWideArray array = false := by
  unfold elementType isWideArray
  rcases array.toList with _ | ⟨c, _ | ⟨c', cs⟩⟩
  · simp [Kind.ofDescriptor, Kind.category]
  · simp [Kind.ofDescriptor, Kind.category]
  · by_cases hc : c = '['
    · subst hc
      simp only [Kind.ofDescriptor, String.toList_ofList]
      split <;> simp_all [Kind.category]
    · simp [hc, Kind.ofDescriptor, Kind.category]

/-- `aaload` misreads exactly the arrays that are recorded as arrays of longs or of doubles. -/
theorem Frame.misreads_aaload_iff (f : Frame) :
    f.misreads (.arrayLoad "" true) = true ↔
      ∃ array, f.stack.dropLast.getLast? = some array ∧ isWideArray array.type = true := by
  have hone : (Kind.ofDescriptor "").category = 1 := by decide
  simp only [Frame.misreads, Option.any_eq_true, hone, bne_iff_ne, ne_eq,
    category_elementType_eq_one_iff, Bool.not_eq_false]

/-- No other array load misreads. -/
lemma Frame.misreads_of_not_refine (f : Frame) (element : String) :
    f.misreads (.arrayLoad element false) = false := by
  simp [Frame.misreads, elementType]

/-! ## Popping on both sides -/

/-- Both sides pop first: the slot holds the cell, and the frame still describes the machine. -/
lemma Describes.pop_bind (h : Describes I params counted f s m)
    {k : Slot × Frame → Except Flaw Frame} {α : Type} {k' : Cell V × Machine V → Option α}
    {P : α → Prop} (hstep : f.pop >>= k = .ok f')
    (hnext : ∀ slot cell m₁, slot.Holds I counted s.env f.scratch cell →
      Describes I params counted { f with stack := f.stack.dropLast } s m₁ →
      f.stack.getLast? = some slot → k (slot, { f with stack := f.stack.dropLast }) = .ok f' →
      ∃ out, k' (cell, m₁) = some out ∧ P out) :
    ∃ out, m.pop >>= k' = some out ∧ P out := by
  obtain ⟨⟨slot, f₁⟩, hpop, hk⟩ := bind_eq_ok.mp hstep
  obtain ⟨cell, m₁, hm, hc, hd, rfl, hlast⟩ := h.pop hpop
  obtain ⟨out, hout, hP⟩ := hnext slot cell m₁ hc hd hlast hk
  exact ⟨out, by rw [hm]; exact hout, hP⟩

/-- Both sides pop `n` values first. -/
lemma Describes.popN_bind (h : Describes I params counted f s m)
    {k : List Slot × Frame → Except Flaw Frame} {α : Type}
    {k' : List (Cell V) × Machine V → Option α} {P : α → Prop} {n : Nat}
    (hstep : f.popN n >>= k = .ok f')
    (hnext : ∀ slots cells m₁, List.Forall₂ (Slot.Holds I counted s.env f.scratch) slots cells →
      Describes I params counted { f with stack := f.stack.take (f.stack.length - n) } s m₁ →
      k (slots, { f with stack := f.stack.take (f.stack.length - n) }) = .ok f' →
      ∃ out, k' (cells, m₁) = some out ∧ P out) :
    ∃ out, m.popN n >>= k' = some out ∧ P out := by
  obtain ⟨⟨slots, f₁⟩, hpop, hk⟩ := bind_eq_ok.mp hstep
  obtain ⟨cells, m₁, hm, hheld, hd, rfl⟩ := h.popN hpop
  obtain ⟨out, hout, hP⟩ := hnext slots cells m₁ hheld hd hk
  exact ⟨out, by rw [hm]; exact hout, hP⟩

/-! ## Local variables -/

/-- A value is stored to a local variable. -/
lemma Describes.store (h : Describes I params counted f s m)
    (hrun : Store.run I caught f.actions s₀ = (s, none)) (hp : params.Separate) {op : Opcode}
    {slot : Int} (hstep : f.step params op (.store slot) = .ok f') :
    ∃ out, m.step I op (.store slot) = some out ∧
      Simulates I params counted f' (Store.run I caught f'.actions s₀) out := by
  refine h.pop_bind hstep fun top cell m₁ hc hd _ hf' => ?_
  obtain ⟨type, hvar⟩ := hp.variable_eq slot top.type
  simp only [hvar] at hf'
  obtain rfl := Except.ok.inj hf'
  obtain ⟨s₁, hsaves, hd₁, hfree⟩ :=
    hd.protect hrun hp (Var.below_of_not_temp (hp.not_temp slot) _) type
  refine ⟨_, rfl, ?_⟩
  rw [Frame.emit, Store.run_concat hsaves.run, Store.exec, hsaves.eval_eq hc.below, hc.value]
  refine Describes.stays ?_
  exact (hd₁.setLocal hp hfree cell.value).reframe rfl rfl

/-- A constant is added to a local variable. -/
lemma Describes.increment (h : Describes I params counted f s m)
    (hrun : Store.run I caught f.actions s₀ = (s, none)) (hp : params.Separate) {op : Opcode}
    {slot amount : Int} (hstep : f.step params op (.increment slot amount) = .ok f') :
    ∃ out, m.step I op (.increment slot amount) = some out ∧
      Simulates I params counted f' (Store.run I caught f'.actions s₀) out := by
  obtain ⟨type, hvar⟩ := hp.variable_eq slot "I"
  have hbelow := Var.below_of_not_temp (hp.not_temp slot) f.scratch
  simp only [Frame.step, hvar] at hstep
  obtain rfl := Except.ok.inj hstep
  obtain ⟨s₁, hsaves, hd₁, hfree⟩ := h.protect hrun hp hbelow type
  refine ⟨_, rfl, ?_⟩
  rw [Frame.emit, Store.run_concat hsaves.run, Store.exec_of_operator rfl]
  simp only [Action.operands, Computation.operands, List.map_cons, List.map_nil,
    Interpretation.eval_var, Interpretation.eval_const, hsaves.env _ hbelow, h.locals slot]
  exact hd₁.perform fun x => ((hd₁.logged _).setLocal hp hfree x).reframe rfl rfl

/-! ## Array elements on both sides -/

/-- An array element is read, and not misread. -/
lemma Describes.arrayLoad (h : Describes I params counted f s m)
    (hrun : Store.run I caught f.actions s₀ = (s, none)) (hp : params.Separate) {op : Opcode}
    {element : String} {refine : Bool}
    (hread : counted → f.misreads (.arrayLoad element refine) = false)
    (hstep : f.step params op (.arrayLoad element refine) = .ok f') :
    ∃ out, m.step I op (.arrayLoad element refine) = some out ∧
      Simulates I params counted f' (Store.run I caught f'.actions s₀) out := by
  refine h.pop_bind hstep fun index cell₁ m₁ hc₁ hd₁ _ hstep => ?_
  refine hd₁.pop_bind hstep fun array cell₂ m₂ hc₂ hd₂ harray hf' => ?_
  have hwords : counted → (Kind.ofDescriptor (elementType array.type element refine)).category =
      (Kind.ofDescriptor element).category := by
    intro hcounted
    simpa [Frame.misreads, harray] using hread hcounted
  obtain rfl := Except.ok.inj hf'
  refine ⟨_, rfl, hd₂.perform_push hrun hp rfl rfl rfl ?_ ?_ hwords⟩
  · simpa [Action.operands] using ⟨hc₂.below, hc₁.below⟩
  · simp [Action.operands, hc₂.value, hc₁.value]

/-- **The frame describes the machine, with the words of the values, after an array element was read
if and only if it did not misread it.**

**Proof sketch.** If the element is misread, the slot that is pushed takes another number of words
than the cell that the machine pushes; otherwise `Describes.arrayLoad` applies. -/
theorem Describes.arrayLoad_iff (h : Describes I params True f s m)
    (hrun : Store.run I caught f.actions s₀ = (s, none)) (hp : params.Separate) {op : Opcode}
    {element : String} {refine : Bool} {m' : Machine V}
    (hstep : f.step params op (.arrayLoad element refine) = .ok f')
    (hm : m.step I op (.arrayLoad element refine) = some (m', none)) :
    Describes I params True f' (Store.run I caught f'.actions s₀).1 m' ↔
      f.misreads (.arrayLoad element refine) = false := by
  constructor
  · intro hd
    obtain ⟨⟨index, f₁⟩, hpop₁, hstep⟩ := bind_eq_ok.mp hstep
    obtain ⟨⟨array, f₂⟩, hpop₂, hf'⟩ := bind_eq_ok.mp hstep
    obtain ⟨cell₁, m₁, hm₁, -, hd₁, rfl, -⟩ := h.pop hpop₁
    obtain ⟨cell₂, m₂, hm₂, -, hd₂, rfl, harray⟩ := hd₁.pop hpop₂
    obtain rfl := Except.ok.inj hf'
    simp only [Machine.step, hm₁, hm₂, Option.bind_eq_bind, Option.bind_some] at hm
    have hpushed := Option.some.inj hm
    unfold Machine.perform at hpushed
    split at hpushed
    · simp at hpushed
    · obtain ⟨rfl, -⟩ := Prod.mk.inj hpushed
      have hstack := hd.stack
      simp only [Frame.push, Machine.push, List.reverse_concat] at hstack
      have hwords : (Kind.ofDescriptor (elementType array.type element refine)).category =
          (Kind.ofDescriptor element).category := (List.forall₂_cons.mp hstack).1.words trivial
      simpa [Frame.misreads, harray] using hwords
  · intro hread
    obtain ⟨out, hout, hsim⟩ := h.arrayLoad hrun hp (fun _ => hread) hstep
    obtain rfl := Option.some.inj (hm.symm.trans hout)
    exact hsim.describes rfl

/-! ## Counting words -/

/-- Words are popped. -/
lemma Describes.popWords (h : Describes I params counted f s m)
    (hrun : Store.run I caught f.actions s₀ = (s, none)) {op : Opcode} {words : Nat}
    (hcounted : counted) (hstep : f.step params op (.pop words) = .ok f') :
    ∃ out, m.step I op (.pop words) = some out ∧
      Simulates I params counted f' (Store.run I caught f'.actions s₀) out := by
  obtain ⟨⟨taken, rest⟩, hpop, hf'⟩ := bind_eq_ok.mp hstep
  obtain ⟨taken', rest', htake, -, hrest⟩ :=
    takeWords_of_popWords (fun _ _ hc => hc.words hcounted) hpop h.stack
  obtain rfl := Except.ok.inj hf'
  refine ⟨({ m with stack := rest' }, none), by simp only [Machine.step, htake]; rfl, ?_⟩
  rw [hrun]
  exact Describes.stays ⟨hrest, h.locals, h.log⟩

/-- Words are copied below other words. -/
lemma Describes.dup (h : Describes I params counted f s m)
    (hrun : Store.run I caught f.actions s₀ = (s, none)) {op : Opcode} {top below : Nat}
    (hcounted : counted) (hstep : f.step params op (.dup top below) = .ok f') :
    ∃ out, m.step I op (.dup top below) = some out ∧
      Simulates I params counted f' (Store.run I caught f'.actions s₀) out := by
  obtain ⟨⟨above, stack₁⟩, hpop₁, hstep⟩ := bind_eq_ok.mp hstep
  obtain ⟨⟨under, stack₂⟩, hpop₂, hf'⟩ := bind_eq_ok.mp hstep
  obtain ⟨above', rest₁, htake₁, habove, hrest₁⟩ :=
    takeWords_of_popWords (fun _ _ hc => hc.words hcounted) hpop₁ h.stack
  obtain ⟨under', rest₂, htake₂, hunder, hrest₂⟩ :=
    takeWords_of_popWords (fun _ _ hc => hc.words hcounted) hpop₂ hrest₁
  obtain rfl := Except.ok.inj hf'
  refine ⟨({ m with stack := above' ++ under' ++ above' ++ rest₂ }, none),
    by simp only [Machine.step, htake₁, htake₂, Option.bind_eq_bind, Option.bind_some]; rfl, ?_⟩
  rw [hrun]
  refine Describes.stays ⟨?_, h.locals, h.log⟩
  simp only [List.reverse_append, ← List.append_assoc]
  exact List.rel_append (List.rel_append (List.rel_append habove hunder) habove) hrest₂

/-! ## Departures -/

/-- A departure after the stack was settled. -/
lemma Describes.departs (h : Describes I params counted f s m)
    (hrun : Store.run I caught f.actions s₀ = (s, none)) (hp : params.Separate)
    {keep kept : List Value} {g : Frame} (hkeep : ∀ v ∈ keep, v.Below f.scratch)
    (hnormal : f.normalize keep = (kept, g)) {a : Action Int} {d : Departure V}
    (ha : ∀ s' : Store V, kept.map (I.eval s'.env) = keep.map (I.eval s.env) →
      s'.exec I caught a = (s', some d)) :
    Simulates I params counted (g.emit a) (Store.run I caught (g.emit a).actions s₀)
      (m, some d) := by
  obtain ⟨s', hrun', hd, hsettled, hkept⟩ := h.normalize hrun hp hkeep
  rw [hnormal] at hrun' hd hkept
  rw [Frame.emit, Store.run_concat hrun', ha s' hkept]
  refine Describes.leaves ?_ d fun _ => hsettled
  exact hd.reframe rfl rfl

/-- A departure that does not go on to another block of the normal flow. -/
lemma Describes.ends (h : Describes I params counted f s m)
    (hrun : Store.run I caught f.actions s₀ = (s, none)) {a : Action Int} {d : Departure V}
    (ha : s.exec I caught a = (s, some d)) (hd : d.continues = false) :
    Simulates I params counted (f.emit a) (Store.run I caught (f.emit a).actions s₀)
      (m, some d) := by
  rw [Frame.emit, Store.run_concat hrun, ha]
  refine Describes.leaves ?_ d (by simp [hd])
  exact h.reframe rfl rfl

/-- The values to be kept come back one by one. -/
lemma Describes.length_normalize (h : Describes I params counted f s m)
    (hrun : Store.run I caught f.actions s₀ = (s, none)) (hp : params.Separate)
    {keep kept : List Value} {g : Frame} (hkeep : ∀ v ∈ keep, v.Below f.scratch)
    (hnormal : f.normalize keep = (kept, g)) : kept.length = keep.length := by
  obtain ⟨s', -, -, -, hkept⟩ := h.normalize hrun hp hkeep
  rw [hnormal] at hkept
  simpa using congrArg List.length hkept

/-- A branch on two operands compares their values. -/
lemma Describes.branchOn (h : Describes I params counted f s m)
    (hrun : Store.run I caught f.actions s₀ = (s, none)) (hp : params.Separate)
    (left right : Value) {comparison : Comparison} {target : Int} (hleft : left.Below f.scratch)
    (hright : right.Below f.scratch)
    (hf' : (match f.normalize [left, right] with
      | ([left, right], f) => Except.ok (f.emit (.branch ⟨comparison, left, right⟩ target))
      | (_, f) => (Except.ok (f.emit (.branch ⟨comparison, left, right⟩ target)) :
          Except Flaw Frame)) = .ok f') :
    Simulates I params counted f' (Store.run I caught f'.actions s₀)
      (m, some (.branch comparison (I.eval s.env left) (I.eval s.env right) target)) := by
  have hkeep : ∀ v ∈ [left, right], v.Below f.scratch := by simp [hleft, hright]
  rcases hnormal : f.normalize [left, right] with ⟨kept, g⟩
  obtain ⟨left', right', rfl⟩ :=
    List.length_eq_two.mp (h.length_normalize hrun hp hkeep hnormal)
  simp only [hnormal] at hf'
  obtain rfl := Except.ok.inj hf'
  refine h.departs hrun hp hkeep hnormal fun s' hkept => ?_
  simp only [List.map_cons, List.map_nil, List.cons.injEq, and_true] at hkept
  rw [Store.exec, hkept.1, hkept.2]

/-- The operands of a branch are the values that the machine compares. -/
lemma Describes.branch (h : Describes I params counted f s m)
    (hrun : Store.run I caught f.actions s₀ = (s, none)) (hp : params.Separate) {op : Opcode}
    {test : Test} {comparison : Comparison} {target : Int}
    (hstep : f.step params op (.branch test comparison target) = .ok f') :
    ∃ out, m.step I op (.branch test comparison target) = some out ∧
      Simulates I params counted f' (Store.run I caught f'.actions s₀) out := by
  cases test with
  | zero =>
    simp only [Machine.step, Machine.compared, bind_assoc, pure_bind]
    refine h.pop_bind hstep fun top cell m₁ hc hd _ hf' => ⟨_, rfl, ?_⟩
    rw [← hc.value]
    exact hd.branchOn hrun hp top.value (.const "0" "I") hc.below (by simp) hf'
  | null =>
    simp only [Machine.step, Machine.compared, bind_assoc, pure_bind]
    refine h.pop_bind hstep fun top cell m₁ hc hd _ hf' => ⟨_, rfl, ?_⟩
    rw [← hc.value]
    exact hd.branchOn hrun hp top.value (.const "null" "") hc.below (by simp) hf'
  | pair =>
    simp only [Machine.step, Machine.compared, bind_assoc, pure_bind]
    refine h.pop_bind hstep fun top right m₁ hc₁ hd₁ _ hstep => ?_
    refine hd₁.pop_bind hstep fun under left m₂ hc₂ hd₂ _ hf' => ⟨_, rfl, ?_⟩
    rw [← hc₁.value, ← hc₂.value]
    exact hd₂.branchOn hrun hp under.value top.value hc₂.below hc₁.below hf'

/-- The key of a switch is the value that the machine pops. -/
lemma Describes.switch (h : Describes I params counted f s m)
    (hrun : Store.run I caught f.actions s₀ = (s, none)) (hp : params.Separate) {op : Opcode}
    {targets : List Int} (hstep : f.step params op (.switch targets) = .ok f') :
    ∃ out, m.step I op (.switch targets) = some out ∧
      Simulates I params counted f' (Store.run I caught f'.actions s₀) out := by
  refine h.pop_bind hstep fun top cell m₁ hc hd _ hf' => ⟨_, rfl, ?_⟩
  have hkeep : ∀ v ∈ [top.value], v.Below f.scratch := by simp [hc.below]
  rcases hnormal : Frame.normalize { f with stack := f.stack.dropLast } [top.value] with ⟨kept, g⟩
  obtain ⟨key, rfl⟩ := List.length_eq_one_iff.mp (hd.length_normalize hrun hp hkeep hnormal)
  simp only [hnormal] at hf'
  obtain rfl := Except.ok.inj hf'
  refine hd.departs hrun hp hkeep hnormal fun s' hkept => ?_
  have hkey : I.eval s'.env key = cell.value := by simpa [hc.value] using hkept
  rw [Store.exec, hkey]

/-! ## Calls -/

/-- A call on operands, with or without a result. -/
lemma Describes.invokeOn (h : Describes I params counted f s m)
    (hrun : Store.run I caught f.actions s₀ = (s, none)) (hp : params.Separate) (call : Call)
    (result : Option FieldType) {xs : List V} (hbelow : ∀ v ∈ call.operands, v.Below f.scratch)
    (hxs : call.operands.map (I.eval s.env) = xs)
    (hf' : (match result with
      | none => Except.ok (f.emit (.invoke none call))
      | some t => (Except.ok (((f.result t.render).2.emit
          (.invoke (some (f.result t.render).1) call)).push t.kind t.render (f.result t.render).1) :
            Except Flaw Frame)) = .ok f') :
    Simulates I params counted f' (Store.run I caught f'.actions s₀)
      (m.perform I ⟨.invoke call.kind call.target, xs⟩ (Machine.pushResult result)) := by
  cases result with
  | none =>
    obtain rfl := Except.ok.inj hf'
    exact h.perform_ignore hrun rfl rfl hxs
  | some t =>
    obtain rfl := Except.ok.inj hf'
    exact h.perform_push hrun hp rfl rfl rfl hbelow hxs fun _ => rfl

/-- A call takes the receiver and the arguments that the machine pops. -/
lemma Describes.invoke (h : Describes I params counted f s m)
    (hrun : Store.run I caught f.actions s₀ = (s, none)) (hp : params.Separate) {op : Opcode}
    {kind : InvokeKind} {target : MethodRef} {d : MethodDescriptor}
    (hstep : f.step params op (.invoke kind target d) = .ok f') :
    ∃ out, m.step I op (.invoke kind target d) = some out ∧
      Simulates I params counted f' (Store.run I caught f'.actions s₀) out := by
  refine h.popN_bind hstep fun args cells m₁ hargs hd hstep => ?_
  have hbelow := below_of_holds hargs
  have hvalues := map_eval_of_holds hargs
  by_cases hkind : kind.hasReceiver = true
  · simp only [hkind, if_true, pure_bind] at hstep
    simp only [Machine.popReceiver, hkind, if_true, bind_assoc, pure_bind]
    refine hd.pop_bind hstep fun top cell m₂ hc hd₂ _ hf' => ⟨_, rfl, ?_⟩
    refine hd₂.invokeOn hrun hp ⟨kind, target, some top.value, args.map Slot.value⟩ d.result
      ?_ ?_ hf'
    · simpa [Call.operands] using ⟨hc.below, by simpa using hbelow⟩
    · simp only [Call.operands, Option.toList_some, List.map_append, hvalues]
      simp [hc.value]
  · simp only [hkind, Bool.false_eq_true, if_false, pure_bind] at hstep
    simp only [Machine.popReceiver, hkind]
    refine ⟨_, rfl, ?_⟩
    refine hd.invokeOn hrun hp ⟨kind, target, none, args.map Slot.value⟩ d.result ?_ ?_ hstep
    · simpa [Call.operands] using hbelow
    · simp only [Call.operands, Option.toList_none, List.nil_append, hvalues]

/-! ## Expressions -/

/-- An expression is computed into the temporary on top of the stack. -/
lemma Describes.assign (h : Describes I params counted f s m)
    (hrun : Store.run I caught f.actions s₀ = (s, none)) (hp : params.Separate) {kind : Kind}
    {c : Computation} {type : String} {operator : Operator} {xs : List V} {words : Nat}
    (ha : Expr.operator? ⟨c, type⟩ = some operator) (hbelow : ∀ v ∈ c.operands, v.Below f.scratch)
    (hxs : c.operands.map (I.eval s.env) = xs) (hwords : counted → kind.category = words) :
    Simulates I params counted (f.assign kind c type)
      (Store.run I caught (f.assign kind c type).actions s₀)
      (m.perform I ⟨operator, xs⟩ (Machine.push words)) :=
  h.perform_push (a := .assign (.ofSlot f.stack.length type) ⟨c, type⟩) hrun hp rfl ha rfl hbelow
    hxs hwords

/-- An expression with one operand. -/
lemma Describes.assign_unary (h : Describes I params counted f s m)
    (hrun : Store.run I caught f.actions s₀ = (s, none)) (hp : params.Separate) {slot : Slot}
    {cell : Cell V} (hc : slot.Holds I counted s.env f.scratch cell) {kind : Kind} {c : Computation}
    {type : String} {operator : Operator} {words : Nat}
    (ha : Expr.operator? ⟨c, type⟩ = some operator) (hoperands : c.operands = [slot.value])
    (hwords : counted → kind.category = words) :
    Simulates I params counted (f.assign kind c type)
      (Store.run I caught (f.assign kind c type).actions s₀)
      (m.perform I ⟨operator, [cell.value]⟩ (Machine.push words)) := by
  refine h.assign hrun hp ha ?_ ?_ hwords
  · simpa [hoperands] using hc.below
  · simp [hoperands, hc.value]

/-- An expression with two operands. -/
lemma Describes.assign_binary (h : Describes I params counted f s m)
    (hrun : Store.run I caught f.actions s₀ = (s, none)) (hp : params.Separate) {l r : Slot}
    {left right : Cell V} (hl : l.Holds I counted s.env f.scratch left)
    (hr : r.Holds I counted s.env f.scratch right) {kind : Kind} {c : Computation} {type : String}
    {operator : Operator} {words : Nat} (ha : Expr.operator? ⟨c, type⟩ = some operator)
    (hoperands : c.operands = [l.value, r.value]) (hwords : counted → kind.category = words) :
    Simulates I params counted (f.assign kind c type)
      (Store.run I caught (f.assign kind c type).actions s₀)
      (m.perform I ⟨operator, [left.value, right.value]⟩ (Machine.push words)) := by
  refine h.assign hrun hp ha ?_ ?_ hwords
  · simpa [hoperands] using ⟨hl.below, hr.below⟩
  · simp [hoperands, hl.value, hr.value]

/-! ## All operations -/

/-- **One operation.** If the frame describes the machine, then the machine can run the operation,
and the actions that are appended for it have the same outcome. An operation that counts words needs
a frame that has the words right, and the frame keeps them right unless the operation misreads an
array element. -/
lemma step_simulates (h : Describes I params counted f s m)
    (hrun : Store.run I caught f.actions s₀ = (s, none)) (hp : params.Separate) {op : Opcode}
    {operation : Operation} (hcounts : operation.countsWords = true → counted)
    (hread : counted → f.misreads operation = false)
    (hstep : f.step params op operation = .ok f') :
    ∃ out, m.step I op operation = some out ∧
      Simulates I params counted f' (Store.run I caught f'.actions s₀) out := by
  cases operation with
  | nop =>
    obtain rfl := Except.ok.inj hstep
    exact ⟨_, rfl, hrun ▸ h.stays⟩
  | push kind literal type =>
    obtain rfl := Except.ok.inj hstep
    refine ⟨_, rfl, ?_⟩
    rw [Frame.push, hrun]
    exact (h.push rfl (fun _ => rfl) (by simp)).stays
  | load kind slot =>
    obtain rfl := Except.ok.inj hstep
    obtain ⟨type, hvar⟩ := hp.variable_eq slot ((f.types.lookup slot).getD "")
    have hbelow := Var.below_of_not_temp (hp.not_temp slot) f.scratch
    refine ⟨_, rfl, ?_⟩
    rw [Frame.push, hrun, hvar]
    exact Describes.stays (Describes.push h (h.locals slot) (fun _ => rfl) (by simpa using hbelow))
  | store slot => exact h.store hrun hp hstep
  | arrayLoad element refine => exact h.arrayLoad hrun hp hread hstep
  | arrayStore =>
    refine h.pop_bind hstep fun src cell₁ m₁ hc₁ hd₁ _ hstep => ?_
    refine hd₁.pop_bind hstep fun index cell₂ m₂ hc₂ hd₂ _ hstep => ?_
    refine hd₂.pop_bind hstep fun array cell₃ m₃ hc₃ hd₃ _ hf' => ⟨_, rfl, ?_⟩
    obtain rfl := Except.ok.inj hf'
    refine hd₃.perform_ignore hrun rfl rfl ?_
    simp [Action.operands, hc₁.value, hc₂.value, hc₃.value]
  | pop words => exact h.popWords hrun (hcounts rfl) hstep
  | dup top below => exact h.dup hrun (hcounts rfl) hstep
  | swap =>
    refine h.pop_bind hstep fun b cell₁ m₁ hc₁ hd₁ _ hstep => ?_
    refine hd₁.pop_bind hstep fun a cell₂ m₂ hc₂ hd₂ _ hf' => ⟨_, rfl, ?_⟩
    obtain rfl := Except.ok.inj hf'
    rw [hrun]
    refine Describes.stays ⟨?_, hd₂.locals, hd₂.log⟩
    simp only [List.reverse_append]
    exact .cons hc₂ (.cons hc₁ hd₂.stack)
  | binary operator =>
    refine h.pop_bind hstep fun r right m₁ hr hd₁ _ hstep => ?_
    refine hd₁.pop_bind hstep fun l left m₂ hl hd₂ _ hf' => ⟨_, rfl, ?_⟩
    obtain rfl := Except.ok.inj hf'
    exact hd₂.assign_binary hrun hp hl hr rfl rfl hl.words
  | negate =>
    refine h.pop_bind hstep fun top cell m₁ hc hd _ hf' => ⟨_, rfl, ?_⟩
    obtain rfl := Except.ok.inj hf'
    exact hd.assign_unary hrun hp hc rfl rfl hc.words
  | increment slot amount => exact h.increment hrun hp hstep
  | convert type =>
    refine h.pop_bind hstep fun top cell m₁ hc hd _ hf' => ⟨_, rfl, ?_⟩
    obtain rfl := Except.ok.inj hf'
    exact hd.assign_unary hrun hp hc rfl rfl fun _ => rfl
  | compare =>
    refine h.pop_bind hstep fun r right m₁ hr hd₁ _ hstep => ?_
    refine hd₁.pop_bind hstep fun l left m₂ hl hd₂ _ hf' => ⟨_, rfl, ?_⟩
    obtain rfl := Except.ok.inj hf'
    exact hd₂.assign_binary hrun hp hl hr rfl rfl fun _ => rfl
  | branch test comparison target => exact h.branch hrun hp hstep
  | goto target =>
    obtain rfl := Except.ok.inj hstep
    have hkeep : ∀ v ∈ ([] : List Value), v.Below f.scratch := by simp
    exact ⟨_, rfl, h.departs hrun hp hkeep Prod.mk.eta.symm fun s' _ => rfl⟩
  | switch targets => exact h.switch hrun hp hstep
  | ret hasValue =>
    cases hasValue with
    | false =>
      obtain rfl := Except.ok.inj hstep
      exact ⟨_, rfl, h.ends hrun rfl rfl⟩
    | true =>
      refine h.pop_bind hstep fun top cell m₁ hc hd _ hf' => ⟨_, rfl, ?_⟩
      obtain rfl := Except.ok.inj hf'
      exact hd.ends hrun (by simp [Store.exec, hc.value]) rfl
  | getStatic field =>
    obtain rfl := Except.ok.inj hstep
    refine ⟨_, rfl, h.perform_push hrun hp rfl rfl rfl ?_ rfl fun _ => rfl⟩
    simp [Action.operands]
  | putStatic field =>
    refine h.pop_bind hstep fun src cell m₁ hc hd _ hf' => ⟨_, rfl, ?_⟩
    obtain rfl := Except.ok.inj hf'
    exact hd.perform_ignore hrun rfl rfl (by simp [Action.operands, hc.value])
  | getField field =>
    refine h.pop_bind hstep fun base cell m₁ hc hd _ hf' => ⟨_, rfl, ?_⟩
    obtain rfl := Except.ok.inj hf'
    refine hd.perform_push hrun hp rfl rfl rfl ?_ ?_ fun _ => rfl
    · simpa [Action.operands] using hc.below
    · simp [Action.operands, hc.value]
  | putField field =>
    refine h.pop_bind hstep fun src cell₁ m₁ hc₁ hd₁ _ hstep => ?_
    refine hd₁.pop_bind hstep fun base cell₂ m₂ hc₂ hd₂ _ hf' => ⟨_, rfl, ?_⟩
    obtain rfl := Except.ok.inj hf'
    exact hd₂.perform_ignore hrun rfl rfl (by simp [Action.operands, hc₁.value, hc₂.value])
  | invoke kind target d => exact h.invoke hrun hp hstep
  | new cls =>
    obtain rfl := Except.ok.inj hstep
    refine ⟨_, rfl, h.assign hrun hp rfl ?_ rfl fun _ => rfl⟩
    simp [Computation.operands]
  | newArray dims type =>
    refine h.popN_bind hstep fun counts cells m₁ hcounts hd hf' => ⟨_, rfl, ?_⟩
    obtain rfl := Except.ok.inj hf'
    exact hd.assign hrun hp rfl (below_of_holds hcounts) (map_eval_of_holds hcounts) fun _ => rfl
  | arrayLength =>
    refine h.pop_bind hstep fun top cell m₁ hc hd _ hf' => ⟨_, rfl, ?_⟩
    obtain rfl := Except.ok.inj hf'
    exact hd.assign_unary hrun hp hc rfl rfl fun _ => rfl
  | throw =>
    refine h.pop_bind hstep fun top cell m₁ hc hd _ hf' => ⟨_, rfl, ?_⟩
    obtain rfl := Except.ok.inj hf'
    exact hd.ends hrun (by simp [Store.exec, hc.value]) rfl
  | checkCast cls =>
    refine h.pop_bind hstep fun top cell m₁ hc hd _ hf' => ⟨_, rfl, ?_⟩
    obtain rfl := Except.ok.inj hf'
    exact hd.assign_unary hrun hp hc rfl rfl fun _ => rfl
  | instanceOf cls =>
    refine h.pop_bind hstep fun top cell m₁ hc hd _ hf' => ⟨_, rfl, ?_⟩
    obtain rfl := Except.ok.inj hf'
    exact hd.assign_unary hrun hp hc rfl rfl fun _ => rfl
  | monitor =>
    refine h.pop_bind hstep fun src cell m₁ hc hd _ hf' => ⟨_, rfl, ?_⟩
    obtain rfl := Except.ok.inj hf'
    exact hd.perform_ignore hrun rfl rfl (by simp [Action.operands, hc.value])

end JvmTaint
