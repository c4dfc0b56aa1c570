import JvmTaint.Proofs.Lowering.Layout
import Mathlib.Algebra.Order.BigOperators.Group.Finset

set_option autoImplicit false
set_option relaxedAutoImplicit false

/-!
# The blocks that are reached

The shape pass runs blocks from a worklist until no entry stack changes. Its fuel is enough: an
instruction raises the stack by at most two slots, so the stack at the entry of a block is bounded
by the other blocks that were run, and a block comes back to the worklist only with one known type
less on its entry stack. When the worklist is empty, the blocks with a shape are exactly those that
control reaches from the first block or from a handler.

## Main definitions

* `JvmTaint.Visits`: control reaches the block at a position.
* `JvmTaint.Entered`: what letting a shape into some blocks changes.
* `JvmTaint.Underway`: the invariant of the worklist.
* `JvmTaint.WorksOff`: a run of the worklist without a bound.

## Main results

* `JvmTaint.lowerBlock_height`: a block raises the stack by at most two slots for each instruction.
* `JvmTaint.findShapes_worksOff`: the shape pass runs its worklist to the end.
* `JvmTaint.findShapes_visits`: the shape pass finds a shape for exactly the blocks that control
  reaches.
-/

namespace JvmTaint

/-! ## Heights -/

/-- The number of words on top of the stack that an operation copies. -/
def Operation.copies : Operation → Nat
  | dup top _ => top
  | _ => 0

/-- No instruction copies more than two words. -/
lemma Instruction.operation_copies (ins : Instruction) :
    Ensures ins.operation fun o => o.copies ≤ 2 := by
  have hpush : Ensures ins.pushOperation fun o => o.copies ≤ 2 := by
    unfold pushOperation
    dsimp only
    repeat' split
    all_goals first | exact ensures_error | exact ensures_ok (Nat.zero_le 2)
  have hinvoke : ∀ kind, Ensures (ins.invokeOperation kind) fun o => o.copies ≤ 2 := by
    intro kind
    unfold invokeOperation
    split
    · exact ensures_error
    · exact ensures_ok (Nat.zero_le 2)
  have harray : ∀ dims type, Ensures (arrayOperation dims type) fun o => o.copies ≤ 2 := by
    intro dims type
    unfold arrayOperation
    repeat' split
    all_goals first | exact ensures_error | exact ensures_ok (Nat.zero_le 2)
  unfold operation
  refine ensures_ite (fun _ => ensures_ok (Nat.zero_le 2)) fun _ => ?_
  refine ensures_ite (fun _ => hpush) fun _ => ?_
  iterate 12 refine ensures_ite (fun _ => ensures_ok (Nat.zero_le 2)) fun _ => ?_
  split
  all_goals first
    | exact hinvoke _
    | exact harray _ _
    | exact ensures_error
    | exact ensures_ok (Nat.zero_le 2)
    | exact ensures_ok (Nat.le_succ 1)
    | exact ensures_ok (Nat.le_refl 2)

namespace Frame

variable {f : Frame} {n : Nat}

lemma length_protect (f : Frame) (value : Value) :
    (f.protect value).stack.length = f.stack.length := by
  unfold protect
  split
  · rfl
  · split
    · rfl
    · simp [fresh, emit]

lemma length_saveSlots (targets : List Nat) (i : Nat) (stack : List Slot) (f : Frame)
    (saved : Saved) : (saveSlots targets i stack f saved).1.length = stack.length := by
  induction stack generalizing f saved i with
  | nil => rfl
  | cons s stack ih =>
    unfold saveSlots
    split <;> simp [ih]

/-- Moving the slots to their temporaries keeps the height. -/
lemma length_normalize (f : Frame) (keep : List Value) :
    (f.normalize keep).2.stack.length = f.stack.length := by
  simp [normalize, settled, length_saveSlots]

lemma length_result (f : Frame) (type : String) :
    (f.result type).2.stack.length = f.stack.length :=
  f.length_protect _

lemma pop_height (h : f.stack.length ≤ n) : Ensures f.pop fun r => r.2.stack.length ≤ n := by
  unfold pop
  split
  · exact ensures_error
  · refine ensures_ok ?_
    dsimp only
    rw [List.length_dropLast]
    omega

lemma popN_height (h : f.stack.length ≤ n) (count : Nat) :
    Ensures (f.popN count) fun r => r.2.stack.length ≤ n := by
  unfold popN
  split
  · exact ensures_error
  · refine ensures_ok ?_
    dsimp only
    rw [List.length_take]
    omega

/-- A slot has at least one word. -/
lemma popWords_length (op : Opcode) (words : Nat) (stack : List Slot) :
    Ensures (popWords op words stack) fun r =>
      r.1.length ≤ words ∧ r.1.length + r.2.length = stack.length := by
  fun_induction popWords op words stack with
  | case1 stack => exact ensures_ok (by simp)
  | case2 words stack hnone => exact ensures_error
  | case3 words stack s hs hsplits => exact ensures_error
  | case4 words stack s hs hfits ih =>
    refine ih.bind fun r hr => ensures_ok ?_
    have hcategory : 1 ≤ s.kind.category := by unfold Kind.category; split <;> omega
    have hpos : 0 < stack.length := List.length_pos_of_mem (List.mem_of_getLast? hs)
    rw [List.length_dropLast] at hr
    dsimp only
    rw [List.length_append, List.length_singleton]
    omega

lemma push_height (h : f.stack.length ≤ n) (kind : Kind) (type : String) (value : Value) :
    (f.push kind type value).stack.length ≤ n + 2 := by
  rw [push, List.length_append, List.length_singleton]
  omega

lemma assign_height (h : f.stack.length ≤ n) (kind : Kind) (c : Computation) (type : String) :
    (f.assign kind c type).stack.length ≤ n + 2 :=
  push_height (f := (f.result type).2.emit _) (by rw [emit, length_result]; exact h) ..

lemma result_push_height (h : f.stack.length ≤ n) (a : Action Int) (kind : Kind) (type : String)
    (value : Value) : (((f.result type).2.emit a).push kind type value).stack.length ≤ n + 2 :=
  push_height (f := (f.result type).2.emit a) (by rw [emit, length_result]; exact h) ..

/-- The jump of a branch keeps the height. -/
lemma jump_height (h : f.stack.length ≤ n) (comparison : Comparison) (target : Int)
    (left right : Value) :
    Ensures (match f.normalize [left, right] with
      | ([left, right], f) => pure (f.emit (.branch ⟨comparison, left, right⟩ target))
      | (_, f) => pure (f.emit (.branch ⟨comparison, left, right⟩ target)) :
      Except Flaw Frame) fun f' => f'.stack.length ≤ n := by
  have hnormal := f.length_normalize [left, right]
  split
  all_goals
    rename_i heq
    rw [heq] at hnormal
    exact ensures_ok (Nat.le_trans (Nat.le_of_eq hnormal) h)

/-- A call behind its operands leaves at most its result. -/
lemma call_height (h : f.stack.length ≤ n) (result : Option FieldType) (c : Call) :
    Ensures (match result with
      | none => pure (f.emit (.invoke none c))
      | some t => pure (((f.result t.render).2.emit
          (.invoke (some (f.result t.render).1) c)).push t.kind t.render (f.result t.render).1) :
      Except Flaw Frame) fun f' => f'.stack.length ≤ n + 2 := by
  split
  · exact ensures_ok (Nat.le_add_right_of_le h)
  · exact ensures_ok (result_push_height h ..)

/-- An operation raises the stack by at most two slots. -/
lemma step_height {params : ParamSlots} {op : Opcode} {o : Operation} (h : f.stack.length ≤ n)
    (ho : o.copies ≤ 2) : Ensures (f.step params op o) fun f' => f'.stack.length ≤ n + 2 := by
  have hle : f.stack.length ≤ n + 2 := by omega
  cases o with
  | nop => exact ensures_ok hle
  | push kind literal type | load kind slot => exact ensures_ok (push_height h ..)
  | store slot =>
    refine (pop_height hle).bind fun r hr => ensures_ok ?_
    dsimp only [emit]
    rw [length_protect]
    exact hr
  | increment slot amount =>
    refine ensures_ok ?_
    dsimp only [emit]
    rw [length_protect]
    exact hle
  | arrayLoad element refine =>
    exact (pop_height h).bind fun _ h₁ => (pop_height h₁).bind fun _ h₂ =>
      ensures_ok (result_push_height h₂ ..)
  | arrayStore =>
    exact (pop_height hle).bind fun _ h₁ => (pop_height h₁).bind fun _ h₂ =>
      (pop_height h₂).bind fun _ h₃ => ensures_ok h₃
  | pop words =>
    refine Ensures.bind (popWords_length _ _ _) fun r hr => ensures_ok ?_
    dsimp only
    omega
  | dup top below =>
    refine Ensures.bind (popWords_length _ _ _) fun r hr => ?_
    refine Ensures.bind (popWords_length _ _ _) fun r' hr' => ensures_ok ?_
    have htop : top ≤ 2 := ho
    simp only [List.length_append]
    omega
  | swap =>
    refine (pop_height h).bind fun _ h₁ => (pop_height h₁).bind fun _ h₂ => ensures_ok ?_
    simp only [List.length_append, List.length_cons, List.length_nil]
    omega
  | binary operator | compare =>
    exact (pop_height h).bind fun _ h₁ => (pop_height h₁).bind fun _ h₂ =>
      ensures_ok (assign_height h₂ ..)
  | negate | convert type | arrayLength | checkCast cls | instanceOf cls =>
    exact (pop_height h).bind fun _ h₁ => ensures_ok (assign_height h₁ ..)
  | branch test comparison target =>
    cases test with
    | zero =>
      exact (pop_height hle).bind fun r h₁ =>
        jump_height h₁ comparison target r.1.value (.const "0" "I")
    | null =>
      exact (pop_height hle).bind fun r h₁ =>
        jump_height h₁ comparison target r.1.value (.const "null" "")
    | pair =>
      exact (pop_height hle).bind fun r h₁ => (pop_height h₁).bind fun l h₂ =>
        jump_height h₂ comparison target l.1.value r.1.value
  | goto target => exact ensures_ok (Nat.le_trans (Nat.le_of_eq (f.length_normalize [])) hle)
  | switch targets =>
    refine (pop_height hle).bind fun r hr => ?_
    have hnormal := r.2.length_normalize [r.1.value]
    dsimp only
    split
    all_goals
      rename_i heq
      rw [heq] at hnormal
      exact ensures_ok (Nat.le_trans (Nat.le_of_eq hnormal) hr)
  | ret hasValue =>
    cases hasValue with
    | false => exact ensures_ok hle
    | true => exact (pop_height hle).bind fun _ h₁ => ensures_ok h₁
  | throw | putStatic field | monitor =>
    exact (pop_height hle).bind fun _ h₁ => ensures_ok h₁
  | getStatic field => exact ensures_ok (result_push_height h ..)
  | getField field =>
    exact (pop_height h).bind fun _ h₁ => ensures_ok (result_push_height h₁ ..)
  | putField field =>
    exact (pop_height hle).bind fun _ h₁ => (pop_height h₁).bind fun _ h₂ => ensures_ok h₂
  | invoke kind target d =>
    refine (popN_height h _).bind fun r hr => ?_
    dsimp only
    split
    · exact (pop_height hr).bind fun _ h₁ => call_height h₁ d.result _
    · exact call_height hr d.result _
  | new cls => exact ensures_ok (assign_height h ..)
  | newArray dims type =>
    exact (popN_height h dims).bind fun _ h₁ => ensures_ok (assign_height h₁ ..)

end Frame

/-- An instruction raises the stack by at most two slots. -/
lemma lowerInstruction_height (params : ParamSlots) (ins : Instruction) (f : Frame) :
    Ensures (lowerInstruction params ins f) fun r =>
      r.1.stack.length ≤ f.stack.length + 2 := by
  unfold lowerInstruction
  split
  · exact ensures_error
  · rename_i f' hstep
    refine ensures_ok ?_
    cases hop : ins.operation with
    | error e => simp [hop, Except.bind] at hstep
    | ok o =>
      have hstep : f.step params ins.op o = .ok f' := by simpa [hop, Except.bind] using hstep
      exact Frame.step_height (Nat.le_refl _) (ins.operation_copies o hop) f' hstep

lemma lowerInstructions_height (params : ParamSlots) (code : List Instruction) (f : Frame) :
    Ensures (lowerInstructions params code f) fun r =>
      r.1.stack.length ≤ f.stack.length + 2 * code.length := by
  induction code generalizing f with
  | nil => exact ensures_ok (Nat.le_refl _)
  | cons ins rest ih =>
    refine (lowerInstruction_height params ins f).bind fun r hr => ?_
    refine (ih r.1).bind fun r' hr' => ensures_ok ?_
    calc r'.1.stack.length ≤ r.1.stack.length + 2 * rest.length := hr'
      _ ≤ f.stack.length + 2 * (ins :: rest).length := by rw [List.length_cons]; omega

/-- A block raises the stack by at most two slots for each of its instructions. -/
lemma lowerBlock_height (params : ParamSlots) (handlers : List HandlerEntry) (block : BasicBlock)
    (shape : Shape) (scratch : Nat) :
    Ensures (lowerBlock params handlers block shape scratch) fun r =>
      r.1.stack.length ≤ shape.length + 2 * block.instructions.length := by
  have hentry : (entryStack shape).length = shape.length := by simp [entryStack]
  refine (lowerInstructions_height params block.instructions
    { stack := entryStack shape, scratch }).bind fun r hr => ?_
  rw [hentry] at hr
  dsimp only
  split
  · exact ensures_ok hr
  · split
    · exact ensures_ok hr
    · refine ensures_ok ?_
      dsimp only
      rw [Frame.length_normalize]
      exact hr

/-! ## Reached blocks -/

/-- Control reaches the block at a position: it is the first block, a handler, or a successor of a
block that is reached. -/
inductive Visits (blocks : List BasicBlock) : Nat → Prop
  | first {block : BasicBlock} (h : blocks[0]? = some block) : Visits blocks 0
  | handler {i : Nat} {block : BasicBlock} (h : blocks[i]? = some block)
    (hcatches : block.catches.isSome = true) : Visits blocks i
  | next {i j : Nat} (h : Visits blocks i) (hj : j ∈ successorsOf blocks i) : Visits blocks j

/-- The block at a position has a shape. -/
def Shapes.Found (shapes : Shapes) (i : Nat) : Prop := (shapes.getD i none).isSome = true

lemma Shapes.found_iff {shapes : Shapes} {i : Nat} :
    shapes.Found i ↔ ∃ shape, shapes.getD i none = some shape :=
  Option.isSome_iff_exists

lemma Shapes.Found.lt {shapes : Shapes} {i : Nat} (h : shapes.Found i) : i < shapes.size := by
  by_contra hge
  simp [Found, Array.getD, hge] at h

lemma Shapes.getD_set {shapes : Shapes} {i j : Nat} {shape : Shape} (h : i < shapes.size) :
    (shapes.setIfInBounds i (some shape)).getD j none =
      if i = j then some shape else shapes.getD j none := by
  simp only [Array.getD_eq_getD_getElem?, Array.getElem?_setIfInBounds, h, if_true]
  split <;> rfl

/-! ## Types to be forgotten -/

/-- The number of slots of a shape whose type is known. -/
def typed (shape : Shape) : Nat := shape.countP fun s => s.2 ≠ ""

lemma typed_cons (k : Kind) (t : String) (shape : Shape) :
    typed ((k, t) :: shape) = typed shape + if t = "" then 0 else 1 := by
  by_cases ht : t = "" <;> simp [typed, ht]

/-- Joining keeps the height, and forgets a type if it changes anything. -/
lemma joinShapes_typed (known incoming : Shape) :
    Ensures (joinShapes known incoming) fun joined =>
      joined.length = known.length ∧ (joined = known ∨ typed joined < typed known) := by
  fun_induction joinShapes known incoming with
  | case1 k t known k' t' incoming hne => exact ensures_error
  | case2 k t known k' t' incoming heq ih =>
    refine Ensures.bind ih fun rest hrest => ensures_ok ⟨by simp [hrest.1], ?_⟩
    have htail : typed rest ≤ typed known := by
      rcases hrest.2 with rfl | hlt
      · exact Nat.le_refl _
      · exact Nat.le_of_lt hlt
    by_cases ht : t = t' ∨ t = ""
    · have hkept : (if t = t' then t else "") = t := by
        rcases ht with rfl | rfl
        · simp
        · simp
      rw [hkept]
      rcases hrest.2 with rfl | hlt
      · exact .inl rfl
      · exact .inr (by simpa [typed_cons] using hlt)
    · obtain ⟨hdiff, hknown⟩ := not_or.mp ht
      refine .inr ?_
      rw [if_neg hdiff, typed_cons, typed_cons, if_pos rfl, if_neg hknown]
      omega
  | case3 known incoming => exact ensures_ok ⟨rfl, .inl rfl⟩

/-- How often a block can still be entered with an effect: once if it is new, and once for each type
that can be forgotten. No stack is higher than `bound`. -/
def slack (bound : Nat) : Option Shape → Nat
  | none => bound + 1
  | some shape => typed shape

/-- How often any block can still be entered with an effect. -/
def potential (bound : Nat) (shapes : Shapes) : Nat :=
  ∑ i ∈ Finset.range shapes.size, slack bound (shapes.getD i none)

lemma potential_set_lt {bound i : Nat} {shapes : Shapes} {shape : Shape} (hi : i < shapes.size)
    (h : typed shape < slack bound (shapes.getD i none)) :
    potential bound (shapes.setIfInBounds i (some shape)) < potential bound shapes := by
  unfold potential
  rw [Array.size_setIfInBounds]
  refine Finset.sum_lt_sum (fun j _ => ?_) ⟨i, Finset.mem_range.mpr hi, ?_⟩
  · rw [Shapes.getD_set hi]
    split
    · rename_i heq
      rw [← heq]
      exact Nat.le_of_lt h
    · exact Nat.le_refl _
  · rw [Shapes.getD_set hi, if_pos rfl]
    exact h

/-! ## Letting a shape into blocks -/

/-- What letting a shape of the given height into the blocks at `is` changes: `again` are the blocks
to be run again. -/
structure Entered (bound height : Nat) (is : List Nat) (shapes shapes' : Shapes)
    (again : List Nat) : Prop where
  size : shapes'.size = shapes.size
  kept : ∀ i shape, shapes.getD i none = some shape →
    ∃ shape', shapes'.getD i none = some shape' ∧ shape'.length = shape.length
  new : ∀ i shape, shapes'.getD i none = some shape → shapes.getD i none = none →
    i ∈ again ∧ shape.length = height
  found : ∀ i ∈ is, shapes'.Found i
  subset : again ⊆ is
  potential : potential bound shapes' + again.length ≤ potential bound shapes

namespace Entered

variable {bound height : Nat} {is js again more : List Nat} {shapes shapes' shapes'' : Shapes}

lemma refl (bound height : Nat) (shapes : Shapes) : Entered bound height [] shapes shapes [] where
  size := rfl
  kept := fun _ shape h => ⟨shape, h, rfl⟩
  new := fun i shape h h' => by rw [h] at h'; cases h'
  found := by simp
  subset := List.Subset.refl _
  potential := Nat.le_refl _

lemma found_of (h : Entered bound height is shapes shapes' again) {i : Nat}
    (hi : shapes.Found i) : shapes'.Found i := by
  obtain ⟨shape, hshape⟩ := Shapes.found_iff.mp hi
  obtain ⟨shape', hshape', -⟩ := h.kept i shape hshape
  exact Shapes.found_iff.mpr ⟨shape', hshape'⟩

/-- A block that has a shape had one of the same height before, or it is new. -/
lemma cases (h : Entered bound height is shapes shapes' again) {i : Nat} {shape' : Shape}
    (hi : shapes'.getD i none = some shape') :
    (∃ shape, shapes.getD i none = some shape ∧ shape'.length = shape.length) ∨
      ¬ shapes.Found i ∧ i ∈ again ∧ shape'.length = height := by
  cases hbefore : shapes.getD i none with
  | none => exact .inr ⟨by simp [Shapes.Found, hbefore], h.new i shape' hi hbefore⟩
  | some shape =>
    obtain ⟨shape'', hi', hlength⟩ := h.kept i shape hbefore
    rw [hi] at hi'
    cases hi'
    exact .inl ⟨shape, rfl, hlength⟩

lemma append (h : Entered bound height is shapes shapes' again)
    (h' : Entered bound height js shapes' shapes'' more) :
    Entered bound height (is ++ js) shapes shapes'' (again ++ more) where
  size := h'.size.trans h.size
  kept := by
    intro i shape hi
    obtain ⟨shape', hi', hlength⟩ := h.kept i shape hi
    obtain ⟨shape'', hi'', hlength'⟩ := h'.kept i shape' hi'
    exact ⟨shape'', hi'', hlength'.trans hlength⟩
  new := by
    intro i shape hi hnone
    rcases h'.cases hi with ⟨shape', hi', hlength⟩ | ⟨-, hmore, hlength⟩
    · obtain ⟨hagain, hheight⟩ := h.new i shape' hi' hnone
      exact ⟨List.mem_append_left _ hagain, hlength.trans hheight⟩
    · exact ⟨List.mem_append_right _ hmore, hlength⟩
  found := by
    intro i hi
    rcases List.mem_append.mp hi with hi | hi
    · exact h'.found_of (h.found i hi)
    · exact h'.found i hi
  subset := List.append_subset.mpr
    ⟨fun _ hi => List.mem_append_left _ (h.subset hi),
      fun _ hi => List.mem_append_right _ (h'.subset hi)⟩
  potential := by
    have hfirst := h.potential
    have hsecond := h'.potential
    rw [List.length_append]
    omega

end Entered

/-- A block that gets a shape which forgets something is to be run again. -/
lemma entered_set {bound height i : Nat} {shapes : Shapes} {shape : Shape} (hi : i < shapes.size)
    (hslack : typed shape < slack bound (shapes.getD i none))
    (hheight : shape.length = height)
    (hkept : ∀ known, shapes.getD i none = some known → known.length = height) :
    Entered bound height [i] shapes (shapes.setIfInBounds i (some shape)) [i] where
  size := Array.size_setIfInBounds
  kept := by
    intro j known hj
    rw [Shapes.getD_set hi]
    split
    · rename_i heq
      subst heq
      exact ⟨shape, rfl, hheight.trans (hkept known hj).symm⟩
    · exact ⟨known, hj, rfl⟩
  new := by
    intro j shape' hj hnone
    rw [Shapes.getD_set hi] at hj
    split at hj
    · rename_i heq
      cases hj
      exact ⟨by simp [heq], hheight⟩
    · rw [hnone] at hj
      cases hj
  found := by
    intro j hj
    rw [List.mem_singleton.mp hj, Shapes.Found, Shapes.getD_set hi, if_pos rfl]
    rfl
  subset := List.Subset.refl _
  potential := potential_set_lt hi hslack

/-- Letting a shape into one block. -/
lemma enterBlock_entered {bound i : Nat} {incoming : Shape} {shapes : Shapes} (offset : Int)
    (hi : i < shapes.size) (hbound : incoming.length ≤ bound) :
    Ensures (enterBlock offset i incoming shapes) fun r =>
      Entered bound incoming.length [i] shapes r.1 (if r.2 then [i] else []) := by
  unfold enterBlock
  split
  · rename_i hnone
    refine ensures_ok (entered_set hi ?_ rfl (by simp [hnone]))
    rw [hnone]
    exact Nat.lt_succ_of_le (Nat.le_trans List.countP_le_length hbound)
  · rename_i known hknown
    split
    · exact ensures_error
    · rename_i hlength
      have hlength : known.length = incoming.length := by simpa using hlength
      split
      · exact ensures_error
      · rename_i joined hjoin
        obtain ⟨hsame, hless⟩ := joinShapes_typed known incoming joined hjoin
        split
        · refine ensures_ok { Entered.refl bound incoming.length shapes with
            found := fun j hj => ?_
            subset := List.nil_subset _ }
          rw [List.mem_singleton.mp hj, Shapes.found_iff]
          exact ⟨known, hknown⟩
        · rename_i hne
          refine ensures_ok (entered_set hi ?_ (hsame.trans hlength) ?_)
          · rw [hknown]
            exact hless.resolve_left hne
          · intro known' hknown'
            rw [hknown] at hknown'
            cases hknown'
            exact hlength

/-- Letting a shape into several blocks. -/
lemma enterBlocks_entered {bound : Nat} {incoming : Shape} (blocks : List BasicBlock)
    (hbound : incoming.length ≤ bound) (is : List Nat) {shapes : Shapes}
    (his : ∀ i ∈ is, i < shapes.size) :
    Ensures (enterBlocks blocks incoming is shapes) fun r =>
      Entered bound incoming.length is shapes r.1 r.2 := by
  induction is generalizing shapes with
  | nil => exact ensures_ok (.refl _ _ _)
  | cons i is ih =>
    refine Ensures.bind (enterBlock_entered _ (his i (by simp)) hbound) fun r hr => ?_
    have his' : ∀ j ∈ is, j < r.1.size := fun j hj => hr.size ▸ his j (by simp [hj])
    refine Ensures.bind (ih his') fun r' hr' => ensures_ok ?_
    have happend := hr.append hr'
    dsimp only
    split <;> simpa [*] using happend

/-- The positions of the handlers among some blocks. -/
def handlerPositions (entries : List (BasicBlock × Nat)) : List Nat :=
  (entries.filter (·.1.catches.isSome)).map (·.2)

/-- Letting exceptions into the handlers: the stack holds the exception only. -/
lemma enterHandlers_entered {bound : Nat} (hbound : 1 ≤ bound)
    (entries : List (BasicBlock × Nat)) {shapes : Shapes}
    (hentries : ∀ entry ∈ entries, entry.2 < shapes.size) :
    Ensures (enterHandlers entries shapes) fun r =>
      Entered bound 1 (handlerPositions entries) shapes r.1 r.2 := by
  induction entries generalizing shapes with
  | nil => exact ensures_ok (.refl _ _ _)
  | cons entry rest ih =>
    obtain ⟨block, i⟩ := entry
    unfold enterHandlers
    split
    · rename_i hcatches
      have hpositions : handlerPositions ((block, i) :: rest) = handlerPositions rest := by
        simp [handlerPositions, hcatches]
      rw [hpositions]
      exact ih fun entry hentry => hentries entry (by simp [hentry])
    · rename_i type hcatches
      have hpositions : handlerPositions ((block, i) :: rest) = [i] ++ handlerPositions rest := by
        simp [handlerPositions, hcatches]
      split
      · exact ensures_error
      · refine Ensures.bind (enterBlock_entered _ (hentries (block, i) (by simp)) hbound)
          fun r hr => ?_
        have hrest : ∀ entry ∈ rest, entry.2 < r.1.size :=
          fun entry hentry => hr.size ▸ hentries entry (by simp [hentry])
        refine Ensures.bind (ih hrest) fun r' hr' => ensures_ok ?_
        have happend := hr.append hr'
        rw [← hpositions] at happend
        dsimp only
        split <;> simpa [*] using happend

/-! ## The worklist -/

/-- The number of instructions of the block at a position. -/
def lengthAt (blocks : List BasicBlock) (i : Nat) : Nat :=
  ((blocks[i]?).map (·.instructions.length)).getD 0

/-- No entry stack is higher than this. -/
def maxHeight (blocks : List BasicBlock) : Nat :=
  1 + 2 * ∑ i ∈ Finset.range blocks.length, lengthAt blocks i

/-- Where the shape pass is: the blocks `run` have been run, and those of `work` are to be run. -/
structure Underway (blocks : List BasicBlock) (run : Finset Nat) (work : List Nat)
    (shapes : Shapes) : Prop where
  size : shapes.size = blocks.length
  visits : ∀ i, shapes.Found i → Visits blocks i
  first : ∀ block, blocks[0]? = some block → shapes.Found 0
  handlers : ∀ i block, blocks[i]? = some block → block.catches.isSome = true → shapes.Found i
  run_found : ∀ i ∈ run, shapes.Found i
  pending : ∀ i, shapes.Found i → i ∈ run ∨ i ∈ work
  closed : ∀ i ∈ run, ∀ j ∈ successorsOf blocks i, shapes.Found j
  -- the stack at the entry of a block was raised by the other blocks that were run
  heights : ∀ i shape, shapes.getD i none = some shape →
    shape.length ≤ 1 + 2 * ∑ j ∈ run.erase i, lengthAt blocks j

section

variable {blocks : List BasicBlock} {run : Finset Nat} {work again : List Nat} {i : Nat}
  {shapes shapes' : Shapes}

/-- The blocks that have been run raise the stack by what all blocks raise it at most. -/
lemma Underway.height_le (h : Underway blocks run work shapes) (hi : shapes.Found i) :
    1 + 2 * ∑ j ∈ insert i run, lengthAt blocks j ≤ maxHeight blocks := by
  have hsub : insert i run ⊆ Finset.range blocks.length := by
    intro j hj
    rw [Finset.mem_range, ← h.size]
    rcases Finset.mem_insert.mp hj with rfl | hj
    · exact hi.lt
    · exact (h.run_found j hj).lt
  have hsum := Finset.sum_le_sum_of_subset (f := lengthAt blocks) hsub
  unfold maxHeight
  omega

/-- A block that is on the worklist without a shape is dropped. -/
lemma Underway.drop (h : Underway blocks run (i :: work) shapes) (hi : ¬ shapes.Found i) :
    Underway blocks run work shapes where
  __ := h
  pending := by
    intro j hj
    rcases h.pending j hj with hrun | hwork
    · exact .inl hrun
    · rcases List.mem_cons.mp hwork with rfl | hwork
      · exact absurd hj hi
      · exact .inr hwork

/-- Running a block leads from one state of the pass to the next. -/
lemma Underway.step (h : Underway blocks run (i :: work) shapes) {bound height : Nat}
    (hi : shapes.Found i) (hheight : height ≤ 1 + 2 * ∑ j ∈ insert i run, lengthAt blocks j)
    (hentered : Entered bound height (successorsOf blocks i) shapes shapes' again) :
    Underway blocks (insert i run) (work ++ again) shapes' where
  size := hentered.size.trans h.size
  visits := by
    intro j hj
    obtain ⟨shape', hshape'⟩ := Shapes.found_iff.mp hj
    rcases hentered.cases hshape' with ⟨shape, hshape, -⟩ | ⟨-, hagain, -⟩
    · exact h.visits j (Shapes.found_iff.mpr ⟨shape, hshape⟩)
    · exact .next (h.visits i hi) (hentered.subset hagain)
  first := fun block hblock => hentered.found_of (h.first block hblock)
  handlers := fun j block hblock hcatches =>
    hentered.found_of (h.handlers j block hblock hcatches)
  run_found := by
    intro j hj
    rcases Finset.mem_insert.mp hj with rfl | hj
    · exact hentered.found_of hi
    · exact hentered.found_of (h.run_found j hj)
  pending := by
    intro j hj
    obtain ⟨shape', hshape'⟩ := Shapes.found_iff.mp hj
    rcases hentered.cases hshape' with ⟨shape, hshape, -⟩ | ⟨-, hagain, -⟩
    · rcases h.pending j (Shapes.found_iff.mpr ⟨shape, hshape⟩) with hrun | hwork
      · exact .inl (Finset.mem_insert_of_mem hrun)
      · rcases List.mem_cons.mp hwork with rfl | hwork
        · exact .inl (Finset.mem_insert_self _ _)
        · exact .inr (List.mem_append_left _ hwork)
    · exact .inr (List.mem_append_right _ hagain)
  closed := by
    intro j hj k hk
    rcases Finset.mem_insert.mp hj with rfl | hj
    · exact hentered.found k hk
    · exact hentered.found_of (h.closed j hj k hk)
  heights := by
    intro j shape' hshape'
    rcases hentered.cases hshape' with ⟨shape, hshape, hlength⟩ | ⟨hnew, -, hlength⟩
    · have hbefore := h.heights j shape hshape
      have hsum := Finset.sum_le_sum_of_subset (f := lengthAt blocks)
        (Finset.erase_subset_erase j (Finset.subset_insert i run))
      omega
    · -- a new block is none of those that were run
      have hj : j ∉ insert i run := by
        intro hj
        rcases Finset.mem_insert.mp hj with rfl | hj
        · exact hnew hi
        · exact hnew (h.run_found j hj)
      rw [Finset.erase_eq_of_notMem hj, hlength]
      exact hheight

/-- When the worklist is empty, the blocks with a shape are those that control reaches. -/
lemma Underway.found_iff (h : Underway blocks run [] shapes) (i : Nat) :
    shapes.Found i ↔ Visits blocks i := by
  refine ⟨h.visits i, fun hi => ?_⟩
  induction hi with
  | first hblock => exact h.first _ hblock
  | handler hblock hcatches => exact h.handlers _ _ hblock hcatches
  | next _ hj ih => exact h.closed _ ((h.pending _ ih).resolve_right (by simp)) _ hj

/-- Running the first block of the worklist leads from one state of the pass to the next, and leaves
less to be done than before. -/
lemma Underway.run_block {params : ParamSlots} {handlers : List HandlerEntry}
    (h : Underway blocks run (i :: work) shapes)
    (hrange : ∀ i, ∀ j ∈ successorsOf blocks i, j < blocks.length) {block : BasicBlock}
    {shape : Shape} (hblock : blocks[i]? = some block) (hshape : shapes.getD i none = some shape)
    {r : Frame × List Lowered} (hrun : lowerBlock params handlers block shape 0 = .ok r)
    (henter : enterBlocks blocks (shapeOf r.1.stack) (successorsOf blocks i) shapes =
      .ok (shapes', again)) :
    Underway blocks (insert i run) (work ++ again) shapes' ∧
      potential (maxHeight blocks) shapes' + again.length ≤
        potential (maxHeight blocks) shapes := by
  have hi : shapes.Found i := Shapes.found_iff.mpr ⟨shape, hshape⟩
  have hheight : (shapeOf r.1.stack).length ≤
      1 + 2 * ∑ j ∈ insert i run, lengthAt blocks j := by
    have hraised := lowerBlock_height params handlers block shape 0 r hrun
    have hbefore := h.heights i shape hshape
    have hsum := Finset.sum_insert (f := lengthAt blocks) (Finset.notMem_erase i run)
    have hmono := Finset.sum_le_sum_of_subset (f := lengthAt blocks)
      (Finset.insert_subset_insert i (Finset.erase_subset i run))
    have hlength : lengthAt blocks i = block.instructions.length := by
      simp [lengthAt, hblock]
    rw [shapeOf, List.length_map]
    omega
  have hentered := enterBlocks_entered blocks (Nat.le_trans hheight (h.height_le hi)) _
    (fun j hj => h.size ▸ hrange i j hj) _ henter
  exact ⟨h.step hi hheight hentered, hentered.potential⟩

/-- The worklist `work` is run until it is empty or a block fails, without a bound on the number of
runs: `result` is what comes out. -/
inductive WorksOff (params : ParamSlots) (handlers : List HandlerEntry) (blocks : List BasicBlock) :
    List Nat → Shapes → Except (Int × Flaw) Shapes → Prop
  | done {shapes : Shapes} : WorksOff params handlers blocks [] shapes (.ok shapes)
  /-- A block without a shape is dropped. -/
  | drop {i : Nat} {work : List Nat} {shapes : Shapes} {result : Except (Int × Flaw) Shapes}
      (hnone : ∀ block shape, blocks[i]? = some block → ¬ shapes.getD i none = some shape)
      (rest : WorksOff params handlers blocks work shapes result) :
      WorksOff params handlers blocks (i :: work) shapes result
  /-- A block cannot be run from its shape. -/
  | stuck {i : Nat} {work : List Nat} {shapes : Shapes} {block : BasicBlock} {shape : Shape}
      {e : Int × Flaw} (hblock : blocks[i]? = some block)
      (hshape : shapes.getD i none = some shape)
      (hrun : lowerBlock params handlers block shape 0 = .error e) :
      WorksOff params handlers blocks (i :: work) shapes (.error e)
  /-- The shape at the exit of a block does not fit a successor. -/
  | refused {i : Nat} {work : List Nat} {shapes : Shapes} {block : BasicBlock} {shape : Shape}
      {r : Frame × List Lowered} {e : Int × Flaw} (hblock : blocks[i]? = some block)
      (hshape : shapes.getD i none = some shape)
      (hrun : lowerBlock params handlers block shape 0 = .ok r)
      (henter : enterBlocks blocks (shapeOf r.1.stack) (successorsOf blocks i) shapes =
        .error e) : WorksOff params handlers blocks (i :: work) shapes (.error e)
  /-- The shape at the exit of a block is let into its successors; those that it changes are to be
  run again. -/
  | run {i : Nat} {work again : List Nat} {shapes shapes' : Shapes} {block : BasicBlock}
      {shape : Shape} {r : Frame × List Lowered} {result : Except (Int × Flaw) Shapes}
      (hblock : blocks[i]? = some block) (hshape : shapes.getD i none = some shape)
      (hrun : lowerBlock params handlers block shape 0 = .ok r)
      (henter : enterBlocks blocks (shapeOf r.1.stack) (successorsOf blocks i) shapes =
        .ok (shapes', again))
      (rest : WorksOff params handlers blocks (work ++ again) shapes' result) :
      WorksOff params handlers blocks (i :: work) shapes result

/-- With enough fuel, the worklist is run until it is empty or a block fails. -/
lemma runShapes_worksOff (params : ParamSlots) (handlers : List HandlerEntry)
    (hrange : ∀ i, ∀ j ∈ successorsOf blocks i, j < blocks.length) (fuel : Nat)
    (h : Underway blocks run work shapes)
    (hfuel : work.length + potential (maxHeight blocks) shapes ≤ fuel) :
    WorksOff params handlers blocks work shapes
      (runShapes params handlers blocks fuel work shapes) := by
  induction fuel generalizing run work shapes with
  | zero =>
    obtain rfl : work = [] := List.length_eq_zero_iff.mp (by omega)
    exact .done
  | succ fuel ih =>
    cases work with
    | nil => exact .done
    | cons i work =>
      rw [List.length_cons] at hfuel
      rw [runShapes]
      split
      · rename_i block shape hblock hshape
        cases hrun : lowerBlock params handlers block shape 0 with
        | error e => exact .stuck hblock hshape hrun
        | ok r =>
          cases henter : enterBlocks blocks (shapeOf r.1.stack) (successorsOf blocks i) shapes with
          | error e =>
            simp only [bind, Except.bind, henter]
            exact .refused hblock hshape hrun henter
          | ok r' =>
            obtain ⟨hnext, hless⟩ := h.run_block hrange hblock hshape hrun henter
            simp only [bind, Except.bind, henter]
            refine .run hblock hshape hrun henter (ih hnext ?_)
            rw [List.length_append]
            omega
      · rename_i hnone
        have hdropped : ¬ shapes.Found i := by
          intro hi
          obtain ⟨shape, hshape⟩ := Shapes.found_iff.mp hi
          exact hnone _ _ (List.getElem?_eq_getElem (h.size ▸ hi.lt)) hshape
        exact .drop (fun block shape hblock hshape => hnone block shape hblock hshape)
          (ih (h.drop hdropped) (by omega))

/-- A worklist that has been worked off leaves shapes for the blocks that control reaches. -/
lemma WorksOff.visits {params : ParamSlots} {handlers : List HandlerEntry}
    {result : Except (Int × Flaw) Shapes}
    (hworks : WorksOff params handlers blocks work shapes result)
    (hrange : ∀ i, ∀ j ∈ successorsOf blocks i, j < blocks.length)
    (h : Underway blocks run work shapes) :
    Ensures result fun shapes' => ∀ i, shapes'.Found i ↔ Visits blocks i := by
  induction hworks generalizing run with
  | done => exact ensures_ok h.found_iff
  | drop hnone _ ih =>
    refine ih (h.drop fun hi => ?_)
    obtain ⟨shape, hshape⟩ := Shapes.found_iff.mp hi
    exact hnone _ _ (List.getElem?_eq_getElem (h.size ▸ hi.lt)) hshape
  | stuck | refused => exact ensures_error
  | run hblock hshape hrun henter _ ih =>
    exact ih (h.run_block hrange hblock hshape hrun henter).1

end

/-! ## The shape pass -/

lemma sum_lengthAt (blocks : List BasicBlock) :
    ∑ i ∈ Finset.range blocks.length, lengthAt blocks i =
      sumOf (blocks.map (·.instructions.length)) := by
  induction blocks with
  | nil => rfl
  | cons block blocks ih =>
    rw [List.length_cons, Finset.sum_range_succ', List.map_cons, sumOf, ← ih, Nat.add_comm]
    rfl

/-- The shapes at the beginning: only the first block has one. -/
def startShapes (blocks : List BasicBlock) : Shapes :=
  (Array.replicate blocks.length none).setIfInBounds 0 (some [])

lemma startShapes_getD {blocks : List BasicBlock} {i : Nat} {shape : Shape}
    (h : (startShapes blocks).getD i none = some shape) : i = 0 ∧ shape = [] := by
  simp only [startShapes, Array.getD_eq_getD_getElem?, Array.getElem?_setIfInBounds] at h
  split at h
  · rename_i heq
    split at h
    · exact ⟨heq.symm, by simpa using h.symm⟩
    · cases h
  · rw [Array.getElem?_replicate] at h
    split at h <;> cases h

lemma startShapes_found {blocks : List BasicBlock} (h : 0 < blocks.length) :
    (startShapes blocks).Found 0 := by
  simp [Shapes.Found, startShapes, Array.getD_eq_getD_getElem?, h]

lemma potential_startShapes (blocks : List BasicBlock) :
    potential (maxHeight blocks) (startShapes blocks) ≤
      blocks.length * (maxHeight blocks + 1) := by
  have hslack : ∀ i ∈ Finset.range (startShapes blocks).size,
      slack (maxHeight blocks) ((startShapes blocks).getD i none) ≤ maxHeight blocks + 1 := by
    intro i _
    cases hshape : (startShapes blocks).getD i none with
    | none => exact Nat.le_refl _
    | some shape =>
      rw [(startShapes_getD hshape).2]
      exact Nat.zero_le _
  have hsize : (startShapes blocks).size = blocks.length := by simp [startShapes]
  calc potential (maxHeight blocks) (startShapes blocks)
      ≤ ∑ i ∈ Finset.range (startShapes blocks).size, (maxHeight blocks + 1) :=
        Finset.sum_le_sum hslack
    _ = blocks.length * (maxHeight blocks + 1) := by
        rw [Finset.sum_const_nat fun _ _ => rfl, Finset.card_range, hsize]

/-- After the exceptions were let into the handlers, the pass is underway. -/
lemma underway_start {blocks : List BasicBlock} {shapes : Shapes} {found : List Nat} {bound : Nat}
    (h : Entered bound 1 (handlerPositions blocks.zipIdx) (startShapes blocks) shapes found) :
    Underway blocks ∅ (0 :: found) shapes := by
  have hhandler : ∀ i, i ∈ handlerPositions blocks.zipIdx ↔
      ∃ block, blocks[i]? = some block ∧ block.catches.isSome = true := by
    intro i
    simp [handlerPositions, List.mem_zipIdx_iff_getElem?]
  refine
    { size := h.size.trans (by simp [startShapes])
      visits := ?_, first := ?_, handlers := ?_, run_found := by simp, pending := ?_
      closed := by simp, heights := ?_ }
  · intro i hi
    obtain ⟨shape, hshape⟩ := Shapes.found_iff.mp hi
    rcases h.cases hshape with ⟨shape', hshape', -⟩ | ⟨-, hfound, -⟩
    · obtain ⟨rfl, -⟩ := startShapes_getD hshape'
      have hlt : 0 < blocks.length := by
        have := hi.lt
        rwa [h.size, startShapes, Array.size_setIfInBounds, Array.size_replicate] at this
      exact .first (List.getElem?_eq_getElem hlt)
    · obtain ⟨block, hblock, hcatches⟩ := (hhandler i).mp (h.subset hfound)
      exact .handler hblock hcatches
  · intro block hblock
    exact h.found_of (startShapes_found (List.getElem?_eq_some_iff.mp hblock).1)
  · intro i block hblock hcatches
    exact h.found i ((hhandler i).mpr ⟨block, hblock, hcatches⟩)
  · intro i hi
    obtain ⟨shape, hshape⟩ := Shapes.found_iff.mp hi
    rcases h.cases hshape with ⟨shape', hshape', -⟩ | ⟨-, hfound, -⟩
    · exact .inr (by simp [(startShapes_getD hshape').1])
    · exact .inr (List.mem_cons_of_mem _ hfound)
  · intro i shape hshape
    rcases h.cases hshape with ⟨shape', hshape', hlength⟩ | ⟨-, -, hlength⟩
    · rw [hlength, (startShapes_getD hshape').2]
      exact Nat.zero_le _
    · omega

/-- The shape pass lets the exceptions into the handlers and runs its worklist. -/
lemma findShapes_eq (params : ParamSlots) (handlers : List HandlerEntry)
    (blocks : List BasicBlock) : findShapes params handlers blocks =
      (enterHandlers blocks.zipIdx (startShapes blocks)).bind fun r =>
        runShapes params handlers blocks (runBound blocks) (0 :: r.2) r.1 :=
  rfl

/-- The fuel of the shape pass is enough: its result is what comes out of the worklist, once the
exceptions were let into the handlers. -/
lemma findShapes_worksOff (params : ParamSlots) (handlers : List HandlerEntry)
    {blocks : List BasicBlock} (hrange : ∀ i, ∀ j ∈ successorsOf blocks i, j < blocks.length)
    {shapes : Shapes} {found : List Nat}
    (h : enterHandlers blocks.zipIdx (startShapes blocks) = .ok (shapes, found)) :
    Underway blocks ∅ (0 :: found) shapes ∧
      WorksOff params handlers blocks (0 :: found) shapes (findShapes params handlers blocks) := by
  have hbound : 1 ≤ maxHeight blocks := Nat.le_add_right _ _
  have hentries : ∀ entry ∈ blocks.zipIdx, entry.2 < (startShapes blocks).size := by
    intro entry hentry
    simpa [startShapes] using List.snd_lt_of_mem_zipIdx hentry
  have hentered := enterHandlers_entered hbound blocks.zipIdx hentries _ h
  refine ⟨underway_start hentered, ?_⟩
  rw [findShapes_eq, h]
  refine runShapes_worksOff params handlers hrange _ (underway_start hentered) ?_
  have hpotential : potential (maxHeight blocks) shapes + found.length ≤
    potential (maxHeight blocks) (startShapes blocks) := hentered.potential
  have hstart := potential_startShapes blocks
  have hcount : maxHeight blocks = 1 + 2 * sumOf (blocks.map (·.instructions.length)) := by
    rw [maxHeight, sum_lengthAt]
  have hfuel : blocks.length * (maxHeight blocks + 1) + 1 ≤ runBound blocks := by
    rw [hcount, runBound]
    exact Nat.succ_le_succ (Nat.mul_le_mul_left _ (by omega))
  rw [List.length_cons]
  omega

/-- **The shape pass.** A block has a shape if and only if control reaches it from the first block
or from a handler. -/
theorem findShapes_visits (params : ParamSlots) (handlers : List HandlerEntry)
    {blocks : List BasicBlock} (hrange : ∀ i, ∀ j ∈ successorsOf blocks i, j < blocks.length) :
    Ensures (findShapes params handlers blocks) fun shapes =>
      ∀ i, shapes.Found i ↔ Visits blocks i := by
  cases henter : enterHandlers blocks.zipIdx (startShapes blocks) with
  | error e =>
    rw [findShapes_eq, henter]
    exact ensures_error
  | ok r =>
    obtain ⟨hunderway, hworks⟩ := findShapes_worksOff params handlers hrange henter
    exact hworks.visits hrange hunderway

/-! ## Lowered blocks -/

/-- The last instruction of the last block is the last one of the code. -/
lemma MethodBody.getLast?_code {b : MethodBody} {block : BasicBlock} {ins : Instruction}
    (hblock : b.blocks.getLast? = some block) (hins : block.last? = some ins) :
    b.code.getLast? = some ins := by
  obtain ⟨front, hfront⟩ := List.getLast?_eq_some_iff.mp hblock
  have hins : block.instructions.getLast? = some ins := hins
  rw [← b.flatMap_blocks, hfront, List.flatMap_append, List.flatMap_singleton,
    List.getLast?_append, hins]
  rfl

/-- The successors of a block of a checked body are blocks. -/
lemma MethodBody.Valid.successorsOf_lt {b : MethodBody} (h : b.Valid) (i : Nat) :
    ∀ j ∈ successorsOf b.blocks i, j < b.blocks.length := by
  intro j hj
  unfold successorsOf at hj
  split at hj
  · cases hj
  · rename_i ins hins
    obtain ⟨block, hblock, hlast⟩ := Option.bind_eq_some_iff.mp hins
    have hi := (List.getElem?_eq_some_iff.mp hblock).1
    rcases List.mem_append.mp hj with hj | hj
    · obtain ⟨t, -, ht⟩ := List.mem_filterMap.mp hj
      exact (List.findIdx?_eq_some_iff_getElem.mp ht).1
    · split at hj
      · cases hj
      · rename_i hgoes
        rw [List.mem_singleton.mp hj]
        by_contra hend
        -- the last block ends in an instruction that does not go on
        have hblock' : b.blocks.getLast? = some block := by
          rw [List.getLast?_eq_getElem?, ← hblock]
          congr 1
          omega
        exact hgoes (h.ends ins (b.getLast?_code hblock' hlast))

/-- The blocks with a shape are lowered as reached ones. -/
lemma lowerBlocks_reached (params : ParamSlots) (handlers : List HandlerEntry) (shapes : Shapes)
    (blocks : List (BasicBlock × Nat)) (p : Progression) :
    Ensures (lowerBlocks params handlers shapes blocks p) fun p' =>
      p'.spans.map (·.reached) =
        p.spans.map (·.reached) ++ blocks.map fun e => (shapes.getD e.2 none).isSome := by
  induction blocks generalizing p with
  | nil => exact ensures_ok (by simp)
  | cons e blocks ih =>
    obtain ⟨block, i⟩ := e
    have hadd : Ensures (p.add params handlers block (shapes.getD i none)) fun p₁ =>
        p₁.spans.map (·.reached) =
          p.spans.map (·.reached) ++ [(shapes.getD i none).isSome] := by
      unfold Progression.add
      split
      · exact ensures_ok (by simp)
      · exact Ensures.of_bind fun r => ensures_ok (by simp)
    refine Ensures.bind hadd fun p₁ hp₁ => ?_
    intro p' hp'
    rw [ih p₁ p' hp', hp₁]
    simp

/-- The blocks of a checked body that are lowered as reached ones are those that control reaches. -/
lemma lowerBlocks_visits {params : ParamSlots} {b : MethodBody} (hvalid : b.Valid)
    {shapes : Shapes} (hshapes : findShapes params b.handlers b.blocks = .ok shapes) :
    Ensures (lowerBlocks params b.handlers shapes b.blocks.zipIdx {}) fun p =>
      ∀ i s, p.spans[i]? = some s → (s.reached = true ↔ Visits b.blocks i) := by
  intro p hp i s hs
  have hfound := findShapes_visits params b.handlers hvalid.successorsOf_lt shapes hshapes i
  have hreached := lowerBlocks_reached params b.handlers shapes b.blocks.zipIdx {} p hp
  have hget := congrArg (·[i]?) hreached
  simp only [List.map_nil, List.nil_append, List.getElem?_map, hs, Option.map_some,
    List.getElem?_zipIdx, Nat.zero_add, Option.map_map] at hget
  obtain ⟨block, -, hsome⟩ := Option.map_eq_some_iff.mp hget.symm
  rw [← hfound, ← hsome]
  rfl

end JvmTaint
