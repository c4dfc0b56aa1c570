import JvmTaint.Proofs.Lowering.StackShapes

set_option autoImplicit false
set_option relaxedAutoImplicit false

/-!
# Consistent shapes

A body is run twice: once to find the shape of the stack at the entry of each block, and once to
lower its blocks. The shapes that the first pass finds are consistent: the stack at the exit of a
block has the shape of each successor, but that the successor may have forgotten types. The second
pass differs from the first one in the scratch temporaries that are in use. These do not show in the
shape of the stack, nor in what fails. So the second pass runs every block that the first one ran,
without an error and with the same shape at the exit.

## Main definitions

* `JvmTaint.Shape.Weakens`: a shape is another one with some types forgotten.
* `JvmTaint.Frame.outline`: what a frame says without the values in its slots.
* `JvmTaint.ExitsFit`: a block fits its successors.

## Main results

* `JvmTaint.lowerBlock_outline`: how a block runs does not depend on the scratch temporaries.
* `JvmTaint.WorksOff.exitsFit`: when the worklist has been worked off, all blocks fit.
* `JvmTaint.MethodBody.shapes_consistent`: the shapes of a checked body are consistent, and its
  blocks can be lowered.
-/

namespace JvmTaint

/-! ## Frames with the same outline -/

/-- Two computations go on alike if their results look alike and what follows does. -/
lemma map_bind_congr {ε α β γ δ : Type} {p : α → γ} {q : β → δ} {x y : Except ε α}
    {k l : α → Except ε β} (h : x.map p = y.map p)
    (hk : ∀ a b, p a = p b → (k a).map q = (l b).map q) :
    (x >>= k).map q = (y >>= l).map q := by
  cases x with
  | error e =>
    cases y with
    | error e' =>
      obtain rfl : e = e' := by simpa [Except.map] using h
      rfl
    | ok b => simp [Except.map] at h
  | ok a =>
    cases y with
    | error e' => simp [Except.map] at h
    | ok b => exact hk a b (by simpa [Except.map] using h)

namespace Frame

variable {f g : Frame}

/-- What a frame says without the values in its slots and what was lowered: the shape of its stack
and the types of the local variables. -/
def outline (f : Frame) : Shape × List (Int × String) := (shapeOf f.stack, f.types)

/-- The kind and the type of a slot that was taken, and the outline of the frame that is left. -/
def takenOutline (r : Slot × Frame) : (Kind × String) × Shape × List (Int × String) :=
  ((r.1.kind, r.1.type), r.2.outline)

@[simp] lemma outline_emit (f : Frame) (a : Action Int) : (f.emit a).outline = f.outline := rfl

@[simp] lemma outline_push (f : Frame) (kind : Kind) (type : String) (value : Value) :
    (f.push kind type value).outline = (f.outline.1 ++ [(kind, type)], f.outline.2) := by
  simp [outline, push, shapeOf]

/-- The slots that are moved to a scratch temporary keep their kinds and types. -/
@[simp] lemma outline_protect (f : Frame) (value : Value) :
    (f.protect value).outline = f.outline := by
  unfold protect
  split
  · rfl
  · split
    · rfl
    · simp only [outline, shapeOf, fresh, emit, List.map_map, Prod.mk.injEq, and_true]
      refine List.map_congr_left fun s _ => ?_
      dsimp only [Function.comp]
      split <;> rfl

@[simp] lemma outline_result (f : Frame) (type : String) :
    (f.result type).2.outline = f.outline :=
  f.outline_protect _

@[simp] lemma outline_assign (f : Frame) (kind : Kind) (c : Computation) (type : String) :
    (f.assign kind c type).outline = (f.outline.1 ++ [(kind, type)], f.outline.2) := by
  simp [assign]

lemma types_save (targets : List Nat) (value : Value) (f : Frame) (saved : Saved) :
    (save targets value f saved).2.1.types = f.types := by
  unfold save
  split
  · split
    · split <;> rfl
    · rfl
  · rfl

lemma types_saveAll (targets : List Nat) (values : List Value) (f : Frame) (saved : Saved) :
    (saveAll targets values f saved).2.1.types = f.types := by
  induction values generalizing f saved with
  | nil => rfl
  | cons v vs ih => exact (ih _ _).trans (types_save targets v f saved)

/-- Saving the values of slots keeps the kinds and types of the slots. -/
lemma outline_saveSlots (targets : List Nat) (i : Nat) (stack : List Slot) (f : Frame)
    (saved : Saved) : shapeOf (saveSlots targets i stack f saved).1 = shapeOf stack ∧
      (saveSlots targets i stack f saved).2.1.types = f.types := by
  induction stack generalizing i f saved with
  | nil => exact ⟨rfl, rfl⟩
  | cons s stack ih =>
    unfold saveSlots
    split
    · obtain ⟨hshape, htypes⟩ := ih (i + 1) f saved
      exact ⟨congrArg ((s.kind, s.type) :: ·) hshape, htypes⟩
    · obtain ⟨hshape, htypes⟩ := ih (i + 1) (save targets s.value f saved).2.1
        (save targets s.value f saved).2.2
      exact ⟨congrArg ((s.kind, s.type) :: ·) hshape, htypes.trans (types_save ..)⟩

lemma shapeOf_settled (stack : List Slot) : shapeOf (settled stack) = shapeOf stack := by
  have hfst : stack.zipIdx.map Prod.fst = stack := List.zipIdx_map_fst 0 stack
  unfold settled shapeOf
  rw [List.map_map]
  conv_rhs => rw [← hfst, List.map_map]
  refine List.map_congr_left fun e _ => ?_
  dsimp only [Function.comp]
  split <;> rfl

/-- Moving the slots to their temporaries keeps their kinds and types. -/
@[simp] lemma outline_normalize (f : Frame) (keep : List Value) :
    (f.normalize keep).2.outline = f.outline := by
  obtain ⟨hshape, htypes⟩ := outline_saveSlots (displaced f.stack) 0 f.stack f []
  simp only [outline, normalize, Prod.mk.injEq]
  exact ⟨(shapeOf_settled _).trans hshape, (types_saveAll ..).trans htypes⟩

/-! ## Operations -/

lemma shapeOf_getLast? (stack : List Slot) :
    (shapeOf stack).getLast? = stack.getLast?.map fun s => (s.kind, s.type) := by
  simp [shapeOf]

lemma shapeOf_dropLast (stack : List Slot) : shapeOf stack.dropLast = (shapeOf stack).dropLast := by
  simp [shapeOf]

/-- Popping a slot depends on the outline only. -/
lemma map_pop (h : f.outline = g.outline) : f.pop.map takenOutline = g.pop.map takenOutline := by
  obtain ⟨hshape, htypes⟩ := Prod.mk.inj h
  have hlast : f.stack.getLast?.map (fun s => (s.kind, s.type)) =
      g.stack.getLast?.map fun s => (s.kind, s.type) := by
    rw [← shapeOf_getLast?, ← shapeOf_getLast?, hshape]
  unfold pop
  cases hf : f.stack.getLast? with
  | none =>
    cases hg : g.stack.getLast? with
    | none => rfl
    | some s => simp [hf, hg] at hlast
  | some s =>
    cases hg : g.stack.getLast? with
    | none => simp [hf, hg] at hlast
    | some s' =>
      rw [hf, hg] at hlast
      have hrest : shapeOf f.stack.dropLast = shapeOf g.stack.dropLast := by
        rw [shapeOf_dropLast, shapeOf_dropLast, hshape]
      simp only [Except.map, takenOutline, outline, hrest, htypes]
      simpa using hlast

/-- Popping several slots depends on the outline only. -/
lemma map_popN (h : f.outline = g.outline) (n : Nat) :
    (f.popN n).map (·.2.outline) = (g.popN n).map (·.2.outline) := by
  obtain ⟨hshape, htypes⟩ := Prod.mk.inj h
  have hlength : f.stack.length = g.stack.length := by
    simpa [shapeOf] using congrArg List.length hshape
  have hrest : ∀ k, shapeOf (f.stack.take k) = shapeOf (g.stack.take k) := by
    intro k
    simpa [shapeOf] using congrArg (List.take k) hshape
  unfold popN
  rw [hlength]
  split
  · rfl
  · simp only [Except.map, outline, hrest, htypes]

/-- Popping words depends on the shape only. -/
lemma map_popWords (op : Opcode) (words : Nat) {stack stack' : List Slot}
    (h : shapeOf stack = shapeOf stack') :
    (popWords op words stack).map (fun r => (shapeOf r.1, shapeOf r.2)) =
      (popWords op words stack').map fun r => (shapeOf r.1, shapeOf r.2) := by
  have hlast : ∀ {stack stack' : List Slot}, shapeOf stack = shapeOf stack' →
      stack.getLast?.map (fun s => (s.kind, s.type)) =
        stack'.getLast?.map fun s => (s.kind, s.type) := by
    intro stack stack' h
    rw [← shapeOf_getLast?, ← shapeOf_getLast?, h]
  fun_induction popWords op words stack generalizing stack' with
  | case1 stack => simp [popWords, Except.map, h]
  | case2 words stack hnone =>
    have := hlast h
    rw [hnone] at this
    rw [popWords, Option.map_eq_none_iff.mp this.symm]
  | case3 words stack s hs hsplits =>
    have := hlast h
    rw [hs] at this
    obtain ⟨s', hs', heq⟩ := Option.map_eq_some_iff.mp this.symm
    obtain ⟨hkind, -⟩ := Prod.mk.inj heq
    rw [popWords, hs']
    simp [hkind, hsplits]
  | case4 words stack s hs hfits ih =>
    have := hlast h
    rw [hs] at this
    obtain ⟨s', hs', heq⟩ := Option.map_eq_some_iff.mp this.symm
    obtain ⟨hkind, htype⟩ := Prod.mk.inj heq
    rw [popWords, hs']
    simp only [hkind, hfits, if_false]
    refine map_bind_congr (ih (by rw [shapeOf_dropLast, shapeOf_dropLast, h])) ?_
    intro r r' hr
    obtain ⟨htaken, hrest⟩ := Prod.mk.inj hr
    simp only [pure, Except.pure, Except.map, hrest]
    simp only [shapeOf, List.map_append, List.map_cons, List.map_nil, hkind, htype] at htaken ⊢
    rw [htaken]

section

variable {β δ : Type} {q : β → δ}

/-- What follows a slot that was popped. -/
lemma map_pop_bind {k l : Slot × Frame → Except Flaw β} (h : f.outline = g.outline)
    (hk : ∀ s f₁ s' g₁, s.kind = s'.kind → s.type = s'.type → f₁.outline = g₁.outline →
      (k (s, f₁)).map q = (l (s', g₁)).map q) :
    (f.pop >>= k).map q = (g.pop >>= l).map q := by
  refine map_bind_congr (map_pop h) ?_
  rintro ⟨s, f₁⟩ ⟨s', g₁⟩ hr
  simp only [takenOutline, Prod.mk.injEq] at hr
  exact hk s f₁ s' g₁ hr.1.1 hr.1.2 hr.2

/-- What follows several slots that were popped. -/
lemma map_popN_bind {k l : List Slot × Frame → Except Flaw β} (n : Nat)
    (h : f.outline = g.outline)
    (hk : ∀ args f₁ args' g₁, f₁.outline = g₁.outline →
      (k (args, f₁)).map q = (l (args', g₁)).map q) :
    (f.popN n >>= k).map q = (g.popN n >>= l).map q :=
  map_bind_congr (map_popN h n) fun r r' hr => hk r.1 r.2 r'.1 r'.2 hr

/-- What follows words that were popped. -/
lemma map_popWords_bind {k l : List Slot × List Slot → Except Flaw β} (op : Opcode) (words : Nat)
    {stack stack' : List Slot} (h : shapeOf stack = shapeOf stack')
    (hk : ∀ taken rest taken' rest', shapeOf taken = shapeOf taken' → shapeOf rest = shapeOf rest' →
      (k (taken, rest)).map q = (l (taken', rest')).map q) :
    (popWords op words stack >>= k).map q = (popWords op words stack' >>= l).map q :=
  map_bind_congr (map_popWords op words h) fun r r' hr =>
    hk r.1 r.2 r'.1 r'.2 (Prod.mk.inj hr).1 (Prod.mk.inj hr).2

end

/-- The jump of a branch keeps the outline. -/
lemma map_jump (h : f.outline = g.outline) (comparison : Comparison) (target : Int)
    (left right left' right' : Value) :
    (match f.normalize [left, right] with
      | ([left, right], f) => pure (f.emit (.branch ⟨comparison, left, right⟩ target))
      | (_, f) => pure (f.emit (.branch ⟨comparison, left, right⟩ target)) :
      Except Flaw Frame).map outline =
    (match g.normalize [left', right'] with
      | ([left, right], f) => pure (f.emit (.branch ⟨comparison, left, right⟩ target))
      | (_, f) => pure (f.emit (.branch ⟨comparison, left', right'⟩ target)) :
      Except Flaw Frame).map outline := by
  have hf := (f.outline_normalize [left, right]).trans
    (h.trans (g.outline_normalize [left', right']).symm)
  split
  all_goals
    rename_i heq
    rw [heq] at hf
    split
    all_goals
      rename_i heq'
      rw [heq'] at hf
      exact congrArg Except.ok hf

/-- The jump of a switch keeps the outline. -/
lemma map_switch (h : f.outline = g.outline) (targets : List Int) (key key' : Value) :
    (match f.normalize [key] with
      | ([k], f) => pure (f.emit (.switch k targets))
      | (_, f) => pure (f.emit (.switch key targets)) : Except Flaw Frame).map outline =
    (match g.normalize [key'] with
      | ([k], f) => pure (f.emit (.switch k targets))
      | (_, f) => pure (f.emit (.switch key' targets)) : Except Flaw Frame).map outline := by
  have hf := (f.outline_normalize [key]).trans (h.trans (g.outline_normalize [key']).symm)
  split
  all_goals
    rename_i heq
    rw [heq] at hf
    split
    all_goals
      rename_i heq'
      rw [heq'] at hf
      exact congrArg Except.ok hf

/-- A call behind its operands leaves the slot of its result. -/
lemma map_call (h : f.outline = g.outline) (result : Option FieldType) (c c' : Call) :
    (match result with
      | none => pure (f.emit (.invoke none c))
      | some t => pure (((f.result t.render).2.emit
          (.invoke (some (f.result t.render).1) c)).push t.kind t.render (f.result t.render).1) :
      Except Flaw Frame).map outline =
    (match result with
      | none => pure (g.emit (.invoke none c'))
      | some t => pure (((g.result t.render).2.emit
          (.invoke (some (g.result t.render).1) c')).push t.kind t.render (g.result t.render).1) :
      Except Flaw Frame).map outline := by
  cases result with
  | none => exact congrArg Except.ok h
  | some t => simp [pure, Except.pure, Except.map, h]

/-- An operation does to the outline of a frame what it does to the same outline of another frame:
it fails alike, or leaves the same outline.

**Proof sketch.** By cases on the operation. What is popped has the same kinds and types in both
frames, and what is pushed is chosen by them, by the types of local variables and by the
instruction; the values in the slots only show in the lowered actions. -/
lemma map_step (params : ParamSlots) (op : Opcode) (o : Operation) (h : f.outline = g.outline) :
    (f.step params op o).map outline = (g.step params op o).map outline := by
  obtain ⟨hshape, htypes⟩ := Prod.mk.inj h
  have hdone : ∀ {f g : Frame}, f.outline = g.outline →
      (pure f : Except Flaw Frame).map outline = (pure g : Except Flaw Frame).map outline :=
    fun h => congrArg Except.ok h
  cases o with
  | nop => exact hdone h
  | push kind literal type => exact hdone (by simp [h])
  | load kind slot =>
    simp only [step, htypes]
    exact hdone (by simp [h])
  | store slot =>
    refine map_pop_bind h fun s f₁ s' g₁ _ htype h₁ => ?_
    have h₂ : (f₁.protect (params.variable slot s'.type)).outline =
        (g₁.protect (params.variable slot s'.type)).outline := by simp [h₁]
    obtain ⟨hshape₂, htypes₂⟩ := Prod.mk.inj h₂
    simp only [htype]
    exact hdone (Prod.ext hshape₂ (congrArg ((slot, s'.type) :: ·) htypes₂))
  | increment slot amount => exact hdone (by simp [h])
  | arrayLoad element refine =>
    refine map_pop_bind h fun i f₁ i' g₁ _ _ h₁ => map_pop_bind h₁ fun a f₂ a' g₂ _ htype h₂ => ?_
    simp only [htype]
    exact hdone (by simp [h₂])
  | arrayStore =>
    exact map_pop_bind h fun _ _ _ _ _ _ h₁ => map_pop_bind h₁ fun _ _ _ _ _ _ h₂ =>
      map_pop_bind h₂ fun _ _ _ _ _ _ h₃ => hdone h₃
  | pop words =>
    exact map_popWords_bind op words hshape fun _ _ _ _ _ hrest =>
      hdone (Prod.ext hrest htypes)
  | dup top below =>
    refine map_popWords_bind op top hshape fun above stack above' stack' habove hstack => ?_
    refine map_popWords_bind op below hstack fun under rest under' rest' hunder hrest => hdone ?_
    simp only [shapeOf] at habove hunder hrest
    simp [outline, shapeOf, habove, hunder, hrest, htypes]
  | swap =>
    refine map_pop_bind h fun b f₁ b' g₁ hkind htype h₁ =>
      map_pop_bind h₁ fun a f₂ a' g₂ hkind' htype' h₂ => hdone ?_
    obtain ⟨hshape₂, htypes₂⟩ := Prod.mk.inj h₂
    simp only [shapeOf] at hshape₂
    simp [outline, shapeOf, hshape₂, htypes₂, hkind, htype, hkind', htype']
  | binary operator | compare =>
    exact map_pop_bind h fun _ _ _ _ _ _ h₁ => map_pop_bind h₁ fun _ _ _ _ hkind _ h₂ =>
      hdone (by simp [h₂, hkind])
  | negate | convert type | arrayLength | checkCast cls | instanceOf cls =>
    exact map_pop_bind h fun _ _ _ _ hkind _ h₁ => hdone (by simp [h₁, hkind])
  | branch test comparison target =>
    cases test with
    | zero =>
      exact map_pop_bind h fun s _ s' _ _ _ h₁ =>
        map_jump h₁ comparison target s.value (.const "0" "I") s'.value (.const "0" "I")
    | null =>
      exact map_pop_bind h fun s _ s' _ _ _ h₁ =>
        map_jump h₁ comparison target s.value (.const "null" "") s'.value (.const "null" "")
    | pair =>
      exact map_pop_bind h fun r _ r' _ _ _ h₁ => map_pop_bind h₁ fun l _ l' _ _ _ h₂ =>
        map_jump h₂ comparison target l.value r.value l'.value r'.value
  | goto target => exact hdone (by simp [h])
  | switch targets =>
    exact map_pop_bind h fun s _ s' _ _ _ h₁ => map_switch h₁ targets s.value s'.value
  | ret hasValue =>
    cases hasValue with
    | false => exact hdone h
    | true => exact map_pop_bind h fun _ _ _ _ _ _ h₁ => hdone h₁
  | throw | putStatic field | monitor =>
    exact map_pop_bind h fun _ _ _ _ _ _ h₁ => hdone h₁
  | getStatic field => exact hdone (by simp [h])
  | getField field =>
    exact map_pop_bind h fun _ _ _ _ _ _ h₁ => hdone (by simp [h₁])
  | putField field =>
    exact map_pop_bind h fun _ _ _ _ _ _ h₁ => map_pop_bind h₁ fun _ _ _ _ _ _ h₂ => hdone h₂
  | invoke kind target d =>
    refine map_popN_bind d.params.length h fun args f₁ args' g₁ h₁ => ?_
    dsimp only
    split
    · exact map_pop_bind h₁ fun _ _ _ _ _ _ h₂ => map_call h₂ d.result _ _
    · exact map_call h₁ d.result _ _
  | new cls => exact hdone (by simp [h])
  | newArray dims type =>
    exact map_popN_bind dims h fun _ _ _ _ h₁ => hdone (by simp [h₁])

end Frame

/-- An instruction does the same to frames with the same outline. -/
lemma map_lowerInstruction (params : ParamSlots) (ins : Instruction) {f g : Frame}
    (h : f.outline = g.outline) : (lowerInstruction params ins f).map (·.1.outline) =
      (lowerInstruction params ins g).map (·.1.outline) := by
  unfold lowerInstruction
  cases ins.operation with
  | error flaw => rfl
  | ok o =>
    have hstep := Frame.map_step params ins.op o h
    simp only [Except.bind]
    cases hf : f.step params ins.op o with
    | error flaw =>
      cases hg : g.step params ins.op o with
      | error flaw' =>
        simp only [hf, hg, Except.map, Except.error.injEq] at hstep ⊢
        rw [hstep]
      | ok g' => simp [hf, hg, Except.map] at hstep
    | ok f' =>
      cases hg : g.step params ins.op o with
      | error flaw' => simp [hf, hg, Except.map] at hstep
      | ok g' =>
        simp only [hf, hg, Except.map, Except.ok.injEq] at hstep ⊢
        exact hstep

lemma map_lowerInstructions (params : ParamSlots) (code : List Instruction) {f g : Frame}
    (h : f.outline = g.outline) : (lowerInstructions params code f).map (·.1.outline) =
      (lowerInstructions params code g).map (·.1.outline) := by
  induction code generalizing f g with
  | nil => exact congrArg Except.ok h
  | cons ins rest ih =>
    refine map_bind_congr (map_lowerInstruction params ins h) fun r r' hr => ?_
    exact map_bind_congr (ih hr) fun r₁ r₁' hr₁ => congrArg Except.ok hr₁

/-- **Scratch temporaries.** How a block runs from a shape does not depend on the number of scratch
temporaries in use: it fails with the same error, or leaves the same shape. -/
lemma lowerBlock_outline (params : ParamSlots) (handlers : List HandlerEntry) (block : BasicBlock)
    (shape : Shape) (scratch scratch' : Nat) :
    (lowerBlock params handlers block shape scratch).map (·.1.outline) =
      (lowerBlock params handlers block shape scratch').map (·.1.outline) := by
  refine map_bind_congr (map_lowerInstructions params block.instructions
    (f := { stack := entryStack shape, scratch })
    (g := { stack := entryStack shape, scratch := scratch' }) rfl) fun r r' hr => ?_
  dsimp only
  split
  · exact congrArg Except.ok hr
  · split
    · exact congrArg Except.ok hr
    · have hnormal := (r.1.outline_normalize []).trans (hr.trans (r'.1.outline_normalize []).symm)
      exact congrArg Except.ok hnormal

/-- A block that runs from a shape runs with any number of scratch temporaries, and leaves the same
shape. -/
lemma exists_lowerBlock {params : ParamSlots} {handlers : List HandlerEntry} {block : BasicBlock}
    {shape : Shape} {scratch : Nat} {r : Frame × List Lowered}
    (h : lowerBlock params handlers block shape scratch = .ok r) (scratch' : Nat) :
    ∃ r', lowerBlock params handlers block shape scratch' = .ok r' ∧
      shapeOf r'.1.stack = shapeOf r.1.stack := by
  have hsame := lowerBlock_outline params handlers block shape scratch' scratch
  cases hr' : lowerBlock params handlers block shape scratch' with
  | error e => simp [h, hr', Except.map] at hsame
  | ok r' =>
    simp only [h, hr', Except.map, Except.ok.injEq] at hsame
    exact ⟨r', rfl, congrArg Prod.fst hsame⟩

/-! ## Weakened shapes -/

/-- The shape `known` is the shape `incoming` with some types forgotten: both have the same height
and the same kinds, and a type of `known` is empty or that of `incoming`. -/
def Shape.Weakens (known incoming : Shape) : Prop :=
  List.Forall₂ (fun s s' => s.1 = s'.1 ∧ (s.2 = "" ∨ s.2 = s'.2)) known incoming

namespace Shape.Weakens

lemma refl (shape : Shape) : Shape.Weakens shape shape :=
  List.forall₂_same.mpr fun _ _ => ⟨rfl, .inr rfl⟩

lemma trans {a b c : Shape} (h : Shape.Weakens a b) (h' : Shape.Weakens b c) :
    Shape.Weakens a c := by
  induction h generalizing c with
  | nil => exact h'
  | @cons s s' a b hs _ ih =>
    cases h' with
    | @cons _ s'' _ c hs' hrest =>
      refine .cons ⟨hs.1.trans hs'.1, ?_⟩ (ih hrest)
      rcases hs.2 with hempty | heq
      · exact .inl hempty
      · rw [heq]
        exact hs'.2

end Shape.Weakens

/-- What a join keeps is known of both shapes. -/
lemma joinShapes_weakens (known incoming : Shape) (hlength : known.length = incoming.length) :
    Ensures (joinShapes known incoming) fun joined =>
      Shape.Weakens joined known ∧ Shape.Weakens joined incoming := by
  fun_induction joinShapes known incoming with
  | case1 k t known k' t' incoming hne => exact ensures_error
  | case2 k t known k' t' incoming heq ih =>
    obtain rfl : k = k' := by simpa using heq
    refine Ensures.bind (ih (by simpa using hlength)) fun rest hrest => ensures_ok ⟨?_, ?_⟩
    · refine .cons ⟨rfl, ?_⟩ hrest.1
      dsimp only
      split
      · exact .inr rfl
      · exact .inl rfl
    · refine .cons ⟨rfl, ?_⟩ hrest.2
      dsimp only
      split
      · exact .inr ‹_›
      · exact .inl rfl
  | case3 known incoming hnot =>
    -- one of the shapes is empty, so both are
    cases known with
    | nil =>
      obtain rfl := List.length_eq_zero_iff.mp hlength.symm
      exact ensures_ok ⟨.nil, .nil⟩
    | cons s known =>
      cases incoming with
      | nil => cases hlength
      | cons s' incoming => exact (hnot _ _ _ _ _ _ rfl rfl).elim

/-! ## Letting a shape into blocks -/

/-- What letting the shape `incoming` into the blocks at `is` does to shapes: these blocks have
shapes that weaken it, shapes are only weakened, and those of the blocks that are not to be run
again are the same as before. -/
structure LetIn (incoming : Shape) (is again : List Nat) (shapes shapes' : Shapes) : Prop where
  size : shapes'.size = shapes.size
  admitted : ∀ i ∈ is, ∃ known, shapes'.getD i none = some known ∧ Shape.Weakens known incoming
  weakened : ∀ i known, shapes.getD i none = some known →
    ∃ known', shapes'.getD i none = some known' ∧ Shape.Weakens known' known
  kept : ∀ i, i ∉ again → shapes'.getD i none = shapes.getD i none

namespace LetIn

variable {incoming : Shape} {is js again more : List Nat} {shapes shapes' shapes'' : Shapes}

lemma nil : LetIn incoming [] [] shapes shapes where
  size := rfl
  admitted := by simp
  weakened := fun _ known h => ⟨known, h, .refl known⟩
  kept := fun _ _ => rfl

lemma append (h : LetIn incoming is again shapes shapes')
    (h' : LetIn incoming js more shapes' shapes'') :
    LetIn incoming (is ++ js) (again ++ more) shapes shapes'' where
  size := h'.size.trans h.size
  admitted := by
    intro i hi
    rcases List.mem_append.mp hi with hi | hi
    · obtain ⟨known, hknown, hweak⟩ := h.admitted i hi
      obtain ⟨known', hknown', hweak'⟩ := h'.weakened i known hknown
      exact ⟨known', hknown', hweak'.trans hweak⟩
    · exact h'.admitted i hi
  weakened := by
    intro i known hknown
    obtain ⟨known', hknown', hweak⟩ := h.weakened i known hknown
    obtain ⟨known'', hknown'', hweak'⟩ := h'.weakened i known' hknown'
    exact ⟨known'', hknown'', hweak'.trans hweak⟩
  kept := by
    intro i hi
    obtain ⟨hagain, hmore⟩ := not_or.mp (mt List.mem_append.mpr hi)
    rw [h'.kept i hmore, h.kept i hagain]

/-- A block gets a shape that weakens the one that comes in and the one that it had. -/
lemma set {i : Nat} {shape : Shape} (hi : i < shapes.size) (hweak : Shape.Weakens shape incoming)
    (hknown : ∀ known, shapes.getD i none = some known → Shape.Weakens shape known) :
    LetIn incoming [i] [i] shapes (shapes.setIfInBounds i (some shape)) where
  size := Array.size_setIfInBounds
  admitted := by
    intro j hj
    rw [List.mem_singleton.mp hj, Shapes.getD_set hi, if_pos rfl]
    exact ⟨shape, rfl, hweak⟩
  weakened := by
    intro j known hj
    rw [Shapes.getD_set hi]
    split
    · rename_i heq
      exact ⟨shape, rfl, hknown known (heq ▸ hj)⟩
    · exact ⟨known, hj, .refl known⟩
  kept := by
    intro j hj
    rw [Shapes.getD_set hi, if_neg]
    rintro rfl
    exact hj (List.mem_singleton_self i)

end LetIn

/-- Letting a shape into one block. -/
lemma enterBlock_letIn {i : Nat} {incoming : Shape} {shapes : Shapes} (offset : Int)
    (hi : i < shapes.size) :
    Ensures (enterBlock offset i incoming shapes) fun r =>
      LetIn incoming [i] (if r.2 then [i] else []) shapes r.1 := by
  unfold enterBlock
  split
  · rename_i hnone
    exact ensures_ok (.set hi (.refl incoming) (by simp [hnone]))
  · rename_i known hknown
    split
    · exact ensures_error
    · rename_i hlength
      split
      · exact ensures_error
      · rename_i joined hjoin
        obtain ⟨hweak, hweak'⟩ :=
          joinShapes_weakens known incoming (by simpa using hlength) joined hjoin
        split
        · rename_i hsame
          rw [hsame] at hweak'
          refine ensures_ok { (.nil : LetIn incoming [] [] shapes shapes) with
            admitted := fun j hj => ?_ }
          rw [List.mem_singleton.mp hj]
          exact ⟨known, hknown, hweak'⟩
        · refine ensures_ok (.set hi hweak' fun known' hknown' => ?_)
          rw [hknown] at hknown'
          cases hknown'
          exact hweak

/-- Letting a shape into several blocks. -/
lemma enterBlocks_letIn {incoming : Shape} (blocks : List BasicBlock) (is : List Nat)
    {shapes : Shapes} (his : ∀ i ∈ is, i < shapes.size) :
    Ensures (enterBlocks blocks incoming is shapes) fun r =>
      LetIn incoming is r.2 shapes r.1 := by
  induction is generalizing shapes with
  | nil => exact ensures_ok .nil
  | cons i is ih =>
    refine Ensures.bind (enterBlock_letIn _ (his i (by simp))) fun r hr => ?_
    have his' : ∀ j ∈ is, j < r.1.size := fun j hj => hr.size ▸ his j (by simp [hj])
    refine Ensures.bind (ih his') fun r' hr' => ensures_ok ?_
    have happend := hr.append hr'
    dsimp only
    split <;> simpa [*] using happend

/-! ## The worklist -/

section

variable {params : ParamSlots} {handlers : List HandlerEntry} {blocks : List BasicBlock}

/-- If the block at `i` has a shape, it runs from it, and the shape at its exit fits its successors:
each of them has a shape that weakens it. -/
def ExitsFit (params : ParamSlots) (handlers : List HandlerEntry) (blocks : List BasicBlock)
    (shapes : Shapes) (i : Nat) : Prop :=
  ∀ block shape, blocks[i]? = some block → shapes.getD i none = some shape →
    ∃ r, lowerBlock params handlers block shape 0 = .ok r ∧
      ∀ j ∈ successorsOf blocks i, ∃ known, shapes.getD j none = some known ∧
        Shape.Weakens known (shapeOf r.1.stack)

/-- Shapes that are weakened still fit, if the shape of the block itself is the same. -/
lemma ExitsFit.letIn {i : Nat} {incoming : Shape} {is again : List Nat} {shapes shapes' : Shapes}
    (h : ExitsFit params handlers blocks shapes i) (hin : LetIn incoming is again shapes shapes')
    (hi : i ∉ again) : ExitsFit params handlers blocks shapes' i := by
  intro block shape hblock hshape
  rw [hin.kept i hi] at hshape
  obtain ⟨r, hrun, hfit⟩ := h block shape hblock hshape
  refine ⟨r, hrun, fun j hj => ?_⟩
  obtain ⟨known, hknown, hweak⟩ := hfit j hj
  obtain ⟨known', hknown', hweak'⟩ := hin.weakened j known hknown
  exact ⟨known', hknown', hweak'.trans hweak⟩

/-- When the worklist has been worked off, all blocks fit their successors.

**Proof sketch.** All blocks outside of the worklist fit. A block that is run fits afterwards, since
the shape at its exit was let into its successors. The others still fit if they are not put back:
their shapes are the same, and those of their successors are only weakened. -/
lemma WorksOff.exitsFit {work : List Nat} {shapes : Shapes} {result : Except (Int × Flaw) Shapes}
    (hworks : WorksOff params handlers blocks work shapes result)
    (hrange : ∀ i, ∀ j ∈ successorsOf blocks i, j < blocks.length)
    (hsize : shapes.size = blocks.length)
    (h : ∀ i, i ∉ work → ExitsFit params handlers blocks shapes i) :
    Ensures result fun shapes' => ∀ i, ExitsFit params handlers blocks shapes' i := by
  induction hworks with
  | done => exact ensures_ok fun i => h i (by simp)
  | @drop i work shapes result hnone _ ih =>
    refine ih hsize fun j hj => ?_
    by_cases heq : j = i
    · intro block shape hblock hshape
      exact (hnone block shape (heq ▸ hblock) (heq ▸ hshape)).elim
    · exact h j (by simp [heq, hj])
  | stuck | refused => exact ensures_error
  | @run i work again shapes shapes' block shape r result hblock hshape hrun henter _ ih =>
    have hin := enterBlocks_letIn blocks _ (fun j hj => hsize ▸ hrange i j hj) _ henter
    refine ih (hin.size.trans hsize) fun j hj => ?_
    obtain ⟨hwork, hagain⟩ := not_or.mp (mt List.mem_append.mpr hj)
    by_cases heq : j = i
    · subst heq
      intro block' shape' hblock' hshape'
      rw [hin.kept j hagain, hshape] at hshape'
      rw [hblock] at hblock'
      cases hshape'
      cases hblock'
      exact ⟨r, hrun, hin.admitted⟩
    · exact (h j (by simp [heq, hwork])).letIn hin hagain

/-- The shapes that the shape pass finds fit. -/
lemma findShapes_exitsFit (hrange : ∀ i, ∀ j ∈ successorsOf blocks i, j < blocks.length) :
    Ensures (findShapes params handlers blocks) fun shapes =>
      ∀ i, ExitsFit params handlers blocks shapes i := by
  cases henter : enterHandlers blocks.zipIdx (startShapes blocks) with
  | error e =>
    rw [findShapes_eq, henter]
    exact ensures_error
  | ok r =>
    obtain ⟨hunderway, hworks⟩ := findShapes_worksOff params handlers hrange henter
    refine hworks.exitsFit hrange hunderway.size fun i hi block shape hblock hshape => ?_
    -- before the first run every block with a shape is on the worklist
    have hpending := hunderway.pending i (Shapes.found_iff.mpr ⟨shape, hshape⟩)
    simp [hi] at hpending

/-! ## Lowering all blocks -/

/-- Blocks that run from their shapes can be lowered one after the other. -/
lemma exists_lowerBlocks {shapes : Shapes} {entries : List (BasicBlock × Nat)}
    (h : ∀ entry ∈ entries, ∀ shape, shapes.getD entry.2 none = some shape →
      ∀ scratch, ∃ r, lowerBlock params handlers entry.1 shape scratch = .ok r) (p : Progression) :
    ∃ p', lowerBlocks params handlers shapes entries p = .ok p' := by
  induction entries generalizing p with
  | nil => exact ⟨p, rfl⟩
  | cons entry rest ih =>
    obtain ⟨block, i⟩ := entry
    have hadd : ∃ p₁, p.add params handlers block (shapes.getD i none) = .ok p₁ := by
      unfold Progression.add
      cases hshape : shapes.getD i none with
      | none => exact ⟨_, rfl⟩
      | some shape =>
        obtain ⟨r, hr⟩ := h (block, i) (by simp) shape hshape p.scratch
        exact ⟨_, by simp only [hr]; rfl⟩
    obtain ⟨p₁, hp₁⟩ := hadd
    obtain ⟨p', hp'⟩ := ih (fun entry hentry => h entry (by simp [hentry])) p₁
    refine ⟨p', ?_⟩
    rw [lowerBlocks, hp₁]
    exact hp'

end

/-- **Consistent shapes.** The worklist of a checked body comes to its end, and what comes out is
the result of the shape pass. If that are shapes, they fit: each successor of a block with a shape
has a shape, which has the height and the kinds of the stack at the exit of the block, and each of
its types is empty or the one that comes in. Then all blocks can be lowered one after the other, and
the stack at the exit of each block has the same shape as in the shape pass. -/
theorem MethodBody.shapes_consistent (params : ParamSlots) (b : MethodBody)
    (h : b.validate = .ok ()) :
    (∀ e, enterHandlers b.blocks.zipIdx (startShapes b.blocks) = .error e →
      findShapes params b.handlers b.blocks = .error e) ∧
    (∀ shapes found, enterHandlers b.blocks.zipIdx (startShapes b.blocks) = .ok (shapes, found) →
      WorksOff params b.handlers b.blocks (0 :: found) shapes
        (findShapes params b.handlers b.blocks)) ∧
    ∀ shapes, findShapes params b.handlers b.blocks = .ok shapes →
      (∀ i block entry, b.blocks[i]? = some block → shapes.getD i none = some entry →
        ∃ exit : Shape,
          (∃ r, lowerBlock params b.handlers block entry 0 = .ok r ∧ shapeOf r.1.stack = exit) ∧
          (∀ j ∈ successorsOf b.blocks i, ∃ entry', shapes.getD j none = some entry' ∧
            Shape.Weakens entry' exit) ∧
          ∃ before r, lowerBlocks params b.handlers shapes (b.blocks.zipIdx.take i) {} =
              .ok before ∧
            lowerBlock params b.handlers block entry before.scratch = .ok r ∧
            shapeOf r.1.stack = exit) ∧
      ∃ p, lowerBlocks params b.handlers shapes b.blocks.zipIdx {} = .ok p := by
  have hrange := (b.validate_valid () h).successorsOf_lt
  refine ⟨fun e he => by rw [findShapes_eq, he]; rfl,
    fun shapes found hfound => (findShapes_worksOff params b.handlers hrange hfound).2, ?_⟩
  intro shapes hshapes
  have hfit := findShapes_exitsFit hrange shapes hshapes
  have hruns : ∀ entry ∈ b.blocks.zipIdx, ∀ shape, shapes.getD entry.2 none = some shape →
      ∀ scratch, ∃ r, lowerBlock params b.handlers entry.1 shape scratch = .ok r := by
    intro entry hentry shape hshape scratch
    obtain ⟨r, hr, -⟩ :=
      hfit entry.2 entry.1 shape (List.mem_zipIdx_iff_getElem?.mp hentry) hshape
    obtain ⟨r', hr', -⟩ := exists_lowerBlock hr scratch
    exact ⟨r', hr'⟩
  refine ⟨fun i block entry hblock hentry => ?_, exists_lowerBlocks hruns {}⟩
  obtain ⟨r, hr, hsuccessors⟩ := hfit i block entry hblock hentry
  obtain ⟨before, hbefore⟩ := exists_lowerBlocks (p := {})
    fun entry hentry => hruns entry (List.mem_of_mem_take hentry)
  obtain ⟨r', hr', hshape⟩ := exists_lowerBlock hr before.scratch
  exact ⟨shapeOf r.1.stack, ⟨r, hr, rfl⟩, hsuccessors, before, r', hbefore, hr', hshape⟩

/-! ## A loop that forgets a type -/

/-- A method whose loop is entered with a `Left` on the stack and goes on with a `Right`: `new`, the
head of the loop with `pop`, `new`, `iload_0`, `iinc` and `ifne`, and `athrow` behind the loop. -/
def replacingLoop : MethodBody where
  ref := ⟨"Loop", "replace", "(I)V"⟩
  modifiers := AccessFlags.empty.insert .static
  maxLocals := 1
  code := [
    { pc := 0, op := ⟨187⟩, type := "Left" },
    { pc := 3, op := ⟨87⟩ },
    { pc := 4, op := ⟨187⟩, type := "Right" },
    { pc := 7, op := ⟨21⟩, slot := 0 },
    { pc := 8, op := ⟨132⟩, slot := 0, immediate := -1 },
    { pc := 11, op := ⟨154⟩, target := 3 },
    { pc := 14, op := ⟨191⟩ }]
  handlers := []
  resources := []

/-- The head of the loop has forgotten the type of its slot, and the block behind it has not. The
loop can be lowered with its shape, and leaves a `Right` on the stack. -/
theorem replacingLoop_shapes_consistent :
    ∃ params shapes block, replacingLoop.validate = .ok () ∧
      findShapes params replacingLoop.handlers replacingLoop.blocks = .ok shapes ∧
      shapes = #[some [], some [(.reference, "")], some [(.reference, "LRight;")]] ∧
      replacingLoop.blocks[1]? = some block ∧ successorsOf replacingLoop.blocks 1 = [1, 2] ∧
      ∃ exit : Shape, (∀ j ∈ [1, 2], ∃ entry, shapes.getD j none = some entry ∧
          Shape.Weakens entry exit) ∧
        ∃ before r, lowerBlocks params replacingLoop.handlers shapes
            (replacingLoop.blocks.zipIdx.take 1) {} = .ok before ∧
          lowerBlock params replacingLoop.handlers block [(.reference, "")] before.scratch =
            .ok r ∧ shapeOf r.1.stack = exit := by
  have hvalid : replacingLoop.validate = .ok () := by decide +kernel
  have hshapes : findShapes [(0, .var (.arg 0) "I")] replacingLoop.handlers replacingLoop.blocks =
      .ok #[some [], some [(.reference, "")], some [(.reference, "LRight;")]] := by decide +kernel
  have hsuccessors : successorsOf replacingLoop.blocks 1 = [1, 2] := by decide +kernel
  obtain ⟨block, hblock⟩ : ∃ block, replacingLoop.blocks[1]? = some block :=
    Option.isSome_iff_exists.mp (by decide +kernel)
  obtain ⟨-, -, hall⟩ :=
    MethodBody.shapes_consistent [(0, .var (.arg 0) "I")] replacingLoop hvalid
  obtain ⟨exit, -, hfit, hlowered⟩ := (hall _ hshapes).1 1 block _ hblock rfl
  exact ⟨_, _, block, hvalid, hshapes, rfl, hblock, hsuccessors, exit, hsuccessors ▸ hfit,
    hlowered⟩

end JvmTaint
