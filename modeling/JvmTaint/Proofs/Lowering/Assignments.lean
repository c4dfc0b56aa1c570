import JvmTaint.Lowering.CodeBase
import JvmTaint.Proofs.Outcomes
import Mathlib.Tactic.Common

set_option autoImplicit false
set_option relaxedAutoImplicit false

/-!
# Assignments of lowered methods

The parameters of a flow graph are variables, and so is everything that its statements assign to:
they assign to temporaries, and to the local variables that the instructions store to. The flow
graph of a method carries the name of the method.

## Main definitions

* `JvmTaint.Action.AssignsTo`: an action assigns to values with a property only.
* `JvmTaint.Operation.stored?`: the local variable that an operation stores to.
* `JvmTaint.ParamSlots.Stores`: instructions store to local variables with a property only.
* `JvmTaint.FlowGraph.OverVariables`: the parameters and the assigned values of a flow graph are
  variables.

## Main results

* `JvmTaint.Frame.step_all`: an operation that is no control operation is lowered to assignments to
  variables that go straight on.
* `JvmTaint.Frame.step_endsIn`: a control operation is lowered to its action, behind some that go
  straight on.
* `JvmTaint.lowerInstructions_forall`: what holds of all actions that instructions are lowered to.
* `JvmTaint.FlowGraph.build_assigns`: a built flow graph assigns to temporaries, and to what the
  instructions store to.
* `JvmTaint.FlowGraph.build_overVariables`: a built flow graph assigns to variables only.
* `JvmTaint.CodeBase.ofTable_graph`: the flow graphs of a program are over variables and carry the
  names of their methods.
-/

namespace JvmTaint

/-- The action assigns to values with the property only. -/
def Action.AssignsTo {τ : Type} (W : Value → Prop) (a : Action τ) : Prop :=
  ∀ v, a.lhs? = some v → W v

/-- The action assigns to variables only. -/
def Action.AssignsVariable {τ : Type} (a : Action τ) : Prop :=
  ∀ v, a.lhs? = some v → v.var?.isSome = true

/-- An action that assigns nothing. -/
lemma Action.assignsTo_of_none {τ : Type} {W : Value → Prop} {a : Action τ} (h : a.lhs? = none) :
    a.AssignsTo W := by
  intro v hv
  rw [h] at hv
  cases hv

/-- An action that assigns to a value. -/
lemma Action.assignsTo_of_some {τ : Type} {W : Value → Prop} {a : Action τ} {v : Value}
    (h : a.lhs? = some v) (hv : W v) : a.AssignsTo W := by
  intro v' hv'
  rw [h] at hv'
  cases hv'
  exact hv

/-- Renaming the labels of an action changes no assignment. -/
lemma Action.AssignsTo.mapLabels {τ σ : Type} {W : Value → Prop} {a : Action τ} (h : a.AssignsTo W)
    (f : τ → σ) : (a.mapLabels f).AssignsTo W := by
  have hlhs : (a.mapLabels f).lhs? = a.lhs? := by cases a <;> rfl
  intro v hv
  exact h v (hlhs ▸ hv)

/-! ## Operations -/

/-- The variables of parameters are variables. -/
def ParamSlots.Variables (params : ParamSlots) : Prop := ∀ e ∈ params, e.2.var?.isSome = true

/-- A local variable is a variable. -/
lemma ParamSlots.Variables.variable {params : ParamSlots} (h : params.Variables) (slot : Int)
    (type : String) : (params.variable slot type).var?.isSome = true := by
  unfold ParamSlots.variable
  split
  · rfl
  · rename_i value hvalue hlookup
    obtain ⟨before, after, heq, -⟩ := List.lookup_eq_some_iff.mp hlookup
    exact h (slot, value) (by simp [heq])
  · rfl

/-- The local variable that an operation stores to. -/
def Operation.stored? : Operation → Option Int
  | .store slot | .increment slot _ => some slot
  | _ => none

/-- The instructions store to local variables with the property only. -/
def ParamSlots.Stores (params : ParamSlots) (W : Value → Prop) (code : List Instruction) : Prop :=
  ∀ ins ∈ code, ∀ o, ins.operation = .ok o → ∀ slot, o.stored? = some slot →
    ∀ type, W (params.variable slot type)

/-- The property holds of all temporaries. -/
def OfTemporaries (W : Value → Prop) : Prop := ∀ x type, x.isTemp = true → W (.var x type)

/-- Instructions store to variables. -/
lemma ParamSlots.Variables.stores {params : ParamSlots} (h : params.Variables)
    (code : List Instruction) : params.Stores (fun v => v.var?.isSome = true) code :=
  fun _ _ _ _ slot _ type => h.variable slot type

/-- Temporaries are variables. -/
lemma ofTemporaries_isSome : OfTemporaries fun v => v.var?.isSome = true := fun _ _ _ => rfl

/-- Whether control goes on behind the action unless it raises an exception. -/
def Action.isStraight {τ : Type} : Action τ → Bool
  | unreachable _ | branch .. | switch .. | goto _ | ret _ | throw _ | exit => false
  | _ => true

/-- Whether the action receives an exception. -/
def Action.isReceive {τ : Type} : Action τ → Bool
  | receive .. => true
  | _ => false

/-- Whether control leaves the block at the operation. -/
def Operation.isControl : Operation → Bool
  | branch .. | goto _ | switch _ | ret _ | throw => true
  | _ => false

/-- The last action that a control operation is lowered to. -/
inductive Operation.EndsIn : Operation → Action Int → Prop
  | branch (test : Test) (condition : Condition) (target : Int) :
    EndsIn (.branch test condition.comparison target) (.branch condition target)
  | goto (target : Int) : EndsIn (.goto target) (.goto target)
  | switch (key : Value) (targets : List Int) : EndsIn (.switch targets) (.switch key targets)
  | ret (hasValue : Bool) (src : Option Value) : EndsIn (.ret hasValue) (.ret src)
  | throw (src : Value) : EndsIn .throw (.throw src)

/-- The property `Q` holds of every action that assigns to values with `W` only, goes straight on
and receives no exception. -/
def Admits (W : Value → Prop) (Q : Action Int → Prop) : Prop :=
  ∀ a, a.AssignsTo W → a.isStraight = true → a.isReceive = false → Q a

namespace Frame

variable {f f' : Frame} {params : ParamSlots} {op : Opcode} {W : Value → Prop}
  {Q : Action Int → Prop}

/-- All actions lowered so far have the property. -/
def All (Q : Action Int → Prop) (f : Frame) : Prop := ∀ a ∈ f.actions, Q a

lemma All.emit (h : f.All Q) {a : Action Int} (ha : Q a) : (f.emit a).All Q := by
  intro a' ha'
  rcases List.mem_append.mp ha' with ha' | ha'
  · exact h a' ha'
  · rw [List.mem_singleton.mp ha']
    exact ha

lemma All.pop (h : f.All Q) : Ensures f.pop fun r => r.2.All Q := by
  unfold Frame.pop
  split
  · exact ensures_error
  · exact ensures_ok h

lemma All.popN (h : f.All Q) (n : Nat) : Ensures (f.popN n) fun r => r.2.All Q := by
  unfold Frame.popN
  split
  · exact ensures_error
  · exact ensures_ok h

section

variable (hQ : Admits W Q)
include hQ

/-- An action that goes straight on and assigns nothing. -/
lemma All.emit_of_none (h : f.All Q) {a : Action Int} (ha : a.lhs? = none)
    (hstraight : a.isStraight = true) (hreceive : a.isReceive = false) : (f.emit a).All Q :=
  h.emit (hQ a (Action.assignsTo_of_none ha) hstraight hreceive)

/-- An action that goes straight on and assigns to a value with the property. -/
lemma All.emit_of_some (h : f.All Q) {a : Action Int} {v : Value} (ha : a.lhs? = some v)
    (hv : W v) (hstraight : a.isStraight = true) (hreceive : a.isReceive = false) :
    (f.emit a).All Q :=
  h.emit (hQ a (Action.assignsTo_of_some ha hv) hstraight hreceive)

variable (hW : OfTemporaries W)
include hW

lemma All.protect (h : f.All Q) (value : Value) : (f.protect value).All Q := by
  unfold Frame.protect
  split
  · exact h
  · split
    · exact h
    · exact All.emit_of_some hQ (f := (f.fresh _).2) h rfl (hW _ _ rfl) rfl rfl

lemma All.result (h : f.All Q) (type : String) : (f.result type).2.All Q := h.protect hQ hW _

lemma All.assign (h : f.All Q) (kind : Kind) (c : Computation) (type : String) :
    (f.assign kind c type).All Q :=
  (h.result hQ hW type).emit_of_some hQ rfl (hW _ _ rfl) rfl rfl

lemma All.save (h : f.All Q) (targets : List Nat) (value : Value) (saved : Saved) :
    (Frame.save targets value f saved).2.1.All Q := by
  unfold Frame.save
  split
  · split
    · split
      · exact h
      · exact All.emit_of_some hQ (f := (f.fresh _).2) h rfl (hW _ _ rfl) rfl rfl
    · exact h
  · exact h

lemma All.saveAll (h : f.All Q) (targets : List Nat) (values : List Value) (saved : Saved) :
    (Frame.saveAll targets values f saved).2.1.All Q := by
  induction values generalizing f saved with
  | nil => exact h
  | cons v vs ih => exact ih (h.save hQ hW targets v saved) _

lemma All.saveSlots (h : f.All Q) (targets : List Nat) (i : Nat) (stack : List Slot)
    (saved : Saved) : (Frame.saveSlots targets i stack f saved).2.1.All Q := by
  induction stack generalizing f saved i with
  | nil => exact h
  | cons s stack ih =>
    unfold Frame.saveSlots
    split
    · exact ih h _ _
    · exact ih (h.save hQ hW targets s.value saved) _ _

lemma All.normalize (h : f.All Q) (keep : List Value) : (f.normalize keep).2.All Q := by
  have hsaved := (h.saveSlots hQ hW (displaced f.stack) 0 f.stack []).saveAll hQ hW
    (displaced f.stack) keep (Frame.saveSlots (displaced f.stack) 0 f.stack f []).2.2
  intro a ha
  rcases List.mem_append.mp ha with ha | ha
  · exact hsaved a ha
  · obtain ⟨⟨s, i⟩, -, rfl⟩ := List.mem_map.mp ha
    exact hQ _ (Action.assignsTo_of_some rfl (hW _ _ rfl)) rfl rfl

lemma All.arrayLoad (h : f.All Q) (element : String) (refine : Bool) :
    Ensures (f.arrayLoad element refine) (All Q) :=
  h.pop.bind fun _ h₁ => h₁.pop.bind fun _ h₂ =>
    ensures_ok ((h₂.result hQ hW _).emit_of_some hQ rfl (hW _ _ rfl) rfl rfl)

/-- A call behind its operands, with the result that it leaves on the stack. -/
lemma All.call (h : f.All Q) (result : Option FieldType) (c : Call) :
    Ensures (match result with
      | none => pure (f.emit (.invoke none c))
      | some t => pure (((f.result t.render).2.emit
          (.invoke (some (f.result t.render).1) c)).push t.kind t.render (f.result t.render).1) :
      Except Flaw Frame) (All Q) := by
  split
  · exact ensures_ok (h.emit_of_none hQ rfl rfl rfl)
  · exact ensures_ok ((h.result hQ hW _).emit_of_some hQ rfl (hW _ _ rfl) rfl rfl)

lemma All.invoke (h : f.All Q) (kind : InvokeKind) (target : MethodRef)
    (d : MethodDescriptor) : Ensures (f.invoke kind target d) (All Q) := by
  unfold Frame.invoke
  refine (h.popN _).bind fun r hr => ?_
  dsimp only
  split
  · exact hr.pop.bind fun _ h₁ => h₁.call hQ hW d.result _
  · exact hr.call hQ hW d.result _

/-- One operation that is no control operation is lowered to actions that go straight on and assign
to temporaries, or to the local variable that it stores to. -/
lemma step_all {o : Operation}
    (hstored : ∀ slot, o.stored? = some slot → ∀ type, W (params.variable slot type))
    (hf : f.All Q) (ho : o.isControl = false) : Ensures (f.step params op o) (All Q) := by
  cases o with
  | nop | push kind literal type | load kind slot => exact ensures_ok hf
  | store slot =>
    exact hf.pop.bind fun r h₁ => ensures_ok (All.emit_of_some hQ (h₁.protect hQ hW _) rfl
      (hstored slot rfl r.1.type) rfl rfl)
  | increment slot amount =>
    exact ensures_ok ((hf.protect hQ hW _).emit_of_some hQ rfl (hstored slot rfl "I") rfl rfl)
  | arrayLoad element refine => exact hf.arrayLoad hQ hW element refine
  | arrayStore =>
    exact hf.pop.bind fun _ h₁ => h₁.pop.bind fun _ h₂ => h₂.pop.bind fun _ h₃ =>
      ensures_ok (h₃.emit_of_none hQ rfl rfl rfl)
  | pop words =>
    exact Ensures.bind (Q := fun _ => True) (fun _ _ => trivial) fun _ _ => ensures_ok hf
  | dup top below =>
    exact Ensures.bind (Q := fun _ => True) (fun _ _ => trivial) fun _ _ =>
      Ensures.bind (Q := fun _ => True) (fun _ _ => trivial) fun _ _ => ensures_ok hf
  | swap => exact hf.pop.bind fun _ h₁ => h₁.pop.bind fun _ h₂ => ensures_ok h₂
  | binary operator | compare =>
    exact hf.pop.bind fun _ h₁ => h₁.pop.bind fun _ h₂ => ensures_ok (h₂.assign hQ hW _ _ _)
  | negate | convert type | arrayLength | checkCast cls | instanceOf cls =>
    exact hf.pop.bind fun _ h₁ => ensures_ok (h₁.assign hQ hW _ _ _)
  | branch test comparison target | goto target | switch targets | ret hasValue | throw =>
    exact absurd ho (by simp [Operation.isControl])
  | getStatic field =>
    exact ensures_ok ((hf.result hQ hW _).emit_of_some hQ rfl (hW _ _ rfl) rfl rfl)
  | putStatic field | monitor =>
    exact hf.pop.bind fun _ h₁ => ensures_ok (h₁.emit_of_none hQ rfl rfl rfl)
  | getField field =>
    exact hf.pop.bind fun _ h₁ =>
      ensures_ok ((h₁.result hQ hW _).emit_of_some hQ rfl (hW _ _ rfl) rfl rfl)
  | putField field =>
    exact hf.pop.bind fun _ h₁ => h₁.pop.bind fun _ h₂ =>
      ensures_ok (h₂.emit_of_none hQ rfl rfl rfl)
  | invoke kind target d => exact hf.invoke hQ hW kind target d
  | new cls => exact ensures_ok (hf.assign hQ hW _ _ _)
  | newArray dims type => exact (hf.popN dims).bind fun _ h₁ => ensures_ok (h₁.assign hQ hW _ _ _)

end

/-- What the frame has lowered ends in an action of the control operation; the actions in front of
it have the property. -/
def EndsIn (Q : Action Int → Prop) (o : Operation) (f : Frame) : Prop :=
  ∃ front a, f.actions = front ++ [a] ∧ (∀ a' ∈ front, Q a') ∧ o.EndsIn a

lemma All.endsIn (h : f.All Q) {o : Operation} {a : Action Int} (ha : o.EndsIn a) :
    (f.emit a).EndsIn Q o :=
  ⟨f.actions, a, rfl, h, ha⟩

section

variable (hQ : Admits W Q) (hW : OfTemporaries W)
include hQ hW

/-- The jump of a branch, behind the moves that settle the stack. -/
lemma All.jump (h : f.All Q) (test : Test) (comparison : Comparison) (target : Int)
    (left right : Value) :
    Ensures (match f.normalize [left, right] with
      | ([left, right], f) => pure (f.emit (.branch ⟨comparison, left, right⟩ target))
      | (_, f) => pure (f.emit (.branch ⟨comparison, left, right⟩ target)) :
      Except Flaw Frame) (EndsIn Q (.branch test comparison target)) := by
  have hnormal := h.normalize hQ hW [left, right]
  split
  all_goals
    rename_i heq
    rw [heq] at hnormal
    exact ensures_ok (hnormal.endsIn (.branch test ⟨comparison, _, _⟩ target))

/-- A branch ends in its jump. -/
lemma All.branch (h : f.All Q) (test : Test) (comparison : Comparison) (target : Int) :
    Ensures (f.branch test comparison target) (EndsIn Q (.branch test comparison target)) := by
  cases test with
  | zero =>
    exact h.pop.bind fun r h₁ => h₁.jump hQ hW .zero comparison target r.1.value (.const "0" "I")
  | null =>
    exact h.pop.bind fun r h₁ => h₁.jump hQ hW .null comparison target r.1.value (.const "null" "")
  | pair =>
    exact h.pop.bind fun r h₁ => h₁.pop.bind fun l h₂ =>
      h₂.jump hQ hW .pair comparison target l.1.value r.1.value

/-- A control operation ends in its own action, and all in front of that goes straight on. -/
lemma step_endsIn (hf : f.All Q) {o : Operation} (ho : o.isControl = true) :
    Ensures (f.step params op o) (EndsIn Q o) := by
  cases o with
  | branch test comparison target => exact hf.branch hQ hW test comparison target
  | goto target => exact ensures_ok ((hf.normalize hQ hW []).endsIn (.goto target))
  | switch targets =>
    refine hf.pop.bind fun r h₁ => ?_
    have hnormal := h₁.normalize hQ hW [r.1.value]
    dsimp only
    split
    all_goals
      rename_i heq
      rw [heq] at hnormal
      exact ensures_ok (hnormal.endsIn (.switch _ targets))
  | ret hasValue =>
    cases hasValue with
    | false => exact ensures_ok (hf.endsIn (.ret false none))
    | true => exact hf.pop.bind fun _ h₁ => ensures_ok (h₁.endsIn (.ret true _))
  | throw => exact hf.pop.bind fun _ h₁ => ensures_ok (h₁.endsIn (.throw _))
  | _ => exact absurd ho (by simp [Operation.isControl])

end

/-- One operation is lowered to actions that have a property, if the actions that control operations
end in have it, too. -/
lemma step_forall (hQ : Admits W Q) (hW : OfTemporaries W)
    (hends : ∀ o a, Operation.EndsIn o a → Q a) {o : Operation}
    (hstored : ∀ slot, o.stored? = some slot → ∀ type, W (params.variable slot type))
    (hf : f.All Q) : Ensures (f.step params op o) (All Q) := by
  cases ho : o.isControl with
  | false => exact step_all hQ hW hstored hf ho
  | true =>
    intro f' hstep
    obtain ⟨front, a, hactions, hfront, ha⟩ := step_endsIn hQ hW hf ho f' hstep
    intro a' ha'
    rw [hactions] at ha'
    rcases List.mem_append.mp ha' with ha' | ha'
    · exact hfront a' ha'
    · rw [List.mem_singleton.mp ha']
      exact hends o a ha

end Frame

/-! ## Blocks -/

/-- All actions of a lowered block assign to values with the property only. -/
def AllAssign (W : Value → Prop) (lowered : List Lowered) : Prop :=
  ∀ l ∈ lowered, l.action.AssignsTo W

variable {params : ParamSlots} {W : Value → Prop}

/-- The actions of a frame, at an offset. -/
lemma Frame.All.allAssign {f : Frame} (h : f.All (Action.AssignsTo W)) (offset : Int) :
    AllAssign W (f.actions.map (⟨offset, ·⟩)) := by
  intro l hl
  obtain ⟨a, ha, rfl⟩ := List.mem_map.mp hl
  exact h a ha

lemma AllAssign.append {l l' : List Lowered} (h : AllAssign W l) (h' : AllAssign W l') :
    AllAssign W (l ++ l') := by
  intro x hx
  rcases List.mem_append.mp hx with hx | hx
  · exact h x hx
  · exact h' x hx

section

variable {Q : Action Int → Prop} (hQ : Admits W Q) (hW : OfTemporaries W)
  (hends : ∀ o a, Operation.EndsIn o a → Q a)

include hQ hW hends

lemma lowerInstruction_forall {ins : Instruction} (hstored : params.Stores W [ins]) {f : Frame}
    (hf : f.All Q) :
    Ensures (lowerInstruction params ins f) fun r => r.1.All Q ∧ ∀ l ∈ r.2, Q l.action := by
  unfold lowerInstruction
  split
  · exact ensures_error
  · rename_i f' hstep
    have hf' : f'.All Q := by
      cases hop : ins.operation with
      | error e => simp [hop, Except.bind] at hstep
      | ok o =>
        exact Frame.step_forall hQ hW hends (hstored ins List.mem_cons_self o hop) hf f'
          (by simpa [hop, Except.bind] using hstep)
    refine ensures_ok ⟨by simp [Frame.All], fun l hl => ?_⟩
    obtain ⟨a, ha, rfl⟩ := List.mem_map.mp hl
    exact hf' a ha

/-- What holds of the actions of single operations holds of all actions of some instructions. -/
lemma lowerInstructions_forall {code : List Instruction} (hstored : params.Stores W code)
    {f : Frame} (hf : f.All Q) :
    Ensures (lowerInstructions params code f) fun r => r.1.All Q ∧ ∀ l ∈ r.2, Q l.action := by
  induction code generalizing f with
  | nil => exact ensures_ok ⟨hf, by simp⟩
  | cons ins rest ih =>
    obtain ⟨hins, hrest⟩ := List.forall_mem_cons.mp hstored
    have hone : params.Stores W [ins] := List.forall_mem_singleton.mpr hins
    refine (lowerInstruction_forall hQ hW hends hone hf).bind fun r here => ?_
    refine (ih hrest here.1).bind fun r' later => ensures_ok ⟨later.1, fun l hl => ?_⟩
    rcases List.mem_append.mp hl with hl | hl
    · exact here.2 l hl
    · exact later.2 l hl

end

lemma admits_assignsTo : Admits W (Action.AssignsTo W) := fun _ ha _ _ => ha

lemma Operation.EndsIn.assignsTo {o : Operation} {a : Action Int} (h : o.EndsIn a) :
    a.AssignsTo W :=
  Action.assignsTo_of_none (by cases h <;> rfl)

/-- What holds of the action that receives an exception holds of all that a block begins with. -/
lemma forall_mem_received {P : Lowered → Prop} (block : BasicBlock) (receive : Lowered)
    (h : P receive) : ∀ l ∈ (match block.catches with
      | none => []
      | some _ => [receive] : List Lowered), P l := by
  split
  · simp
  · simpa using h

section

variable (hW : OfTemporaries W)
include hW

/-- A block is lowered to actions that assign to temporaries, and to what its instructions store
to. -/
lemma lowerBlock_assigns (handlers : List HandlerEntry) {block : BasicBlock}
    (hstored : params.Stores W block.instructions) (shape : Shape) (scratch : Nat) :
    Ensures (lowerBlock params handlers block shape scratch) fun r => AllAssign W r.2 := by
  have hreceived := forall_mem_received (P := fun l => l.action.AssignsTo W) block
    ⟨block.offset, .receive (.ofSlot 0 ((shape.head?.map (·.2)).getD ""))
      (shownCatchType handlers block.offset)⟩ (Action.assignsTo_of_some rfl (hW _ _ rfl))
  have hentry : ({ stack := entryStack shape, scratch } : Frame).All (Action.AssignsTo W) := by
    simp [Frame.All]
  refine (lowerInstructions_forall admits_assignsTo hW (fun _ _ ha => ha.assignsTo) hstored
    hentry).bind fun r hr => ?_
  dsimp only
  have hbody := AllAssign.append hreceived hr.2
  split
  · exact ensures_ok hbody
  · split
    · exact ensures_ok hbody
    · exact ensures_ok (hbody.append
        (Frame.All.allAssign (Frame.All.normalize admits_assignsTo hW hr.1 []) _))

/-- The statements of all blocks assign to temporaries, and to what the instructions store to. -/
lemma lowerBlocks_assigns (handlers : List HandlerEntry) (shapes : Shapes)
    {blocks : List (BasicBlock × Nat)} (hstored : ∀ b ∈ blocks, params.Stores W b.1.instructions)
    {p : Progression} (hp : AllAssign W p.lowered.toList) :
    Ensures (lowerBlocks params handlers shapes blocks p) fun r =>
      AllAssign W r.lowered.toList := by
  induction blocks generalizing p with
  | nil => exact ensures_ok hp
  | cons entry rest ih =>
    obtain ⟨block, i⟩ := entry
    obtain ⟨hblock, hrest⟩ := List.forall_mem_cons.mp hstored
    refine Ensures.bind (Q := fun r : Progression => AllAssign W r.lowered.toList) ?_
      fun r hr => ih hrest hr
    have hadd : ∀ r : List Lowered × Nat, AllAssign W r.1 →
        AllAssign W (p.lowered ++
          (if r.1.isEmpty then [⟨block.offset, .nop⟩] else r.1)).toList := by
      intro r hr
      rw [Array.toList_appendList]
      refine hp.append ?_
      split
      · intro l hl
        rw [List.mem_singleton.mp hl]
        exact Action.assignsTo_of_none rfl
      · exact hr
    unfold Progression.add
    split
    · refine ensures_ok (hadd (placeholders block, p.scratch) ?_)
      intro l hl
      obtain ⟨ins, -, rfl⟩ := List.mem_map.mp hl
      exact Action.assignsTo_of_none rfl
    · exact (lowerBlock_assigns hW handlers hblock _ _).bind fun r hr =>
        ensures_ok (hadd (r.2, r.1.scratch) hr)

end

/-! ## Connected statements -/

/-- All statements assign to values with the property only. -/
def Wiring.Assigns (W : Value → Prop) (w : Wiring) : Prop :=
  ∀ st ∈ w.statements, st.action.AssignsTo W

namespace Wiring

variable {w : Wiring}

@[simp] lemma connect_statements (source target : Nat) (kind : EdgeKind) (catchType : String) :
    (w.connect source target kind catchType).statements = w.statements := by
  unfold connect
  dsimp only
  split <;> rfl

lemma raiseTo_statements (types : Option ClassTable) (i exit : Nat) (raised : String)
    (hs : List Handler) : (raiseTo types i exit raised hs w).statements = w.statements := by
  induction hs generalizing w with
  | nil => simp [raiseTo]
  | cons h hs ih =>
    unfold raiseTo
    split
    · simp
    · rw [ih, connect_statements]
    · exact ih

lemma Assigns.raise (h : w.Assigns W) (types : Option ClassTable) (handlers : List HandlerEntry)
    (spans : List Span) (scopes : List Scope) (exit i : Nat) :
    (w.raise types handlers spans scopes exit i).Assigns W := by
  unfold Wiring.raise Assigns
  split
  · exact h
  · split
    · rw [raiseTo_statements]
      exact h
    · exact h

lemma foldl_statements {α : Type} {f : Wiring → α → Wiring}
    (hf : ∀ w x, (f w x).statements = w.statements) (xs : List α) :
    (xs.foldl f w).statements = w.statements := by
  induction xs generalizing w with
  | nil => rfl
  | cons x xs ih => rw [List.foldl_cons, ih, hf]

lemma flow_statements (spans : List Span) (span : Span) :
    (w.flow spans span).statements = w.statements := by
  have hinside : ((List.range (span.last - span.first)).foldl
      (fun w k => w.connect (span.first + k) (span.first + k + 1) .normal "") w).statements =
        w.statements := foldl_statements (fun _ _ => connect_statements ..) _
  unfold Wiring.flow
  split
  · rfl
  · dsimp only
    split
    · exact hinside
    · split
      · rw [connect_statements, connect_statements, hinside]
      · split
        · rw [foldl_statements fun _ _ => connect_statements .., hinside]
        · split
          · exact hinside
          · rw [connect_statements, hinside]

lemma Assigns.redirect (h : w.Assigns W) (spans : List Span) (scopes : List Scope) (s : Scope) :
    (w.redirect spans scopes s).Assigns W := by
  unfold Wiring.redirect Assigns
  simp only [connect_statements, Array.mem_mapIdx]
  rintro st ⟨i, hi, rfl⟩
  split
  · exact (h _ (Array.getElem_mem hi)).mapLabels _
  · exact h _ (Array.getElem_mem hi)

end Wiring

section

variable (hW : OfTemporaries W)
include hW

/-- The statements of a resource scope assign to a temporary. -/
lemma Scope.statements_assign (params : ParamSlots) (r : ResourceScope) (stop scratch : Nat) :
    ∀ st ∈ Scope.statements params r stop scratch, st.action.AssignsTo W := by
  intro st hst
  simp only [Scope.statements, List.map_cons, List.map_nil, List.mem_cons, List.not_mem_nil,
    or_false] at hst
  rcases hst with rfl | rfl | rfl | rfl | rfl
  · exact Action.assignsTo_of_none rfl
  · exact Action.assignsTo_of_none rfl
  · exact Action.assignsTo_of_some rfl (hW _ _ rfl)
  · exact Action.assignsTo_of_none rfl
  · exact Action.assignsTo_of_none rfl

/-- Connecting the statements of lowered blocks changes no assignment. -/
lemma connectAll_assigns (types : Option ClassTable)
    (handlers : List HandlerEntry) (resources : List ResourceScope) {p : Progression}
    (hp : AllAssign W p.lowered.toList) :
    (connectAll types params handlers resources p).Assigns W := by
  unfold connectAll
  dsimp only
  refine List.foldlRecOn (motive := Wiring.Assigns W) _ _ ?_ fun w hw i _ => hw.raise _ _ _ _ _ i
  refine List.foldlRecOn (motive := Wiring.Assigns W) _ _ ?_ fun w hw s _ => hw.redirect _ _ s
  intro st hst
  rw [Wiring.foldl_statements fun w => Wiring.flow_statements p.spans] at hst
  rcases Array.mem_push.mp hst with hst | rfl
  · rcases List.mem_append.mp (Array.toList_appendList ▸ Array.mem_toList_iff.mpr hst) with
      hst | hst
    · obtain ⟨l, hl, rfl⟩ := Array.mem_map.mp (Array.mem_toList_iff.mp hst)
      exact (hp l (Array.mem_toList_iff.mpr hl)).mapLabels _
    · obtain ⟨⟨s, i⟩, -, hst⟩ := List.mem_flatMap.mp hst
      exact Scope.statements_assign hW _ _ _ _ st hst
  · exact Action.assignsTo_of_none rfl

end

/-! ## Flow graphs -/

/-- The parameters of the flow graph are variables, and its statements assign to variables. -/
structure FlowGraph.OverVariables (g : FlowGraph) : Prop where
  params : ∀ v ∈ g.params, v.var?.isSome = true
  assigns : ∀ st ∈ g.statements, st.action.AssignsVariable

lemma paramSlotsFrom_variables (i : Nat) (slot : Int) (types : List FieldType) :
    (paramSlotsFrom i slot types).Variables := by
  induction types generalizing i slot with
  | nil => simp [paramSlotsFrom, ParamSlots.Variables]
  | cons t ts ih =>
    intro e he
    rcases List.mem_cons.mp he with rfl | he
    · rfl
    · exact ih _ _ e he

lemma MethodBody.paramSlots_variables (b : MethodBody) (d : MethodDescriptor) :
    (b.paramSlots d).Variables := by
  unfold paramSlots
  split
  · exact paramSlotsFrom_variables 0 0 d.params
  · intro e he
    rcases List.mem_cons.mp he with rfl | he
    · rfl
    · exact paramSlotsFrom_variables _ _ _ e he

/-- The statements of a body with code assign to temporaries, and to what the instructions store
to. -/
lemma FlowGraph.ofCode_assigns {types : Option ClassTable} {b : MethodBody} (hW : OfTemporaries W)
    (hstored : ∀ block ∈ b.blocks, params.Stores W block.instructions) :
    Ensures (FlowGraph.ofCode types b params) (Wiring.Assigns W) := by
  unfold FlowGraph.ofCode
  refine Ensures.bind (Q := fun _ => True) (fun _ _ => trivial) fun _ _ => ?_
  refine Ensures.bind (Q := fun _ => True) (fun _ _ => trivial) fun shapes _ => ?_
  refine Ensures.bind (Q := fun _ => True) (fun _ _ => trivial) fun _ _ => ?_
  have hblocks : ∀ e ∈ b.blocks.zipIdx, params.Stores W e.1.instructions := fun e he =>
    hstored e.1 (List.fst_mem_of_mem_zipIdx he)
  refine (lowerBlocks_assigns hW b.handlers shapes hblocks ?_).bind fun p hp => ?_
  · simp [AllAssign]
  · exact ensures_ok (connectAll_assigns hW _ _ _ hp)

/-- A built flow graph has the name of its method and its parameters, and assigns to temporaries and
to what the instructions store to. -/
lemma FlowGraph.build_assigns {types : Option ClassTable} {b : MethodBody} {g : FlowGraph}
    (h : FlowGraph.build types b = .ok g) : ∃ d, MethodDescriptor.parse b.ref.descriptor = .ok d ∧
      g.ref = b.ref ∧ g.params = (b.paramSlots d).map (·.2) ∧
      ∀ W, OfTemporaries W → (∀ block ∈ b.blocks, (b.paramSlots d).Stores W block.instructions) →
        ∀ st ∈ g.statements, st.action.AssignsTo W := by
  unfold FlowGraph.build at h
  split at h
  · cases h
  · split at h
    · cases h
    · rename_i d hd
      dsimp only at h
      split at h
      · cases h
      · rename_i w hw
        cases h
        refine ⟨d, hd, rfl, rfl, fun W hW hstored => ?_⟩
        split at hw
        · cases hw
          simp [exitStatement, Action.AssignsTo, Action.lhs?]
        · exact FlowGraph.ofCode_assigns hW hstored w hw

/-- A built flow graph carries the name of its method and is over variables. -/
lemma FlowGraph.build_overVariables {types : Option ClassTable} {b : MethodBody} {g : FlowGraph}
    (h : FlowGraph.build types b = .ok g) : g.ref = b.ref ∧ g.OverVariables := by
  obtain ⟨d, -, href, hparams, hassigns⟩ := FlowGraph.build_assigns h
  have hvariables := b.paramSlots_variables d
  refine ⟨href, fun v hv => ?_, hassigns _ ofTemporaries_isSome fun _ _ => hvariables.stores _⟩
  rw [hparams] at hv
  obtain ⟨e, he, rfl⟩ := List.mem_map.mp hv
  exact hvariables e he

/-! ## Programs -/

/-- The bodies of a table are found under the names of their methods. -/
def ClassTable.Named (t : ClassTable) : Prop :=
  ∀ (ref : MethodRef) (b : MethodBody), t.bodies[ref]? = some b → b.ref = ref

lemma ClassTable.Named.addMethod {t : ClassTable} (h : t.Named) (c : ClassDecl)
    (m : Option MethodDecl) : Ensures (ClassTable.addMethod c t m) ClassTable.Named := by
  unfold ClassTable.addMethod
  split
  · exact ensures_error
  · dsimp only
    split
    · exact ensures_error
    · split
      · exact ensures_error
      · refine ensures_ok ?_
        intro ref b hb
        rw [Std.HashMap.getElem?_insert] at hb
        split at hb
        · rename_i heq
          cases hb
          exact beq_iff_eq.mp heq
        · exact h ref b hb

lemma ClassTable.addSubtype_bodies (name : String) (supers : List String) (t : ClassTable) :
    (supers.foldl (ClassTable.addSubtype name) t).bodies = t.bodies := by
  induction supers generalizing t with
  | nil => rfl
  | cons s supers ih =>
    rw [List.foldl_cons, ih, ClassTable.addSubtype]
    split <;> rfl

lemma ClassTable.Named.addClass {t : ClassTable} (h : t.Named) (c : Option ClassDecl) :
    Ensures (ClassTable.addClass t c) ClassTable.Named := by
  unfold ClassTable.addClass
  split
  · exact ensures_error
  · split
    · exact ensures_error
    · split
      · exact ensures_error
      · refine ensures_foldlM (fun t m ht => ht.addMethod _ m) _ ?_
        intro ref b hb
        rw [ClassTable.addSubtype_bodies] at hb
        exact h ref b hb

/-- The bodies of a program are found under the names of their methods. -/
lemma ClassTable.ofProgram_named {program : Program} {t : ClassTable}
    (h : ClassTable.ofProgram program = .ok t) : t.Named := by
  have hempty : ClassTable.empty.Named := by
    intro ref b hb
    simp [ClassTable.empty] at hb
  exact ensures_foldlM (fun t c ht => ht.addClass c) _ hempty t h

/-- A body that is found is one of the table. -/
lemma ClassTable.getElem?_of_body {t : ClassTable} {ref : MethodRef} {b : MethodBody}
    (h : t.body ref = .ok b) : t.bodies[ref]? = some b := by
  unfold ClassTable.body at h
  split at h
  · split at h
    · rename_i hget
      cases h
      exact hget
    · cases h
  · cases h

/-- The flow graph of a method is built from its body. -/
lemma CodeBase.graph_ofTable (t : ClassTable) (ref : MethodRef) :
    (CodeBase.ofTable t).graph ref =
      ((t.body ref).mapError GraphError.lookup).bind fun body =>
        (FlowGraph.build (some t) body).mapError GraphError.build := by
  unfold graph
  rw [show (ofTable t).table = t from rfl]
  cases hbody : t.body ref with
  | error e => rfl
  | ok body =>
    have hbuilt : (ofTable t).graphs[ref]? = some (FlowGraph.build (some t) body) := by
      simp [ofTable, ClassTable.getElem?_of_body hbody]
    simp only [hbuilt, Except.mapError, Except.bind]
    cases FlowGraph.build (some t) body <;> rfl

/-- The flow graphs of a table are built from its bodies. -/
lemma CodeBase.build_of_graph {t : ClassTable} {ref : MethodRef} {g : FlowGraph}
    (h : (CodeBase.ofTable t).graph ref = .ok g) :
    ∃ b, t.bodies[ref]? = some b ∧ FlowGraph.build (some t) b = .ok g := by
  rw [graph_ofTable] at h
  cases hbody : t.body ref with
  | error e =>
    rw [hbody] at h
    cases h
  | ok body =>
    rw [hbody] at h
    cases hbuild : FlowGraph.build (some t) body with
    | error e => simp [hbuild, Except.mapError, Except.bind] at h
    | ok g' =>
      simp only [hbuild, Except.mapError, Except.bind, Except.ok.injEq] at h
      exact ⟨body, ClassTable.getElem?_of_body hbody, hbuild.trans (congrArg Except.ok h)⟩

/-- The flow graphs of a program carry the names of their methods and are over variables. -/
lemma CodeBase.ofTable_graph {program : Program} {t : ClassTable} {ref : MethodRef} {g : FlowGraph}
    (ht : ClassTable.ofProgram program = .ok t) (h : (CodeBase.ofTable t).graph ref = .ok g) :
    g.ref = ref ∧ g.OverVariables := by
  obtain ⟨body, hbodies, hbuild⟩ := CodeBase.build_of_graph h
  obtain ⟨href, hover⟩ := FlowGraph.build_overVariables hbuild
  exact ⟨href.trans (ClassTable.ofProgram_named ht ref body hbodies), hover⟩

end JvmTaint
