import JvmTaint.Proofs.Lowering.Assignments
import Mathlib.Data.List.Pairwise

set_option autoImplicit false
set_option relaxedAutoImplicit false

/-!
# The layout of lowered code

Where the statements of a method come from. The code is cut into blocks in front of everything that
is referred to and behind every control instruction, and the blocks are lowered one behind the
other. A block that is reached becomes actions that go straight on, followed by the action of its
last instruction; a block that is not reached becomes placeholders.

## Main definitions

* `JvmTaint.Instruction.EndsIn`: the last action of a block with a given last instruction.
* `JvmTaint.LoweredFrom`: the lowered actions of a block.
* `JvmTaint.Laid`: lowered blocks lie one behind the other.

## Main results

* `JvmTaint.MethodBody.validate_valid`: what the checks of a body establish.
* `JvmTaint.MethodBody.exists_block_of_referred`: everything that is referred to starts a block.
* `JvmTaint.lowerBlock_endsAt`: what a block is lowered to.
* `JvmTaint.lowerBlocks_laid`: the blocks of a body are laid out one behind the other.
* `JvmTaint.Laid.exists_span`, `JvmTaint.Laid.firstFrom_eq`, `JvmTaint.Laid.offset_lt`: the block of
  a statement, the block behind a block, and the offsets in front of a block and behind it.
-/

namespace JvmTaint

/-! ## Control instructions -/

/-- Whether control leaves the block at the instruction. -/
def Opcode.isControl (op : Opcode) : Bool := op.isConditional || op.endsBlock

/-- The opcodes outside of the families of control instructions. -/
lemma Opcode.isControl_eq_false {op : Opcode}
    (h : op.code < 153 ∨ 168 ≤ op.code ∧ op.code < 170 ∨
      178 ≤ op.code ∧ op.code ≠ 191 ∧ (op.code < 198 ∨ 200 < op.code)) :
    op.isControl = false := by
  simp only [isControl, endsBlock, isConditional, isGoto, isSwitch, isReturn, isThrow, between,
    Bool.or_eq_false_iff, decide_eq_false_iff_not, beq_eq_false_iff_ne]
  omega

/-- The operation fits the instruction: a control operation belongs to an instruction of its family
and jumps to the targets of the instruction. -/
def Operation.Suits (ins : Instruction) : Operation → Prop
  | branch _ _ target => ins.op.isConditional = true ∧ target = ins.target
  | goto target => ins.op.isGoto = true ∧ target = ins.target
  | switch targets => ins.op.isSwitch = true ∧ targets = ins.branchTargets
  | ret _ => ins.op.isReturn = true
  | throw => ins.op.isThrow = true
  | _ => ins.op.isControl = false

/-- An operation that is no control operation suits every instruction that is no control
instruction. -/
lemma Operation.suits_of_isControl {o : Operation} (h : o.isControl = false) {ins : Instruction}
    (hop : ins.op.isControl = false) : o.Suits ins := by
  cases o <;> first | exact hop | cases h

lemma Instruction.pushOperation_isControl (ins : Instruction) :
    Ensures ins.pushOperation fun o => o.isControl = false := by
  unfold pushOperation
  dsimp only
  repeat' split
  all_goals first | exact ensures_ok rfl | exact ensures_error

lemma Instruction.invokeOperation_isControl (ins : Instruction) (kind : InvokeKind) :
    Ensures (ins.invokeOperation kind) fun o => o.isControl = false := by
  unfold invokeOperation
  split
  · exact ensures_error
  · exact ensures_ok rfl

lemma Instruction.arrayOperation_isControl (dims : Int) (type : String) :
    Ensures (arrayOperation dims type) fun o => o.isControl = false := by
  unfold arrayOperation
  repeat' split
  all_goals first | exact ensures_ok rfl | exact ensures_error

/-- The operation of an instruction suits it.

**Proof sketch.** The opcodes are tested family by family. Each family of control opcodes gives its
own operation, and the other families lie outside of the ranges of control opcodes. -/
lemma Instruction.operation_suits (ins : Instruction) :
    Ensures ins.operation fun o => o.Suits ins := by
  have hother : ∀ {x : Except Flaw Operation}, Ensures x (fun o => o.isControl = false) →
      (ins.op.code < 153 ∨ 168 ≤ ins.op.code ∧ ins.op.code < 170 ∨
        178 ≤ ins.op.code ∧ ins.op.code ≠ 191 ∧ (ins.op.code < 198 ∨ 200 < ins.op.code)) →
      Ensures x fun o => o.Suits ins :=
    fun hx hop o ho => Operation.suits_of_isControl (hx o ho) (Opcode.isControl_eq_false hop)
  unfold operation
  simp only [Opcode.isLoad, Opcode.isStore, Opcode.between, decide_eq_true_eq]
  refine ensures_ite (fun h => hother (ensures_ok rfl) (by omega)) fun _ => ?_
  refine ensures_ite (fun h => hother ins.pushOperation_isControl (by omega)) fun _ => ?_
  -- loads, stores, array accesses and arithmetic
  iterate 9 refine ensures_ite (fun h => hother (ensures_ok rfl) (by omega)) fun _ => ?_
  -- the conditional branches on one and on two values
  iterate 2
    refine ensures_ite (fun h => ensures_ok ⟨?_, rfl⟩) fun _ => ?_
    · simp only [Opcode.isConditional, Opcode.between, Bool.or_eq_true, decide_eq_true_eq]
      omega
  refine ensures_ite (fun h => ensures_ok ⟨h, rfl⟩) fun _ => ?_
  split
  all_goals rename_i hcode
  all_goals first
    | exact hother (ensures_ok rfl) (by omega)
    | exact hother (ins.invokeOperation_isControl _) (by omega)
    | exact hother (arrayOperation_isControl _ _) (by omega)
    | exact ensures_error
    | exact ensures_ok (by simp [Operation.Suits, Opcode.isConditional, Opcode.isGoto,
        Opcode.isReturn, Opcode.isThrow, Opcode.between, hcode])

/-- The last action of a block whose last instruction is given. -/
inductive Instruction.EndsIn (ins : Instruction) : Action Int → Prop
  | branch (h : ins.op.isConditional = true) (condition : Condition) :
    EndsIn ins (.branch condition ins.target)
  | goto (h : ins.op.isGoto = true) : EndsIn ins (.goto ins.target)
  | switch (h : ins.op.isSwitch = true) (key : Value) :
    EndsIn ins (.switch key ins.branchTargets)
  | ret (h : ins.op.isReturn = true) (src : Option Value) : EndsIn ins (.ret src)
  | throw (h : ins.op.isThrow = true) (src : Value) : EndsIn ins (.throw src)
  | straight (h : ins.op.isControl = false) {a : Action Int} (ha : a.isStraight = true) :
    EndsIn ins a

/-- A control operation that suits the instruction ends in its action. -/
lemma Operation.EndsIn.instruction {o : Operation} {a : Action Int} {ins : Instruction}
    (ha : o.EndsIn a) (ho : o.Suits ins) : ins.EndsIn a := by
  cases ha with
  | branch test condition target =>
    obtain ⟨h, rfl⟩ := ho
    exact .branch h condition
  | goto target =>
    obtain ⟨h, rfl⟩ := ho
    exact .goto h
  | switch key targets =>
    obtain ⟨h, rfl⟩ := ho
    exact .switch h key
  | ret hasValue src => exact .ret ho src
  | throw src => exact .throw ho src

/-- A control operation suits control instructions only. -/
lemma Operation.Suits.isControl_eq {o : Operation} {ins : Instruction} (h : o.Suits ins) :
    o.isControl = ins.op.isControl := by
  cases o with
  | branch test comparison target => simp [isControl, Opcode.isControl, h.1]
  | goto target => simp [isControl, Opcode.isControl, Opcode.endsBlock, h.1]
  | switch targets => simp [isControl, Opcode.isControl, Opcode.endsBlock, h.1]
  | ret hasValue =>
    have h : ins.op.isReturn = true := h
    simp [isControl, Opcode.isControl, Opcode.endsBlock, h]
  | throw =>
    have h : ins.op.isThrow = true := h
    simp [isControl, Opcode.isControl, Opcode.endsBlock, h]
  | _ => exact (h : ins.op.isControl = false).symm

/-! ## Lowered instructions -/

/-- All lowered actions go straight on. -/
def Straight (lowered : List Lowered) : Prop := ∀ l ∈ lowered, l.action.isStraight = true

/-- The lowered actions go straight on, up to the last one if the instruction is a control
instruction. -/
def EndsAt (ins : Instruction) (lowered : List Lowered) : Prop :=
  if ins.op.isControl = true then
    ∃ front l, lowered = front ++ [l] ∧ Straight front ∧ ins.EndsIn l.action
  else Straight lowered

lemma Straight.append {front back : List Lowered} (hfront : Straight front)
    (hback : Straight back) : Straight (front ++ back) := by
  intro l hl
  rcases List.mem_append.mp hl with hl | hl
  · exact hfront l hl
  · exact hback l hl

lemma EndsAt.append {ins : Instruction} {front back : List Lowered} (hfront : Straight front)
    (h : EndsAt ins back) : EndsAt ins (front ++ back) := by
  unfold EndsAt at h ⊢
  split at h
  · rename_i hcontrol
    rw [if_pos hcontrol]
    obtain ⟨front', l, rfl, hfront', hl⟩ := h
    exact ⟨front ++ front', l, by rw [List.append_assoc], hfront.append hfront', hl⟩
  · rename_i hcontrol
    rw [if_neg hcontrol]
    exact hfront.append h

lemma EndsAt.straight {ins : Instruction} {lowered : List Lowered} (h : EndsAt ins lowered)
    (hins : ins.op.isControl = false) : Straight lowered := by
  simpa [EndsAt, hins] using h

lemma admits_straight : Admits (fun v => v.var?.isSome = true) fun a => a.isStraight = true :=
  fun _ _ h _ => h

lemma Frame.All.straight {f : Frame} (h : f.All fun a => a.isStraight = true) (offset : Int) :
    Straight (f.actions.map (⟨offset, ·⟩)) := by
  intro l hl
  obtain ⟨a, ha, rfl⟩ := List.mem_map.mp hl
  exact h a ha

/-- The lowered actions come from the instructions: their offsets are offsets of these. -/
def ComesFrom (code : List Instruction) (lowered : List Lowered) : Prop :=
  ∀ l ∈ lowered, ∃ ins ∈ code, l.offset = ins.pc

lemma ComesFrom.append {code : List Instruction} {front back : List Lowered}
    (hfront : ComesFrom code front) (hback : ComesFrom code back) :
    ComesFrom code (front ++ back) := by
  intro l hl
  rcases List.mem_append.mp hl with hl | hl
  · exact hfront l hl
  · exact hback l hl

lemma ComesFrom.mono {code code' : List Instruction} {lowered : List Lowered}
    (h : ComesFrom code lowered) (hcode : code ⊆ code') : ComesFrom code' lowered := by
  intro l hl
  obtain ⟨ins, hins, heq⟩ := h l hl
  exact ⟨ins, hcode hins, heq⟩

lemma comesFrom_map {code : List Instruction} {ins : Instruction} (hins : ins ∈ code)
    (actions : List (Action Int)) : ComesFrom code (actions.map (⟨ins.pc, ·⟩)) := by
  intro l hl
  obtain ⟨a, -, rfl⟩ := List.mem_map.mp hl
  exact ⟨ins, hins, rfl⟩

variable {params : ParamSlots}

/-- An instruction is lowered to actions that go straight on, up to the last one if it is a control
instruction. -/
lemma lowerInstruction_endsAt (hparams : params.Variables) (ins : Instruction) {f : Frame}
    (hf : f.actions = []) : Ensures (lowerInstruction params ins f) fun r =>
      r.1.actions = [] ∧ ComesFrom [ins] r.2 ∧ EndsAt ins r.2 := by
  unfold lowerInstruction
  split
  · exact ensures_error
  · rename_i f' hstep
    refine ensures_ok ⟨rfl, comesFrom_map (List.mem_singleton_self ins) _, ?_⟩
    cases hop : ins.operation with
    | error e => simp [hop, Except.bind] at hstep
    | ok o =>
      have hstep : f.step params ins.op o = .ok f' := by simpa [hop, Except.bind] using hstep
      have hsuits := ins.operation_suits o hop
      have hempty : f.All fun a => a.isStraight = true := by simp [Frame.All, hf]
      unfold EndsAt
      rw [← hsuits.isControl_eq]
      split
      · rename_i ho
        obtain ⟨front, a, hactions, hfront, ha⟩ :=
          Frame.step_endsIn admits_straight ofTemporaries_isSome hempty ho f' hstep
        refine ⟨front.map (⟨ins.pc, ·⟩), ⟨ins.pc, a⟩, by simp [hactions], ?_,
          ha.instruction hsuits⟩
        intro l hl
        obtain ⟨a', ha', rfl⟩ := List.mem_map.mp hl
        exact hfront a' ha'
      · rename_i ho
        exact (Frame.step_all admits_straight ofTemporaries_isSome
          (fun slot _ type => hparams.variable slot type) hempty (by simpa using ho) f'
          hstep).straight _

/-- A list of instructions of which only the last one may be a control instruction. -/
lemma lowerInstructions_endsAt (hparams : params.Variables) {code : List Instruction}
    {last : Instruction} (hlast : code.getLast? = some last)
    (hcode : ∀ ins ∈ code.dropLast, ins.op.isControl = false) {f : Frame} (hf : f.actions = []) :
    Ensures (lowerInstructions params code f) fun r =>
      r.1.actions = [] ∧ ComesFrom code r.2 ∧ EndsAt last r.2 := by
  induction code generalizing f with
  | nil => cases hlast
  | cons ins rest ih =>
    refine (lowerInstruction_endsAt hparams ins hf).bind fun r hr => ?_
    cases rest with
    | nil =>
      obtain rfl : ins = last := by simpa using hlast
      exact ensures_ok (by simpa using hr)
    | cons next rest =>
      have hins : ins.op.isControl = false := hcode ins (by simp)
      refine (ih (by simpa using hlast) (fun x hx => hcode x (by simp [hx])) hr.1).bind
        fun r' hr' => ?_
      refine ensures_ok ⟨hr'.1, ?_, EndsAt.append (hr.2.2.straight hins) hr'.2.2⟩
      exact (hr.2.1.mono (by simp)).append (hr'.2.1.mono (by simp))

/-! ## Lowered blocks -/

/-- The actions of a block receive an exception first if the block is a handler, and never else. -/
inductive BasicBlock.Begins (block : BasicBlock) : List Lowered → Prop
  | plain {part : List Lowered} (hcatches : block.catches = none)
    (hpart : ∀ l ∈ part, l.action.isReceive = false) : Begins block part
  | handler {l : Lowered} {rest : List Lowered} (hcatches : block.catches.isSome = true)
    (hl : l.action.isReceive = true) (hrest : ∀ l' ∈ rest, l'.action.isReceive = false) :
    Begins block (l :: rest)

lemma BasicBlock.Begins.isReceive_iff {block : BasicBlock} {part : List Lowered}
    (h : block.Begins part) {i : Nat} {l : Lowered} (hl : part[i]? = some l) :
    l.action.isReceive = true ↔ i = 0 ∧ block.catches.isSome = true := by
  cases h with
  | plain hcatches hpart => simp [hpart l (List.mem_of_getElem? hl), hcatches]
  | handler hcatches hfirst hrest =>
    cases i with
    | zero =>
      obtain rfl := Option.some.inj hl
      simp [hfirst, hcatches]
    | succ i => simp [hrest l (List.mem_of_getElem? hl)]

/-- The lowered actions of a block that is reached or not. -/
inductive LoweredFrom (block : BasicBlock) : Bool → List Lowered → Prop
  | reached {front : List Lowered} {l : Lowered} {ins : Instruction}
    (hlast : block.last? = some ins) (hfront : Straight front) (hends : ins.EndsIn l.action)
    (hbegins : block.Begins (front ++ [l])) : LoweredFrom block true (front ++ [l])
  | dead (hne : block.instructions ≠ []) : LoweredFrom block false (placeholders block)

lemma isUnreachable_of_mem_placeholders {block : BasicBlock} {l : Lowered}
    (h : l ∈ placeholders block) : l.action.isUnreachable = true := by
  obtain ⟨ins, -, rfl⟩ := List.mem_map.mp h
  rfl

lemma LoweredFrom.ne_nil {block : BasicBlock} {reached : Bool} {part : List Lowered}
    (h : LoweredFrom block reached part) : part ≠ [] := by
  cases h with
  | reached hlast hfront hends hbegins => simp
  | dead hne => simpa [placeholders] using hne

/-- A block has instructions, and only the last one is a control instruction. -/
structure BasicBlock.Regular (block : BasicBlock) : Prop where
  ne_nil : block.instructions ≠ []
  control : ∀ ins ∈ block.instructions.dropLast, ins.op.isControl = false

/-- A block is lowered to actions that go straight on, up to the last one if the block ends in a
control instruction. -/
lemma lowerBlock_endsAt (hparams : params.Variables) (handlers : List HandlerEntry)
    {block : BasicBlock} (hblock : block.Regular) {last : Instruction}
    (hlast : block.last? = some last) (shape : Shape) (scratch : Nat) :
    Ensures (lowerBlock params handlers block shape scratch) fun r =>
      ComesFrom block.instructions r.2 ∧ EndsAt last r.2 := by
  let receive : Lowered := ⟨block.offset, .receive (.ofSlot 0 ((shape.head?.map (·.2)).getD ""))
    (shownCatchType handlers block.offset)⟩
  have hfrom : ComesFrom block.instructions _ := forall_mem_received block receive <| by
    obtain ⟨ins, rest, hins⟩ := List.exists_cons_of_ne_nil hblock.ne_nil
    exact ⟨ins, by simp [hins], by simp [receive, BasicBlock.offset, hins]⟩
  have hstraight : Straight _ := forall_mem_received block receive rfl
  refine (lowerInstructions_endsAt hparams hlast hblock.control
    (f := { stack := entryStack shape, scratch }) rfl).bind fun r hr => ?_
  simp only [hlast]
  split
  · exact ensures_ok ⟨hfrom.append hr.2.1, EndsAt.append hstraight hr.2.2⟩
  · rename_i hgoes
    have hcontrol : last.op.isControl = false := by
      simpa [Opcode.isControl, and_comm] using hgoes
    have hempty : r.1.All fun a => a.isStraight = true := by simp [Frame.All, hr.1]
    have hmoves := (hempty.normalize admits_straight ofTemporaries_isSome []).straight last.pc
    refine ensures_ok ⟨(hfrom.append hr.2.1).append ?_, ?_⟩
    · exact comesFrom_map (List.mem_of_getLast? hlast) _
    · have hbody := (hstraight.append (hr.2.2.straight hcontrol)).append hmoves
      rw [EndsAt, if_neg (by simp [hcontrol])]
      exact hbody

/-- The action that receives an exception comes first in a block that is a handler. -/
lemma BasicBlock.begins_received (block : BasicBlock) {receive : Lowered} {body : List Lowered}
    (hreceive : receive.action.isReceive = true)
    (hbody : ∀ l ∈ body, l.action.isReceive = false) :
    block.Begins ((match block.catches with
      | none => []
      | some _ => [receive]) ++ body) := by
  split
  · exact .plain ‹_› hbody
  · rename_i hcatches
    exact .handler (by simp [hcatches]) hreceive hbody

/-- A block first receives an exception if it is a handler. -/
lemma lowerBlock_begins (hparams : params.Variables) (handlers : List HandlerEntry)
    (block : BasicBlock) (shape : Shape) (scratch : Nat) :
    Ensures (lowerBlock params handlers block shape scratch) fun r => block.Begins r.2 := by
  have hadmits : Admits (fun v => v.var?.isSome = true) fun a => a.isReceive = false :=
    fun _ _ _ h => h
  refine (lowerInstructions_forall hadmits ofTemporaries_isSome
    (fun o a ha => by cases ha <;> rfl) (hparams.stores block.instructions)
    (f := { stack := entryStack shape, scratch }) (by simp [Frame.All])).bind fun r hr => ?_
  dsimp only
  split
  · exact ensures_ok (block.begins_received rfl hr.2)
  · split
    · exact ensures_ok (block.begins_received rfl hr.2)
    · refine ensures_ok ?_
      rw [List.append_assoc]
      refine block.begins_received rfl fun l hl => ?_
      rcases List.mem_append.mp hl with hl | hl
      · exact hr.2 l hl
      · obtain ⟨a, ha, rfl⟩ := List.mem_map.mp hl
        exact hr.1.normalize hadmits ofTemporaries_isSome [] a ha

/-- The lowered actions of a reached block, with one that does nothing if there are none. -/
lemma EndsAt.loweredFrom {block : BasicBlock} {last : Instruction} (hlast : block.last? = some last)
    {lowered : List Lowered} (h : EndsAt last lowered) (hbegins : block.Begins lowered) :
    LoweredFrom block true (if lowered.isEmpty then [⟨block.offset, .nop⟩] else lowered) := by
  unfold EndsAt at h
  split at h
  · obtain ⟨front, l, rfl, hfront, hl⟩ := h
    rw [if_neg (by simp)]
    exact .reached hlast hfront hl hbegins
  · rename_i hcontrol
    have hcontrol : last.op.isControl = false := by simpa using hcontrol
    split
    · rename_i hempty
      obtain rfl : lowered = [] := by simpa using hempty
      have hcatches : block.catches = none := by
        cases hbegins with
        | plain hcatches hpart => exact hcatches
      have hnop : LoweredFrom block true ([] ++ [⟨block.offset, .nop⟩]) :=
        .reached hlast (by simp [Straight]) (.straight hcontrol rfl)
          (.plain hcatches (by simp [Action.isReceive]))
      exact hnop
    · rename_i hne
      have hne : lowered ≠ [] := by simpa using hne
      rw [← List.dropLast_concat_getLast hne] at hbegins ⊢
      exact .reached hlast (fun l hl => h l (List.dropLast_subset lowered hl))
        (.straight hcontrol (h _ (List.getLast_mem hne))) hbegins

/-! ## Checked bodies -/

namespace MethodBody

/-- What the checks of a body establish. -/
structure Valid (b : MethodBody) : Prop where
  increasing : b.code.Pairwise fun x y => x.pc < y.pc
  nonneg : ∀ ins ∈ b.code, 0 ≤ ins.pc
  targets : ∀ ins ∈ b.code, ∀ t ∈ ins.branchTargets, b.hasOffset t = true
  ends : ∀ last ∈ b.code.getLast?, last.op.endsBlock = true
  handlers : ∀ e ∈ b.handlers, b.hasOffset e.handler = true
  scopes : ∀ r ∈ b.resources,
    b.hasOffset r.start = true ∧ b.hasOffset r.stop = true ∧ r.start < r.stop

lemma failIf_false (cond : Bool) (offset : Int) (flaw : Flaw) :
    Ensures (failIf cond offset flaw) fun _ => cond = false := by
  unfold failIf
  split
  · exact ensures_error
  · rename_i h
    exact ensures_ok (by simpa using h)

/-- The offsets increase, from the one in front of the code on, and are natural numbers. -/
lemma checkOffsets_increasing (before : Option Int) (code : List Instruction) :
    Ensures (checkOffsets before code) fun _ =>
      (∀ pc ∈ before, ∀ ins ∈ code, pc < ins.pc) ∧
      code.Pairwise (fun x y => x.pc < y.pc) ∧ ∀ ins ∈ code, 0 ≤ ins.pc := by
  induction code generalizing before with
  | nil => exact ensures_ok (by simp)
  | cons ins rest ih =>
    refine (failIf_false _ _ _).bind fun _ horder => ?_
    refine (failIf_false _ _ _).bind fun _ hsign => ?_
    intro _ hrest
    obtain ⟨hbefore, hpairwise, hnonneg⟩ := ih _ _ hrest
    have hbefore : ∀ ins' ∈ rest, ins.pc < ins'.pc := hbefore ins.pc rfl
    have horder : ∀ pc ∈ before, pc < ins.pc := by
      rintro pc rfl
      simpa using horder
    refine ⟨?_, List.pairwise_cons.mpr ⟨hbefore, hpairwise⟩, ?_⟩
    · intro pc hpc ins' hins'
      have hpc := horder pc hpc
      rcases List.mem_cons.mp hins' with rfl | hins'
      · exact hpc
      · exact Int.lt_trans hpc (hbefore ins' hins')
    · intro ins' hins'
      rcases List.mem_cons.mp hins' with rfl | hins'
      · simpa using hsign
      · exact hnonneg ins' hins'

/-- **Checks.** A body that passes the checks is valid. -/
lemma validate_valid (b : MethodBody) : Ensures b.validate fun _ => b.Valid := by
  have hins : ∀ ins ∈ b.code, Ensures (b.checkInstruction ins) fun _ =>
      ∀ t ∈ ins.branchTargets, b.hasOffset t = true := by
    intro ins _
    refine Ensures.of_bind fun _ => Ensures.of_bind fun _ => Ensures.of_bind fun _ => ?_
    split
    · exact ensures_error
    · rename_i hfind
      exact ensures_ok (by simpa using hfind)
  have hlast : Ensures b.checkLast fun _ =>
      ∀ last ∈ b.code.getLast?, last.op.endsBlock = true := by
    unfold checkLast
    split
    · rename_i hlast
      exact ensures_ok (by simp [hlast])
    · rename_i last hlast
      intro _ h
      simpa [hlast] using failIf_false _ _ _ _ h
  have hhandler : ∀ e ∈ b.handlers, Ensures (b.checkHandler e) fun _ =>
      b.hasOffset e.handler = true := by
    intro e _
    refine Ensures.of_bind fun _ => Ensures.of_bind fun _ => ?_
    intro _ h
    simpa using failIf_false _ _ _ _ h
  have hscope : ∀ r ∈ b.resources, Ensures (b.checkScope r) fun _ =>
      b.hasOffset r.start = true ∧ b.hasOffset r.stop = true ∧ r.start < r.stop := by
    intro r _ _ h
    have h := failIf_false _ _ _ _ h
    simp only [Bool.or_eq_false_iff, Bool.not_eq_false', decide_eq_false_iff_not, Int.not_le] at h
    exact ⟨h.1.1.1, h.1.1.2, h.1.2⟩
  refine (checkOffsets_increasing none b.code).bind fun _ hoffsets => ?_
  refine (ensures_forM _ hins).bind fun _ htargets => ?_
  refine hlast.bind fun _ hends => ?_
  refine (ensures_forM _ hhandler).bind fun _ hhandlers => ?_
  intro _ hscopes
  exact ⟨hoffsets.2.1, hoffsets.2.2, htargets, hends, hhandlers, ensures_forM _ hscope _ hscopes⟩

/-! ## Blocks of a body -/

variable (b : MethodBody)

/-- Cutting drops nothing. -/
lemma flatten_cut (code : List Instruction) : (b.cut code).flatten = code := by
  induction code with
  | nil => rfl
  | cons ins rest ih =>
    unfold cut
    split
    · rename_i hcut
      simpa [hcut] using ih
    · rename_i run runs hcut
      rw [hcut] at ih
      split <;> simpa using ih

/-- A run has instructions, and only the last one is a control instruction. -/
lemma control_of_mem_cut (code : List Instruction) :
    ∀ run ∈ b.cut code, run ≠ [] ∧ ∀ ins ∈ run.dropLast, ins.op.isControl = false := by
  induction code with
  | nil => simp [cut]
  | cons ins rest ih =>
    intro run hrun
    unfold cut at hrun
    split at hrun
    · simp_all
    · rename_i first runs hcut
      rw [hcut] at ih
      have hfirst := ih first (by simp)
      split at hrun
      · rcases List.mem_cons.mp hrun with rfl | hrun
        · simp
        · exact ih run hrun
      · rename_i hleader
        rcases List.mem_cons.mp hrun with rfl | hrun
        · refine ⟨by simp, ?_⟩
          have hins : ins.op.isControl = false := by
            cases rest with
            | nil => simp [cut] at hcut
            | cons next rest => simp_all [isLeader, Opcode.isControl]
          rw [List.dropLast_cons_of_ne_nil hfirst.1]
          simpa [hins] using hfirst.2
        · exact ih run (List.mem_cons_of_mem _ hrun)

/-- An instruction that is referred to is the first one of its run.

**Proof sketch.** Induction on the code. The first instruction starts the first run. A later one
starts a run of the rest, and this run stays as it is unless it is joined to the first instruction,
which is not done in front of an instruction that is referred to. -/
lemma exists_run_of_referred (code : List Instruction) {ins : Instruction} (hins : ins ∈ code)
    (href : ins.pc ∈ b.referredOffsets) : ∃ run ∈ b.cut code, run.head? = some ins := by
  induction code with
  | nil => cases hins
  | cons first rest ih =>
    rcases List.mem_cons.mp hins with rfl | hins
    · unfold cut
      split
      · exact ⟨_, List.mem_cons_self, rfl⟩
      · split
        · exact ⟨_, List.mem_cons_self, rfl⟩
        · exact ⟨_, List.mem_cons_self, rfl⟩
    · obtain ⟨run, hrun, hhead⟩ := ih hins
      unfold cut
      split
      · rename_i hcut
        rw [hcut] at hrun
        cases hrun
      · rename_i run' runs hcut
        rw [hcut] at hrun
        split
        · exact ⟨run, List.mem_cons_of_mem _ hrun, hhead⟩
        · rename_i hleader
          rcases List.mem_cons.mp hrun with rfl | hrun
          · -- the joined run starts with the instruction behind the first one
            have hrest : rest.head? = some ins := by
              have hflat := b.flatten_cut rest
              rw [hcut] at hflat
              cases run with
              | nil => cases hhead
              | cons x xs => simpa [← hflat] using hhead
            simp [hrest, isLeader, href] at hleader
          · exact ⟨run, List.mem_cons_of_mem _ hrun, hhead⟩

/-- Numbering keeps the instructions. -/
lemma map_instructions_number (start : Nat) (runs : List (List Instruction)) :
    (b.number start runs).map (·.instructions) = runs := by
  induction runs generalizing start with
  | nil => rfl
  | cons run runs ih => simp [number, ih]

lemma map_instructions_blocks : b.blocks.map (·.instructions) = b.cut b.code :=
  b.map_instructions_number 0 _

/-- The blocks make up the code. -/
lemma flatMap_blocks : b.blocks.flatMap (·.instructions) = b.code := by
  rw [List.flatMap_def, map_instructions_blocks, flatten_cut]

/-- The blocks are regular. -/
lemma regular_of_mem_blocks {block : BasicBlock} (h : block ∈ b.blocks) : block.Regular := by
  have hrun : block.instructions ∈ b.cut b.code := by
    rw [← map_instructions_blocks]
    exact List.mem_map_of_mem h
  obtain ⟨hne, hcontrol⟩ := b.control_of_mem_cut b.code _ hrun
  exact ⟨hne, hcontrol⟩

/-- Everything that is referred to starts a block. -/
lemma exists_block_of_referred {offset : Int} (hoffset : b.hasOffset offset = true)
    (href : offset ∈ b.referredOffsets) : ∃ block ∈ b.blocks, block.offset = offset := by
  obtain ⟨ins, hins, rfl⟩ : ∃ ins ∈ b.code, ins.pc = offset := by
    simpa [hasOffset, indexOf?] using hoffset
  obtain ⟨run, hrun, hhead⟩ := b.exists_run_of_referred b.code hins href
  rw [← map_instructions_blocks] at hrun
  obtain ⟨block, hblock, rfl⟩ := List.mem_map.mp hrun
  exact ⟨block, hblock, by simp [BasicBlock.offset, hhead]⟩

end MethodBody

/-- The blocks are numbered by the positions of their first instructions, from `start` on. -/
def Numbered : Nat → List BasicBlock → Prop
  | _, [] => True
  | start, block :: blocks => block.start = start ∧ Numbered block.stop blocks

lemma MethodBody.numbered_number (b : MethodBody) (start : Nat) (runs : List (List Instruction)) :
    Numbered start (b.number start runs) := by
  induction runs generalizing start with
  | nil => trivial
  | cons run runs ih => exact ⟨rfl, ih _⟩

/-! ## Spans -/

/-- The blocks lie one behind the other: the statements of the first one start at the position
`base`, its instructions at the position `start` of the code. -/
inductive Laid : Nat → Nat → List Span → List Lowered → Prop
  | nil (base start : Nat) : Laid base start [] []
  | cons {base start : Nat} {s : Span} {spans : List Span} {part rest : List Lowered}
    (hfirst : s.first = base) (hlast : s.last + 1 = base + part.length)
    (hstart : s.block.start = start) (hpart : LoweredFrom s.block s.reached part)
    (hfrom : ComesFrom s.block.instructions part)
    (hrest : Laid (base + part.length) s.block.stop spans rest) :
    Laid base start (s :: spans) (part ++ rest)

/-- A block is appended to the lowered ones. -/
lemma Progression.add_laid (hparams : params.Variables) (handlers : List HandlerEntry)
    (p : Progression) {block : BasicBlock} (hblock : block.Regular) (shape : Option Shape) :
    Ensures (p.add params handlers block shape) fun p' => ∃ part,
      p'.lowered.toList = p.lowered.toList ++ part ∧
      p'.spans = p.spans ++
        [⟨block, shape.isSome, p.lowered.size, p.lowered.size + part.length - 1⟩] ∧
      LoweredFrom block shape.isSome part ∧ ComesFrom block.instructions part := by
  obtain ⟨first, rest, hfirst⟩ := List.exists_cons_of_ne_nil hblock.ne_nil
  have hoffset : block.offset = first.pc := by simp [BasicBlock.offset, hfirst]
  unfold Progression.add
  split
  · refine ensures_ok ⟨placeholders block, ?_, ?_, .dead hblock.ne_nil, ?_⟩
    · simp [placeholders, hfirst]
    · simp [placeholders, hfirst]
    · intro l hl
      obtain ⟨ins, hins, rfl⟩ := List.mem_map.mp hl
      exact ⟨ins, hins, rfl⟩
  · rename_i shape
    obtain ⟨last, hlast⟩ : ∃ last, block.last? = some last :=
      Option.isSome_iff_exists.mp (by simp [BasicBlock.last?, hfirst])
    refine Ensures.bind ((lowerBlock_endsAt hparams handlers hblock hlast shape p.scratch).and
      (lowerBlock_begins hparams handlers block shape p.scratch)) fun r hr => ?_
    refine ensures_ok ⟨_, Array.toList_appendList, rfl, hr.1.2.loweredFrom hlast hr.2, ?_⟩
    split
    · intro l hl
      rw [List.mem_singleton.mp hl]
      exact ⟨first, by simp [hfirst], hoffset⟩
    · exact hr.1.1

/-- The blocks of a list are laid out behind what has been lowered before. -/
lemma lowerBlocks_laid_from (hparams : params.Variables) (handlers : List HandlerEntry)
    (shapes : Shapes) (blocks : List (BasicBlock × Nat)) {start : Nat}
    (hnumbered : Numbered start (blocks.map (·.1))) (hblocks : ∀ e ∈ blocks, e.1.Regular)
    (p : Progression) :
    Ensures (lowerBlocks params handlers shapes blocks p) fun p' => ∃ spans more,
      p'.spans = p.spans ++ spans ∧ p'.lowered.toList = p.lowered.toList ++ more ∧
      spans.map (·.block) = blocks.map (·.1) ∧ Laid p.lowered.size start spans more := by
  induction blocks generalizing start p with
  | nil => exact ensures_ok ⟨[], [], by simp, by simp, rfl, .nil _ _⟩
  | cons e blocks ih =>
    obtain ⟨block, i⟩ := e
    obtain ⟨hstart, hnumbered⟩ := hnumbered
    refine (p.add_laid hparams handlers (hblocks _ List.mem_cons_self) _).bind fun p₁ h₁ => ?_
    obtain ⟨part, hlowered, hspans, hpart, hfrom⟩ := h₁
    intro p' hp'
    obtain ⟨spans, more, hspans', hlowered', hmap, hlaid⟩ :=
      ih hnumbered (fun e he => hblocks e (List.mem_cons_of_mem _ he)) p₁ p' hp'
    have hsize : p₁.lowered.size = p.lowered.size + part.length := by
      rw [← Array.length_toList, hlowered, List.length_append, Array.length_toList]
    have hpos : 0 < part.length := List.length_pos_iff.mpr hpart.ne_nil
    refine ⟨_ :: spans, part ++ more, by rw [hspans', hspans, List.append_assoc]; rfl,
      by rw [hlowered', hlowered, List.append_assoc], by simp [hmap], ?_⟩
    refine Laid.cons rfl (by dsimp only; omega) hstart hpart hfrom ?_
    rw [← hsize]
    exact hlaid

/-- **Layout.** The blocks of a body are laid out one behind the other. -/
lemma lowerBlocks_laid (hparams : params.Variables) (b : MethodBody) (shapes : Shapes) :
    Ensures (lowerBlocks params b.handlers shapes b.blocks.zipIdx {}) fun p =>
      p.spans.map (·.block) = b.blocks ∧ Laid 0 0 p.spans p.lowered.toList := by
  have hfst : b.blocks.zipIdx.map (·.1) = b.blocks := by simp
  have hnumbered : Numbered 0 (b.blocks.zipIdx.map (·.1)) := by
    rw [hfst]
    exact b.numbered_number 0 _
  have hblocks : ∀ e ∈ b.blocks.zipIdx, e.1.Regular := fun e he =>
    b.regular_of_mem_blocks (List.fst_mem_of_mem_zipIdx he)
  intro p hp
  obtain ⟨spans, more, hspans, hlowered, hmap, hlaid⟩ :=
    lowerBlocks_laid_from hparams b.handlers shapes _ hnumbered hblocks {} p hp
  obtain rfl : p.spans = spans := by simpa using hspans
  obtain rfl : p.lowered.toList = more := by simpa using hlowered
  exact ⟨hmap.trans hfst, hlaid⟩

namespace Laid

variable {base start : Nat} {spans : List Span} {lowered : List Lowered}

/-- The statements of a block lie between those in front of all blocks and the end. -/
lemma bounds (h : Laid base start spans lowered) {s : Span} (hs : s ∈ spans) :
    base ≤ s.first ∧ s.first ≤ s.last ∧ s.last < base + lowered.length ∧
      start ≤ s.block.start := by
  induction h with
  | nil base start => cases hs
  | @cons base start s' spans part rest hfirst hlast hstart hpart hfrom hrest ih =>
    have hpos : 0 < part.length := List.length_pos_iff.mpr hpart.ne_nil
    rw [List.length_append]
    rcases List.mem_cons.mp hs with rfl | hs
    · omega
    · have hstop : start ≤ s'.block.stop := by
        rw [← hstart]
        exact Nat.le_add_right _ _
      have := ih hs
      omega

/-- The statements of different blocks are apart. -/
lemma apart (h : Laid base start spans lowered) :
    spans.Pairwise fun s s' => s.last < s'.first := by
  induction h with
  | nil base start => exact .nil
  | @cons base start s spans part rest hfirst hlast hstart hpart hfrom hrest ih =>
    refine List.pairwise_cons.mpr ⟨fun s' hs' => ?_, ih⟩
    have := hrest.bounds hs'
    omega

/-- The lowered actions of a block are found from its first position on. -/
lemma part_of_mem (h : Laid base start spans lowered) {s : Span} (hs : s ∈ spans) :
    ∃ part, LoweredFrom s.block s.reached part ∧ ComesFrom s.block.instructions part ∧
      s.last + 1 = s.first + part.length ∧
      ∀ i, s.first ≤ i → i ≤ s.last → lowered[i - base]? = part[i - s.first]? := by
  induction h with
  | nil base start => cases hs
  | @cons base start s' spans part rest hfirst hlast hstart hpart hfrom hrest ih =>
    rcases List.mem_cons.mp hs with rfl | hs
    · refine ⟨part, hpart, hfrom, by omega, fun i hi hi' => ?_⟩
      rw [hfirst, List.getElem?_append_left (by omega)]
    · obtain ⟨part', hpart', hfrom', hlast', hget⟩ := ih hs
      have hbounds := hrest.bounds hs
      refine ⟨part', hpart', hfrom', hlast', fun i hi hi' => ?_⟩
      rw [List.getElem?_append_right (by omega), ← hget i hi hi']
      congr 1
      omega

/-- Every lowered action belongs to a block. -/
lemma exists_span (h : Laid base start spans lowered) {i : Nat} (hi : base ≤ i)
    (hi' : i < base + lowered.length) : ∃ s ∈ spans, s.first ≤ i ∧ i ≤ s.last := by
  induction h with
  | nil base start => simp at hi'; omega
  | @cons base start s spans part rest hfirst hlast hstart hpart hfrom hrest ih =>
    rw [List.length_append] at hi'
    by_cases hpart : i < base + part.length
    · exact ⟨s, by simp, by omega, by omega⟩
    · obtain ⟨s', hs', hfirst', hlast'⟩ := ih (by omega) (by omega)
      exact ⟨s', List.mem_cons_of_mem _ hs', hfirst', hlast'⟩

/-- Behind a block that is not the last one stands the block of the next instruction. -/
lemma firstFrom_eq (h : Laid base start spans lowered)
    (hblocks : ∀ s ∈ spans, s.block.instructions ≠ []) {s : Span} (hs : s ∈ spans) :
    spans.getLast? = some s ∨ firstFrom spans s.block.stop = s.last + 1 := by
  induction h with
  | nil base start => cases hs
  | @cons base start s' spans part rest hfirst hlast hstart hpart hfrom hrest ih =>
    have hlt : ∀ x : Span, x ∈ s' :: spans → x.block.start < x.block.stop := fun x hx =>
      Nat.lt_add_of_pos_right (List.length_pos_iff.mpr (hblocks x hx))
    have hskip : start < s.block.stop →
        firstFrom (s' :: spans) s.block.stop = firstFrom spans s.block.stop := by
      intro hstop
      unfold firstFrom
      rw [List.find?_cons_of_neg (by simp; omega)]
    rcases List.mem_cons.mp hs with rfl | hs
    · have hstop := hlt s (by simp)
      cases hrest with
      | nil => exact .inl rfl
      | @cons _ _ s'' spans part' rest hfirst' hlast' hstart' hpart' hfrom' hrest' =>
        refine .inr ?_
        rw [hskip (by omega)]
        simp only [firstFrom, List.find?_cons_of_pos, hstart', beq_self_eq_true, Option.map_some,
          Option.getD_some]
        omega
    · have hbounds := hrest.bounds hs
      have hstop := hlt s (List.mem_cons_of_mem _ hs)
      have hstop' := hlt s' (by simp)
      rcases ih (fun x hx => hblocks x (List.mem_cons_of_mem _ hx)) hs with hlast | hnext
      · refine .inl ?_
        rw [List.getLast?_cons, hlast]
        rfl
      · exact .inr ((hskip (by omega)).trans hnext)

/-- A lowered action of a block comes from an instruction of it. -/
lemma exists_instruction (h : Laid 0 start spans lowered) {s : Span} (hs : s ∈ spans) {i : Nat}
    (hfirst : s.first ≤ i) (hlast : i ≤ s.last) {l : Lowered} (hl : lowered[i]? = some l) :
    ∃ ins ∈ s.block.instructions, l.offset = ins.pc := by
  obtain ⟨part, -, hfrom, -, hget⟩ := h.part_of_mem hs
  have hpart := hget i hfirst hlast
  rw [Nat.sub_zero, hl] at hpart
  exact hfrom l (List.mem_of_getElem? hpart.symm)

/-- Where the offsets increase along the code, they increase from block to block. -/
lemma pc_lt (h : Laid base start spans lowered)
    (hcode : (spans.flatMap (·.block.instructions)).Pairwise fun x y => x.pc < y.pc)
    {s s' : Span} (hs : s ∈ spans) (hs' : s' ∈ spans) (hlt : s.last < s'.first) :
    ∀ x ∈ s.block.instructions, ∀ y ∈ s'.block.instructions, x.pc < y.pc := by
  have hblocks : spans.Pairwise fun s s' => s.last < s'.first →
      ∀ x ∈ s.block.instructions, ∀ y ∈ s'.block.instructions, x.pc < y.pc := by
    refine (List.pairwise_flatMap.mp hcode).2.imp ?_
    intro s s' hlt _
    exact hlt
  refine hblocks.forall_of_forall_of_flip ?_ ?_ hs hs' hlt
  · intro s hs hlt
    have := h.bounds hs
    omega
  · refine h.apart.imp_of_mem fun {a c} ha hc hac hca => ?_
    have := h.bounds ha
    have := h.bounds hc
    omega

/-- Two blocks are the same, or one is in front of the other. -/
lemma eq_or_apart (h : Laid base start spans lowered) {s s' : Span} (hs : s ∈ spans)
    (hs' : s' ∈ spans) : s = s' ∨ s.last < s'.first ∨ s'.last < s.first := by
  have hor : spans.Pairwise fun s s' => s = s' ∨ s.last < s'.first ∨ s'.last < s.first :=
    h.apart.imp fun hlt => .inr (.inl hlt)
  exact hor.forall_of_forall_of_flip (fun _ _ => .inl rfl)
    (h.apart.imp fun hlt => .inr (.inr hlt)) hs hs'

/-- The lowered actions in front of a block have smaller offsets than the block, those behind it
have larger ones. -/
lemma offset_lt (h : Laid 0 start spans lowered)
    (hcode : (spans.flatMap (·.block.instructions)).Pairwise fun x y => x.pc < y.pc)
    {s : Span} (hs : s ∈ spans) {i : Nat} {l : Lowered} (hl : lowered[i]? = some l)
    {ins : Instruction} (hins : ins ∈ s.block.instructions) :
    (i < s.first → l.offset < ins.pc) ∧ (s.last < i → ins.pc < l.offset) := by
  have hi := (List.getElem?_eq_some_iff.mp hl).1
  obtain ⟨s', hs', hfirst, hlast⟩ := h.exists_span (Nat.zero_le i) (by omega)
  obtain ⟨ins', hins', heq⟩ := h.exists_instruction hs' hfirst hlast hl
  have hbounds := h.bounds hs
  have hcases := h.eq_or_apart hs hs'
  rw [heq]
  constructor
  · intro hlt
    have hbefore : s'.last < s.first := by
      rcases hcases with rfl | hlt' | hlt' <;> omega
    exact h.pc_lt hcode hs' hs hbefore ins' hins' ins hins
  · intro hlt
    have hbehind : s.last < s'.first := by
      rcases hcases with rfl | hlt' | hlt' <;> omega
    exact h.pc_lt hcode hs hs' hbehind ins hins ins' hins'

end Laid

end JvmTaint
