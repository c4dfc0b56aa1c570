import JvmTaint.Proofs.Lowering.Assignments
import JvmTaint.Proofs.Lowering.Operations

set_option autoImplicit false
set_option relaxedAutoImplicit false

/-!
# Lowering preserves meaning

The actions of a lowered block do what its instructions do on the operand-stack machine: the same
effects on the same values, the same values in the local variables, the same departure, and on the
way to another block the stack in the temporaries of its depths.

The exception are blocks that count the words of misread array elements. A local variable that
starts as a parameter is recorded with the type of the parameter in every block that does not store
to it, also where an array of another type has been stored to it before. If the parameter is an
array of longs, a reference that `aaload` reads from the other array is taken for a long, and then
an instruction that counts words takes another number of values than the machine does.

## Main definitions

* `JvmTaint.BasicBlock.miscounts`: an array element is misread, and a later instruction of the block
  counts words.
* `JvmTaint.Enters`: the store and the machine at the entry of a block.
* `JvmTaint.Agrees`: the outcomes of the two machines agree.

## Main results

* `JvmTaint.lowerInstructions_simulates`: a list of instructions.
* `JvmTaint.lowerBlock_preserves_meaning`: a block that does not miscount.
* `JvmTaint.reusedParameter_changes_meaning`: a block that does.

## Design

A frame has to have the words of its slots right only while an instruction that counts words is
still to come. The run lemma therefore assumes a description that is about words if and only if some
instruction of the rest counts them, and each step weakens it.
-/

namespace JvmTaint

variable {V : Type} {I : Interpretation V} {params : ParamSlots} {counted counted' : Prop}
  {caught : V} {s : Store V} {f f' : Frame} {m : Machine V}

/-! ## Control operations -/

/-- The instructions that end a block are control operations.

**Proof sketch.** Their opcodes lie between 153 and 200, and for each of these opcodes the operation
is known. -/
lemma isControl_of_endsBlock {ins : Instruction} {operation : Operation}
    (hop : (ins.op.endsBlock || ins.op.isConditional) = true)
    (h : ins.operation = .ok operation) : operation.isControl = true := by
  simp only [Opcode.endsBlock, Opcode.isConditional, Opcode.isGoto, Opcode.isSwitch,
    Opcode.isReturn, Opcode.isThrow, Opcode.between, Bool.or_eq_true, decide_eq_true_eq,
    beq_iff_eq] at hop
  unfold Instruction.operation at h
  simp only [Opcode.isLoad, Opcode.isStore, Opcode.isSwitch, Opcode.between,
    decide_eq_true_eq] at h
  generalize ins.op.code = n at hop h
  have hlower : 153 ≤ n := by omega
  have hupper : n ≤ 200 := by omega
  interval_cases n <;> first | omega | (cases h; rfl)

/-- The machine leaves the block at a control operation. -/
lemma Machine.departs_of_isControl {op : Opcode} {operation : Operation}
    {out : Machine V × Option (Departure V)} (hcontrol : operation.isControl = true)
    (h : m.step I op operation = some out) : out.2 ≠ none := by
  cases operation with
  | branch test comparison target =>
    obtain ⟨⟨l, r, m₁⟩, -, heq⟩ := Option.bind_eq_some_iff.mp h
    simp [← Option.some.inj heq]
  | goto target => simp [← Option.some.inj h]
  | switch targets =>
    obtain ⟨⟨c, m₁⟩, -, heq⟩ := Option.bind_eq_some_iff.mp h
    simp [← Option.some.inj heq]
  | ret hasValue =>
    cases hasValue with
    | false => simp [← Option.some.inj h]
    | true =>
      obtain ⟨⟨c, m₁⟩, -, heq⟩ := Option.bind_eq_some_iff.mp h
      simp [← Option.some.inj heq]
  | throw =>
    obtain ⟨⟨c, m₁⟩, -, heq⟩ := Option.bind_eq_some_iff.mp h
    simp [← Option.some.inj heq]
  | _ => simp [Operation.isControl] at hcontrol

/-- If control passes all instructions, then the last one is no control operation. -/
lemma Machine.not_endsBlock_of_run {instructions : List Instruction} {last : Instruction}
    {m' : Machine V} (hlast : instructions.getLast? = some last)
    (h : m.run I instructions = some (m', none)) :
    (last.op.endsBlock || last.op.isConditional) = false := by
  induction instructions generalizing m with
  | nil => simp at hlast
  | cons ins rest ih =>
    rw [Machine.run] at h
    cases hoperation : ins.operation with
    | error flaw => simp [hoperation] at h
    | ok operation =>
      rw [hoperation] at h
      obtain ⟨⟨m₁, _ | d⟩, hstep, hrest⟩ := Option.bind_eq_some_iff.mp h
      · cases rest with
        | nil =>
          obtain rfl : ins = last := by simpa using hlast
          by_contra hends
          rw [Bool.not_eq_false] at hends
          exact Machine.departs_of_isControl (isControl_of_endsBlock hends hoperation) hstep rfl
        | cons next rest => exact ih (by simpa using hlast) hrest
      · simp at hrest

/-! ## Instructions -/

/-- Whether the instruction counts the words of the values that it takes. -/
def Instruction.countsWords (ins : Instruction) : Bool :=
  match ins.operation with
  | .ok operation => operation.countsWords
  | .error _ => false

/-- Whether some instruction of a list misreads an array element and a later one counts words, when
the list is lowered from the frame `f`. -/
def miscounts (params : ParamSlots) : List Instruction → Frame → Bool
  | [], _ => false
  | ins :: rest, f =>
    match ins.operation, lowerInstruction params ins f with
    | .ok operation, .ok (f', _) =>
      f.misreads operation && rest.any Instruction.countsWords || miscounts params rest f'
    | _, _ => false

/-- The frame after a departure does not matter. -/
lemma Simulates.of_departure {out : Store V × Option (Departure V)}
    {out' : Machine V × Option (Departure V)} (h : Simulates I params counted f out out')
    (hd : out'.2 ≠ none) : Simulates I params counted' f' out out' :=
  ⟨h.departure, h.log, h.locals, fun hnone => absurd hnone hd, h.settled⟩

/-- The actions of the instructions are taken out of the frame. -/
lemma actions_of_lowerInstructions {instructions : List Instruction} {lowered : List Lowered}
    (hactions : f.actions = [])
    (hlower : lowerInstructions params instructions f = .ok (f', lowered)) : f'.actions = [] := by
  induction instructions generalizing f lowered with
  | nil =>
    obtain ⟨rfl, -⟩ := Prod.mk.inj (Except.ok.inj hlower)
    exact hactions
  | cons ins rest ih =>
    obtain ⟨⟨f₁, here⟩, hfirst, hlower⟩ := bind_eq_ok.mp hlower
    obtain ⟨⟨f₂, later⟩, hlater, heq⟩ := bind_eq_ok.mp hlower
    obtain ⟨rfl, -⟩ := Prod.mk.inj (Except.ok.inj heq)
    refine ih ?_ hlater
    unfold lowerInstruction at hfirst
    split at hfirst
    · simp at hfirst
    · obtain ⟨rfl, -⟩ := Prod.mk.inj (Except.ok.inj hfirst)
      rfl

/-- The first instruction of a list keeps the words of the slots right as long as they matter, which
is while an instruction that counts words is still to come. -/
lemma step_simulates_counted (h : Describes I params counted f s m) (hactions : f.actions = [])
    (hp : params.Separate) {op : Opcode} {operation : Operation} {later : Bool}
    (hcounted : operation.countsWords = true ∨ later = true → counted)
    (hread : (f.misreads operation && later) = false)
    (hstep : f.step params op operation = .ok f') :
    ∃ out, m.step I op operation = some out ∧
      Simulates I params (later = true) f' (Store.run I caught f'.actions s) out := by
  have hrun : Store.run I caught f.actions s = (s, none) := by rw [hactions]; rfl
  by_cases hcounts : operation.countsWords = true
  · obtain ⟨out, hm, hout⟩ := step_simulates h hrun hp (fun _ => hcounted (.inl hcounts))
      (fun _ => f.misreads_of_countsWords hcounts) hstep
    exact ⟨out, hm, hout.weaken fun hlater => hcounted (.inr hlater)⟩
  · have hlater := h.weaken fun hlater : later = true => hcounted (.inr hlater)
    exact step_simulates hlater hrun hp (fun hc => absurd hc hcounts)
      (fun hl => by simpa [hl] using hread) hstep

/-- **A list of instructions.** If the frame describes the machine, with the words of the values if
some instruction counts them, then the machine can run the instructions, and the lowered actions
have the same outcome.

**Proof sketch.** Induction on the instructions. One instruction is one operation
(`step_simulates_counted`). If control stays, the frame describes the machine after it and the
actions of the rest follow; if control leaves, the rest is not run. -/
lemma lowerInstructions_simulates (caught : V) {instructions : List Instruction}
    (h : Describes I params (instructions.any Instruction.countsWords = true) f s m)
    (hactions : f.actions = []) (hp : params.Separate) {lowered : List Lowered}
    (hcounts : miscounts params instructions f = false)
    (hlower : lowerInstructions params instructions f = .ok (f', lowered)) :
    ∃ out, m.run I instructions = some out ∧
      Simulates I params False f' (Store.run I caught (lowered.map (·.action)) s) out := by
  induction instructions generalizing f s m lowered with
  | nil =>
    obtain ⟨rfl, rfl⟩ := Prod.mk.inj (Except.ok.inj hlower)
    exact ⟨_, rfl, (h.weaken False.elim).stays⟩
  | cons ins rest ih =>
    obtain ⟨⟨f₁, here⟩, hfirst, hlower⟩ := bind_eq_ok.mp hlower
    obtain ⟨⟨f₂, later⟩, hlater, heq⟩ := bind_eq_ok.mp hlower
    obtain ⟨rfl, rfl⟩ := Prod.mk.inj (Except.ok.inj heq)
    -- the operation of the first instruction
    cases hoperation : ins.operation with
    | error flaw => simp [lowerInstruction, hoperation, Except.bind] at hfirst
    | ok operation =>
      simp only [miscounts, hoperation, hfirst, Bool.or_eq_false_iff] at hcounts
      cases hstep : f.step params ins.op operation with
      | error flaw => simp [lowerInstruction, hoperation, Except.bind, hstep] at hfirst
      | ok g =>
        simp only [lowerInstruction, hoperation, Except.bind, hstep, Except.ok.injEq,
          Prod.mk.injEq] at hfirst
        obtain ⟨rfl, rfl⟩ := hfirst
        have hcounted : operation.countsWords = true ∨ rest.any Instruction.countsWords = true →
            (ins :: rest).any Instruction.countsWords = true := by
          simp [Instruction.countsWords, hoperation]
        obtain ⟨⟨m₁, d⟩, hm, hout⟩ :=
          step_simulates_counted h hactions hp hcounted hcounts.1 hstep
        rcases hrun₁ : Store.run I caught g.actions s with ⟨s₁, d'⟩
        rw [hrun₁] at hout
        obtain rfl : d' = d := hout.departure
        have hmap : (g.actions.map fun a => (⟨ins.pc, a⟩ : Lowered)).map (·.action) =
            g.actions := by
          simp [Function.comp_def]
        rw [List.map_append, hmap]
        cases d' with
        | none =>
          have hd : Describes I params (rest.any Instruction.countsWords = true)
              { g with actions := [] } s₁ m₁ := (hout.describes rfl).reframe rfl rfl
          obtain ⟨out, hrest, hsim⟩ := ih hd rfl hcounts.2 hlater
          refine ⟨out, by simp [Machine.run, hoperation, hm, hrest], ?_⟩
          rw [Store.run_append hrun₁]
          exact hsim
        | some d =>
          refine ⟨(m₁, some d), by simp [Machine.run, hoperation, hm], ?_⟩
          rw [Store.run_append_of_departure hrun₁]
          exact hout.of_departure (by simp)

/-! ## Blocks -/

/-- Whether some instruction of the block misreads an array element and a later one counts words,
when the block is lowered from a stack of a shape. -/
def BasicBlock.miscounts (params : ParamSlots) (block : BasicBlock) (shape : Shape)
    (scratch : Nat) : Bool :=
  JvmTaint.miscounts params block.instructions { stack := entryStack shape, scratch }

/-- At the entry of a block, the temporaries of the depths hold the operand stack, whose values take
the words that the shape says, and the variables hold the local variables. -/
structure Enters (params : ParamSlots) (shape : Shape) (s : Store V) (m : Machine V) : Prop where
  words : m.stack.reverse.map (·.words) = shape.map fun entry => entry.1.category
  stack : Settled s.env m.stack
  locals : ∀ n, s.env (params.varOf n) = m.locals n
  log : s.log = m.log

/-- The outcomes of the two machines agree: control leaves in the same way and with the same values,
after the same effects, the local variables have the same values, and unless control leaves the
normal flow, the temporaries of the depths hold the operand stack. -/
structure Agrees (params : ParamSlots) (out : Store V × Option (Departure V))
    (out' : Machine V × Option (Departure V)) : Prop where
  departure : out.2 = out'.2
  log : out.1.log = out'.1.log
  locals : ∀ n, out.1.env (params.varOf n) = out'.1.locals n
  settled : (∀ d, out'.2 = some d → d.continues = true) → Settled out.1.env out'.1.stack

/-- The entry frame of a block describes the machine. -/
lemma Enters.describes {shape : Shape} (h : Enters params shape s m) (scratch : Nat) :
    Describes I params counted { stack := entryStack shape, scratch } s m := by
  refine ⟨?_, h.locals, h.log⟩
  rw [← List.forall₂_reverse_iff, List.reverse_reverse, List.forall₂_iff_get]
  have hlength : shape.length = m.stack.length := by
    simpa using (congrArg List.length h.words).symm
  refine ⟨by simpa [entryStack] using hlength, fun i hi hi' => ?_⟩
  have hi₁ : i < shape.length := by simpa [entryStack] using hi
  have hwords : (m.stack.reverse.map (·.words))[i]? =
      (shape.map fun entry => entry.1.category)[i]? := by rw [h.words]
  simp only [List.getElem?_map, List.getElem?_eq_getElem hi', List.getElem?_eq_getElem hi₁,
    Option.map_some, Option.some.injEq] at hwords
  refine ⟨?_, ?_, ?_⟩
  · simpa [entryStack, Value.ofSlot] using h.stack i _ (List.getElem?_eq_getElem hi')
  · intro _
    simpa [entryStack] using hwords.symm
  · simp [entryStack, Value.ofSlot]

/-- What a lowered block consists of: the action that a handler starts with, the actions of its
instructions, and unless its last instruction is a control instruction, the moves that settle the
stack. -/
lemma lowerBlock_cases {handlers : List HandlerEntry} {block : BasicBlock} {shape : Shape}
    {scratch : Nat} {lowered : List Lowered}
    (h : lowerBlock params handlers block shape scratch = .ok (f, lowered)) :
    ∃ f₁ body received,
      lowerInstructions params block.instructions { stack := entryStack shape, scratch } =
        .ok (f₁, body) ∧
      (received = [] ∨ block.catches.isSome = true ∧
        ∃ type caughtType, received = [.receive (.ofSlot 0 type) caughtType]) ∧
      (lowered.map (·.action) = received ++ body.map (·.action) ∧
          (∀ last, block.last? = some last →
            (last.op.endsBlock || last.op.isConditional) = true) ∨
        lowered.map (·.action) =
          received ++ (body.map (·.action) ++ (f₁.normalize []).2.actions)) := by
  obtain ⟨⟨f₁, body⟩, hbody, hrest⟩ := bind_eq_ok.mp h
  refine ⟨f₁, body, block.catches.toList.map fun _ => .receive
    (.ofSlot 0 ((shape.head?.map (·.2)).getD "")) (shownCatchType handlers block.offset),
    hbody, ?_, ?_⟩
  · cases hcatches : block.catches with
    | none => exact .inl rfl
    | some type => exact .inr ⟨rfl, _, _, rfl⟩
  · cases hlast : block.last? with
    | none =>
      simp only [hlast] at hrest
      obtain ⟨-, rfl⟩ := Prod.mk.inj (Except.ok.inj hrest)
      refine .inl ⟨?_, by simp⟩
      cases block.catches <;> simp
    | some last =>
      simp only [hlast] at hrest
      split at hrest
      · next hends =>
        obtain ⟨-, rfl⟩ := Prod.mk.inj (Except.ok.inj hrest)
        refine .inl ⟨?_, by simpa using hends⟩
        cases block.catches <;> simp
      · obtain ⟨-, rfl⟩ := Prod.mk.inj (Except.ok.inj hrest)
        refine .inr ?_
        cases block.catches <;> simp [Function.comp_def]

/-- Receiving the exception that is at the bottom of the stack changes nothing. -/
lemma run_receive (hcaught : s.env (.slot 0) = caught) (type caughtType : String)
    (rest : List (Action Int)) :
    Store.run I caught (.receive (.ofSlot 0 type) caughtType :: rest) s =
      Store.run I caught rest s := by
  have hsame : s.assign (.ofSlot 0 type) caught = s := by
    simp only [Value.ofSlot, Store.assign_var, ← hcaught, Function.update_eq_self]
  simp only [Store.run, Store.exec, hsame]

/-- The outcome of a block without control instruction at its end: the stack is settled if control
passes all of its instructions. -/
lemma Simulates.agrees_normalize (hp : params.Separate) (hactions : f.actions = [])
    {body : List (Action Int)} {out : Machine V × Option (Departure V)}
    (h : Simulates I params counted f (Store.run I caught body s) out) :
    Agrees params (Store.run I caught (body ++ (f.normalize []).2.actions) s) out := by
  rcases hbody : Store.run I caught body s with ⟨s₁, _ | d⟩
  · rw [hbody] at h
    have hd := h.describes h.departure.symm
    have hrun : Store.run I caught f.actions s₁ = (s₁, none) := by rw [hactions]; rfl
    have hkeep : ∀ v ∈ ([] : List Value), v.Below f.scratch := by simp
    obtain ⟨s₂, hrun₂, hd₂, hsettled, -⟩ := hd.normalize hrun hp hkeep
    rw [Store.run_append hbody, hrun₂]
    exact ⟨h.departure, hd₂.log, hd₂.locals, fun _ => hsettled⟩
  · rw [hbody] at h
    rw [Store.run_append_of_departure hbody]
    exact ⟨h.departure, h.log, h.locals, fun hcontinues =>
      h.settled d h.departure.symm (hcontinues d h.departure.symm)⟩

/-- The outcome of a block that control leaves before its end. -/
lemma Simulates.agrees_of_departure {out : Store V × Option (Departure V)}
    {out' : Machine V × Option (Departure V)} (h : Simulates I params counted f out out')
    (hd : out'.2 ≠ none) : Agrees params out out' := by
  obtain ⟨d, hout⟩ := Option.ne_none_iff_exists'.mp hd
  exact ⟨h.departure, h.log, h.locals, fun hcontinues => h.settled d hout (hcontinues d hout)⟩

/-- **Lowering preserves meaning.** A block is lowered, and no instruction that counts words follows
one that misreads an array element. Then, from every operand stack, every assignment of the local
variables and every history of effects, the machine can run the instructions of the block, and the
lowered actions have the same outcome, whatever the effects do.

**Proof sketch.** The entry frame describes the machine (`Enters.describes`), so the lowered
instructions simulate it (`lowerInstructions_simulates`). If the last instruction is a control
instruction, control has left and the stack was settled before; otherwise the moves that are
appended settle it (`Describes.normalize`). -/
theorem lowerBlock_preserves_meaning (I : Interpretation V) (b : MethodBody)
    (d : MethodDescriptor) (handlers : List HandlerEntry) (block : BasicBlock) (shape : Shape)
    (scratch : Nat) (f : Frame) (lowered : List Lowered)
    (hlower : lowerBlock (b.paramSlots d) handlers block shape scratch = .ok (f, lowered))
    (hcounts : block.miscounts (b.paramSlots d) shape scratch = false) (s : Store V) (m : Machine V)
    (hentry : Enters (b.paramSlots d) shape s m) (caught : V)
    (hcaught : block.catches.isSome = true → s.env (.slot 0) = caught) :
    ∃ out, m.run I block.instructions = some out ∧
      Agrees (b.paramSlots d) (Store.run I caught (lowered.map (·.action)) s) out := by
  have hp := b.paramSlots_separate d
  obtain ⟨f₁, body, received, hbody, hreceived, hrest⟩ := lowerBlock_cases hlower
  obtain ⟨out, hm, hout⟩ :=
    lowerInstructions_simulates caught (hentry.describes scratch) rfl hp hcounts hbody
  refine ⟨out, hm, ?_⟩
  -- the exception that a handler receives is in its place already
  have hrun : ∀ rest, Store.run I caught (received ++ rest) s = Store.run I caught rest s := by
    intro rest
    rcases hreceived with rfl | ⟨hcatches, type, caughtType, rfl⟩
    · rfl
    · exact run_receive (hcaught hcatches) type caughtType rest
  rcases hrest with ⟨hactions, hends⟩ | hactions
  · rw [hactions, hrun]
    cases hlast : block.last? with
    | none =>
      have hempty : block.instructions = [] := List.getLast?_eq_none_iff.mp hlast
      rw [hempty] at hm hbody
      obtain rfl := Option.some.inj hm
      obtain ⟨rfl, rfl⟩ := Prod.mk.inj (Except.ok.inj hbody)
      exact ⟨rfl, hentry.log, hentry.locals, fun _ => hentry.stack⟩
    | some last =>
      refine hout.agrees_of_departure fun hnone => ?_
      obtain ⟨m', d'⟩ := out
      obtain rfl : d' = none := hnone
      have hnot := Machine.not_endsBlock_of_run hlast hm
      rw [hends last hlast] at hnot
      simp at hnot
  · rw [hactions, hrun]
    exact hout.agrees_normalize hp (actions_of_lowerInstructions rfl hbody)

/-! ## Examples -/

/-- A static method with code. -/
def staticMethod (descriptor : String) (code : List Instruction) : MethodBody where
  ref := ⟨"A", "f", descriptor⟩
  modifiers := AccessFlags.empty.insert .static
  maxLocals := 3
  code := code
  handlers := []
  resources := []

/-- Constants are zero, and the result of an effect is the number of effects up to it. -/
def countEffects : Interpretation Nat where
  constant _ _ := 0
  respond log _ := some (log.length + 1)

/-- A handler that stores the exception, asks it for its message and goes on with the exception, its
copy and the message: `dup`, `astore 1`, `aload 1`, `invokevirtual`, `aload 1`, `swap`, `goto`. -/
def messageHandler : BasicBlock where
  start := 4
  instructions := [
    { pc := 10, op := ⟨89⟩ },
    { pc := 11, op := ⟨58⟩, slot := 1 },
    { pc := 12, op := ⟨25⟩, slot := 1 },
    { pc := 13, op := ⟨182⟩, owner := "java/lang/Throwable", name := "getMessage",
      desc := "()Ljava/lang/String;" },
    { pc := 16, op := ⟨25⟩, slot := 1 },
    { pc := 17, op := ⟨95⟩ },
    { pc := 18, op := ⟨167⟩, target := 30 }]
  catches := some "java/lang/Throwable"

/-- What the handler is lowered to: seven statements. -/
def messageHandlerLowered : { p : Frame × List Lowered //
    lowerBlock ((staticMethod "()V" []).paramSlots ⟨[], none⟩) [] messageHandler
      [(.reference, "Ljava/lang/Throwable;")] 0 = .ok p ∧ p.2.length = 7 } :=
  resultOf (by decide +kernel)

/-- The handler starts with an exception, and its outcome is that of the machine: control goes on
with the exception, its copy and the message in the temporaries of their depths. -/
theorem messageHandler_preserves_meaning :
    ∃ f lowered out,
      lowerBlock ((staticMethod "()V" []).paramSlots ⟨[], none⟩) [] messageHandler
        [(.reference, "Ljava/lang/Throwable;")] 0 = .ok (f, lowered) ∧
      Machine.run countEffects messageHandler.instructions ⟨[⟨7, 1⟩], fun _ => 0, []⟩ = some out ∧
      Agrees ((staticMethod "()V" []).paramSlots ⟨[], none⟩)
        (Store.run countEffects 7 (lowered.map (·.action))
          ⟨fun v => if v = .slot 0 then 7 else 0, []⟩) out := by
  obtain ⟨⟨f, lowered⟩, hlower, -⟩ := messageHandlerLowered
  have hcounts : messageHandler.miscounts ((staticMethod "()V" []).paramSlots ⟨[], none⟩)
      [(.reference, "Ljava/lang/Throwable;")] 0 = false := by decide +kernel
  have hentry : Enters ((staticMethod "()V" []).paramSlots ⟨[], none⟩)
      [(.reference, "Ljava/lang/Throwable;")] ⟨fun v => if v = .slot 0 then 7 else 0, []⟩
      (⟨[⟨7, 1⟩], fun _ => 0, []⟩ : Machine Nat) := by
    refine ⟨rfl, fun i cell hcell => ?_, fun n => rfl, rfl⟩
    cases i with
    | zero =>
      obtain rfl := Option.some.inj hcell
      rfl
    | succ i => simp at hcell
  obtain ⟨out, hout⟩ := lowerBlock_preserves_meaning countEffects _ _ _ _ _ _ _ _ hlower hcounts _ _
    hentry 7 fun _ => rfl
  exact ⟨f, lowered, out, hlower, hout⟩

/-- A block that reads two references from the array in local variable `0`, drops them with one
`pop2` and returns the int below them: `iload 2`, `aload 0`, `iconst_0`, `aaload`, `aload 0`,
`iconst_0`, `aaload`, `pop2`, `ireturn`. -/
def rereading : BasicBlock where
  start := 3
  instructions := [
    { pc := 5, op := ⟨21⟩, slot := 2 },
    { pc := 6, op := ⟨25⟩, slot := 0 },
    { pc := 7, op := ⟨3⟩ },
    { pc := 8, op := ⟨50⟩ },
    { pc := 9, op := ⟨25⟩, slot := 0 },
    { pc := 10, op := ⟨3⟩ },
    { pc := 11, op := ⟨50⟩ },
    { pc := 12, op := ⟨88⟩ },
    { pc := 13, op := ⟨172⟩ }]
  catches := none

/-- A block that stores local variable `1` to local variable `0` and jumps to the other block:
`aload 1`, `astore 0`, `goto`. -/
def restoring : BasicBlock where
  start := 0
  instructions := [
    { pc := 0, op := ⟨25⟩, slot := 1 },
    { pc := 1, op := ⟨58⟩, slot := 0 },
    { pc := 2, op := ⟨167⟩, target := 5 }]
  catches := none

/-- A method that stores its array of strings over its array of longs, and reads the strings in
another block. -/
def reusedParameter : MethodBody :=
  staticMethod "([J[Ljava/lang/String;I)I" (restoring.instructions ++ rereading.instructions)

/-- The parameters and the result of the method. -/
def reusedDescriptor : MethodDescriptor :=
  ⟨[.array .long, .array (.object "java/lang/String"), .int], some .int⟩

/-- A store in which the int is five. -/
def fiveStore : Store Nat := ⟨fun v => if v = .arg 2 then 5 else 0, []⟩

/-- The machine of that store, with an empty stack. -/
def fiveMachine : Machine Nat :=
  ⟨[], fun n => fiveStore.env ((reusedParameter.paramSlots reusedDescriptor).varOf n), []⟩

/-- **A block whose meaning is not preserved.** The machine returns the int, and the lowered actions
return the first of the two references. -/
theorem reusedParameter_changes_meaning :
    reusedParameter.blocks = [restoring, rereading] ∧
    findShapes (reusedParameter.paramSlots reusedDescriptor) [] reusedParameter.blocks =
      .ok #[some [], some []] ∧
    rereading.miscounts (reusedParameter.paramSlots reusedDescriptor) [] 0 = true ∧
    ∃ f lowered,
      lowerBlock (reusedParameter.paramSlots reusedDescriptor) [] rereading [] 0 =
        .ok (f, lowered) ∧
      Enters (reusedParameter.paramSlots reusedDescriptor) [] fiveStore fiveMachine ∧
      ¬ ∃ out, fiveMachine.run countEffects rereading.instructions = some out ∧
        Agrees (reusedParameter.paramSlots reusedDescriptor)
          (Store.run countEffects 0 (lowered.map (·.action)) fiveStore) out := by
  have hblocks : reusedParameter.blocks = [restoring, rereading] := by cbv
  have hshapes : findShapes (reusedParameter.paramSlots reusedDescriptor) []
      [restoring, rereading] = .ok #[some [], some []] := by decide +kernel
  have hmiscount :
      rereading.miscounts (reusedParameter.paramSlots reusedDescriptor) [] 0 = true := by decide +kernel
  have hlowered : (lowerBlock (reusedParameter.paramSlots reusedDescriptor) [] rereading []
      0).toOption.map (fun p => (Store.run countEffects 0 (p.2.map (·.action)) fiveStore).2) =
        some (some (.ret (some 1))) := by decide +kernel
  have hmachine : (fiveMachine.run countEffects rereading.instructions).map (·.2) =
      some (some (.ret (some 5))) := by decide +kernel
  refine ⟨hblocks, hblocks ▸ hshapes, hmiscount, ?_⟩
  cases hlower : lowerBlock (reusedParameter.paramSlots reusedDescriptor) [] rereading [] 0 with
  | error flaw => simp [hlower, Except.toOption] at hlowered
  | ok p =>
    obtain ⟨f, lowered⟩ := p
    refine ⟨f, lowered, rfl, ⟨rfl, by simp [Settled, fiveMachine], fun n => rfl, rfl⟩, ?_⟩
    rintro ⟨out, hrun, hagrees⟩
    have hreturned := hagrees.departure
    simp_all [Except.toOption]

end JvmTaint
