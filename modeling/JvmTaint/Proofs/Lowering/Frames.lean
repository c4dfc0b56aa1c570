import JvmTaint.Lowering.Build
import JvmTaint.Proofs.Lowering.Machines
import Mathlib.Data.List.Forall2

set_option autoImplicit false
set_option relaxedAutoImplicit false

/-!
# Frames describe the operand stack

A frame of the lowering names, for every slot of the operand stack, the variable or constant that
holds its content. This module says what that means for a store and an operand-stack machine, and
that popping, protecting a variable and pushing a result keep it true.

## Main definitions

* `JvmTaint.ParamSlots.varOf`, `JvmTaint.ParamSlots.Separate`: the variables of the local variables.
* `JvmTaint.Slot.Holds`, `JvmTaint.Describes`: the frame and the store describe the machine.
* `JvmTaint.Saves`: the actions so far have only written to fresh scratch temporaries.
* `JvmTaint.Settled`, `JvmTaint.Simulates`: the outcomes of the two machines agree.

## Main results

* `JvmTaint.MethodBody.paramSlots_separate`: local variables have variables of their own.
* `JvmTaint.Describes.protect`: a protected variable can be overwritten.
* `JvmTaint.Describes.perform_push`: an effect whose result is pushed.
* `JvmTaint.Describes.popWords`: frame and machine count the same words.

## Design

The actions of a frame only grow. All statements are about the store `s` that the actions of the
frame lead to from one fixed store `s₀`, so that a step of the lowering is followed by running the
actions that it appended.
-/

namespace JvmTaint

variable {V : Type}

/-! ## Variables -/

/-- The variable is no scratch temporary from the `n`-th on. -/
def Var.Below (n : Nat) : Var → Prop
  | .scratch k => k < n
  | _ => True

/-- The value is no scratch temporary from the `n`-th on. -/
def Value.Below (n : Nat) (value : Value) : Prop := ∀ v, value.var? = some v → v.Below n

@[simp] lemma Var.scratch_below_iff {n k : Nat} : (Var.scratch k).Below n ↔ k < n := Iff.rfl

@[simp] lemma Var.slot_below (n d : Nat) : (Var.slot d).Below n := trivial

lemma Var.Below.mono {n n' : Nat} {v : Var} (h : v.Below n) (hn : n ≤ n') : v.Below n' := by
  cases v <;> simp only [Var.Below] at h ⊢
  omega

lemma Value.Below.mono {n n' : Nat} {value : Value} (h : value.Below n) (hn : n ≤ n') :
    value.Below n' :=
  fun v hv => (h v hv).mono hn

lemma Var.below_of_not_temp {v : Var} (h : v.isTemp = false) (n : Nat) : v.Below n := by
  cases v <;> simp_all [Var.isTemp, Var.Below]

@[simp] lemma Value.var_below_iff {n : Nat} {v : Var} {type : String} :
    (Value.var v type).Below n ↔ v.Below n := by
  simp [Value.Below, Value.var?]

@[simp] lemma Value.const_below {n : Nat} {literal type : String} :
    (Value.const literal type).Below n := by
  simp [Value.Below, Value.var?]

@[simp] lemma Value.var_isVar_iff {v x : Var} {type : String} :
    (Value.var v type).isVar x = true ↔ v = x := by
  simp [Value.isVar, Value.var?]

@[simp] lemma Value.const_isVar {x : Var} {literal type : String} :
    (Value.const literal type).isVar x = false := by
  simp [Value.isVar, Value.var?]

namespace Interpretation

variable (I : Interpretation V)

@[simp] lemma eval_var (env : Var → V) (v : Var) (type : String) :
    I.eval env (.var v type) = env v := rfl

@[simp] lemma eval_const (env : Var → V) (literal type : String) :
    I.eval env (.const literal type) = I.constant literal type := rfl

/-- A value that is the variable `v` evaluates to it. -/
lemma eval_of_isVar {env : Var → V} {value : Value} {v : Var} (h : value.isVar v = true) :
    I.eval env value = env v := by
  cases value with
  | var x type => rw [Value.var_isVar_iff.mp h, eval_var]
  | const literal type => simp at h

/-- A value that is not the variable `v` does not change with it. -/
lemma eval_update_of_not_isVar {env : Var → V} {value : Value} {v : Var} {x : V}
    (h : value.isVar v = false) : I.eval (Function.update env v x) value = I.eval env value := by
  cases value with
  | var y type =>
    have hne : y ≠ v := fun heq => by simp [Value.isVar, Value.var?, heq] at h
    simp [Function.update_of_ne hne]
  | const literal type => rfl

/-- A value below `n` evaluates the same in assignments that agree below `n`. -/
lemma eval_eq_of_below {n : Nat} {env env' : Var → V} {value : Value}
    (henv : ∀ v : Var, v.Below n → env' v = env v) (h : value.Below n) :
    I.eval env' value = I.eval env value := by
  cases value with
  | var v type => exact henv v (Value.var_below_iff.mp h)
  | const literal type => rfl

end Interpretation

namespace ParamSlots

/-- The variable of the local variable with a number. -/
def varOf (params : ParamSlots) (n : Int) : Var :=
  match params.lookup n with
  | some (.var v _) => v
  | _ => .loc n

/-- Every local variable has a variable of its own, which is no temporary. -/
structure Separate (params : ParamSlots) : Prop where
  variable_eq : ∀ n type, ∃ type', params.variable n type = .var (params.varOf n) type'
  injective : Function.Injective params.varOf
  not_temp : ∀ n, (params.varOf n).isTemp = false

/-- Parameters that are kept in variables of their own, none of them an ordinary local variable, are
separate from each other and from the other local variables. -/
lemma separate_of_lookup {params : ParamSlots}
    (hvar : ∀ n value, params.lookup n = some value →
      ∃ v type, value = .var v type ∧ v.isTemp = false ∧ ∀ k, v ≠ .loc k)
    (hinj : ∀ m n v type type', params.lookup m = some (.var v type) →
      params.lookup n = some (.var v type') → m = n) : params.Separate := by
  refine ⟨fun n type => ?_, fun m n hmn => ?_, fun n => ?_⟩
  · cases hl : params.lookup n with
    | none => exact ⟨type, by simp [ParamSlots.variable, varOf, hl]⟩
    | some value =>
      obtain ⟨v, declared, rfl, -, -⟩ := hvar n value hl
      exact ⟨if type = "" then declared else type, by simp only [ParamSlots.variable, varOf, hl]⟩
  · cases hm : params.lookup m with
    | none =>
      cases hn : params.lookup n with
      | none => simpa [varOf, hm, hn] using hmn
      | some value =>
        obtain ⟨v, type, rfl, -, hloc⟩ := hvar n value hn
        exact absurd (by simpa [varOf, hm, hn] using hmn.symm) (hloc m)
    | some value =>
      obtain ⟨v, type, rfl, -, hloc⟩ := hvar m value hm
      cases hn : params.lookup n with
      | none => exact absurd (by simpa [varOf, hm, hn] using hmn) (hloc n)
      | some value' =>
        obtain ⟨v', type', rfl, -, -⟩ := hvar n value' hn
        obtain rfl : v = v' := by simpa [varOf, hm, hn] using hmn
        exact hinj m n v type type' hm hn
  · cases hl : params.lookup n with
    | none => simp [varOf, hl, Var.isTemp]
    | some value =>
      obtain ⟨v, type, rfl, htemp, -⟩ := hvar n value hl
      simpa [varOf, hl] using htemp

end ParamSlots

/-- The variables of parameters are the arguments from the `i`-th on, by increasing number. -/
lemma lookup_paramSlotsFrom {i : Nat} {slot n : Int} {types : List FieldType} {value : Value}
    (h : (paramSlotsFrom i slot types).lookup n = some value) :
    slot ≤ n ∧ ∃ j type, value = .var (.arg j) type ∧ i ≤ j := by
  induction types generalizing i slot with
  | nil => simp [paramSlotsFrom] at h
  | cons t types ih =>
    rw [paramSlotsFrom, List.lookup_cons] at h
    split at h
    · next heq =>
      obtain rfl : n = slot := by simpa using heq
      exact ⟨by omega, i, t.render, by simpa using h.symm, by omega⟩
    · obtain ⟨hn, j, type, rfl, hj⟩ := ih h
      exact ⟨by omega, j, type, rfl, by omega⟩

/-- Parameters of different numbers are different arguments. -/
lemma lookup_paramSlotsFrom_injective {i j : Nat} {slot m n : Int} {types : List FieldType}
    {type type' : String} (hm : (paramSlotsFrom i slot types).lookup m = some (.var (.arg j) type))
    (hn : (paramSlotsFrom i slot types).lookup n = some (.var (.arg j) type')) : m = n := by
  induction types generalizing i slot with
  | nil => simp [paramSlotsFrom] at hm
  | cons t types ih =>
    rw [paramSlotsFrom, List.lookup_cons] at hm hn
    -- the first parameter is argument `i`, the later ones are arguments from `i + 1` on
    split at hm <;> split at hn
    · next _ heq _ heq' =>
      rw [beq_iff_eq] at heq heq'
      rw [heq, heq']
    · obtain ⟨-, j', type'', heq, hj⟩ := lookup_paramSlotsFrom hn
      simp only [Option.some.injEq, Value.var.injEq, Var.arg.injEq] at hm heq
      omega
    · obtain ⟨-, j', type'', heq, hj⟩ := lookup_paramSlotsFrom hm
      simp only [Option.some.injEq, Value.var.injEq, Var.arg.injEq] at hn heq
      omega
    · exact ih hm hn

/-- The receiver, the parameters and the other local variables of a method are separate. -/
lemma MethodBody.paramSlots_separate (b : MethodBody) (d : MethodDescriptor) :
    (b.paramSlots d).Separate := by
  unfold MethodBody.paramSlots
  split
  · refine ParamSlots.separate_of_lookup (fun n value h => ?_) (fun m n v type type' hm hn => ?_)
    · obtain ⟨-, j, type, rfl, -⟩ := lookup_paramSlotsFrom h
      exact ⟨_, _, rfl, rfl, by simp⟩
    · obtain ⟨-, j, type, heq, -⟩ := lookup_paramSlotsFrom hm
      obtain ⟨rfl, rfl⟩ := Value.var.inj heq
      exact lookup_paramSlotsFrom_injective hm hn
  · refine ParamSlots.separate_of_lookup (fun n value h => ?_) (fun m n v type type' hm hn => ?_)
    · rw [List.lookup_cons] at h
      split at h
      · exact ⟨_, _, (Option.some.inj h).symm, rfl, by simp⟩
      · obtain ⟨-, j, type, rfl, -⟩ := lookup_paramSlotsFrom h
        exact ⟨_, _, rfl, rfl, by simp⟩
    · rw [List.lookup_cons] at hm hn
      split at hm <;> split at hn
      · next _ heq _ heq' =>
        rw [beq_iff_eq] at heq heq'
        rw [heq, heq']
      · obtain ⟨-, j, type'', heq, -⟩ := lookup_paramSlotsFrom hn
        simp_all
      · obtain ⟨-, j, type'', heq, -⟩ := lookup_paramSlotsFrom hm
        simp_all
      · obtain ⟨-, j, type'', heq, -⟩ := lookup_paramSlotsFrom hm
        obtain ⟨rfl, rfl⟩ := Value.var.inj heq
        exact lookup_paramSlotsFrom_injective hm hn

/-- A computation gives a result if and only if its parts do. -/
lemma bind_eq_ok {ε α β : Type} {x : Except ε α} {k : α → Except ε β} {b : β} :
    x >>= k = .ok b ↔ ∃ a, x = .ok a ∧ k a = .ok b := by
  cases x <;> simp [bind, Except.bind]

/-! ## The description -/

/-- A slot holds the value of a cell. It takes as many words if `counted` holds. -/
structure Slot.Holds (I : Interpretation V) (counted : Prop) (env : Var → V) (scratch : Nat)
    (slot : Slot) (cell : Cell V) : Prop where
  value : I.eval env slot.value = cell.value
  words : counted → slot.kind.category = cell.words
  below : slot.value.Below scratch

/-- The frame and the store describe the machine: the slots hold the operand stack and the variables
hold the local variables, after the same effects. -/
structure Describes (I : Interpretation V) (params : ParamSlots) (counted : Prop) (f : Frame)
    (s : Store V) (m : Machine V) : Prop where
  stack : List.Forall₂ (Slot.Holds I counted s.env f.scratch) f.stack.reverse m.stack
  locals : ∀ n, s.env (params.varOf n) = m.locals n
  log : s.log = m.log

/-- The temporaries of the depths hold a stack, which is given from the top to the bottom. -/
def Settled (env : Var → V) (stack : List (Cell V)) : Prop :=
  ∀ i cell, stack.reverse[i]? = some cell → env (.slot i) = cell.value

/-- From the store `s` of the frame `f`, the actions that were appended up to `f'` lead to `s'` and
have only written to scratch temporaries that were fresh in `f`. -/
structure Saves (I : Interpretation V) (caught : V) (s₀ : Store V) (f : Frame) (s : Store V)
    (f' : Frame) (s' : Store V) : Prop where
  scratch : f.scratch ≤ f'.scratch
  run : Store.run I caught f'.actions s₀ = (s', none)
  env : ∀ v : Var, v.Below f.scratch → s'.env v = s.env v
  log : s'.log = s.log

/-- The outcomes of the two machines agree: control leaves in the same way, after the same effects
and with the same local variables. While it stays in the block, the frame describes the stack, and
when it goes on to another block, the stack is settled. -/
structure Simulates (I : Interpretation V) (params : ParamSlots) (counted : Prop) (f : Frame)
    (out : Store V × Option (Departure V)) (out' : Machine V × Option (Departure V)) : Prop where
  departure : out.2 = out'.2
  log : out.1.log = out'.1.log
  locals : ∀ n, out.1.env (params.varOf n) = out'.1.locals n
  describes : out'.2 = none → Describes I params counted f out.1 out'.1
  settled : ∀ d, out'.2 = some d → d.continues = true → Settled out.1.env out'.1.stack

variable {I : Interpretation V} {params : ParamSlots} {counted counted' : Prop} {caught : V}
  {s₀ s s' s'' : Store V} {f f' f'' : Frame} {m : Machine V}

lemma Saves.refl (hrun : Store.run I caught f.actions s₀ = (s, none)) :
    Saves I caught s₀ f s f s :=
  ⟨Nat.le_refl _, hrun, fun _ _ => rfl, rfl⟩

lemma Saves.trans (h : Saves I caught s₀ f s f' s') (h' : Saves I caught s₀ f' s' f'' s'') :
    Saves I caught s₀ f s f'' s'' where
  scratch := Nat.le_trans h.scratch h'.scratch
  run := h'.run
  env v hv := (h'.env v (hv.mono h.scratch)).trans (h.env v hv)
  log := h'.log.trans h.log

/-- Saving does not change what the values in use evaluate to. -/
lemma Saves.eval_eq (h : Saves I caught s₀ f s f' s') {value : Value}
    (hvalue : value.Below f.scratch) : I.eval s'.env value = I.eval s.env value :=
  I.eval_eq_of_below h.env hvalue

lemma Saves.map_eval_eq (h : Saves I caught s₀ f s f' s') {values : List Value}
    (hvalues : ∀ v ∈ values, v.Below f.scratch) :
    values.map (I.eval s'.env) = values.map (I.eval s.env) :=
  List.map_congr_left fun v hv => h.eval_eq (hvalues v hv)

lemma Saves.locals (h : Saves I caught s₀ f s f' s') (hp : params.Separate) (n : Int) :
    s'.env (params.varOf n) = s.env (params.varOf n) :=
  h.env _ (Var.below_of_not_temp (hp.not_temp n) _)

/-- A fresh scratch temporary takes the value of an operand. -/
lemma saves_fresh (hrun : Store.run I caught f.actions s₀ = (s, none)) (value : Value)
    (type type' : String) :
    Saves I caught s₀ f s
      ((f.fresh type).2.emit (.assign (f.fresh type).1 ⟨.copy value, type'⟩))
      { s with env := Function.update s.env (.scratch f.scratch) (I.eval s.env value) } where
  scratch := Nat.le_succ _
  run := Store.run_concat hrun _
  env v hv := by
    refine Function.update_of_ne (fun heq => ?_) _ _
    simp [heq] at hv
  log := rfl

lemma Slot.Holds.saves {slot : Slot} {cell : Cell V}
    (hc : slot.Holds I counted s.env f.scratch cell) (h : Saves I caught s₀ f s f' s') :
    slot.Holds I counted s'.env f'.scratch cell :=
  ⟨(h.eval_eq hc.below).trans hc.value, hc.words, hc.below.mono h.scratch⟩

/-- A write to a variable that no slot holds leaves what the slots hold. -/
lemma holds_update {stack : List Slot} {cells : List (Cell V)} {env : Var → V} {n : Nat} {v : Var}
    (x : V) (h : List.Forall₂ (Slot.Holds I counted env n) stack.reverse cells)
    (hv : ∀ slot ∈ stack, slot.value.isVar v = false) :
    List.Forall₂ (Slot.Holds I counted (Function.update env v x) n) stack.reverse cells := by
  have hmem : ∀ slot ∈ stack.reverse, slot.value.isVar v = false :=
    fun slot hs => hv slot (List.mem_reverse.mp hs)
  refine ((List.forall₂_and_left _ _).mpr ⟨hmem, h⟩).imp fun slot cell hc => ?_
  exact ⟨(I.eval_update_of_not_isVar hc.1).trans hc.2.value, hc.2.words, hc.2.below⟩

/-! ## Protecting a variable -/

/-- **A protected variable can be overwritten.** Its value is kept in a scratch temporary for the
slots that hold it, and the frame still describes the machine.

**Proof sketch.** If no slot holds the variable, nothing happens. Otherwise the one action that is
appended writes to a fresh scratch temporary, so all slots still hold their cells
(`saves_fresh`), and the slots of the variable hold the scratch temporary, which has its value. -/
lemma Describes.protect (h : Describes I params counted f s m)
    (hrun : Store.run I caught f.actions s₀ = (s, none)) (hp : params.Separate) {v : Var}
    (hv : v.Below f.scratch) (type : String) :
    ∃ s', Saves I caught s₀ f s (f.protect (.var v type)) s' ∧
      Describes I params counted (f.protect (.var v type)) s' m ∧
      ∀ slot ∈ (f.protect (.var v type)).stack, slot.value.isVar v = false := by
  unfold Frame.protect
  simp only [Value.var?]
  split
  · next hnone =>
    refine ⟨s, .refl hrun, h, fun slot hs => ?_⟩
    simpa using List.find?_eq_none.mp hnone slot hs
  · next first hfirst =>
    have hsaves := saves_fresh hrun (.var v type) first.type type
    refine ⟨_, ⟨hsaves.scratch, hsaves.run, hsaves.env, hsaves.log⟩, ⟨?_, ?_, h.log⟩, ?_⟩
    · simp only [Frame.emit, Frame.fresh, ← List.map_reverse, List.forall₂_map_left_iff]
      refine h.stack.imp fun slot cell hc => ?_
      have hc' := hc.saves hsaves
      split
      · next hslot =>
        refine ⟨?_, hc.words, by simp⟩
        simp only [Interpretation.eval_var, Function.update_self]
        rw [← hc.value, I.eval_of_isVar hslot]
      · exact hc'
    · exact fun n => (hsaves.locals hp n).trans (h.locals n)
    · simp only [Frame.emit, Frame.fresh, List.mem_map]
      rintro slot ⟨slot', -, rfl⟩
      split
      · -- the scratch temporary is not the variable, which was in use before
        by_contra hslot
        rw [Bool.not_eq_false, Value.var_isVar_iff] at hslot
        simp [← hslot] at hv
      · next hslot => simpa using hslot

/-! ## Popping -/

/-- The frame and the machine pop a slot and a cell that it holds. -/
lemma Describes.pop (h : Describes I params counted f s m) {slot : Slot}
    (hpop : f.pop = .ok (slot, f')) :
    ∃ cell m', m.pop = some (cell, m') ∧ slot.Holds I counted s.env f.scratch cell ∧
      Describes I params counted f' s m' ∧ f' = { f with stack := f.stack.dropLast } ∧
      f.stack.getLast? = some slot := by
  unfold Frame.pop at hpop
  split at hpop
  · simp at hpop
  · next top htop =>
    simp only [Except.ok.injEq, Prod.mk.injEq] at hpop
    obtain ⟨rfl, rfl⟩ := hpop
    obtain ⟨below, hstack⟩ := List.getLast?_eq_some_iff.mp htop
    have hrel := h.stack
    rw [hstack, List.reverse_concat] at hrel
    cases hm : m.stack with
    | nil =>
      rw [hm] at hrel
      cases hrel
    | cons cell rest =>
      rw [hm] at hrel
      obtain ⟨hcell, hrest⟩ := List.forall₂_cons.mp hrel
      refine ⟨cell, { m with stack := rest }, by rw [Machine.pop, hm], hcell,
        ⟨?_, h.locals, h.log⟩, rfl, htop⟩
      simpa [hstack] using hrest

/-- The frame and the machine pop `n` slots and the cells that they hold. -/
lemma Describes.popN (h : Describes I params counted f s m) {n : Nat} {slots : List Slot}
    (hpop : f.popN n = .ok (slots, f')) :
    ∃ cells m', m.popN n = some (cells, m') ∧
      List.Forall₂ (Slot.Holds I counted s.env f.scratch) slots cells ∧
      Describes I params counted f' s m' ∧
      f' = { f with stack := f.stack.take (f.stack.length - n) } := by
  have hlength : f.stack.length = m.stack.length := by
    simpa using h.stack.length_eq
  unfold Frame.popN at hpop
  split at hpop
  · simp at hpop
  · next hn =>
    simp only [Except.ok.injEq, Prod.mk.injEq] at hpop
    obtain ⟨rfl, rfl⟩ := hpop
    refine ⟨(m.stack.take n).reverse, { m with stack := m.stack.drop n },
      by rw [Machine.popN, if_neg (hlength ▸ hn)], ?_, ⟨?_, h.locals, h.log⟩, rfl⟩
    · rw [← List.forall₂_reverse_iff, List.reverse_reverse, ← List.take_reverse]
      exact List.forall₂_take n h.stack
    · simp only [← List.drop_reverse]
      exact List.forall₂_drop n h.stack

/-- The values of slots and cells are the same. -/
lemma map_eval_of_holds {slots : List Slot} {cells : List (Cell V)} {env : Var → V} {n : Nat}
    (h : List.Forall₂ (Slot.Holds I counted env n) slots cells) :
    (slots.map (·.value)).map (I.eval env) = cells.map (·.value) := by
  induction h with
  | nil => rfl
  | cons hc _ ih => simp only [List.map_cons, hc.value, ih]

lemma below_of_holds {slots : List Slot} {cells : List (Cell V)} {env : Var → V} {n : Nat}
    (h : List.Forall₂ (Slot.Holds I counted env n) slots cells) :
    ∀ v ∈ slots.map (·.value), v.Below n := by
  induction h with
  | nil => simp
  | cons hc _ ih => simpa using ⟨hc.below, by simpa using ih⟩

/-- **Frame and machine count the same words.** If slots are as wide as the cells that they are
related to, the same number of words makes up related slots and cells. -/
lemma takeWords_of_popWords {R : Slot → Cell V → Prop}
    (hR : ∀ slot cell, R slot cell → slot.kind.category = cell.words) {op : Opcode} {n : Nat}
    {stack taken rest : List Slot} {cells : List (Cell V)}
    (hpop : Frame.popWords op n stack = .ok (taken, rest))
    (h : List.Forall₂ R stack.reverse cells) :
    ∃ taken' rest', Machine.takeWords n cells = some (taken', rest') ∧
      List.Forall₂ R taken.reverse taken' ∧ List.Forall₂ R rest.reverse rest' := by
  induction n using Nat.strongRecOn generalizing stack taken rest cells with
  | _ n ih =>
    match n with
    | 0 =>
      simp only [Frame.popWords, Except.ok.injEq, Prod.mk.injEq] at hpop
      obtain ⟨rfl, rfl⟩ := hpop
      exact ⟨[], cells, by simp [Machine.takeWords], .nil, h⟩
    | n + 1 =>
      rw [Frame.popWords] at hpop
      split at hpop
      · simp at hpop
      · next top htop =>
        obtain ⟨below, rfl⟩ := List.getLast?_eq_some_iff.mp htop
        rw [List.reverse_concat] at h
        obtain ⟨cell, cells', hcell, hbelow, rfl⟩ := List.forall₂_cons_left_iff.mp h
        have hwords := hR _ _ hcell
        have hpos : 1 ≤ top.kind.category := by
          unfold Kind.category
          split <;> omega
        split at hpop
        · simp at hpop
        · next hle =>
          obtain ⟨⟨taken₁, rest₁⟩, hrec, hrest⟩ := bind_eq_ok.mp hpop
          simp only [pure, Except.pure, Except.ok.injEq, Prod.mk.injEq] at hrest
          obtain ⟨rfl, rfl⟩ := hrest
          rw [List.dropLast_concat] at hrec
          obtain ⟨taken', rest', htake, htaken, hrest'⟩ := ih _ (by omega) hrec hbelow
          refine ⟨cell :: taken', rest', ?_, ?_, hrest'⟩
          · rw [hwords] at hle htake
            simp [Machine.takeWords, if_neg hle, htake]
          · rw [List.reverse_concat]
            exact .cons hcell htaken

/-! ## Pushing and performing effects -/

lemma Describes.push (h : Describes I params counted f s m) {kind : Kind} {type : String}
    {value : Value} {words : Nat} {x : V} (hvalue : I.eval s.env value = x)
    (hwords : counted → kind.category = words) (hbelow : value.Below f.scratch) :
    Describes I params counted (f.push kind type value) s (m.push words x) := by
  refine ⟨?_, h.locals, h.log⟩
  simp only [Frame.push, Machine.push, List.reverse_concat]
  exact .cons ⟨hvalue, hwords, hbelow⟩ h.stack

/-- The description depends on the slots and the scratch temporaries of the frame only. -/
lemma Describes.reframe (h : Describes I params counted f s m) (hstack : f'.stack = f.stack)
    (hscratch : f'.scratch = f.scratch) : Describes I params counted f' s m := by
  refine ⟨?_, h.locals, h.log⟩
  rw [hstack, hscratch]
  exact h.stack

/-- The words of the slots may matter less. -/
lemma Describes.weaken (h : Describes I params counted f s m) (hcounted : counted' → counted) :
    Describes I params counted' f s m :=
  ⟨h.stack.imp fun _ _ hc => ⟨hc.value, fun hw => hc.words (hcounted hw), hc.below⟩, h.locals,
    h.log⟩

lemma Simulates.weaken {out : Store V × Option (Departure V)}
    {out' : Machine V × Option (Departure V)} (h : Simulates I params counted f out out')
    (hcounted : counted' → counted) : Simulates I params counted' f out out' :=
  ⟨h.departure, h.log, h.locals, fun hnone => (h.describes hnone).weaken hcounted, h.settled⟩

/-- The same effect was performed on both sides. -/
lemma Describes.logged (h : Describes I params counted f s m) (e : Effect V) :
    Describes I params counted f { s with log := s.log ++ [e] } { m with log := m.log ++ [e] } :=
  ⟨h.stack, h.locals, by simp only [h.log]⟩

/-- A variable of the store that no slot holds is overwritten together with the local variables that
are kept in it. -/
lemma Describes.update (h : Describes I params counted f s m) {v : Var} {x : V} {locals : Int → V}
    (hv : ∀ slot ∈ f.stack, slot.value.isVar v = false)
    (hlocals : ∀ n, Function.update s.env v x (params.varOf n) = locals n) :
    Describes I params counted f { s with env := Function.update s.env v x } { m with locals } :=
  ⟨holds_update x h.stack hv, hlocals, h.log⟩

/-- Control stays in the block. -/
lemma Describes.stays (h : Describes I params counted f s m) :
    Simulates I params counted f (s, none) (m, none) :=
  ⟨rfl, h.log, h.locals, fun _ => h, by simp⟩

/-- Control leaves the block. -/
lemma Describes.leaves (h : Describes I params counted f s m) (d : Departure V)
    (hsettled : d.continues = true → Settled s.env m.stack) :
    Simulates I params counted f (s, some d) (m, some d) where
  departure := rfl
  log := h.log
  locals := h.locals
  describes hnone := by simp at hnone
  settled d' hd' hcontinues := by
    obtain rfl : d = d' := Option.some.inj hd'
    exact hsettled hcontinues

/-- Both machines perform an effect: either it raises an exception on both sides, or both go on with
the same result. -/
lemma Describes.perform (h : Describes I params counted f s m) {e : Effect V} {lhs : Option Value}
    {next : V → Machine V → Machine V}
    (hnext : ∀ x, Describes I params counted f' (Store.deliver { s with log := s.log ++ [e] } lhs x)
      (next x { m with log := m.log ++ [e] })) :
    Simulates I params counted f' (s.perform I e lhs) (m.perform I e next) := by
  have hlog := h.log
  unfold Store.perform Machine.perform
  simp only [← hlog]
  cases I.respond s.log e with
  | none => exact ⟨rfl, rfl, h.locals, by simp, by simp [Departure.continues]⟩
  | some x =>
    have hdone := hnext x
    rw [← hlog] at hdone
    exact hdone.stays

/-- **An effect whose result is pushed.** The result goes to the temporary of its depth, which is
free after the slots that hold it were moved.

**Proof sketch.** Protecting the temporary leaves what the operands evaluate to
(`Describes.protect`), so both machines perform the same effect (`Describes.perform`). The result
overwrites the temporary, which no slot holds and which is no local variable, and the new slot is
the temporary itself. -/
lemma Describes.perform_push (h : Describes I params counted f s m)
    (hrun : Store.run I caught f.actions s₀ = (s, none)) (hp : params.Separate) {a : Action Int}
    {operator : Operator} {xs : List V} {kind : Kind} {type : String} {t : Value} {words : Nat}
    (ht : t = .var (.slot f.stack.length) type) (ha : a.operator? = some operator)
    (hlhs : a.lhs? = some t) (hbelow : ∀ v ∈ a.operands, v.Below f.scratch)
    (hxs : a.operands.map (I.eval s.env) = xs) (hwords : counted → kind.category = words) :
    Simulates I params counted (((f.protect t).emit a).push kind type t)
      (Store.run I caught ((f.protect t).emit a).actions s₀)
      (m.perform I ⟨operator, xs⟩ (Machine.push words)) := by
  subst ht
  obtain ⟨s', hsaves, hd, hfree⟩ := h.protect hrun hp (v := .slot f.stack.length) (by simp) type
  rw [Frame.emit, Store.run_concat hsaves.run, Store.exec_of_operator ha, hlhs,
    hsaves.map_eval_eq hbelow, hxs]
  refine hd.perform fun x => ?_
  have hlocals : ∀ n, Function.update s'.env (.slot f.stack.length) x (params.varOf n) =
      m.locals n := by
    intro n
    rw [Function.update_of_ne, hd.locals n]
    intro heq
    simpa [heq, Var.isTemp] using hp.not_temp n
  have hdone : Describes I params counted ((f.protect _).emit a) _ _ :=
    ((hd.logged ⟨operator, xs⟩).update hfree hlocals).reframe rfl rfl
  exact hdone.push (by simp) hwords (by simp)

/-- An effect without a result. -/
lemma Describes.perform_ignore (h : Describes I params counted f s m)
    (hrun : Store.run I caught f.actions s₀ = (s, none)) {a : Action Int} {operator : Operator}
    {xs : List V} (ha : a.operator? = some operator) (hlhs : a.lhs? = none)
    (hxs : a.operands.map (I.eval s.env) = xs) :
    Simulates I params counted (f.emit a) (Store.run I caught (f.emit a).actions s₀)
      (m.perform I ⟨operator, xs⟩ Machine.ignore) := by
  rw [show (f.emit a).actions = f.actions ++ [a] from rfl, Store.run_concat hrun,
    Store.exec_of_operator ha, hlhs, hxs]
  exact h.perform fun x => (h.logged _).reframe rfl rfl

/-- A protected local variable takes a new value. -/
lemma Describes.setLocal (h : Describes I params counted f s m) (hp : params.Separate) {slot : Int}
    (hfree : ∀ held ∈ f.stack, held.value.isVar (params.varOf slot) = false) (x : V) :
    Describes I params counted f { s with env := Function.update s.env (params.varOf slot) x }
      (m.setLocal slot x) := by
  refine h.update hfree fun n => ?_
  by_cases hn : n = slot
  · rw [hn, Function.update_self, Function.update_self]
  · rw [Function.update_of_ne (hp.injective.ne hn), Function.update_of_ne hn]
    exact h.locals n

end JvmTaint
