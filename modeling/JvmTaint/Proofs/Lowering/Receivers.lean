import JvmTaint.Proofs.Lowering.Layout

set_option autoImplicit false
set_option relaxedAutoImplicit false

/-!
# The receiver of an instance method

The receiver of an instance method is its first parameter, and no other parameter has its name. It
is in local variable 0, so no statement assigns to it if no instruction stores to that local
variable.

## Main definitions

* `JvmTaint.MethodBody.storesTo`: the code stores to a local variable.
* `JvmTaint.FlowGraph.KeepsReceiver`: the receiver is the first parameter and is not assigned to.

## Main results

* `JvmTaint.Var.name_eq_this_iff`: no other variable has the name of the receiver.
* `JvmTaint.FlowGraph.build_keepsReceiver`: a method keeps its receiver if its code does not store
  to local variable 0.
-/

namespace JvmTaint

/-- No other variable has the name of the receiver. -/
lemma Var.name_eq_this_iff {x : Var} : x.name = "this" ↔ x = .this := by
  refine ⟨fun h => ?_, fun h => h ▸ rfl⟩
  cases x with
  | this => rfl
  | arg i => simp [Var.name, String.ext_iff] at h
  | loc i => simp [Var.name, String.ext_iff] at h
  | slot d => simp [Var.name, String.ext_iff] at h
  | scratch n => simp [Var.name, String.ext_iff] at h

/-- The code stores to the local variable with the number. -/
def MethodBody.storesTo (b : MethodBody) (slot : Int) : Bool :=
  b.code.any fun ins => ins.operation.toOption.bind Operation.stored? == some slot

/-- The receiver is the first parameter of the method, no other parameter has its name, and no
statement assigns to it. -/
structure FlowGraph.KeepsReceiver (g : FlowGraph) : Prop where
  params : ∃ type args, g.params = .var .this type :: args ∧ ∀ v ∈ args, v.render ≠ "this"
  assigns : ∀ st ∈ g.statements, ∀ v, st.action.lhs? = some v → v.render ≠ "this"

/-- The parameters are arguments, in local variables from a number on. -/
lemma mem_paramSlotsFrom {i : Nat} {slot : Int} {types : List FieldType} {e : Int × Value}
    (h : e ∈ paramSlotsFrom i slot types) : slot ≤ e.1 ∧ ∃ j type, e.2 = .var (.arg j) type := by
  induction types generalizing i slot with
  | nil => cases h
  | cons t ts ih =>
    rcases List.mem_cons.mp h with rfl | h
    · exact ⟨Int.le_refl _, i, t.render, rfl⟩
    · obtain ⟨hle, harg⟩ := ih h
      exact ⟨by omega, harg⟩

section

variable {b : MethodBody} {d : MethodDescriptor} (hinstance : b.modifiers.has .static = false)

include hinstance

/-- The receiver of an instance method is in local variable 0 only. -/
lemma MethodBody.variable_ne_this {slot : Int} (hslot : slot ≠ 0) (type : String) :
    ((b.paramSlots d).variable slot type).render ≠ "this" := by
  have hslots : b.paramSlots d =
      (0, .var .this (descriptorOf b.ref.cls)) :: paramSlotsFrom 0 1 d.params := by
    simp [paramSlots, hinstance]
  have hlookup : (b.paramSlots d).lookup slot = (paramSlotsFrom 0 1 d.params).lookup slot := by
    rw [hslots, List.lookup_cons, beq_eq_false_iff_ne.mpr hslot]
  -- a local variable with another number is an argument, or no parameter at all
  have hargs : ∀ v, (b.paramSlots d).lookup slot = some v → ∃ j type, v = .var (.arg j) type := by
    intro v hv
    rw [hlookup] at hv
    obtain ⟨before, after, heq, -⟩ := List.lookup_eq_some_iff.mp hv
    have hmem : (slot, v) ∈ paramSlotsFrom 0 1 d.params := by simp [heq]
    exact (mem_paramSlotsFrom hmem).2
  unfold ParamSlots.variable
  cases hfound : (b.paramSlots d).lookup slot with
  | none => simp [Value.render, Var.name_eq_this_iff]
  | some v =>
    obtain ⟨j, type', rfl⟩ := hargs v hfound
    simp [Value.render, Var.name_eq_this_iff]

/-- **The receiver.** An instance method keeps its receiver if its code does not store to local
variable 0. -/
lemma FlowGraph.build_keepsReceiver {types : Option ClassTable} {g : FlowGraph}
    (h : FlowGraph.build types b = .ok g) (hstores : b.storesTo 0 = false) : g.KeepsReceiver := by
  obtain ⟨d, -, -, hparams, hassigns⟩ := FlowGraph.build_assigns h
  constructor
  · refine ⟨descriptorOf b.ref.cls, (paramSlotsFrom 0 1 d.params).map (·.2), ?_, ?_⟩
    · rw [hparams, MethodBody.paramSlots, hinstance]
      rfl
    · intro v hv
      obtain ⟨e, he, rfl⟩ := List.mem_map.mp hv
      obtain ⟨-, j, type, harg⟩ := mem_paramSlotsFrom he
      simp [harg, Value.render, Var.name_eq_this_iff]
  · refine hassigns (·.render ≠ "this") ?_ ?_
    · rintro x type hx heq
      rw [Value.render, Var.name_eq_this_iff] at heq
      simp [heq, Var.isTemp] at hx
    · intro block hblock ins hins o ho slot hslot
      refine MethodBody.variable_ne_this hinstance ?_
      rintro rfl
      have hmem : ins ∈ b.code := by
        rw [← MethodBody.flatMap_blocks]
        exact List.mem_flatMap.mpr ⟨block, hblock, hins⟩
      have hnot := List.any_eq_false.mp hstores ins hmem
      simp [ho, Except.toOption, hslot] at hnot

end

end JvmTaint
