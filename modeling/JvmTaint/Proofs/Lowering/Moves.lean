import JvmTaint.Proofs.Lowering.Frames

set_option autoImplicit false
set_option relaxedAutoImplicit false

/-!
# Moving the stack to its temporaries

Before control leaves a block, every slot of the stack is moved to the temporary of its depth. These
moves are one parallel assignment: a slot may hold the temporary of another depth, which is itself
about to be overwritten. Such temporaries are first copied to scratch temporaries, together with the
operands that are read afterwards, and then the moves can be made one after the other.

## Main definitions

* `JvmTaint.Keeps`: scratch temporaries keep the temporaries to be overwritten.
* `JvmTaint.Value.Clear`: the value is none of the temporaries to be overwritten.

## Main results

* `JvmTaint.saveSlots_spec`, `JvmTaint.saveAll_spec`: after the copies no move reads what another
  move overwrites.
* `JvmTaint.run_moves`: such moves, one after the other, are a parallel assignment.
* `JvmTaint.Describes.normalize`: the moves settle the stack and keep the operands.
-/

namespace JvmTaint

variable {V : Type} {I : Interpretation V} {params : ParamSlots} {counted : Prop} {caught : V}
  {s₀ s s' : Store V} {f f' : Frame} {m : Machine V} {targets : List Nat}

/-! ## Copies to scratch temporaries -/

/-- The value is no temporary of the depths `targets`. -/
def Value.Clear (targets : List Nat) (value : Value) : Prop :=
  ∀ d ∈ targets, value.isVar (.slot d) = false

/-- Scratch temporaries in use keep the temporaries of some depths. -/
def Keeps (I : Interpretation V) (s : Store V) (scratch : Nat) (saved : Frame.Saved) : Prop :=
  ∀ d kept, saved.lookup d = some kept →
    I.eval s.env kept = s.env (.slot d) ∧ ∃ k type, kept = .var (.scratch k) type ∧ k < scratch

/-- What is kept stays kept while further scratch temporaries are written. -/
lemma Keeps.saves {saved : Frame.Saved} (hkeeps : Keeps I s f.scratch saved)
    (h : Saves I caught s₀ f s f' s') : Keeps I s' f'.scratch saved := by
  intro d kept hl
  obtain ⟨heval, k, type, rfl, hk⟩ := hkeeps d kept hl
  refine ⟨?_, k, type, rfl, by have := h.scratch; omega⟩
  rw [h.eval_eq (by simpa using hk), heval, h.env _ (by simp)]

/-- One value is saved: the value to use in its place evaluates to the same and is clear of the
temporaries to be overwritten. -/
lemma save_spec (hrun : Store.run I caught f.actions s₀ = (s, none)) {value value' : Value}
    {saved saved' : Frame.Saved} (hkeeps : Keeps I s f.scratch saved)
    (hbelow : value.Below f.scratch)
    (hsave : Frame.save targets value f saved = (value', f', saved')) :
    ∃ s', Saves I caught s₀ f s f' s' ∧ f'.stack = f.stack ∧ Keeps I s' f'.scratch saved' ∧
      I.eval s'.env value' = I.eval s.env value ∧ value'.Below f'.scratch ∧
      value'.Clear targets := by
  unfold Frame.save at hsave
  split at hsave
  · next d type =>
    split at hsave
    · split at hsave
      · -- the temporary was saved before
        next kept hl =>
        simp only [Prod.mk.injEq] at hsave
        obtain ⟨rfl, rfl, rfl⟩ := hsave
        obtain ⟨heval, k, type', rfl, hk⟩ := hkeeps d kept hl
        exact ⟨s, .refl hrun, rfl, hkeeps, heval, by simpa using hk,
          fun d' _ => by simp [Value.isVar, Value.var?]⟩
      · -- a fresh scratch temporary keeps it from now on
        next hl =>
        simp only [Prod.mk.injEq] at hsave
        obtain ⟨rfl, rfl, rfl⟩ := hsave
        have hsaves := saves_fresh hrun (.var (.slot d) type) type type
        refine ⟨_, hsaves, rfl, ?_, by simp [Frame.fresh], ?_, ?_⟩
        · intro d' kept' hl'
          rw [List.lookup_cons] at hl'
          split at hl'
          · next heq =>
            obtain rfl : d' = d := by simpa using heq
            obtain rfl := Option.some.inj hl'
            exact ⟨by simp [Frame.fresh], f.scratch, type, rfl, Nat.lt_succ_self _⟩
          · exact hkeeps.saves hsaves d' kept' hl'
        · simp [Frame.fresh, Frame.emit]
        · exact fun d' _ => by simp [Frame.fresh, Value.isVar, Value.var?]
    · -- the temporary is not overwritten
      next htarget =>
      simp only [Prod.mk.injEq] at hsave
      obtain ⟨rfl, rfl, rfl⟩ := hsave
      refine ⟨s, .refl hrun, rfl, hkeeps, rfl, hbelow, fun d' hd' => ?_⟩
      rw [Bool.eq_false_iff, ne_eq, Value.var_isVar_iff, Var.slot.injEq]
      rintro rfl
      exact htarget (List.contains_iff_mem.mpr hd')
  · next hslot =>
    simp only [Prod.mk.injEq] at hsave
    obtain ⟨rfl, rfl, rfl⟩ := hsave
    refine ⟨s, .refl hrun, rfl, hkeeps, rfl, hbelow, fun d' _ => ?_⟩
    cases value with
    | const literal type => simp
    | var v type =>
      rw [Bool.eq_false_iff, ne_eq, Value.var_isVar_iff]
      rintro rfl
      exact hslot d' type rfl

/-- The values of a list are saved: what to use in their places evaluates to the same and is clear
of the temporaries to be overwritten. -/
lemma saveAll_spec (hrun : Store.run I caught f.actions s₀ = (s, none))
    {values values' : List Value} {saved saved' : Frame.Saved}
    (hkeeps : Keeps I s f.scratch saved) (hbelow : ∀ v ∈ values, v.Below f.scratch)
    (hsave : Frame.saveAll targets values f saved = (values', f', saved')) :
    ∃ s', Saves I caught s₀ f s f' s' ∧
      values'.map (I.eval s'.env) = values.map (I.eval s.env) ∧ ∀ v ∈ values', v.Clear targets := by
  induction values generalizing f s saved values' with
  | nil =>
    simp only [Frame.saveAll, Prod.mk.injEq] at hsave
    obtain ⟨rfl, rfl, -⟩ := hsave
    exact ⟨s, .refl hrun, rfl, by simp⟩
  | cons v values ih =>
    rcases hfirst : Frame.save targets v f saved with ⟨v', f₁, saved₁⟩
    rcases hrest : Frame.saveAll targets values f₁ saved₁ with ⟨rest, f₂, saved₂⟩
    simp only [Frame.saveAll, hfirst, hrest, Prod.mk.injEq] at hsave
    obtain ⟨rfl, rfl, rfl⟩ := hsave
    obtain ⟨s₁, hsaves₁, -, hkeeps₁, heval, hbelow₁, hclear⟩ :=
      save_spec hrun hkeeps (hbelow v (by simp)) hfirst
    have hbelow' : ∀ w ∈ values, w.Below f₁.scratch :=
      fun w hw => (hbelow w (by simp [hw])).mono hsaves₁.scratch
    obtain ⟨s₂, hsaves₂, hevals, hclears⟩ := ih hsaves₁.run hkeeps₁ hbelow' hrest
    refine ⟨s₂, hsaves₁.trans hsaves₂, ?_, ?_⟩
    · rw [List.map_cons, List.map_cons, hsaves₂.eval_eq hbelow₁, heval, hevals,
        hsaves₁.map_eval_eq fun w hw => hbelow w (by simp [hw])]
    · intro w hw
      rcases List.mem_cons.mp hw with rfl | hw
      · exact hclear
      · exact hclears w hw

/-- The slots that are not in their place are saved: the slots still hold their cells, and those
that have to be moved are clear of the temporaries to be overwritten. The lowest slot is at depth
`i`.

**Proof sketch.** Induction on the stack. A slot in its place stays as it is, another one is saved
(`save_spec`); saving the slots above it does not change what it holds. -/
lemma saveSlots_spec (hrun : Store.run I caught f.actions s₀ = (s, none)) {i : Nat}
    {stack stack' : List Slot} {cells : List (Cell V)} {saved saved' : Frame.Saved}
    (hkeeps : Keeps I s f.scratch saved)
    (hholds : List.Forall₂ (Slot.Holds I counted s.env f.scratch) stack cells)
    (htargets : ∀ p ∈ stack.zipIdx i, p.1.value.isVar (.slot p.2) = false → p.2 ∈ targets)
    (hsave : Frame.saveSlots targets i stack f saved = (stack', f', saved')) :
    ∃ s', Saves I caught s₀ f s f' s' ∧ Keeps I s' f'.scratch saved' ∧
      List.Forall₂ (Slot.Holds I counted s'.env f'.scratch) stack' cells ∧
      ∀ p ∈ stack'.zipIdx i, p.1.value.isVar (.slot p.2) = true ∨
        p.2 ∈ targets ∧ p.1.value.Clear targets := by
  induction stack generalizing i f s saved stack' cells with
  | nil =>
    simp only [Frame.saveSlots, Prod.mk.injEq] at hsave
    obtain ⟨rfl, rfl, rfl⟩ := hsave
    exact ⟨s, .refl hrun, hkeeps, hholds, by simp⟩
  | cons slot stack ih =>
    obtain ⟨cell, cells', hcell, hcells, rfl⟩ := List.forall₂_cons_left_iff.mp hholds
    have htargets' : ∀ p ∈ stack.zipIdx (i + 1), p.1.value.isVar (.slot p.2) = false →
        p.2 ∈ targets := fun p hp => htargets p (by simp [List.zipIdx_cons, hp])
    rw [Frame.saveSlots] at hsave
    split at hsave
    · next hplace =>
      rcases hrest : Frame.saveSlots targets (i + 1) stack f saved with ⟨rest, f₁, saved₁⟩
      simp only [hrest, Prod.mk.injEq] at hsave
      obtain ⟨rfl, rfl, rfl⟩ := hsave
      obtain ⟨s₁, hsaves, hkeeps₁, hheld, hmoved⟩ := ih hrun hkeeps hcells htargets' hrest
      refine ⟨s₁, hsaves, hkeeps₁, .cons (hcell.saves hsaves) hheld, ?_⟩
      simpa [List.zipIdx_cons, hplace] using hmoved
    · next hplace =>
      have htarget : i ∈ targets := htargets (slot, i) (by simp [List.zipIdx_cons])
        (by simpa using hplace)
      rcases hfirst : Frame.save targets slot.value f saved with ⟨v, f₁, saved₁⟩
      rcases hrest : Frame.saveSlots targets (i + 1) stack f₁ saved₁ with ⟨rest, f₂, saved₂⟩
      simp only [hfirst, hrest, Prod.mk.injEq] at hsave
      obtain ⟨rfl, rfl, rfl⟩ := hsave
      obtain ⟨s₁, hsaves₁, -, hkeeps₁, heval, hbelow₁, hclear⟩ :=
        save_spec hrun hkeeps hcell.below hfirst
      obtain ⟨s₂, hsaves₂, hkeeps₂, hheld, hmoved⟩ :=
        ih hsaves₁.run hkeeps₁ (hcells.imp fun _ _ hc => hc.saves hsaves₁) htargets' hrest
      have hslot : Slot.Holds I counted s₁.env f₁.scratch { slot with value := v } cell :=
        ⟨heval.trans hcell.value, hcell.words, hbelow₁⟩
      refine ⟨s₂, hsaves₁.trans hsaves₂, hkeeps₂, .cons (hslot.saves hsaves₂) hheld, ?_⟩
      simpa [List.zipIdx_cons, htarget, hclear] using hmoved

/-! ## Parallel assignment -/

/-- **Moves that do not read what others overwrite are a parallel assignment.** Every temporary
takes the value that its slot had before the moves, and no other variable changes.

**Proof sketch.** Induction on the moves. The first move changes no slot that is moved later, since
none of them is read from its temporary, and no later move writes to the same temporary. -/
lemma run_moves (I : Interpretation V) (caught : V) (s : Store V) (ps : List (Slot × Nat))
    (hclear : ∀ p ∈ ps, ∀ q ∈ ps, p.1.value.isVar (.slot q.2) = false)
    (hnodup : (ps.map (·.2)).Nodup) :
    ∃ s', Store.run I caught (ps.map fun p =>
        .assign (.ofSlot p.2 p.1.type) ⟨.copy p.1.value, p.1.type⟩) s = (s', none) ∧
      s'.log = s.log ∧ (∀ p ∈ ps, s'.env (.slot p.2) = I.eval s.env p.1.value) ∧
      ∀ v, (∀ p ∈ ps, v ≠ .slot p.2) → s'.env v = s.env v := by
  induction ps generalizing s with
  | nil => exact ⟨s, rfl, rfl, by simp, fun _ _ => rfl⟩
  | cons p ps ih =>
    rw [List.map_cons, List.nodup_cons] at hnodup
    obtain ⟨s', hrun, hlog, hmoved, hother⟩ :=
      ih { s with env := Function.update s.env (.slot p.2) (I.eval s.env p.1.value) }
        (fun q hq r hr => hclear q (by simp [hq]) r (by simp [hr])) hnodup.2
    have hne : ∀ q ∈ ps, Var.slot p.2 ≠ .slot q.2 := by
      intro q hq heq
      rw [Var.slot.injEq] at heq
      exact hnodup.1 (heq ▸ List.mem_map_of_mem hq)
    refine ⟨s', ?_, hlog, ?_, ?_⟩
    · simpa [Store.run, Store.exec, Value.ofSlot] using hrun
    · intro q hq
      rcases List.mem_cons.mp hq with rfl | hq
      · rw [hother _ hne]
        simp
      · rw [hmoved q hq]
        exact I.eval_update_of_not_isVar (hclear q (by simp [hq]) p (by simp))
    · intro v hv
      rw [hother v fun q hq => hv q (by simp [hq])]
      exact Function.update_of_ne (hv p (by simp)) _ _

/-! ## The settled stack -/

/-- In a stack that holds cells, the slots of the depths hold the cells of the depths. -/
lemma holds_zipIdx {R : Slot → Cell V → Prop} {stack : List Slot} {cells : List (Cell V)}
    (h : List.Forall₂ R stack cells) :
    List.Forall₂ (fun p cell => p ∈ stack.zipIdx ∧ R p.1 cell) stack.zipIdx cells := by
  rw [← List.zipIdx_map_fst 0 stack, List.forall₂_map_left_iff] at h
  exact (List.forall₂_and_left _ _).mpr ⟨fun _ hp => hp, h⟩

/-- Two slots of the same depth are the same. -/
lemma eq_of_mem_zipIdx {stack : List Slot} {slot slot' : Slot} {i : Nat}
    (h : (slot, i) ∈ stack.zipIdx) (h' : (slot', i) ∈ stack.zipIdx) : slot = slot' := by
  rw [List.mem_zipIdx_iff_getElem?] at h h'
  exact Option.some.inj (h.symm.trans h')

/-- The moves of a stack whose slots are in place or clear of the temporaries to be overwritten: the
settled stack holds what the stack held, and only these temporaries change.

**Proof sketch.** The displaced slots do not read the temporaries of displaced slots, so the moves
are a parallel assignment (`run_moves`). A displaced slot is then in the temporary of its depth. The
temporary of a slot in place is not written, since no other slot has its depth. -/
lemma run_moves_settled (caught : V) (s : Store V) {scratch : Nat} {stack : List Slot}
    {cells : List (Cell V)} (hholds : List.Forall₂ (Slot.Holds I counted s.env scratch) stack cells)
    (hmoved : ∀ p ∈ stack.zipIdx, p.1.value.isVar (.slot p.2) = true ∨
      p.2 ∈ targets ∧ p.1.value.Clear targets) :
    ∃ s', Store.run I caught (Frame.moves stack) s = (s', none) ∧ s'.log = s.log ∧
      List.Forall₂ (Slot.Holds I counted s'.env scratch) (Frame.settled stack) cells ∧
      ∀ v, (∀ d ∈ targets, v ≠ .slot d) → s'.env v = s.env v := by
  have hdisplaced : ∀ p ∈ stack.zipIdx.filter fun p => !p.1.value.isVar (.slot p.2),
      p ∈ stack.zipIdx ∧ p.1.value.isVar (.slot p.2) = false ∧ p.2 ∈ targets ∧
        p.1.value.Clear targets := by
    intro p hp
    obtain ⟨hmem, hout⟩ := List.mem_filter.mp hp
    rw [Bool.not_eq_true'] at hout
    exact ⟨hmem, hout, (hmoved p hmem).resolve_left (by simp [hout])⟩
  have hdepths : (stack.zipIdx.map (·.2)).Nodup := by
    rw [List.zipIdx_map_snd]
    exact List.nodup_range'
  obtain ⟨s', hrun, hlog, hnew, hold⟩ := run_moves I caught s
    (stack.zipIdx.filter fun p => !p.1.value.isVar (.slot p.2))
    (fun p hp q hq => (hdisplaced p hp).2.2.2 q.2 (hdisplaced q hq).2.2.1)
    (List.Nodup.sublist (List.filter_sublist.map _) hdepths)
  refine ⟨s', hrun, hlog, ?_, fun v hv => hold v fun p hp => hv _ (hdisplaced p hp).2.2.1⟩
  rw [Frame.settled, List.forall₂_map_left_iff]
  refine (holds_zipIdx hholds).imp fun p cell hp => ?_
  obtain ⟨slot, i⟩ := p
  obtain ⟨hmem, hcell⟩ := hp
  dsimp only at hcell ⊢
  split
  · next hplace =>
    refine ⟨?_, hcell.words, hcell.below⟩
    rw [← hcell.value, I.eval_of_isVar hplace, I.eval_of_isVar hplace]
    refine hold _ fun q hq heq => ?_
    rw [Var.slot.injEq] at heq
    have hsame : slot = q.1 := eq_of_mem_zipIdx hmem (heq ▸ (hdisplaced q hq).1)
    have hout := (hdisplaced q hq).2.1
    rw [← hsame, ← heq, hplace] at hout
    simp at hout
  · next hplace =>
    refine ⟨?_, hcell.words, by simp [Value.ofSlot]⟩
    rw [← hcell.value]
    exact hnew (slot, i) (List.mem_filter.mpr ⟨hmem, by simpa using hplace⟩)

/-- A settled stack has every slot in the temporary of its depth. -/
lemma settled_of_holds {env : Var → V} {scratch : Nat} {stack : List Slot} {cells : List (Cell V)}
    (h : List.Forall₂ (Slot.Holds I counted env scratch) (Frame.settled stack) cells) :
    Settled env cells.reverse := by
  intro i cell hcell
  rw [List.reverse_reverse] at hcell
  rw [Frame.settled, List.forall₂_map_left_iff] at h
  obtain ⟨hlength, hget⟩ := List.forall₂_iff_get.mp h
  obtain ⟨hi, rfl⟩ := List.getElem?_eq_some_iff.mp hcell
  have hslot := hget i (by omega) hi
  simp only [List.get_eq_getElem, List.getElem_zipIdx, Nat.zero_add] at hslot
  split at hslot
  · next hplace =>
    rw [← hslot.value, I.eval_of_isVar hplace]
  · exact hslot.value

/-- **The moves settle the stack.** Every slot is moved to the temporary of its depth, and the
values to be kept evaluate to the same as before.

**Proof sketch.** The slots and the kept values are saved (`saveSlots_spec`, `saveAll_spec`), which
writes to fresh scratch temporaries only, and then the slots are moved (`run_moves_settled`). The
moves overwrite temporaries of depths, hence no local variable, and nothing that is kept. -/
lemma Describes.normalize (h : Describes I params counted f s m)
    (hrun : Store.run I caught f.actions s₀ = (s, none)) (hp : params.Separate) {keep : List Value}
    (hkeep : ∀ v ∈ keep, v.Below f.scratch) :
    ∃ s', Store.run I caught (f.normalize keep).2.actions s₀ = (s', none) ∧
      Describes I params counted (f.normalize keep).2 s' m ∧ Settled s'.env m.stack ∧
      (f.normalize keep).1.map (I.eval s'.env) = keep.map (I.eval s.env) := by
  rcases hslots : Frame.saveSlots (Frame.displaced f.stack) 0 f.stack f [] with ⟨stack, f₁, saved₁⟩
  rcases hall : Frame.saveAll (Frame.displaced f.stack) keep f₁ saved₁ with ⟨kept, f₂, saved₂⟩
  have hnormal : f.normalize keep = (kept, { f₂ with
      actions := f₂.actions ++ Frame.moves stack, stack := Frame.settled stack }) := by
    simp only [Frame.normalize, hslots, hall]
  have htargets : ∀ p ∈ f.stack.zipIdx 0, p.1.value.isVar (.slot p.2) = false →
      p.2 ∈ Frame.displaced f.stack := by
    intro p hp hout
    exact List.mem_map.mpr ⟨p, List.mem_filter.mpr ⟨hp, by simp [hout]⟩, rfl⟩
  have hstack : List.Forall₂ (Slot.Holds I counted s.env f.scratch) f.stack m.stack.reverse := by
    rw [← List.forall₂_reverse_iff, List.reverse_reverse]
    exact h.stack
  obtain ⟨s₁, hsaves₁, hkeeps₁, hholds, hmoved⟩ :=
    saveSlots_spec hrun (by simp [Keeps]) hstack htargets hslots
  have hbelow₁ : ∀ v ∈ keep, v.Below f₁.scratch := fun v hv => (hkeep v hv).mono hsaves₁.scratch
  obtain ⟨s₂, hsaves₂, hevals, hclear⟩ := saveAll_spec hsaves₁.run hkeeps₁ hbelow₁ hall
  obtain ⟨s₃, hmoves, hlog, hsettled, hother⟩ := run_moves_settled caught s₂
    (hholds.imp fun _ _ hc => hc.saves hsaves₂) hmoved
  have hsaves := hsaves₁.trans hsaves₂
  rw [hnormal]
  refine ⟨s₃, ?_, ⟨?_, fun n => ?_, ?_⟩, ?_, ?_⟩
  · exact (Store.run_append hsaves.run).trans hmoves
  · rw [← List.reverse_reverse m.stack, List.forall₂_reverse_iff]
    exact hsettled
  · rw [hother _ fun d _ heq => ?_, hsaves.locals hp n, h.locals n]
    simpa [heq, Var.isTemp] using hp.not_temp n
  · rw [hlog, hsaves.log, h.log]
  · simpa using settled_of_holds hsettled
  · rw [← hsaves₁.map_eval_eq hkeep, ← hevals]
    refine List.map_congr_left fun v hv => ?_
    cases v with
    | const literal type => rfl
    | var x type =>
      refine hother x fun d hd heq => ?_
      simpa [heq, Value.isVar, Value.var?] using hclear _ hv d hd

end JvmTaint
