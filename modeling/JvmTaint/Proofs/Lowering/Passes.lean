import JvmTaint.Proofs.Lowering.Layout

set_option autoImplicit false
set_option relaxedAutoImplicit false

/-!
# The passes that connect lowered code

Statements are connected in three passes over the whole method: the flow, the resource scopes, which
move the ends of edges and jumps, and the exceptions. Here each pass is described by what it does to
the edges of a single statement.

## Main definitions

* `JvmTaint.insertEdge`: adds an edge unless there is one with the same target and kind.
* `JvmTaint.Action.ways`, `JvmTaint.flowEdges`: the ways from a statement without an exception.
* `JvmTaint.exitTarget`: where a way leads to once scopes are closed.
* `JvmTaint.catchEdges`, `JvmTaint.raisedEdges`: the exception edges of a statement.
* `JvmTaint.Wiring.Redirected`: the invariant of the second pass.

## Main results

* `JvmTaint.Wiring.out_foldl_flow`: the edges after the first pass.
* `JvmTaint.Wiring.Redirected.foldl`: the edges and the jumps after the second pass.
* `JvmTaint.Wiring.out_foldl_raise`: the edges that the third pass adds.
-/

namespace JvmTaint

/-! ## Adding edges -/

/-- Adds an edge to those of its source, unless there is one with the same target and kind. -/
def insertEdge (out : List Edge) (e : Edge) : List Edge :=
  if out.any fun e' => e'.target == e.target && e'.kind == e.kind then out else out ++ [e]

/-- The edge leads to the target, in the given way. -/
def Edge.Leads (e : Edge) (target : Nat) (kind : EdgeKind) : Prop :=
  e.target = target ∧ e.kind = kind

lemma any_leads {out : List Edge} {e : Edge} :
    (out.any fun e' => e'.target == e.target && e'.kind == e.kind) = true ↔
      ∃ e' ∈ out, e'.Leads e.target e.kind := by
  simp [Edge.Leads]

/-- An edge is there before or is the added one. -/
lemma mem_of_mem_insertEdge {out : List Edge} {e e' : Edge} (h : e' ∈ insertEdge out e) :
    e' ∈ out ∨ e' = e := by
  unfold insertEdge at h
  split at h
  · exact .inl h
  · simpa using h

/-- Adding an edge adds its way. -/
lemma exists_insertEdge {out : List Edge} {e : Edge} {target : Nat} {kind : EdgeKind} :
    (∃ e' ∈ insertEdge out e, e'.Leads target kind) ↔
      (∃ e' ∈ out, e'.Leads target kind) ∨ e.Leads target kind := by
  unfold insertEdge
  split
  · rename_i hany
    refine ⟨.inl, ?_⟩
    rintro (h | ⟨rfl, rfl⟩)
    · exact h
    · exact any_leads.mp hany
  · simp [or_and_right, exists_or]

/-- No two edges have the same target and kind. -/
def Distinct (out : List Edge) : Prop :=
  out.Pairwise fun e e' => ¬ e'.Leads e.target e.kind

lemma Distinct.insertEdge {out : List Edge} (h : Distinct out) (e : Edge) :
    Distinct (insertEdge out e) := by
  unfold JvmTaint.insertEdge
  split
  · exact h
  · rename_i hany
    refine List.pairwise_append.mpr ⟨h, List.pairwise_singleton .., ?_⟩
    intro e' he' e'' he'' hleads
    rw [List.mem_singleton.mp he''] at hleads
    exact hany (any_leads.mpr ⟨e', he', hleads.1.symm, hleads.2.symm⟩)

section Fold

variable {out es : List Edge}

lemma mem_of_mem_foldl_insertEdge {e : Edge} (h : e ∈ es.foldl insertEdge out) :
    e ∈ out ∨ e ∈ es := by
  induction es generalizing out with
  | nil => exact .inl h
  | cons e' es ih =>
    rcases ih h with h | h
    · exact (mem_of_mem_insertEdge h).imp_right fun h => by simp [h]
    · exact .inr (List.mem_cons_of_mem _ h)

lemma exists_foldl_insertEdge {target : Nat} {kind : EdgeKind} :
    (∃ e ∈ es.foldl insertEdge out, e.Leads target kind) ↔
      (∃ e ∈ out, e.Leads target kind) ∨ ∃ e ∈ es, e.Leads target kind := by
  induction es generalizing out with
  | nil => simp
  | cons e es ih =>
    rw [List.foldl_cons, ih, exists_insertEdge, or_assoc]
    simp

/-- Where there are no edges yet, the added ones are the ways. -/
lemma exists_foldl_insertEdge_nil {target : Nat} {kind : EdgeKind} :
    (∃ e ∈ es.foldl insertEdge [], e.Leads target kind) ↔ ∃ e ∈ es, e.Leads target kind := by
  simp [exists_foldl_insertEdge]

lemma Distinct.foldl_insertEdge (h : Distinct out) :
    Distinct (es.foldl JvmTaint.insertEdge out) := by
  induction es generalizing out with
  | nil => exact h
  | cons e es ih => exact ih (h.insertEdge e)

/-- Adding edges of other kinds changes nothing. -/
lemma filter_foldl_insertEdge {p : Edge → Bool} (hes : ∀ e ∈ es, p e = false) :
    (es.foldl insertEdge out).filter p = out.filter p := by
  induction es generalizing out with
  | nil => rfl
  | cons e es ih =>
    rw [List.foldl_cons, ih fun e' he' => hes e' (List.mem_cons_of_mem _ he')]
    unfold insertEdge
    split
    · rfl
    · simp [hes e List.mem_cons_self]

end Fold

namespace Wiring

variable {w : Wiring}

/-- The outgoing edges of a statement. -/
def out (w : Wiring) (i : Nat) : List Edge := w.succs.getD i []

/-- Only edges have been added. -/
structure Extends (w v : Wiring) : Prop where
  statements : v.statements = w.statements
  size : v.succs.size = w.succs.size

lemma Extends.refl (w : Wiring) : w.Extends w := ⟨rfl, rfl⟩

lemma Extends.connect {v : Wiring} (h : w.Extends v) (source target : Nat) (kind : EdgeKind)
    (catchType : String) : w.Extends (v.connect source target kind catchType) := by
  unfold Wiring.connect
  dsimp only
  split
  · exact h
  · exact ⟨h.statements, by simpa using h.size⟩

lemma Extends.foldl {α : Type} {v : Wiring} (h : w.Extends v) (xs : List α)
    {step : Wiring → α → Wiring} (hstep : ∀ v x, w.Extends v → w.Extends (step v x)) :
    w.Extends (xs.foldl step v) :=
  List.foldlRecOn (motive := w.Extends) xs step h fun v hv x _ => hstep v x hv

@[simp] lemma size_connect (source target : Nat) (kind : EdgeKind) (catchType : String) :
    (w.connect source target kind catchType).succs.size = w.succs.size :=
  ((Extends.refl w).connect source target kind catchType).size

lemma out_connect {source : Nat} (h : source < w.succs.size) (target : Nat) (kind : EdgeKind)
    (catchType : String) (i : Nat) : (w.connect source target kind catchType).out i =
      if i = source then insertEdge (w.out source) { source, target, kind, catchType }
      else w.out i := by
  have hconnect : w.connect source target kind catchType =
      if (w.out source).any fun e => e.target == target && e.kind == kind then w
      else ⟨w.statements, w.succs.setIfInBounds source
        (w.out source ++ [⟨source, target, kind, catchType, false⟩])⟩ := rfl
  rw [hconnect, insertEdge]
  by_cases hi : i = source
  · subst hi
    rw [if_pos rfl]
    split
    · rfl
    · simp [out, h]
  · rw [if_neg hi]
    split
    · rfl
    · simp [out, Ne.symm hi]

/-- The first edge of a statement. -/
lemma out_connect_of_nil (source : Nat) (h : source < w.succs.size) (hout : w.out source = [])
    (target : Nat) (kind : EdgeKind) (catchType : String) (i : Nat) :
    (w.connect source target kind catchType).out i =
      if i = source then [⟨source, target, kind, catchType, false⟩] else w.out i := by
  rw [out_connect h, hout]
  rfl

end Wiring

/-! ## Flow -/

/-- The ways from the action at position `i` without an exception: to the jump targets, and to the
next statement. -/
def Action.ways (i : Nat) : Action Nat → List Edge
  | .branch _ t => [{ source := i, target := t, kind := .onTrue },
      { source := i, target := i + 1, kind := .onFalse }]
  | .goto t => [{ source := i, target := t, kind := .normal }]
  | .switch _ ts => ts.map fun t => { source := i, target := t, kind := .normal }
  | .unreachable _ | .ret _ | .throw _ | .exit => []
  | _ => [{ source := i, target := i + 1, kind := .normal }]

lemma Action.ways_of_isStraight {a : Action Nat} (h : a.isStraight = true) (i : Nat) :
    a.ways i = [{ source := i, target := i + 1, kind := .normal }] := by
  cases a <;> first | rfl | cases h

lemma Action.ways_of_isUnreachable {a : Action Nat} (h : a.isUnreachable = true) (i : Nat) :
    a.ways i = [] := by
  cases a <;> first | rfl | cases h

lemma Action.ways_of_isExit {a : Action Nat} (h : a.isExit = true) (i : Nat) : a.ways i = [] := by
  cases a <;> first | rfl | cases h

lemma Action.mayThrow_of_isExit {τ : Type} {a : Action τ} (h : a.isExit = true) :
    a.mayThrow = false := by
  cases a <;> first | rfl | cases h

/-- The edges of the ways of a statement. -/
def flowEdges (statements : Array Statement) (i : Nat) : List Edge :=
  ((statements[i]?).map fun st => (st.action.ways i).foldl insertEdge []).getD []

lemma flowEdges_of_getElem? {statements : Array Statement} {i : Nat} {st : Statement}
    (h : statements[i]? = some st) :
    flowEdges statements i = (st.action.ways i).foldl insertEdge [] := by
  simp [flowEdges, h]

lemma flowEdges_of_isStraight {statements : Array Statement} {i : Nat} {st : Statement}
    (h : statements[i]? = some st) (ha : st.action.isStraight = true) :
    flowEdges statements i = [{ source := i, target := i + 1, kind := .normal }] := by
  rw [flowEdges_of_getElem? h, Action.ways_of_isStraight ha]
  rfl

@[simp] lemma Action.isStraight_mapLabels {τ σ : Type} (a : Action τ) (f : τ → σ) :
    (a.mapLabels f).isStraight = a.isStraight := by
  cases a <;> rfl

@[simp] lemma Action.isUnreachable_mapLabels {τ σ : Type} (a : Action τ) (f : τ → σ) :
    (a.mapLabels f).isUnreachable = a.isUnreachable := by
  cases a <;> rfl

@[simp] lemma Action.isExit_mapLabels {τ σ : Type} (a : Action τ) (f : τ → σ) :
    (a.mapLabels f).isExit = a.isExit := by
  cases a <;> rfl

@[simp] lemma Action.mayThrow_mapLabels {τ σ : Type} (a : Action τ) (f : τ → σ) :
    (a.mapLabels f).mayThrow = a.mayThrow := by
  cases a <;> rfl

@[simp] lemma raisedType_mapLabels (a : Action Nat) (f : Nat → Nat) :
    raisedType (a.mapLabels f) = raisedType a := by
  cases a <;> rfl

lemma Action.mapLabels_mapLabels {τ σ ρ : Type} (a : Action τ) (f : τ → σ) (g : σ → ρ) :
    (a.mapLabels f).mapLabels g = a.mapLabels (g ∘ f) := by
  cases a <;> simp [mapLabels]

@[simp] lemma Action.mapLabels_id {τ : Type} (a : Action τ) : a.mapLabels (fun t => t) = a := by
  cases a <;> simp [mapLabels]

/-- An instruction that ends its block is no conditional branch. -/
lemma Opcode.isConditional_of_endsBlock {op : Opcode} (h : op.endsBlock = true) :
    op.isConditional = false := by
  simp only [endsBlock, isGoto, isSwitch, isReturn, isThrow, isConditional, between,
    Bool.or_eq_true, Bool.or_eq_false_iff, decide_eq_true_eq, decide_eq_false_iff_not,
    beq_iff_eq] at h ⊢
  omega

/-- A conditional branch does not end its block. -/
lemma Opcode.endsBlock_of_isConditional {op : Opcode} (h : op.isConditional = true) :
    op.endsBlock = false := by
  refine Bool.eq_false_iff.mpr fun hends => ?_
  rw [Opcode.isConditional_of_endsBlock hends] at h
  cases h

/-- A return or a throw does not jump. -/
lemma Opcode.isGoto_of_isReturn_or_isThrow {op : Opcode}
    (h : (op.isReturn || op.isThrow) = true) : (op.isGoto || op.isSwitch) = false := by
  simp only [isGoto, isSwitch, isReturn, isThrow, between, Bool.or_eq_true,
    Bool.or_eq_false_iff, decide_eq_true_eq, decide_eq_false_iff_not, beq_iff_eq,
    beq_eq_false_iff_ne] at h ⊢
  omega

/-- The statement at a position has the property. -/
def Holds (statements : Array Statement) (i : Nat) (Q : Action Nat → Prop) : Prop :=
  ∃ st, statements[i]? = some st ∧ Q st.action

/-- The statements of a block are as the block is: placeholders if it is not reached, otherwise some
that go straight on, and the one of the last instruction. Behind an instruction that does not end
the block follows the next block. -/
structure Span.Fits (spans : List Span) (statements : Array Statement) (s : Span) : Prop where
  first_le : s.first ≤ s.last
  dead : s.reached = false →
    ∀ i, s.first ≤ i → i ≤ s.last → Holds statements i fun a => a.isUnreachable = true
  straight : s.reached = true →
    ∀ i, s.first ≤ i → i < s.last → Holds statements i fun a => a.isStraight = true
  ends : s.reached = true → ∃ ins, s.block.last? = some ins ∧
    Holds statements s.last (fun a => ∃ a', ins.EndsIn a' ∧ a = a'.mapLabels (firstAt spans)) ∧
    (ins.op.endsBlock = false → firstFrom spans s.block.stop = s.last + 1)

namespace Wiring

variable {w : Wiring} {spans : List Span}

/-- The edges inside a block. -/
lemma out_foldl_connect (first n : Nat) (h : first + n ≤ w.succs.size) (i : Nat) :
    ((List.range n).foldl (fun w k => w.connect (first + k) (first + k + 1) .normal "") w).out i =
      if first ≤ i ∧ i < first + n then
        insertEdge (w.out i) { source := i, target := i + 1, kind := .normal }
      else w.out i := by
  induction n generalizing i with
  | zero => rw [if_neg (by omega)]; rfl
  | succ n ih =>
    have hsize := ((Extends.refl w).foldl (List.range n)
      fun v k hv => hv.connect (first + k) (first + k + 1) .normal "").size
    rw [List.range_succ, List.foldl_append, List.foldl_cons, List.foldl_nil,
      out_connect (by omega), ih (by omega), ih (by omega)]
    by_cases hi : i = first + n
    · subst hi
      rw [if_pos rfl, if_neg (by omega), if_pos (by omega)]
    · rw [if_neg hi]
      exact if_congr (by omega) rfl rfl

/-- The edges of a jump. -/
lemma out_foldl_connect_targets (source : Nat) (h : source < w.succs.size) (targets : List Nat)
    (i : Nat) : (targets.foldl (fun w t => w.connect source t .normal "") w).out i =
      if i = source then
        (targets.map fun t => { source, target := t, kind := .normal : Edge }).foldl insertEdge
          (w.out source)
      else w.out i := by
  induction targets generalizing w with
  | nil => split <;> simp_all
  | cons t targets ih =>
    rw [List.foldl_cons, ih (by simpa using h), out_connect h, out_connect h]
    by_cases hi : i = source
    · simp [hi]
    · simp [hi]

/-- Adds the edges from the last statement of a block, by the family of its last instruction. -/
def leave (w : Wiring) (op : Opcode) (source next : Nat) (targets : List Nat) : Wiring :=
  if op.isConditional then
    (w.connect source (targets.headD 0) .onTrue "").connect source next .onFalse ""
  else if op.isGoto || op.isSwitch then
    targets.foldl (fun w t => w.connect source t .normal "") w
  else if op.isReturn || op.isThrow then w
  else w.connect source next .normal ""

lemma out_leave_of_jump {op : Opcode} (h : (op.isGoto || op.isSwitch) = true) {source : Nat}
    (next : Nat) (hsource : source < w.succs.size) (hout : w.out source = []) (targets : List Nat)
    (i : Nat) : (w.leave op source next targets).out i =
      if i = source then
        (targets.map fun t => { source, target := t, kind := .normal : Edge }).foldl insertEdge []
      else w.out i := by
  have hconditional : op.isConditional = false :=
    Opcode.isConditional_of_endsBlock (by simp [Opcode.endsBlock, h])
  unfold leave
  rw [hconditional, if_neg (by simp), if_pos h, out_foldl_connect_targets _ hsource, hout]

lemma out_leave_of_stop {op : Opcode} (h : (op.isReturn || op.isThrow) = true) {source : Nat}
    (next : Nat) (hout : w.out source = []) (targets : List Nat) (i : Nat) :
    (w.leave op source next targets).out i = if i = source then [] else w.out i := by
  have hconditional : op.isConditional = false := by
    refine Opcode.isConditional_of_endsBlock ?_
    rw [Opcode.endsBlock, Bool.or_assoc, h, Bool.or_true]
  unfold leave
  rw [hconditional, if_neg (by simp), Opcode.isGoto_of_isReturn_or_isThrow h, if_neg (by simp),
    if_pos h]
  split
  · rename_i hi
    rw [hi, hout]
  · rfl

/-- The edges of a last statement are the ways of its action. -/
lemma out_leave {ins : Instruction} {a : Action Int} (hends : ins.EndsIn a) (f : Int → Nat)
    {source next : Nat} (hsource : source < w.succs.size) (hout : w.out source = [])
    (hnext : ins.op.endsBlock = false → next = source + 1) (i : Nat) :
    (w.leave ins.op source next (a.mapLabels f).targets).out i =
      if i = source then ((a.mapLabels f).ways source).foldl insertEdge [] else w.out i := by
  cases hends with
  | branch h condition =>
    have hnext : next = source + 1 := hnext (Opcode.endsBlock_of_isConditional h)
    unfold leave
    rw [if_pos h, out_connect (by simpa using hsource), out_connect hsource, out_connect hsource,
      if_pos rfl, hout, hnext]
    by_cases hi : i = source
    · rw [if_pos hi, if_pos hi]
      rfl
    · rw [if_neg hi, if_neg hi, if_neg hi]
  | goto h => exact out_leave_of_jump (by simp [h]) next hsource hout _ i
  | switch h key => exact out_leave_of_jump (by simp [h]) next hsource hout _ i
  | ret h src => exact out_leave_of_stop (by simp [h]) next hout _ i
  | throw h src => exact out_leave_of_stop (by simp [h]) next hout _ i
  | straight h ha =>
    simp only [Opcode.isControl, Opcode.endsBlock, Bool.or_eq_false_iff] at h
    obtain ⟨hconditional, ⟨⟨hgoto, hswitch⟩, hreturn⟩, hthrow⟩ := h
    have hnext : next = source + 1 :=
      hnext (by simp [Opcode.endsBlock, hgoto, hswitch, hreturn, hthrow])
    unfold leave
    rw [hconditional, hgoto, hswitch, hreturn, hthrow, if_neg (by simp), if_neg (by simp),
      if_neg (by simp), out_connect hsource, hout, hnext,
      Action.ways_of_isStraight (by simpa using ha)]
    rfl

/-- The edges of a block that has none yet.

**Proof sketch.** A block that is not reached has placeholders, from which no ways lead. Otherwise
every statement but the last one gets an edge to the next statement, and it is straight. The edges
of the last one are added by the family of the last instruction, and the last action is of this
family. -/
lemma out_flow {s : Span} (hs : s.Fits spans w.statements)
    (hsize : w.succs.size = w.statements.size)
    (hempty : ∀ i, s.first ≤ i → i ≤ s.last → w.out i = []) (i : Nat) :
    (w.flow spans s).out i =
      if s.first ≤ i ∧ i ≤ s.last then flowEdges w.statements i else w.out i := by
  have hfirst := hs.first_le
  unfold flow
  cases hreached : s.reached with
  | false =>
    rw [if_pos (by rfl)]
    split
    · rename_i hi
      obtain ⟨st, hst, hdead⟩ := hs.dead hreached i hi.1 hi.2
      rw [hempty i hi.1 hi.2, flowEdges_of_getElem? hst, Action.ways_of_isUnreachable hdead]
      rfl
    · rfl
  | true =>
    obtain ⟨ins, hins, ⟨st, hst, a, hends, ha⟩, hnext⟩ := hs.ends hreached
    have hlast : s.last < w.succs.size := by
      rw [hsize]
      exact (Array.getElem?_eq_some_iff.mp hst).1
    rw [if_neg (by simp), hins]
    have hinside : ∀ i, ((List.range (s.last - s.first)).foldl
        (fun w k => w.connect (s.first + k) (s.first + k + 1) .normal "") w).out i =
        if s.first ≤ i ∧ i < s.last then flowEdges w.statements i else w.out i := by
      intro i
      rw [out_foldl_connect _ _ (by omega)]
      by_cases hi : s.first ≤ i ∧ i < s.last
      · obtain ⟨st, hst, hstraight⟩ := hs.straight hreached i hi.1 hi.2
        rw [if_pos (by omega), if_pos hi, hempty i hi.1 (by omega),
          flowEdges_of_isStraight hst hstraight]
        rfl
      · rw [if_neg (by omega), if_neg hi]
    have hsame := (Extends.refl w).foldl (List.range (s.last - s.first))
      fun v k hv => hv.connect (s.first + k) (s.first + k + 1) .normal ""
    generalize (List.range (s.last - s.first)).foldl
      (fun w k => w.connect (s.first + k) (s.first + k + 1) .normal "") w = v at hinside hsame ⊢
    have hlast : s.last < v.succs.size := by
      rw [hsame.size]
      exact hlast
    have hout : v.out s.last = [] := by
      rw [hinside, if_neg (by omega), hempty _ hfirst (Nat.le_refl _)]
    simp only [hsame.statements, hst, Option.map_some, Option.getD_some]
    rw [ha]
    refine (out_leave hends (firstAt spans) hlast hout hnext i).trans ?_
    rw [← ha, ← flowEdges_of_getElem? hst, hinside]
    by_cases hi : i = s.last
    · rw [if_pos hi, if_pos (by omega), hi]
    · rw [if_neg hi]
      exact if_congr (by omega) rfl rfl

lemma Extends.flow {v : Wiring} (h : w.Extends v) (spans : List Span) (s : Span) :
    w.Extends (v.flow spans s) := by
  have hchain := h.foldl (List.range (s.last - s.first))
    fun v k hv => hv.connect (s.first + k) (s.first + k + 1) .normal ""
  unfold Wiring.flow
  split
  · exact h
  · dsimp only
    split
    · exact hchain
    · split
      · exact (hchain.connect ..).connect ..
      · split
        · exact hchain.foldl _ fun v t hv => hv.connect _ t .normal ""
        · split
          · exact hchain
          · exact hchain.connect ..

/-- **Flow.** The edges of blocks that are apart and have none yet.

**Proof sketch.** Induction on the blocks. The edges of the first block are added by
`out_flow`; the other blocks are apart from it, so they still have none and keep the edges of the
first one. -/
lemma out_foldl_flow {blocks : List Span} (hfits : ∀ s ∈ blocks, s.Fits spans w.statements)
    (hapart : blocks.Pairwise fun s s' => s.last < s'.first)
    (hsize : w.succs.size = w.statements.size)
    (hempty : ∀ s ∈ blocks, ∀ i, s.first ≤ i → i ≤ s.last → w.out i = []) (i : Nat) :
    ((∃ s ∈ blocks, s.first ≤ i ∧ i ≤ s.last) →
      (blocks.foldl (flow spans) w).out i = flowEdges w.statements i) ∧
    ((∀ s ∈ blocks, ¬ (s.first ≤ i ∧ i ≤ s.last)) →
      (blocks.foldl (flow spans) w).out i = w.out i) := by
  induction blocks generalizing w with
  | nil => simp
  | cons s blocks ih =>
    obtain ⟨hapart, hrest⟩ := List.pairwise_cons.mp hapart
    have hfits' := List.forall_mem_cons.mp hfits
    have hext := (Extends.refl w).flow spans s
    have hout := out_flow hfits'.1 hsize (hempty s List.mem_cons_self)
    have hbehind : ∀ s' ∈ blocks, ∀ i, s'.first ≤ i → ¬ (s.first ≤ i ∧ i ≤ s.last) := by
      intro s' hs' i hi
      have := hapart s' hs'
      omega
    obtain ⟨hin, hnot⟩ := ih (w := w.flow spans s) (by simpa [hext.statements] using hfits'.2)
      hrest (by rw [hext.size, hext.statements, hsize]) (by
        intro s' hs' i hi hi'
        rw [hout, if_neg (hbehind s' hs' i hi)]
        exact hempty s' (List.mem_cons_of_mem _ hs') i hi hi')
    rw [hext.statements] at hin
    rw [hout] at hnot
    refine ⟨?_, ?_⟩
    · intro hi
      by_cases hlater : ∃ s' ∈ blocks, s'.first ≤ i ∧ i ≤ s'.last
      · exact hin hlater
      · obtain ⟨s', hs', hi⟩ := hi
        obtain rfl : s' = s := by
          rcases List.mem_cons.mp hs' with rfl | hs'
          · rfl
          · exact absurd ⟨s', hs', hi⟩ hlater
        have hlater : ∀ s ∈ blocks, ¬ (s.first ≤ i ∧ i ≤ s.last) := by simpa using hlater
        rw [if_pos hi] at hnot
        exact hnot hlater
    · intro hi
      obtain ⟨hs, hlater⟩ := List.forall_mem_cons.mp hi
      rw [if_neg hs] at hnot
      exact hnot hlater

end Wiring

/-! ## Scopes -/

/-- Where the way of the statement `i` to `t` leads to once `scopes` are closed: to the statement
that closes the first one of them that the statement is inside of and that ends at `t`. -/
def exitTarget (spans : List Span) (inside : Scope → Nat → Bool) (scopes : List Scope)
    (i t : Nat) : Nat :=
  ((scopes.find? fun s => inside s i && firstAt spans s.scope.stop == t).map
    Scope.closeNormal).getD t

/-- The edge with another target. -/
def Edge.retarget (f : Nat → Nat) (e : Edge) : Edge := { e with target := f e.target }

/-- Renaming targets apart keeps edges distinct. -/
lemma Distinct.map_retarget {out : List Edge} (h : Distinct out) {f : Nat → Nat}
    (hf : ∀ e ∈ out, ∀ e' ∈ out, f e.target = f e'.target → e.target = e'.target) :
    Distinct (out.map (Edge.retarget f)) := by
  refine List.pairwise_map.mpr (h.imp_of_mem fun {e e'} he he' hne hleads => hne ?_)
  exact ⟨hf e' he' e he hleads.1, hleads.2⟩

/-- The statement with its jump targets renamed. -/
def Statement.retarget (f : Nat → Nat) (st : Statement) : Statement :=
  { st with action := st.action.mapLabels f }

/-- The class whose method closes the resource. -/
def ResourceScope.closer (r : ResourceScope) : String :=
  if r.type = "" then "java/lang/AutoCloseable" else r.type

/-- The call that closes the resource. -/
def ResourceScope.closing (params : ParamSlots) (r : ResourceScope) : Action Nat :=
  .invoke none ⟨if r.type = "" then .interface else .virtual, ⟨r.closer, "close", "()V"⟩,
    some (params.variable r.slot (descriptorOf r.closer)), []⟩

/-- A statement that comes from no instruction. -/
def Statement.made (action : Action Nat) : Statement := { offset := -1, action, synthetic := true }

/-- The five statements of a scope, in order. -/
lemma Scope.statements_eq (params : ParamSlots) (r : ResourceScope) (stop scratch : Nat) :
    Scope.statements params r stop scratch =
      let exception : Value := .var (.scratch scratch) (descriptorOf javaLangThrowable)
      [.made (r.closing params), .made (.goto stop), .made (.receive exception ""),
        .made (r.closing params), .made (.throw exception)] := by
  unfold Scope.statements ResourceScope.closing ResourceScope.closer
  by_cases htype : r.type = ""
  · simp only [htype, if_true]
    rfl
  · simp only [htype, if_false]
    rfl

/-- The five statements of a scope are in place. -/
def Scope.Placed (params : ParamSlots) (spans : List Span) (statements : Array Statement)
    (s : Scope) : Prop :=
  ∃ scratch, ∀ k < 5, statements[s.base + k]? =
    (Scope.statements params s.scope (firstAt spans s.scope.stop) scratch)[k]?

section Placed

variable {params : ParamSlots} {spans : List Span} {statements : Array Statement} {s : Scope}

lemma Scope.Placed.getElem? (h : s.Placed params spans statements) :
    ∃ exception, statements[s.closeNormal]? = some (.made (s.scope.closing params)) ∧
      statements[s.gotoEnd]? = some (.made (.goto (firstAt spans s.scope.stop))) ∧
      statements[s.handler]? = some (.made (.receive exception "")) ∧
      statements[s.closeOnException]? = some (.made (s.scope.closing params)) ∧
      statements[s.rethrow]? = some (.made (.throw exception)) := by
  obtain ⟨scratch, h⟩ := h
  simp only [Scope.statements_eq] at h
  exact ⟨_, h 0 (by omega), h 1 (by omega), h 2 (by omega), h 3 (by omega), h 4 (by omega)⟩

lemma Scope.Placed.size_le (h : s.Placed params spans statements) :
    s.base + 5 ≤ statements.size := by
  obtain ⟨exception, -, -, -, -, hrethrow⟩ := h.getElem?
  exact (Array.getElem?_eq_some_iff.mp hrethrow).1

end Placed

section Scopes

variable {spans : List Span} {inside : Scope → Nat → Bool} {scopes done : List Scope} {count : Nat}

lemma exitTarget_nil (i : Nat) : exitTarget spans inside [] i = fun t => t := rfl

/-- One more scope is closed. -/
lemma exitTarget_concat (inside : Scope → Nat → Bool) (hbase : ∀ s ∈ done, count ≤ s.base)
    {s : Scope} (hstop : firstAt spans s.scope.stop < count) (i t : Nat) :
    exitTarget spans inside (done ++ [s]) i t =
      if inside s i then
        if exitTarget spans inside done i t = firstAt spans s.scope.stop then s.closeNormal
        else exitTarget spans inside done i t
      else exitTarget spans inside done i t := by
  unfold exitTarget
  rw [List.find?_append]
  cases hfind : done.find? fun s => inside s i && firstAt spans s.scope.stop == t with
  | some s' =>
    have hbase := hbase s' (List.mem_of_find?_eq_some hfind)
    have hne : s'.closeNormal ≠ firstAt spans s.scope.stop := by
      unfold Scope.closeNormal
      omega
    simp [hne]
  | none =>
    by_cases hinside : inside s i = true
    · by_cases ht : firstAt spans s.scope.stop = t
      · simp [hinside, ht]
      · simp [hinside, ht, Ne.symm ht]
    · simp [hinside]

/-- A way that leads behind the blocks leaves no scope. -/
lemma exitTarget_of_le (inside : Scope → Nat → Bool)
    (hstop : ∀ s ∈ done, firstAt spans s.scope.stop < count) (i : Nat) {t : Nat} (ht : count ≤ t) :
    exitTarget spans inside done i t = t := by
  unfold exitTarget
  rw [List.find?_eq_none.mpr]
  · rfl
  · intro s hs
    have := hstop s hs
    simp only [Bool.and_eq_true, beq_iff_eq, not_and]
    omega

end Scopes

/-- The ways of an action are no exceptions. -/
lemma Action.source_of_mem_ways {a : Action Nat} {i : Nat} {e : Edge} (h : e ∈ a.ways i) :
    e.source = i ∧ e.kind ≠ .exception := by
  unfold ways at h
  split at h
  · simp only [List.mem_cons, List.not_mem_nil, or_false] at h
    rcases h with rfl | rfl <;> simp
  · simp [List.mem_singleton.mp h]
  · obtain ⟨t, -, rfl⟩ := List.mem_map.mp h
    simp
  iterate 4 cases h
  simp [List.mem_singleton.mp h]

lemma source_of_mem_flowEdges {statements : Array Statement} {i : Nat} {e : Edge}
    (h : e ∈ flowEdges statements i) : e.source = i ∧ e.kind ≠ .exception := by
  cases hst : statements[i]? with
  | none => simp [flowEdges, hst] at h
  | some st =>
    rw [flowEdges_of_getElem? hst] at h
    have hways : e ∈ st.action.ways i := by simpa using mem_of_mem_foldl_insertEdge h
    exact Action.source_of_mem_ways hways

namespace Wiring

variable {w : Wiring} {spans : List Span}

/-- Whether a statement is inside a scope depends on its offset only. -/
lemma isInside_congr {v : Wiring} {i : Nat}
    (h : (v.statements[i]?).map (·.offset) = (w.statements[i]?).map (·.offset))
    (scopes : List Scope) (s : Scope) : v.isInside scopes s i = w.isInside scopes s i := by
  unfold isInside
  split
  · rfl
  · cases hv : v.statements[i]? <;> cases hw : w.statements[i]? <;> simp_all

/-- The scopes `done` have been connected, of which the first one is placed at `count`. -/
structure Redirected (spans : List Span) (inside : Scope → Nat → Bool)
    (statements : Array Statement) (count : Nat) (done : List Scope) (w : Wiring) : Prop where
  statements_eq : w.statements =
    statements.mapIdx fun i st => st.retarget (exitTarget spans inside done i)
  size : w.succs.size = statements.size
  out_eq : ∀ i, w.out i =
    if i < count + 5 * done.length then
      (flowEdges statements i).map (Edge.retarget (exitTarget spans inside done i))
    else []

/-- Sends the ways of some statements to `stop` to `close` instead. -/
def divert (w : Wiring) (inside : Nat → Bool) (stop close : Nat) : Wiring :=
  let move (t : Nat) : Nat := if t = stop then close else t
  { succs := w.succs.mapIdx fun i es =>
      if inside i then
        es.map fun e => if e.kind = .exception then e else { e with target := move e.target }
      else es
    statements := w.statements.mapIdx fun i st =>
      if inside i then { st with action := st.action.mapLabels move } else st }

lemma out_divert (inside : Nat → Bool) (stop close i : Nat) : (w.divert inside stop close).out i =
    if inside i then
      (w.out i).map fun e => if e.kind = .exception then e
        else e.retarget fun t => if t = stop then close else t
    else w.out i := by
  simp only [out, divert, Array.getD_eq_getD_getElem?, Array.getElem?_mapIdx]
  cases w.succs[i]? with
  | none => simp
  | some es =>
    simp only [Option.map_some, Option.getD_some]
    rfl

/-- Connects the statements of a scope. -/
def connectScope (w : Wiring) (s : Scope) : Wiring :=
  let gone := (((w.statements[s.gotoEnd]?).map (·.action.targets)).getD []).headD 0
  (((w.connect s.closeNormal s.gotoEnd .normal "").connect s.gotoEnd gone .normal "").connect
    s.handler s.closeOnException .normal "").connect s.closeOnException s.rethrow .normal ""

lemma Extends.connectScope {v : Wiring} (h : w.Extends v) (s : Scope) :
    w.Extends (v.connectScope s) := by
  unfold Wiring.connectScope
  exact (((h.connect ..).connect ..).connect ..).connect ..

/-- Each of the statements but the last one gets one edge. -/
lemma out_connectScope {s : Scope} (hsize : s.base + 5 ≤ w.succs.size)
    (hempty : ∀ k < 5, w.out (s.base + k) = []) (i : Nat) :
    (w.connectScope s).out i =
      if i = s.gotoEnd then
        [⟨i, (((w.statements[s.gotoEnd]?).map (·.action.targets)).getD []).headD 0, .normal, "",
          false⟩]
      else if i = s.closeNormal ∨ i = s.handler ∨ i = s.closeOnException then
        [⟨i, i + 1, .normal, "", false⟩]
      else w.out i := by
  unfold connectScope
  dsimp only
  generalize (((w.statements[s.gotoEnd]?).map (·.action.targets)).getD []).headD 0 = gone
  simp only [Scope.closeNormal, Scope.gotoEnd, Scope.handler, Scope.closeOnException,
    Scope.rethrow]
  have h₀ := out_connect_of_nil s.base (by omega) (hempty 0 (by omega)) (s.base + 1) .normal ""
  generalize hw₁ : w.connect s.base (s.base + 1) .normal "" = w₁ at h₀ ⊢
  have h₁ := out_connect_of_nil (w := w₁) (s.base + 1) (by simp [← hw₁]; omega)
    (by rw [h₀, if_neg (by omega), hempty 1 (by omega)]) gone .normal ""
  generalize hw₂ : w₁.connect (s.base + 1) gone .normal "" = w₂ at h₁ ⊢
  have h₂ := out_connect_of_nil (w := w₂) (s.base + 2) (by simp [← hw₂, ← hw₁]; omega)
    (by rw [h₁, if_neg (by omega), h₀, if_neg (by omega), hempty 2 (by omega)]) (s.base + 3)
    .normal ""
  generalize hw₃ : w₂.connect (s.base + 2) (s.base + 3) .normal "" = w₃ at h₂ ⊢
  rw [out_connect_of_nil (s.base + 3) (by simp [← hw₃, ← hw₂, ← hw₁]; omega)
    (by rw [h₂, if_neg (by omega), h₁, if_neg (by omega), h₀, if_neg (by omega),
      hempty 3 (by omega)]), h₂, h₁, h₀]
  grind

lemma redirect_eq (spans : List Span) (scopes : List Scope) (s : Scope) :
    w.redirect spans scopes s = (w.divert (w.isInside scopes s) (firstAt spans s.scope.stop)
      s.closeNormal).connectScope s := rfl

section Redirected

variable {inside : Scope → Nat → Bool} {statements : Array Statement} {count : Nat}
  {done : List Scope} {s : Scope}

/-- The ways that leave one more scope are sent to the statement that closes it. -/
lemma Redirected.divert (h : Redirected spans inside statements count done w)
    (hbase : ∀ s ∈ done, count ≤ s.base) (hstop : firstAt spans s.scope.stop < count) :
    (w.divert (inside s) (firstAt spans s.scope.stop) s.closeNormal).statements =
        (statements.mapIdx fun i st => st.retarget (exitTarget spans inside (done ++ [s]) i)) ∧
      (w.divert (inside s) (firstAt spans s.scope.stop) s.closeNormal).succs.size =
        statements.size ∧
      ∀ i, (w.divert (inside s) (firstAt spans s.scope.stop) s.closeNormal).out i =
        if i < count + 5 * done.length then
          (flowEdges statements i).map (Edge.retarget (exitTarget spans inside (done ++ [s]) i))
        else [] := by
  have htarget := exitTarget_concat inside hbase hstop
  have hmove : ∀ i, inside s i = true →
      (fun t => if t = firstAt spans s.scope.stop then s.closeNormal else t) ∘
        exitTarget spans inside done i = exitTarget spans inside (done ++ [s]) i := by
    intro i hinside
    funext t
    rw [htarget, if_pos hinside]
    rfl
  have hkeep : ∀ i, ¬ inside s i = true →
      exitTarget spans inside (done ++ [s]) i = exitTarget spans inside done i := by
    intro i hinside
    funext t
    rw [htarget, if_neg hinside]
  refine ⟨?_, by simp [Wiring.divert, h.size], fun i => ?_⟩
  · simp only [Wiring.divert, h.statements_eq, Array.mapIdx_mapIdx]
    congr 1
    funext i st
    dsimp only [Function.comp]
    split
    · rename_i hinside
      simp only [Statement.retarget, Action.mapLabels_mapLabels]
      rw [← hmove i hinside]
    · rename_i hinside
      rw [hkeep i hinside]
  · rw [out_divert, h.out_eq]
    by_cases hi : i < count + 5 * done.length
    · rw [if_pos hi, if_pos hi]
      split
      · rename_i hinside
        rw [List.map_map, ← hmove i hinside]
        refine List.map_congr_left fun e he => ?_
        have hkind : (e.retarget (exitTarget spans inside done i)).kind ≠ .exception :=
          (source_of_mem_flowEdges he).2
        rw [Function.comp_apply, if_neg hkind]
        rfl
      · rename_i hinside
        rw [hkeep i hinside]
    · rw [if_neg hi, if_neg hi]
      split <;> rfl

/-- A statement that is retargeted keeps its offset, so it is inside the same scopes. -/
lemma Redirected.isInside_eq (h : Redirected spans inside statements count done w)
    (scopes : List Scope) (i : Nat) :
    w.isInside scopes s i = isInside scopes ⟨statements, #[]⟩ s i := by
  refine isInside_congr ?_ scopes s
  rw [h.statements_eq, Array.getElem?_mapIdx, Option.map_map]
  rfl

/-- **Scopes.** One more scope is connected.

**Proof sketch.** Sending the ways that leave the scope to the statement that closes it retargets
the edges and the jumps of the statements connected so far. The statements of the scope itself have
no edges yet. Each of them gets the edge of its way: three lead to the next statement, where no
scope ends, and the jump behind the scope leads to where its target has been moved by the scopes
done. -/
lemma Redirected.redirect {params : ParamSlots} {scopes : List Scope}
    (h : Redirected spans (isInside scopes ⟨statements, #[]⟩) statements count done w)
    (hbase : s.base = count + 5 * done.length) (hplaced : s.Placed params spans statements)
    (hdone : ∀ s' ∈ done, count ≤ s'.base)
    (hstop : ∀ s' ∈ done ++ [s], firstAt spans s'.scope.stop < count) :
    Redirected spans (isInside scopes ⟨statements, #[]⟩) statements count (done ++ [s])
      (w.redirect spans scopes s) := by
  have hinside : w.isInside scopes s = isInside scopes ⟨statements, #[]⟩ s :=
    funext (h.isInside_eq scopes)
  rw [redirect_eq, hinside]
  obtain ⟨hstatements, hsize, hout⟩ := h.divert hdone (hstop s (by simp))
  generalize w.divert (isInside scopes ⟨statements, #[]⟩ s) (firstAt spans s.scope.stop)
    s.closeNormal = v at hstatements hsize hout ⊢
  have hconnect := out_connectScope (w := v) (s := s) (by have := hplaced.size_le; omega)
    (fun k hk => by rw [hout, if_neg (by omega)])
  have hext := (Extends.refl v).connectScope s
  refine ⟨hext.statements.trans hstatements, hext.size.trans hsize, fun i => ?_⟩
  rw [hconnect, hout, List.length_append, List.length_singleton]
  obtain ⟨exception, hclose, hgoto, hhandler, hcloseOn, hrethrow⟩ := hplaced.getElem?
  by_cases hend : i = s.gotoEnd
  · subst hend
    rw [if_pos rfl, if_pos (by unfold Scope.gotoEnd; omega), flowEdges_of_getElem? hgoto,
      hstatements, Array.getElem?_mapIdx, hgoto]
    rfl
  by_cases hnext : i = s.closeNormal ∨ i = s.handler ∨ i = s.closeOnException
  · have hflow : flowEdges statements i = [⟨i, i + 1, .normal, "", false⟩] := by
      rcases hnext with rfl | rfl | rfl
      · exact flowEdges_of_isStraight hclose rfl
      · exact flowEdges_of_isStraight hhandler rfl
      · exact flowEdges_of_isStraight hcloseOn rfl
    have hi : count ≤ i ∧ i < count + 5 * (done.length + 1) := by
      unfold Scope.closeNormal Scope.handler Scope.closeOnException at hnext
      omega
    have htarget := exitTarget_of_le (isInside scopes ⟨statements, #[]⟩) hstop i
      (t := i + 1) (by omega)
    rw [if_neg hend, if_pos hnext, if_pos hi.2, hflow]
    simp only [List.map_singleton, Edge.retarget, htarget]
  · rw [if_neg hend, if_neg hnext]
    unfold Scope.closeNormal Scope.handler Scope.closeOnException at hnext
    unfold Scope.gotoEnd at hend
    by_cases hthrow : i = s.rethrow
    · subst hthrow
      rw [flowEdges_of_getElem? hrethrow]
      split <;> split <;> rfl
    · unfold Scope.rethrow at hthrow
      exact if_congr (by omega) rfl rfl

/-- The scopes that are left are connected one after the other. -/
lemma Redirected.foldl {params : ParamSlots} {scopes todo : List Scope}
    (h : Redirected spans (isInside scopes ⟨statements, #[]⟩) statements count done w)
    (hbase : ∀ j s, (done ++ todo)[j]? = some s → s.base = count + 5 * j)
    (hplaced : ∀ s ∈ todo, s.Placed params spans statements)
    (hstop : ∀ s ∈ done ++ todo, firstAt spans s.scope.stop < count) :
    Redirected spans (isInside scopes ⟨statements, #[]⟩) statements count (done ++ todo)
      (todo.foldl (Wiring.redirect spans scopes) w) := by
  induction todo generalizing done w with
  | nil =>
    rw [List.append_nil]
    exact h
  | cons s todo ih =>
    have happend : done ++ s :: todo = done ++ [s] ++ todo := by simp
    rw [happend] at hbase hstop ⊢
    rw [List.foldl_cons]
    have hstep := h.redirect (s := s) (hbase done.length s (by simp)) (hplaced s (by simp))
      (fun s' hs' => by
        obtain ⟨j, hj⟩ := List.mem_iff_getElem?.mp hs'
        have hlt := (List.getElem?_eq_some_iff.mp hj).1
        have := hbase j s' (by
          rw [List.append_assoc, List.getElem?_append_left hlt, hj])
        omega)
      (fun s' hs' => hstop s' (List.mem_append_left _ hs'))
    exact ih hstep hbase (fun s' hs' => hplaced s' (List.mem_cons_of_mem _ hs')) hstop

end Redirected

end Wiring

/-! ## Exceptions -/

/-- The edges of an exception: to the handlers that may catch it, up to the first one that surely
does, and to the exit if there is none. -/
def catchEdges (types : Option ClassTable) (i exit : Nat) (raised : String) :
    List Handler → List Edge
  | [] => [⟨i, exit, .exception, "", false⟩]
  | h :: hs =>
    match matchHandler types raised h.catchType with
    | .always => [⟨i, h.target, .exception, h.catchType, false⟩]
    | .maybe => ⟨i, h.target, .exception, h.catchType, false⟩ :: catchEdges types i exit raised hs
    | .never => catchEdges types i exit raised hs

/-- The exception edges of a statement. -/
def raisedEdges (types : Option ClassTable) (handlers : List HandlerEntry) (spans : List Span)
    (scopes : List Scope) (exit : Nat) (statements : Array Statement) (i : Nat) : List Edge :=
  match statements[i]? with
  | none => []
  | some st =>
    if st.action.mayThrow then
      catchEdges types i exit (raisedType st.action)
        (handlersFor handlers spans scopes st.offset (ownerOf? scopes i))
    else []

lemma mem_insertScope {s : Scope} {hs : List Handler} {h : Handler} :
    h ∈ insertScope s hs ↔ h ∈ hs ∨ h = ⟨s.scope.start, s.scope.stop, "", s.handler⟩ := by
  unfold insertScope
  generalize hs.length - (hs.reverse.takeWhile fun h => !h.within s).length = inner
  have hsplit : h ∈ hs ↔ h ∈ hs.take inner ∨ h ∈ hs.drop inner := by
    rw [← List.mem_append, List.take_append_drop]
  rw [hsplit]
  simp only [List.mem_append, List.mem_singleton]
  tauto

/-- The handlers of a statement are those of the exception table and those of scopes. -/
lemma target_of_mem_handlersFor {handlers : List HandlerEntry} {spans : List Span}
    {scopes : List Scope} {offset : Int} {owner : Option Scope} {h : Handler}
    (hh : h ∈ handlersFor handlers spans scopes offset owner) :
    (∃ e ∈ handlers, h.target = firstAt spans e.handler) ∨
      ∃ s ∈ scopes, h.target = s.handler := by
  unfold handlersFor at hh
  dsimp only at hh
  revert hh
  refine List.foldlRecOn (motive := fun hs => h ∈ hs →
    (∃ e ∈ handlers, h.target = firstAt spans e.handler) ∨
      ∃ s ∈ scopes, h.target = s.handler) _ _ ?_ ?_
  · intro hh
    obtain ⟨e, he, rfl⟩ := List.mem_map.mp hh
    exact .inl ⟨e, (List.mem_filter.mp he).1, rfl⟩
  · intro hs ih s hmem hh
    rcases mem_insertScope.mp hh with hh | rfl
    · exact ih hh
    · exact .inr ⟨s, (List.mem_filter.mp hmem).1, rfl⟩

section CatchEdges

variable {types : Option ClassTable} {i exit : Nat} {raised : String}

lemma catchEdges_ne_nil (hs : List Handler) : catchEdges types i exit raised hs ≠ [] := by
  induction hs with
  | nil => simp [catchEdges]
  | cons h hs ih =>
    unfold catchEdges
    split
    · simp
    · simp
    · exact ih

lemma of_mem_catchEdges {hs : List Handler} {e : Edge}
    (he : e ∈ catchEdges types i exit raised hs) :
    e.source = i ∧ e.kind = .exception ∧ (e.target = exit ∨ ∃ h ∈ hs, e.target = h.target) := by
  induction hs with
  | nil =>
    rw [List.mem_singleton.mp he]
    exact ⟨rfl, rfl, .inl rfl⟩
  | cons h hs ih =>
    have hthis : ∀ e' : Edge, e' = ⟨i, h.target, .exception, h.catchType, false⟩ →
        e'.source = i ∧ e'.kind = .exception ∧
          (e'.target = exit ∨ ∃ h' ∈ h :: hs, e'.target = h'.target) := by
      rintro e' rfl
      exact ⟨rfl, rfl, .inr ⟨h, List.mem_cons_self, rfl⟩⟩
    have hlater : e ∈ catchEdges types i exit raised hs → e.source = i ∧ e.kind = .exception ∧
        (e.target = exit ∨ ∃ h' ∈ h :: hs, e.target = h'.target) := by
      intro he
      obtain ⟨hsource, hkind, htarget⟩ := ih he
      refine ⟨hsource, hkind, htarget.imp_right ?_⟩
      rintro ⟨h', hh', heq⟩
      exact ⟨h', List.mem_cons_of_mem _ hh', heq⟩
    unfold catchEdges at he
    split at he
    · exact hthis e (List.mem_singleton.mp he)
    · rcases List.mem_cons.mp he with he | he
      · exact hthis e he
      · exact hlater he
    · exact hlater he

end CatchEdges

/-- The exception edges of a statement lead from there to handlers or to the exit. -/
lemma raisedEdges_cases {types : Option ClassTable} {handlers : List HandlerEntry}
    {spans : List Span} {scopes : List Scope} {exit : Nat} {statements : Array Statement} {i : Nat}
    {e : Edge} (he : e ∈ raisedEdges types handlers spans scopes exit statements i) :
    e.source = i ∧ e.kind = .exception ∧ Holds statements i (fun a => a.mayThrow = true) ∧
      (e.target = exit ∨ (∃ h ∈ handlers, e.target = firstAt spans h.handler) ∨
        ∃ s ∈ scopes, e.target = s.handler) := by
  unfold raisedEdges at he
  split at he
  · cases he
  · rename_i st hst
    split at he
    · rename_i hthrow
      obtain ⟨hsource, hkind, htarget⟩ := of_mem_catchEdges he
      refine ⟨hsource, hkind, ⟨st, hst, hthrow⟩, htarget.imp_right ?_⟩
      rintro ⟨h, hh, htarget⟩
      rw [htarget]
      exact target_of_mem_handlersFor hh
    · cases he

namespace Wiring

variable {w : Wiring} {types : Option ClassTable} {i exit : Nat}

lemma Extends.raiseTo {v : Wiring} (h : w.Extends v) (raised : String) (hs : List Handler) :
    w.Extends (raiseTo types i exit raised hs v) := by
  induction hs generalizing v with
  | nil => exact h.connect ..
  | cons handler hs ih =>
    unfold Wiring.raiseTo
    split
    · exact h.connect ..
    · exact ih (h.connect ..)
    · exact ih h

lemma out_raiseTo (hi : i < w.succs.size) (raised : String) (hs : List Handler) (j : Nat) :
    (raiseTo types i exit raised hs w).out j =
      if j = i then (catchEdges types i exit raised hs).foldl insertEdge (w.out i)
      else w.out j := by
  induction hs generalizing w with
  | nil => exact out_connect hi ..
  | cons handler hs ih =>
    unfold raiseTo catchEdges
    cases matchHandler types raised handler.catchType with
    | always => exact out_connect hi ..
    | maybe =>
      dsimp only
      rw [ih (by simpa using hi), out_connect hi, out_connect hi, if_pos rfl]
      by_cases hj : j = i
      · rw [if_pos hj, if_pos hj]
        rfl
      · rw [if_neg hj, if_neg hj, if_neg hj]
    | never => exact ih hi

section Raise

variable {handlers : List HandlerEntry} {spans : List Span} {scopes : List Scope}

lemma Extends.raise {v : Wiring} (h : w.Extends v) (types : Option ClassTable)
    (handlers : List HandlerEntry) (spans : List Span) (scopes : List Scope) (exit i : Nat) :
    w.Extends (v.raise types handlers spans scopes exit i) := by
  unfold Wiring.raise
  split
  · exact h
  · split
    · exact h.raiseTo ..
    · exact h

lemma out_raise (hi : i < w.succs.size) (j : Nat) :
    (w.raise types handlers spans scopes exit i).out j =
      if j = i then
        (raisedEdges types handlers spans scopes exit w.statements i).foldl insertEdge (w.out i)
      else w.out j := by
  have hsame : w.out j = if j = i then w.out i else w.out j := by
    split
    · rename_i hj
      rw [hj]
    · rfl
  unfold raise raisedEdges
  cases w.statements[i]? with
  | none => exact hsame
  | some st =>
    dsimp only
    split
    · exact out_raiseTo hi ..
    · exact hsame

/-- **Exceptions.** The exception edges are added behind the others. -/
lemma out_foldl_raise {n : Nat} (hn : n ≤ w.succs.size) (i : Nat) :
    ((List.range n).foldl (raise types handlers spans scopes exit) w).out i =
      if i < n then
        (raisedEdges types handlers spans scopes exit w.statements i).foldl insertEdge (w.out i)
      else w.out i := by
  induction n generalizing i with
  | zero => rfl
  | succ n ih =>
    have hext := (Extends.refl w).foldl (List.range n)
      fun v k hv => hv.raise types handlers spans scopes exit k
    rw [List.range_succ, List.foldl_append, List.foldl_cons, List.foldl_nil,
      out_raise (by rw [hext.size]; omega), hext.statements, ih (by omega), ih (by omega)]
    by_cases hi : i = n
    · subst hi
      rw [if_pos rfl, if_neg (by omega), if_pos (by omega)]
    · rw [if_neg hi]
      exact if_congr (by omega) rfl rfl

end Raise

end Wiring

end JvmTaint
