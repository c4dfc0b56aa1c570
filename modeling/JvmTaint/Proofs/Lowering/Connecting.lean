import JvmTaint.Proofs.Lowering.Passes
import JvmTaint.Proofs.Lowering.StackShapes

set_option autoImplicit false
set_option relaxedAutoImplicit false

/-!
# Connected code

What connecting the statements of a method comes to, statement by statement: the edges of the ways
of its action, which close the scopes that they leave, and behind them the edges of its exceptions.

## Main definitions

* `JvmTaint.Progression.unlinked`: the statements before they are connected.
* `JvmTaint.Progression.Complete`: all blocks of a checked body have been lowered.
* `JvmTaint.Progression.leadsTo`: where a way of a statement leads to once all scopes are closed.

## Main results

* `JvmTaint.Progression.Complete.redirected`: the outcome of the first two passes.
* `JvmTaint.connectAll_statements`, `JvmTaint.connectAll_out`: the outcome for each statement.
-/

namespace JvmTaint

/-! ## Unconnected statements -/

/-- An element of lists of the same length that stand one behind the other. -/
lemma getElem?_flatMap_of_length {α β : Type} {f : α → List β} {n : Nat}
    (hf : ∀ x, (f x).length = n) (xs : List α) (j : Nat) {k : Nat} (hk : k < n) :
    (xs.flatMap f)[n * j + k]? = (xs[j]?).bind fun x => (f x)[k]? := by
  induction xs generalizing j with
  | nil => rfl
  | cons x xs ih =>
    rw [List.flatMap_cons]
    cases j with
    | zero => rw [Nat.mul_zero, Nat.zero_add, List.getElem?_append_left (by rw [hf]; exact hk)]; rfl
    | succ j =>
      have hle : n ≤ n * (j + 1) := Nat.le_mul_of_pos_right n (by omega)
      rw [List.getElem?_append_right (by rw [hf]; omega), hf, Nat.mul_succ,
        show n * j + n + k - n = n * j + k by omega, ih]
      rfl

lemma length_scopeStatements (params : ParamSlots) (r : ResourceScope) (stop scratch : Nat) :
    (Scope.statements params r stop scratch).length = 5 := by
  rw [Scope.statements_eq]
  rfl

/-- The scopes are placed one behind the other. -/
lemma base_of_placeScopes {resources : List ResourceScope} {base j : Nat} {s : Scope}
    (h : (placeScopes resources base)[j]? = some s) : s.base = base + 5 * j := by
  unfold placeScopes at h
  simp only [List.getElem?_map, List.getElem?_zipIdx] at h
  obtain ⟨⟨r, k⟩, hr, rfl⟩ := Option.map_eq_some_iff.mp h
  obtain ⟨r', -, heq⟩ := Option.map_eq_some_iff.mp hr
  cases heq
  dsimp only
  omega

lemma length_placeScopes (resources : List ResourceScope) (base : Nat) :
    (placeScopes resources base).length = resources.length := by
  simp [placeScopes]

namespace Progression

variable (params : ParamSlots) (resources : List ResourceScope) (p : Progression)

/-- The resource scopes, with their places behind the blocks. -/
def scopes : List Scope := placeScopes resources p.lowered.size

/-- The statements before they are connected: those of the blocks, those of the scopes, and the
exit. -/
def unlinked : Array Statement :=
  ((p.lowered.map fun l =>
      { offset := l.offset, action := l.action.mapLabels (firstAt p.spans) : Statement }) ++
    ((p.scopes resources).zipIdx.flatMap fun (s, i) =>
      Scope.statements params s.scope (firstAt p.spans s.scope.stop) (p.scratch + i))).push
    exitStatement

/-- The position of the exit. -/
def exit : Nat := p.lowered.size + 5 * resources.length

/-- The statement is inside the scope. -/
def inside (s : Scope) (i : Nat) : Bool :=
  Wiring.isInside (p.scopes resources) ⟨p.unlinked params resources, #[]⟩ s i

/-- Where a way of a statement leads to once all scopes are closed. -/
def leadsTo (i t : Nat) : Nat :=
  exitTarget p.spans (p.inside params resources) (p.scopes resources) i t

/-- The statements, without edges. -/
def unconnected : Wiring :=
  ⟨p.unlinked params resources, Array.replicate (p.unlinked params resources).size []⟩

/-- The flow is connected. -/
def flowing : Wiring := p.spans.foldl (Wiring.flow p.spans) (p.unconnected params resources)

/-- The flow and the scopes are connected. -/
def closing : Wiring :=
  (p.scopes resources).foldl (Wiring.redirect p.spans (p.scopes resources))
    (p.flowing params resources)

lemma connectAll_eq (types : Option ClassTable) (handlers : List HandlerEntry) :
    connectAll types params handlers resources p =
      (List.range (p.unlinked params resources).size).foldl
        (Wiring.raise types handlers p.spans (p.scopes resources)
          ((p.unlinked params resources).size - 1)) (p.closing params resources) := rfl

variable {p}

/-- The statements of the scopes. -/
lemma getElem?_scopeStatements (j : Nat) {k : Nat} (hk : k < 5) :
    ((p.scopes resources).zipIdx.flatMap fun (s, i) =>
      Scope.statements params s.scope (firstAt p.spans s.scope.stop) (p.scratch + i))[5 * j + k]? =
      ((p.scopes resources)[j]?).bind fun s =>
        (Scope.statements params s.scope (firstAt p.spans s.scope.stop) (p.scratch + j))[k]? := by
  rw [getElem?_flatMap_of_length (fun _ => length_scopeStatements ..) _ j hk,
    List.getElem?_zipIdx, Option.bind_map]
  simp only [Function.comp_def, Nat.zero_add]

lemma toList_unlinked : (p.unlinked params resources).toList =
    (p.lowered.toList.map fun l =>
      { offset := l.offset, action := l.action.mapLabels (firstAt p.spans) : Statement }) ++
    ((p.scopes resources).zipIdx.flatMap fun (s, i) =>
      Scope.statements params s.scope (firstAt p.spans s.scope.stop) (p.scratch + i)) ++
    [exitStatement] := by
  simp [unlinked]

lemma length_scopes : (p.scopes resources).length = resources.length := length_placeScopes ..

lemma length_scopesStatements :
    ((p.scopes resources).zipIdx.flatMap fun (s, i) => Scope.statements params s.scope
      (firstAt p.spans s.scope.stop) (p.scratch + i)).length = 5 * resources.length := by
  simp [length_scopeStatements, length_scopes, List.length_flatMap, List.map_const', Nat.mul_comm]

lemma size_unlinked : (p.unlinked params resources).size = p.exit resources + 1 := by
  rw [← Array.length_toList, toList_unlinked, List.length_append, List.length_append,
    length_scopesStatements, List.length_map, Array.length_toList]
  rfl

/-- The statements of the blocks come first. -/
lemma getElem?_unlinked {i : Nat} (hi : i < p.lowered.size) :
    (p.unlinked params resources)[i]? = (p.lowered.toList[i]?).map fun l =>
      { offset := l.offset, action := l.action.mapLabels (firstAt p.spans) : Statement } := by
  rw [← Array.getElem?_toList, toList_unlinked, List.append_assoc,
    List.getElem?_append_left (by simpa using hi), List.getElem?_map]

/-- The statements of the scopes follow. -/
lemma placed_unlinked {s : Scope} (hs : s ∈ p.scopes resources) :
    s.Placed params p.spans (p.unlinked params resources) := by
  obtain ⟨j, hj⟩ := List.mem_iff_getElem?.mp hs
  have hbase : s.base = p.lowered.size + 5 * j := base_of_placeScopes hj
  have hlt : j < resources.length := by
    rw [← length_scopes]
    exact (List.getElem?_eq_some_iff.mp hj).1
  refine ⟨p.scratch + j, fun k hk => ?_⟩
  rw [← Array.getElem?_toList, toList_unlinked, List.append_assoc,
    List.getElem?_append_right (by rw [List.length_map, Array.length_toList]; omega),
    List.getElem?_append_left (by
      rw [List.length_map, Array.length_toList, length_scopesStatements]
      omega),
    List.length_map, Array.length_toList,
    show s.base + k - p.lowered.size = 5 * j + k by omega,
    getElem?_scopeStatements params resources j hk, hj]
  rfl

/-- The exit comes last. -/
lemma getElem?_unlinked_exit :
    (p.unlinked params resources)[p.exit resources]? = some exitStatement := by
  have hlength := length_scopesStatements params resources (p := p)
  rw [← Array.getElem?_toList, toList_unlinked, List.getElem?_append_right (by
      rw [List.length_append, List.length_map, Array.length_toList, hlength]
      exact Nat.le_refl _),
    List.length_append, List.length_map, Array.length_toList, hlength]
  simp [exit]

/-- A statement behind the blocks and in front of the exit belongs to a scope. -/
lemma exists_scope {i : Nat} (hi : p.lowered.size ≤ i) (hi' : i < p.exit resources) :
    ∃ s ∈ p.scopes resources, s.owns i = true := by
  unfold exit at hi'
  have hj : (i - p.lowered.size) / 5 < (p.scopes resources).length := by
    rw [length_scopes]
    omega
  refine ⟨_, List.getElem_mem hj, ?_⟩
  have hbase : ((p.scopes resources)[(i - p.lowered.size) / 5]).base =
      p.lowered.size + 5 * ((i - p.lowered.size) / 5) :=
    base_of_placeScopes (List.getElem?_eq_getElem hj)
  unfold Scope.owns
  rw [hbase]
  exact decide_eq_true (by omega)

/-- All blocks of a checked body have been lowered. -/
structure Complete (b : MethodBody) (p : Progression) : Prop where
  valid : b.Valid
  ne_nil : b.code ≠ []
  blocks : p.spans.map (·.block) = b.blocks
  laid : Laid 0 0 p.spans p.lowered.toList
  reached : ∀ i s, p.spans[i]? = some s → (s.reached = true ↔ Visits b.blocks i)

namespace Complete

variable {params resources} {b : MethodBody}

lemma block_mem (h : p.Complete b) {s : Span} (hs : s ∈ p.spans) : s.block ∈ b.blocks := by
  rw [← h.blocks]
  exact List.mem_map_of_mem hs

lemma exists_span (h : p.Complete b) {block : BasicBlock} (hblock : block ∈ b.blocks) :
    ∃ s ∈ p.spans, s.block = block := by
  rw [← h.blocks] at hblock
  exact List.mem_map.mp hblock

lemma instructions_ne_nil (h : p.Complete b) {s : Span} (hs : s ∈ p.spans) :
    s.block.instructions ≠ [] :=
  (b.regular_of_mem_blocks (h.block_mem hs)).ne_nil

lemma spans_ne_nil (h : p.Complete b) : p.spans ≠ [] := by
  intro hnil
  have hblocks : b.blocks = [] := by simp [← h.blocks, hnil]
  have hcode := b.flatMap_blocks
  rw [hblocks] at hcode
  exact h.ne_nil hcode.symm

/-- There is a statement. -/
lemma lowered_pos (h : p.Complete b) : 0 < p.lowered.size := by
  obtain ⟨s, hs⟩ := List.exists_mem_of_ne_nil _ h.spans_ne_nil
  have := h.laid.bounds hs
  rw [Array.length_toList] at this
  omega

/-- Jumps lead to statements of blocks. -/
lemma firstAt_lt (h : p.Complete b) (offset : Int) : firstAt p.spans offset < p.lowered.size := by
  unfold firstAt
  cases hfind : p.spans.find? (·.block.offset == offset) with
  | none => exact h.lowered_pos
  | some s =>
    have := h.laid.bounds (List.mem_of_find?_eq_some hfind)
    rw [Array.length_toList] at this
    dsimp only [Option.map_some, Option.getD_some]
    omega

/-- A fall-through leads to a statement of a block. -/
lemma firstFrom_lt (h : p.Complete b) (start : Nat) : firstFrom p.spans start < p.lowered.size := by
  unfold firstFrom
  cases hfind : p.spans.find? (·.block.start == start) with
  | none => exact h.lowered_pos
  | some s =>
    have := h.laid.bounds (List.mem_of_find?_eq_some hfind)
    rw [Array.length_toList] at this
    dsimp only [Option.map_some, Option.getD_some]
    omega

/-- The last block does not go on behind its end. -/
lemma endsBlock_of_getLast? (h : p.Complete b) {s : Span} (hs : p.spans.getLast? = some s)
    {ins : Instruction} (hins : s.block.last? = some ins) : ins.op.endsBlock = true := by
  have hblock : b.blocks.getLast? = some s.block := by
    rw [← h.blocks, List.getLast?_map, hs]
    rfl
  exact h.valid.ends ins (b.getLast?_code hblock hins)

/-- The statements of a block are as the block is. -/
lemma fits (h : p.Complete b) (params : ParamSlots) (resources : List ResourceScope) {s : Span}
    (hs : s ∈ p.spans) : s.Fits p.spans (p.unlinked params resources) := by
  have hbounds := h.laid.bounds hs
  rw [Array.length_toList] at hbounds
  obtain ⟨part, hpart, -, hlast, hget⟩ := h.laid.part_of_mem hs
  have hholds : ∀ (Q : Action Nat → Prop) (i : Nat) (l : Lowered), s.first ≤ i → i ≤ s.last →
      part[i - s.first]? = some l → Q (l.action.mapLabels (firstAt p.spans)) →
      Holds (p.unlinked params resources) i Q := by
    intro Q i l hfirst hi hl hQ
    have hlowered := hget i hfirst hi
    rw [Nat.sub_zero, hl] at hlowered
    exact ⟨_, by rw [getElem?_unlinked params resources (by omega), hlowered]; rfl, hQ⟩
  generalize hreached : s.reached = reached at hpart
  cases hpart with
  | @reached front l ins hins hfront hends hbegins =>
    rw [List.length_append, List.length_singleton] at hlast
    refine ⟨hbounds.2.1, fun hdead => ?_, fun _ i hfirst hi => ?_, fun _ => ⟨ins, hins, ?_, ?_⟩⟩
    · rw [hreached] at hdead
      cases hdead
    · have hlt : i - s.first < front.length := by omega
      refine hholds _ i front[i - s.first] hfirst (by omega) ?_ ?_
      · rw [List.getElem?_append_left hlt, List.getElem?_eq_getElem hlt]
      · rw [Action.isStraight_mapLabels]
        exact hfront _ (List.getElem_mem hlt)
    · refine hholds _ s.last l hbounds.2.1 (Nat.le_refl _) ?_ ⟨l.action, hends, rfl⟩
      rw [show s.last - s.first = front.length by omega]
      simp
    · intro hgoes
      rcases h.laid.firstFrom_eq (fun s hs => h.instructions_ne_nil hs) hs with hend | hnext
      · rw [h.endsBlock_of_getLast? hend hins] at hgoes
        cases hgoes
      · exact hnext
  | dead hne =>
    refine ⟨hbounds.2.1, fun _ i hfirst hi => ?_, fun halive => ?_, fun halive => ?_⟩
    · have hlt : i - s.first < (placeholders s.block).length := by omega
      refine hholds _ i (placeholders s.block)[i - s.first] hfirst hi
        (List.getElem?_eq_getElem hlt) ?_
      rw [Action.isUnreachable_mapLabels]
      exact isUnreachable_of_mem_placeholders (List.getElem_mem hlt)
    all_goals
      rw [hreached] at halive
      cases halive

/-- The edges of the flow. -/
lemma out_flowing (h : p.Complete b) (i : Nat) : (p.flowing params resources).out i =
    if i < p.lowered.size then flowEdges (p.unlinked params resources) i else [] := by
  have hempty : ∀ i, (p.unconnected params resources).out i = [] := by
    intro i
    simp only [unconnected, Wiring.out, Array.getD_eq_getD_getElem?, Array.getElem?_replicate]
    split <;> rfl
  obtain ⟨hin, hnot⟩ := Wiring.out_foldl_flow (w := p.unconnected params resources)
    (fun s hs => h.fits params resources hs) h.laid.apart (by simp [unconnected])
    (fun _ _ i _ _ => hempty i) i
  unfold flowing
  split
  · rename_i hi
    exact hin (h.laid.exists_span (Nat.zero_le i) (by simpa using hi))
  · rename_i hi
    rw [hnot, hempty]
    intro s hs hin
    have := h.laid.bounds hs
    rw [Array.length_toList] at this
    omega

/-- All scopes are connected. -/
lemma redirected (h : p.Complete b) (params : ParamSlots) (resources : List ResourceScope) :
    Wiring.Redirected p.spans (p.inside params resources) (p.unlinked params resources)
      p.lowered.size (p.scopes resources) (p.closing params resources) := by
  have hext := (Wiring.Extends.refl (p.unconnected params resources)).foldl p.spans
    fun v s hv => hv.flow p.spans s
  have hstart : Wiring.Redirected p.spans (p.inside params resources)
      (p.unlinked params resources) p.lowered.size [] (p.flowing params resources) := by
    refine ⟨hext.statements.trans ?_, hext.size.trans (by simp [unconnected]), fun i => ?_⟩
    · refine Array.ext_getElem? fun i => ?_
      rw [Array.getElem?_mapIdx]
      simp [Statement.retarget, exitTarget_nil, unconnected]
    · rw [h.out_flowing]
      exact if_congr (by simp) (List.map_id _).symm rfl
  exact hstart.foldl (fun j s hj => base_of_placeScopes hj)
    (fun s hs => placed_unlinked params resources hs) (fun s _ => h.firstAt_lt _)

end Complete

end Progression

/-! ## Statements of a lowered method -/

/-- The action of the statement `i` of a block, if the blocks have `count` statements: its ways lead
to these. -/
inductive Action.InBlock (count i : Nat) : Action Nat → Prop
  | unreachable (op : Opcode) : InBlock count i (.unreachable op)
  | straight {a : Action Nat} (h : a.isStraight = true) (hnext : i + 1 < count) : InBlock count i a
  | branch (condition : Condition) {t : Nat} (ht : t < count) (hnext : i + 1 < count) :
    InBlock count i (.branch condition t)
  | goto {t : Nat} (ht : t < count) : InBlock count i (.goto t)
  | switch (key : Value) {ts : List Nat} (hne : ts ≠ []) (hts : ∀ t ∈ ts, t < count) :
    InBlock count i (.switch key ts)
  | ret (src : Option Value) : InBlock count i (.ret src)
  | throw (src : Value) : InBlock count i (.throw src)

/-- The last action of a block. -/
lemma Instruction.EndsIn.inBlock {ins : Instruction} {a : Action Int} (h : ins.EndsIn a)
    {f : Int → Nat} {count i : Nat} (hf : ∀ offset, f offset < count)
    (hnext : ins.op.endsBlock = false → i + 1 < count) : (a.mapLabels f).InBlock count i := by
  cases h with
  | branch h condition =>
    exact .branch condition (hf _) (hnext (Opcode.endsBlock_of_isConditional h))
  | goto h => exact .goto (hf _)
  | switch h key =>
    have hop : (ins.op.isConditional || ins.op.isGoto) = false := by
      simp only [Opcode.isSwitch, Opcode.isConditional, Opcode.isGoto, Opcode.between,
        Bool.or_eq_false_iff, decide_eq_true_eq, decide_eq_false_iff_not,
        beq_eq_false_iff_ne] at h ⊢
      omega
    have htargets : ins.branchTargets = ins.cases ++ [ins.fallback] := by
      simp [branchTargets, hop, h]
    refine .switch key ?_ ?_
    · simp [htargets]
    · simpa using fun t _ => hf t
  | ret h src => exact .ret src
  | throw h src => exact .throw src
  | straight h ha =>
    simp only [Opcode.isControl, Bool.or_eq_false_iff] at h
    exact .straight (by simpa using ha) (hnext h.2)

/-- The statements of the blocks. -/
lemma Progression.Complete.inBlock {p : Progression} {b : MethodBody} (h : p.Complete b)
    {params : ParamSlots} {resources : List ResourceScope} {i : Nat} (hi : i < p.lowered.size)
    {st : Statement}
    (hst : (p.unlinked params resources)[i]? = some st) :
    st.action.InBlock p.lowered.size i := by
  obtain ⟨s, hs, hfirst, hlast⟩ := h.laid.exists_span (Nat.zero_le i) (by simpa using hi)
  have hbounds := h.laid.bounds hs
  rw [Array.length_toList] at hbounds
  have hfits := h.fits params resources hs
  have hunique : ∀ {Q : Action Nat → Prop}, Holds (p.unlinked params resources) i Q →
      Q st.action := by
    rintro Q ⟨st', hst', hQ⟩
    rwa [Option.some.inj (hst.symm.trans hst')]
  cases hreached : s.reached with
  | false =>
    have hdead := hunique (hfits.dead hreached i hfirst hlast)
    cases ha : st.action <;> simp [ha, Action.isUnreachable] at hdead
    exact .unreachable _
  | true =>
    by_cases hi : i = s.last
    · subst hi
      obtain ⟨ins, hins, hholds, hnext⟩ := hfits.ends hreached
      obtain ⟨a, hends, ha⟩ := hunique hholds
      rw [ha]
      exact hends.inBlock h.firstAt_lt fun hop => hnext hop ▸ h.firstFrom_lt _
    · exact .straight (hunique (hfits.straight hreached i hfirst (by omega))) (by omega)

lemma Action.InBlock.target_lt {count i : Nat} {a : Action Nat} (h : a.InBlock count i) {e : Edge}
    (he : e ∈ a.ways i) : e.target < count := by
  cases h with
  | straight h hnext =>
    rw [ways_of_isStraight h] at he
    rw [List.mem_singleton.mp he]
    exact hnext
  | branch condition ht hnext =>
    simp only [ways, List.mem_cons, List.not_mem_nil, or_false] at he
    rcases he with rfl | rfl
    · exact ht
    · exact hnext
  | goto ht =>
    rw [List.mem_singleton.mp he]
    exact ht
  | switch key hne hts =>
    obtain ⟨t, ht, rfl⟩ := List.mem_map.mp he
    exact hts t ht
  | unreachable op => cases he
  | ret src => cases he
  | throw src => cases he

/-- A statement of a scope. -/
inductive Scope.Owns (params : ParamSlots) (spans : List Span) (s : Scope) : Nat → Statement → Prop
  | closeNormal : Owns params spans s s.closeNormal (.made (s.scope.closing params))
  | gotoEnd : Owns params spans s s.gotoEnd (.made (.goto (firstAt spans s.scope.stop)))
  | handler (exception : Value) : Owns params spans s s.handler (.made (.receive exception ""))
  | closeOnException : Owns params spans s s.closeOnException (.made (s.scope.closing params))
  | rethrow (exception : Value) : Owns params spans s s.rethrow (.made (.throw exception))

lemma Scope.Owns.bounds {params : ParamSlots} {spans : List Span} {s : Scope} {i : Nat}
    {st : Statement} (h : Scope.Owns params spans s i st) : s.base ≤ i ∧ i < s.base + 5 := by
  cases h <;> simp only [Scope.closeNormal, Scope.gotoEnd, Scope.handler, Scope.closeOnException,
    Scope.rethrow] <;> omega

lemma Scope.Placed.owns {params : ParamSlots} {spans : List Span} {statements : Array Statement}
    {s : Scope} (h : s.Placed params spans statements) {i : Nat} (hi : s.owns i = true)
    {st : Statement} (hst : statements[i]? = some st) : Scope.Owns params spans s i st := by
  obtain ⟨exception, hclose, hgoto, hhandler, hcloseOn, hrethrow⟩ := h.getElem?
  have hi : i = s.closeNormal ∨ i = s.gotoEnd ∨ i = s.handler ∨ i = s.closeOnException ∨
      i = s.rethrow := by
    simp only [Scope.owns, decide_eq_true_eq] at hi
    unfold Scope.closeNormal Scope.gotoEnd Scope.handler Scope.closeOnException Scope.rethrow
    omega
  rcases hi with rfl | rfl | rfl | rfl | rfl
  · cases hclose.symm.trans hst
    exact .closeNormal
  · cases hgoto.symm.trans hst
    exact .gotoEnd
  · cases hhandler.symm.trans hst
    exact .handler exception
  · cases hcloseOn.symm.trans hst
    exact .closeOnException
  · cases hrethrow.symm.trans hst
    exact .rethrow exception

/-- A statement of a lowered method: of a block, of a scope, or the exit. -/
inductive Progression.Has (params : ParamSlots) (resources : List ResourceScope) (p : Progression)
    (i : Nat) (st : Statement) : Prop
  | block (hi : i < p.lowered.size) (h : st.action.InBlock p.lowered.size i)
  | scope {s : Scope} (hs : s ∈ p.scopes resources) (h : Scope.Owns params p.spans s i st)
  | exit (hi : i = p.exit resources) (h : st = exitStatement)

lemma Progression.Complete.has {p : Progression} {b : MethodBody} (h : p.Complete b)
    {params : ParamSlots} {resources : List ResourceScope} {i : Nat} {st : Statement}
    (hst : (p.unlinked params resources)[i]? = some st) : p.Has params resources i st := by
  have hi := (Array.getElem?_eq_some_iff.mp hst).1
  rw [Progression.size_unlinked] at hi
  by_cases hblock : i < p.lowered.size
  · exact .block hblock (h.inBlock hblock hst)
  by_cases hexit : i = p.exit resources
  · subst hexit
    rw [Progression.getElem?_unlinked_exit] at hst
    exact .exit rfl (Option.some.inj hst).symm
  · obtain ⟨s, hs, howns⟩ := Progression.exists_scope resources (Nat.le_of_not_lt hblock) (by omega)
    exact .scope hs ((Progression.placed_unlinked params resources hs).owns howns hst)


namespace Progression

variable {params : ParamSlots} {resources : List ResourceScope} {p : Progression} {b : MethodBody}

lemma exists_base {s : Scope} (hs : s ∈ p.scopes resources) :
    ∃ j < resources.length, (p.scopes resources)[j]? = some s ∧
      s.base = p.lowered.size + 5 * j := by
  obtain ⟨j, hj⟩ := List.mem_iff_getElem?.mp hs
  have hlt := (List.getElem?_eq_some_iff.mp hj).1
  rw [length_scopes] at hlt
  exact ⟨j, hlt, hj, base_of_placeScopes hj⟩

/-- Different scopes have different places. -/
lemma eq_of_base_eq {s s' : Scope} (hs : s ∈ p.scopes resources) (hs' : s' ∈ p.scopes resources)
    (h : s.base = s'.base) : s = s' := by
  obtain ⟨j, -, hj, hbase⟩ := exists_base hs
  obtain ⟨j', -, hj', hbase'⟩ := exists_base hs'
  obtain rfl : j = j' := by omega
  exact Option.some.inj (hj.symm.trans hj')

/-- Before scopes are closed, ways lead into a scope only by its second, fourth and fifth statement,
and never to the exit. -/
lemma Has.target {i : Nat} {st : Statement} (h : p.Has params resources i st) (hp : p.Complete b)
    {e : Edge} (he : e ∈ st.action.ways i) :
    e.target < p.exit resources ∧ ∀ s ∈ p.scopes resources, e.target ≠ s.closeNormal := by
  have hlow : e.target < p.lowered.size →
      e.target < p.exit resources ∧ ∀ s ∈ p.scopes resources, e.target ≠ s.closeNormal := by
    intro hlt
    refine ⟨Nat.lt_of_lt_of_le hlt (Nat.le_add_right _ _), fun s hs => ?_⟩
    obtain ⟨j, -, -, hbase⟩ := exists_base hs
    unfold Scope.closeNormal
    omega
  cases h with
  | block hi h => exact hlow (h.target_lt he)
  | exit hi h =>
    subst h
    cases he
  | @scope s hs h =>
    have hnext : ∀ k, (k = 1 ∨ k = 3 ∨ k = 4) → e.target = s.base + k →
        e.target < p.exit resources ∧ ∀ s ∈ p.scopes resources, e.target ≠ s.closeNormal := by
      intro k hk htarget
      obtain ⟨j, hj, -, hbase⟩ := exists_base hs
      refine ⟨by unfold Progression.exit; omega, fun s' hs' => ?_⟩
      obtain ⟨j', -, -, hbase'⟩ := exists_base hs'
      unfold Scope.closeNormal
      omega
    cases h with
    | closeNormal => exact hnext 1 (.inl rfl) (by rw [List.mem_singleton.mp he]; rfl)
    | gotoEnd =>
      refine hlow ?_
      rw [List.mem_singleton.mp he]
      exact hp.firstAt_lt _
    | handler exception => exact hnext 3 (by omega) (by rw [List.mem_singleton.mp he]; rfl)
    | closeOnException => exact hnext 4 (by omega) (by rw [List.mem_singleton.mp he]; rfl)
    | rethrow exception => cases he

/-- There is a way from every statement but exits, placeholders, and those that throw. -/
lemma Has.goes {i : Nat} {st : Statement} (h : p.Has params resources i st)
    (hexit : st.action.isExit = false) (hreached : st.action.isUnreachable = false)
    (hcalm : st.action.mayThrow = false) : st.action.ways i ≠ [] := by
  cases h with
  | block hi h =>
    generalize st.action = a at *
    cases h with
    | unreachable op => cases hreached
    | straight h hnext => simp [Action.ways_of_isStraight h]
    | branch condition ht hnext => simp [Action.ways]
    | goto ht => simp [Action.ways]
    | switch key hne hts => simpa [Action.ways] using hne
    | ret src => cases hexit
    | throw src => cases hcalm
  | scope hs h =>
    cases h with
    | closeNormal => cases hcalm
    | gotoEnd => simp [Statement.made, Action.ways]
    | handler exception => simp [Statement.made, Action.ways]
    | closeOnException => cases hcalm
    | rethrow exception => cases hcalm
  | exit hi h =>
    subst h
    cases hexit

/-- The exit is the last statement. -/
lemma Has.exit_iff {i : Nat} {st : Statement} (h : p.Has params resources i st) :
    st.action = .exit ↔ i = p.exit resources := by
  cases h with
  | block hi h =>
    have hne : i ≠ p.exit resources :=
      Nat.ne_of_lt (Nat.lt_of_lt_of_le hi (Nat.le_add_right _ _))
    refine iff_of_false ?_ hne
    intro hexit
    rw [hexit] at h
    cases h with
    | straight h hnext => cases h
  | @scope s hs h =>
    obtain ⟨j, hj, -, hbase⟩ := exists_base hs
    have hbounds := h.bounds
    refine iff_of_false ?_ (by unfold Progression.exit; omega)
    cases h <;> nofun
  | exit hi h =>
    subst h
    exact iff_of_true rfl hi

/-- A way stays as it is, or closes a scope that it leaves. -/
lemma leadsTo_cases (params : ParamSlots) (resources : List ResourceScope) (p : Progression)
    (i t : Nat) : p.leadsTo params resources i t = t ∨
      ∃ s ∈ p.scopes resources, firstAt p.spans s.scope.stop = t ∧
        p.leadsTo params resources i t = s.closeNormal := by
  unfold leadsTo exitTarget
  cases hfind : (p.scopes resources).find? fun s =>
      p.inside params resources s i && firstAt p.spans s.scope.stop == t with
  | none => exact .inl rfl
  | some s =>
    have hs := List.find?_some hfind
    simp only [Bool.and_eq_true, beq_iff_eq] at hs
    exact .inr ⟨s, List.mem_of_find?_eq_some hfind, hs.2, rfl⟩

lemma leadsTo_lt {t : Nat} (ht : t < p.exit resources) (i : Nat) :
    p.leadsTo params resources i t < p.exit resources := by
  rcases leadsTo_cases params resources p i t with h | ⟨s, hs, -, h⟩
  · rw [h]
    exact ht
  · obtain ⟨j, hj, -, hbase⟩ := exists_base hs
    rw [h]
    unfold Scope.closeNormal exit
    omega

/-- Different ways lead to different statements. -/
lemma leadsTo_injOn {i t t' : Nat} (ht : ∀ s ∈ p.scopes resources, t ≠ s.closeNormal)
    (ht' : ∀ s ∈ p.scopes resources, t' ≠ s.closeNormal)
    (h : p.leadsTo params resources i t = p.leadsTo params resources i t') : t = t' := by
  rcases leadsTo_cases params resources p i t with heq | ⟨s, hs, hstop, heq⟩ <;>
    rcases leadsTo_cases params resources p i t' with heq' | ⟨s', hs', hstop', heq'⟩ <;>
    rw [heq, heq'] at h
  · exact h
  · exact absurd h (ht s' hs')
  · exact absurd h.symm (ht' s hs)
  · rw [← hstop, ← hstop', eq_of_base_eq hs hs' h]

end Progression

/-- A statement raises exceptions if it may throw, to statements of the method. -/
lemma Progression.of_mem_raisedEdges {params : ParamSlots} {resources : List ResourceScope}
    {p : Progression} {b : MethodBody} (hp : p.Complete b) {types : Option ClassTable}
    {handlers : List HandlerEntry} {i : Nat} {e : Edge}
    (he : e ∈ raisedEdges types handlers p.spans (p.scopes resources) (p.exit resources)
      (p.unlinked params resources) i) :
    e.source = i ∧ e.kind = .exception ∧ e.target < p.exit resources + 1 := by
  obtain ⟨hsource, hkind, -, htarget⟩ := raisedEdges_cases he
  refine ⟨hsource, hkind, ?_⟩
  rcases htarget with htarget | ⟨h, -, htarget⟩ | ⟨s, hs, htarget⟩
  · omega
  · have := hp.firstAt_lt h.handler
    unfold Progression.exit
    omega
  · obtain ⟨j, hj, -, hbase⟩ := Progression.exists_base hs
    rw [htarget]
    unfold Progression.exit Scope.handler
    omega

section Connected

variable {p : Progression} {b : MethodBody} (h : p.Complete b) (types : Option ClassTable)
  (params : ParamSlots) (handlers : List HandlerEntry) (resources : List ResourceScope)

/-- The exceptions are connected last, which only adds edges. -/
lemma connectAll_extends :
    (p.closing params resources).Extends (connectAll types params handlers resources p) := by
  rw [Progression.connectAll_eq]
  exact (Wiring.Extends.refl _).foldl _ fun v i hv =>
    hv.raise types handlers p.spans (p.scopes resources) _ i

/-- Retargeted statements raise what they raised before. -/
lemma raisedEdges_mapIdx (spans : List Span) (scopes : List Scope) (exit : Nat)
    (statements : Array Statement) (f : Nat → Nat → Nat) (i : Nat) :
    raisedEdges types handlers spans scopes exit
      (statements.mapIdx fun i st => st.retarget (f i)) i =
      raisedEdges types handlers spans scopes exit statements i := by
  unfold raisedEdges
  rw [Array.getElem?_mapIdx]
  cases statements[i]? <;> simp [Statement.retarget]

include h

/-- **Connecting, statements.** The jumps of a statement lead to where its ways lead to once all
scopes are closed. -/
lemma connectAll_statements : (connectAll types params handlers resources p).statements =
    (p.unlinked params resources).mapIdx fun i st =>
      st.retarget (p.leadsTo params resources i) :=
  (connectAll_extends types params handlers resources).statements.trans
    (h.redirected params resources).statements_eq

lemma connectAll_size :
    (connectAll types params handlers resources p).succs.size = p.exit resources + 1 :=
  ((connectAll_extends types params handlers resources).size.trans
    (h.redirected params resources).size).trans (Progression.size_unlinked params resources)

/-- **Connecting, edges.** A statement has the edges of its ways, which lead to where they lead to
once all scopes are closed, and behind them those of its exceptions. -/
lemma connectAll_out {i : Nat} (hi : i < p.exit resources + 1) :
    (connectAll types params handlers resources p).out i =
      (raisedEdges types handlers p.spans (p.scopes resources) (p.exit resources)
        (p.unlinked params resources) i).foldl insertEdge
        ((flowEdges (p.unlinked params resources) i).map
          (Edge.retarget (p.leadsTo params resources i))) := by
  have hredirected := h.redirected params resources
  have hsize := Progression.size_unlinked params resources (p := p)
  rw [Progression.connectAll_eq, Wiring.out_foldl_raise (Nat.le_of_eq hredirected.size.symm),
    if_pos (by omega), hredirected.statements_eq, raisedEdges_mapIdx, hsize, hredirected.out_eq,
    Progression.length_scopes]
  by_cases hexit : i = p.exit resources
  · subst hexit
    rw [if_neg (by unfold Progression.exit; omega),
      flowEdges_of_getElem? (Progression.getElem?_unlinked_exit params resources)]
    rfl
  · rw [if_pos (by unfold Progression.exit at hi hexit; omega)]
    rfl

end Connected

end JvmTaint
