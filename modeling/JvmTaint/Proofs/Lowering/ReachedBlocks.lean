import JvmTaint.Proofs.Lowering.ScopeExits

set_option autoImplicit false
set_option relaxedAutoImplicit false

/-!
# Ways between reached blocks

The blocks of a body that control reaches, told by its instructions: the first block, the handlers,
and everything that a jump or a fall-through of such a block leads to. These are the blocks whose
statements do something in the graph. The ways of a statement stay inside its block or lead to the
start of a block that is reached, too.

## Main definitions

* `JvmTaint.MethodBody.Live`: control reaches a block.

## Main results

* `JvmTaint.MethodBody.Valid.live_iff`: the blocks that control reaches are those that the shape
  pass visits.
* `JvmTaint.Progression.Complete.reached_iff`: they are those that are lowered as reached.
* `JvmTaint.Progression.Complete.exists_transfer`: the ways from the last statement of a block are
  the transfers of its last instruction.
* `JvmTaint.FlowGraph.Connects.isReceive_iff`: the first statements of the handlers receive the
  exceptions.
* `JvmTaint.FlowGraph.Connects.getElem?_dead`: the statements of a block that is not reached.
-/

namespace JvmTaint

/-- Control reaches the block: it is the first one, it starts at a handler, or an instruction at the
end of a block that is reached jumps or goes on to its start. -/
inductive MethodBody.Live (b : MethodBody) : BasicBlock → Prop
  | first {block : BasicBlock} (h : b.blocks.head? = some block) : Live b block
  | handler {block : BasicBlock} {e : HandlerEntry} (hblock : block ∈ b.blocks)
    (he : e ∈ b.handlers) (hoffset : e.handler = block.offset) : Live b block
  | next {block block' : BasicBlock} {ins : Instruction} {way : Option Nat} (h : Live b block)
    (hlast : block.last? = some ins) (htransfer : b.Transfers ins way block'.offset)
    (hblock' : block' ∈ b.blocks) : Live b block'

/-- In a list of increasing numbers every number has one position. -/
lemma eq_of_pairwise_lt {α : Type} {f : α → Int} {xs : List α}
    (h : xs.Pairwise fun x y => f x < f y) {i j : Nat} {x y : α} (hi : xs[i]? = some x)
    (hj : xs[j]? = some y) (heq : f x = f y) : i = j := by
  obtain ⟨hi', rfl⟩ := List.getElem?_eq_some_iff.mp hi
  obtain ⟨hj', rfl⟩ := List.getElem?_eq_some_iff.mp hj
  have hlt := List.pairwise_iff_getElem.mp h
  rcases Nat.lt_trichotomy i j with hij | hij | hij
  · have := hlt i j hi' hj' hij
    omega
  · exact hij
  · have := hlt j i hj' hi' hij
    omega

namespace MethodBody

variable {b : MethodBody} {block block' : BasicBlock} {i j : Nat}

lemma Live.mem (h : b.Live block) : block ∈ b.blocks := by
  cases h with
  | first h => exact List.mem_of_head? h
  | handler hblock he hoffset => exact hblock
  | next h hlast htransfer hblock' => exact hblock'

/-! ## Blocks of a checked body -/

lemma catches_of_mem_number (start : Nat) (runs : List (List Instruction)) :
    ∀ block ∈ b.number start runs,
      block.catches = block.instructions.head?.bind fun ins => b.caughtType? ins.pc := by
  induction runs generalizing start with
  | nil => simp [number]
  | cons run runs ih => simpa [number] using ih (start + run.length)

/-- A block receives exceptions if and only if an entry of the exception table names it. -/
lemma isSome_catches_iff (hblock : block ∈ b.blocks) :
    block.catches.isSome = true ↔ ∃ e ∈ b.handlers, e.handler = block.offset := by
  obtain ⟨first, rest, hcode⟩ :=
    List.exists_cons_of_ne_nil (b.regular_of_mem_blocks hblock).ne_nil
  have hcatches : block.catches = b.caughtType? block.offset := by
    rw [catches_of_mem_number 0 _ block hblock]
    simp [BasicBlock.offset, hcode]
  have hmem : (∃ e ∈ b.handlers, e.handler = block.offset) ↔
      b.handlers.filter (·.handler == block.offset) ≠ [] := by
    simp
  rw [hcatches, hmem, caughtType?]
  cases b.handlers.filter (·.handler == block.offset) <;> simp

/-- The first instruction of a block. -/
lemma exists_head (hblock : block ∈ b.blocks) :
    ∃ first rest, block.instructions = first :: rest ∧ first.pc = block.offset := by
  obtain ⟨first, rest, hcode⟩ :=
    List.exists_cons_of_ne_nil (b.regular_of_mem_blocks hblock).ne_nil
  exact ⟨first, rest, hcode, by simp [BasicBlock.offset, hcode]⟩

/-- The last instruction of a block and the first one of the next block are neighbours. -/
lemma exists_adjacent {ins : Instruction} (hblock : b.blocks[i]? = some block)
    (hnext : b.blocks[i + 1]? = some block') (hlast : block.last? = some ins) :
    ∃ k after, b.code[k]? = some ins ∧ b.code[k + 1]? = some after ∧
      after.pc = block'.offset := by
  obtain ⟨before, behind, hsplit⟩ : ∃ before behind,
      b.blocks = before ++ block :: block' :: behind := by
    obtain ⟨hi, rfl⟩ := List.getElem?_eq_some_iff.mp hblock
    obtain ⟨hi', rfl⟩ := List.getElem?_eq_some_iff.mp hnext
    refine ⟨b.blocks.take i, b.blocks.drop (i + 2), ?_⟩
    rw [← List.drop_eq_getElem_cons hi', ← List.drop_eq_getElem_cons hi, List.take_append_drop]
  obtain ⟨after, rest, hafter, hoffset⟩ := b.exists_head (List.mem_of_getElem? hnext)
  obtain ⟨front, hfront⟩ := List.getLast?_eq_some_iff.mp hlast
  have hcode : b.code = (before.flatMap (·.instructions) ++ front) ++
      ins :: after :: (rest ++ behind.flatMap (·.instructions)) := by
    rw [← b.flatMap_blocks, hsplit]
    simp [hfront, hafter]
  refine ⟨(before.flatMap (·.instructions) ++ front).length, after, ?_, ?_, hoffset⟩
  · rw [hcode, List.getElem?_append_right (Nat.le_refl _), Nat.sub_self]
    rfl
  · rw [hcode, List.getElem?_append_right (Nat.le_add_right _ 1), Nat.add_sub_cancel_left]
    rfl

namespace Valid

variable (h : b.Valid)

include h

lemma pairwise_offsets : b.blocks.Pairwise fun x y => x.offset < y.offset := by
  have hcode := h.increasing
  rw [← b.flatMap_blocks, List.pairwise_flatMap] at hcode
  refine hcode.2.imp_of_mem fun {x y} hx hy hlt => ?_
  obtain ⟨first, rest, hfirst, hoffset⟩ := b.exists_head hx
  obtain ⟨first', rest', hfirst', hoffset'⟩ := b.exists_head hy
  rw [← hoffset, ← hoffset']
  exact hlt first (by simp [hfirst]) first' (by simp [hfirst'])

/-- Different blocks start at different offsets. -/
lemma eq_of_offset_eq (hi : b.blocks[i]? = some block) (hj : b.blocks[j]? = some block')
    (heq : block.offset = block'.offset) : i = j :=
  eq_of_pairwise_lt h.pairwise_offsets hi hj heq

lemma blockAt?_offset (hj : b.blocks[j]? = some block) :
    blockAt? b.blocks block.offset = some j := by
  unfold blockAt?
  cases hfind : b.blocks.findIdx? (·.offset == block.offset) with
  | none =>
    have := List.findIdx?_eq_none_iff.mp hfind block (List.mem_of_getElem? hj)
    simp at this
  | some k =>
    obtain ⟨hk, heq, -⟩ := List.findIdx?_eq_some_iff_getElem.mp hfind
    rw [h.eq_of_offset_eq (List.getElem?_eq_getElem hk) hj (by simpa using heq)]

/-- The successors of a block are the blocks that its last instruction transfers control to. -/
lemma mem_successorsOf_iff (hi : b.blocks[i]? = some block) (hj : b.blocks[j]? = some block')
    {ins : Instruction} (hlast : block.last? = some ins) :
    j ∈ successorsOf b.blocks i ↔ ∃ way, b.Transfers ins way block'.offset := by
  have hsuccessors : successorsOf b.blocks i = ins.branchTargets.filterMap (blockAt? b.blocks) ++
      (if ins.op.endsBlock then [] else [i + 1]) := by
    simp [successorsOf, hi, hlast]
  constructor
  · intro hmem
    rw [hsuccessors] at hmem
    rcases List.mem_append.mp hmem with hmem | hmem
    · obtain ⟨t, ht, hat⟩ := List.mem_filterMap.mp hmem
      obtain ⟨hlt, heq, -⟩ := List.findIdx?_eq_some_iff_getElem.mp hat
      obtain rfl : block'.offset = t := by
        rw [List.getElem?_eq_getElem hlt] at hj
        simpa [Option.some.inj hj] using heq
      obtain ⟨k, hk⟩ := List.mem_iff_getElem?.mp ht
      exact ⟨some k, .jump hk⟩
    · split at hmem
      · cases hmem
      · rename_i hgoes
        rw [List.mem_singleton.mp hmem] at hj
        obtain ⟨k, after, hins, hafter, hoffset⟩ := b.exists_adjacent hi hj hlast
        exact ⟨none, hoffset ▸ .next hins hafter (by simpa using hgoes)⟩
  · rintro ⟨way, htransfer⟩
    generalize hv : block'.offset = v at htransfer
    cases htransfer with
    | @jump k v ht =>
      rw [hsuccessors, List.mem_append]
      exact .inl (List.mem_filterMap.mpr
        ⟨v, List.mem_of_getElem? ht, hv ▸ h.blockAt?_offset hj⟩)
    | @next k after hins hafter hgoes =>
      have hmem : i + 1 ∈ successorsOf b.blocks i := by simp [hsuccessors, hgoes]
      have hnext := List.getElem?_eq_getElem (h.successorsOf_lt i _ hmem)
      obtain ⟨k', after', hins', hafter', hoffset⟩ := b.exists_adjacent hi hnext hlast
      obtain rfl := eq_of_pairwise_lt h.increasing hins hins' rfl
      obtain rfl := Option.some.inj (hafter.symm.trans hafter')
      rwa [h.eq_of_offset_eq hj hnext (hv.trans hoffset)]

/-- **Reached blocks.** Control reaches the blocks that the shape pass visits.

**Proof sketch.** Both are closures of the first block and the handlers, under the transfers of the
last instructions and under the successors of the blocks, and these agree. -/
lemma live_iff (hi : b.blocks[i]? = some block) : b.Live block ↔ Visits b.blocks i := by
  constructor
  · intro hlive
    induction hlive generalizing i with
    | first hfirst =>
      rw [List.head?_eq_getElem?] at hfirst
      rw [h.eq_of_offset_eq hi hfirst rfl]
      exact .first hfirst
    | handler hblock he hoffset =>
      exact .handler hi ((isSome_catches_iff hblock).mpr ⟨_, he, hoffset⟩)
    | next hlive hlast htransfer hblock' ih =>
      obtain ⟨j, hj⟩ := List.mem_iff_getElem?.mp hlive.mem
      exact .next (ih hj) ((h.mem_successorsOf_iff hj hi hlast).mpr ⟨_, htransfer⟩)
  · intro hvisits
    induction hvisits generalizing block with
    | first hfirst => exact .first (List.head?_eq_getElem?.trans hi)
    | handler hblock hcatches =>
      obtain rfl := Option.some.inj (hblock.symm.trans hi)
      have hmem := List.mem_of_getElem? hi
      obtain ⟨e, he, hoffset⟩ := (isSome_catches_iff hmem).mp hcatches
      exact .handler hmem he hoffset
    | @next j i _ hj ih =>
      cases hbefore : b.blocks[j]? with
      | none => simp [successorsOf, hbefore] at hj
      | some before =>
        obtain ⟨ins, hlast⟩ : ∃ ins, before.last? = some ins := by
          have hne := (b.regular_of_mem_blocks (List.mem_of_getElem? hbefore)).ne_nil
          exact ⟨_, List.getLast?_eq_some_getLast hne⟩
        obtain ⟨way, htransfer⟩ := (h.mem_successorsOf_iff hbefore hi hlast).mp hj
        exact .next (ih hbefore) hlast htransfer (List.mem_of_getElem? hi)

end Valid

end MethodBody

/-! ## Ways of lowered blocks -/

@[simp] lemma Action.isReceive_mapLabels {τ σ : Type} (a : Action τ) (f : τ → σ) :
    (a.mapLabels f).isReceive = a.isReceive := by
  cases a <;> rfl

lemma Action.isUnreachable_of_isStraight {τ : Type} {a : Action τ} (h : a.isStraight = true) :
    a.isUnreachable = false := by
  cases a <;> first | rfl | cases h

/-- The last action of a block is no placeholder. -/
lemma Instruction.EndsIn.isUnreachable_eq {ins : Instruction} {a : Action Int} (h : ins.EndsIn a) :
    a.isUnreachable = false := by
  cases h with
  | straight h ha => exact Action.isUnreachable_of_isStraight ha
  | _ => rfl

/-- The ways of the last action of a block lead to the targets of the last instruction or behind
it. -/
lemma Instruction.EndsIn.of_mem_ways {ins : Instruction} {a : Action Int} (h : ins.EndsIn a)
    {f : Int → Nat} {i : Nat} {e : Edge} (he : e ∈ (a.mapLabels f).ways i) :
    (∃ v ∈ ins.branchTargets, e.target = f v) ∨ ins.op.endsBlock = false ∧ e.target = i + 1 := by
  have htargets := h.targets_eq
  cases h with
  | branch h condition =>
    rcases List.mem_cons.mp he with rfl | he
    · exact .inl ⟨ins.target, htargets ▸ List.mem_singleton_self _, rfl⟩
    · rw [List.mem_singleton.mp he]
      exact .inr ⟨Opcode.endsBlock_of_isConditional h, rfl⟩
  | goto h =>
    rw [List.mem_singleton.mp he]
    exact .inl ⟨ins.target, htargets ▸ List.mem_singleton_self _, rfl⟩
  | switch h key =>
    obtain ⟨t, ht, rfl⟩ := List.mem_map.mp he
    obtain ⟨v, hv, rfl⟩ := List.mem_map.mp ht
    exact .inl ⟨v, hv, rfl⟩
  | ret h src => cases he
  | throw h src => cases he
  | straight h ha =>
    rw [Action.ways_of_isStraight (by simpa using ha)] at he
    rw [List.mem_singleton.mp he]
    simp only [Opcode.isControl, Bool.or_eq_false_iff] at h
    exact .inr ⟨h.2, rfl⟩

namespace Progression.Complete

variable {params : ParamSlots} {resources : List ResourceScope} {p : Progression} {b : MethodBody}
  {s : Span}

/-- The blocks that control reaches are lowered as reached ones. -/
lemma reached_iff (h : p.Complete b) (hs : s ∈ p.spans) :
    s.reached = true ↔ b.Live s.block := by
  obtain ⟨i, hi⟩ := List.mem_iff_getElem?.mp hs
  have hblock : b.blocks[i]? = some s.block := by
    rw [← h.blocks, List.getElem?_map, hi]
    rfl
  rw [h.valid.live_iff hblock, h.reached i s hi]

/-- Inside a block, a way leads to the next statement. -/
lemma target_of_lt (h : p.Complete b) (hs : s ∈ p.spans) (hreached : s.reached = true) {i : Nat}
    (hfirst : s.first ≤ i) (hlast : i < s.last) {st : Statement}
    (hst : (p.unlinked params resources)[i]? = some st) {e : Edge}
    (he : e ∈ st.action.ways i) : e.target = i + 1 := by
  obtain ⟨st', hst', hstraight⟩ := (h.fits params resources hs).straight hreached i hfirst hlast
  obtain rfl := Option.some.inj (hst.symm.trans hst')
  rw [Action.ways_of_isStraight hstraight] at he
  rw [List.mem_singleton.mp he]

/-- The ways from the last statement of a block are the transfers of its last instruction. -/
lemma exists_transfer (h : p.Complete b) (hs : s ∈ p.spans) (hreached : s.reached = true)
    {st : Statement} (hst : (p.unlinked params resources)[s.last]? = some st) {e : Edge}
    (he : e ∈ st.action.ways s.last) :
    ∃ ins way v, s.block.last? = some ins ∧ b.Transfers ins way v ∧ Starts p e.target v := by
  obtain ⟨ins, hins, ⟨st', hst', a, hends, ha⟩, -⟩ := (h.fits params resources hs).ends hreached
  obtain rfl := Option.some.inj (hst.symm.trans hst')
  have hmem : ins ∈ b.code := h.mem_code hs (List.mem_of_getLast? hins)
  rw [ha] at he
  rcases hends.of_mem_ways he with ⟨v, hv, htarget⟩ | ⟨hgoes, htarget⟩
  · obtain ⟨k, hk⟩ := List.mem_iff_getElem?.mp hv
    refine ⟨ins, some k, v, hins, .jump hk, htarget ▸ ?_⟩
    refine h.starts_firstAt (h.valid.targets ins hmem v hv) ?_
    unfold MethodBody.referredOffsets
    refine List.mem_append_left _ (List.mem_append_left _ ?_)
    exact List.mem_flatMap.mpr ⟨ins, hmem, hv⟩
  · -- an instruction that goes on is not the last one of the code
    obtain ⟨k, hk⟩ := List.mem_iff_getElem?.mp hmem
    have hlt : k + 1 < b.code.length := by
      have hk' := (List.getElem?_eq_some_iff.mp hk).1
      by_contra hend
      have hlast : b.code.getLast? = some ins := by
        rw [List.getLast?_eq_getElem?, ← hk]
        congr 1
        omega
      rw [h.valid.ends ins hlast] at hgoes
      cases hgoes
    have hafter := List.getElem?_eq_getElem hlt
    exact ⟨ins, none, _, hins, .next hk hafter hgoes,
      htarget ▸ h.starts_next hs hins hgoes hk hafter⟩

/-- What the end of a reached block transfers control to is reached. -/
lemma reached_of_transfers (h : p.Complete b) (hs : s ∈ p.spans) (hreached : s.reached = true)
    {ins : Instruction} (hlast : s.block.last? = some ins) {way : Option Nat} {s' : Span}
    (hs' : s' ∈ p.spans) (htransfer : b.Transfers ins way s'.block.offset) :
    s'.reached = true :=
  (h.reached_iff hs').mpr
    (.next ((h.reached_iff hs).mp hreached) hlast htransfer (h.block_mem hs'))

/-- The block of a handler is reached. -/
lemma reached_of_handler (h : p.Complete b) (hs : s ∈ p.spans) {e : HandlerEntry}
    (he : e ∈ b.handlers) (hoffset : e.handler = s.block.offset) : s.reached = true :=
  (h.reached_iff hs).mpr (.handler (h.block_mem hs) he hoffset)

end Progression.Complete

/-- A way from a statement to another one before scopes are closed: to the next statement of a block
that is reached, from its end to the start of a block, or between the statements of a scope and to
the block behind it. -/
inductive Progression.Way (b : MethodBody) (p : Progression) : Nat → Nat → Prop
  | inside {s : Span} {i : Nat} (hs : s ∈ p.spans) (hreached : s.reached = true)
    (hfirst : s.first ≤ i) (hlast : i < s.last) : Way b p i (i + 1)
  | leaves {s s' : Span} {ins : Instruction} {way : Option Nat} (hs : s ∈ p.spans)
    (hreached : s.reached = true) (hlast : s.block.last? = some ins) (hs' : s' ∈ p.spans)
    (htransfer : b.Transfers ins way s'.block.offset) : Way b p s.last s'.first
  | closeNormal {s : Scope} (hs : s ∈ p.scopes b.resources) : Way b p s.closeNormal s.gotoEnd
  | gotoEnd {s : Scope} {s' : Span} (hs : s ∈ p.scopes b.resources) (hs' : s' ∈ p.spans)
    (hstop : s'.block.offset = s.scope.stop) : Way b p s.gotoEnd s'.first
  | handler {s : Scope} (hs : s ∈ p.scopes b.resources) : Way b p s.handler s.closeOnException
  | closeOnException {s : Scope} (hs : s ∈ p.scopes b.resources) :
    Way b p s.closeOnException s.rethrow

/-- The ways of the statements. -/
lemma Progression.Complete.way {params : ParamSlots} {p : Progression} {b : MethodBody}
    (h : p.Complete b) {i : Nat} {st : Statement}
    (hst : (p.unlinked params b.resources)[i]? = some st) {e : Edge}
    (he : e ∈ st.action.ways i) : p.Way b i e.target := by
  cases h.has hst with
  | block hi hblock =>
    obtain ⟨s, hs, hfirst, hlast⟩ := h.laid.exists_span (Nat.zero_le i) (by simpa using hi)
    cases hreached : s.reached with
    | false =>
      obtain ⟨st', hst', hdead⟩ := (h.fits params b.resources hs).dead hreached i hfirst hlast
      obtain rfl := Option.some.inj (hst.symm.trans hst')
      rw [Action.ways_of_isUnreachable hdead] at he
      cases he
    | true =>
      rcases Nat.lt_or_eq_of_le hlast with hlt | rfl
      · rw [h.target_of_lt hs hreached hfirst hlt hst he]
        exact .inside hs hreached hfirst hlt
      · obtain ⟨ins, way, v, hins, htransfer, s', hs', heq, rfl⟩ :=
          h.exists_transfer hs hreached hst he
        rw [← heq]
        exact .leaves hs hreached hins hs' htransfer
  | scope hs howns =>
    cases howns with
    | closeNormal => rw [List.mem_singleton.mp he]; exact .closeNormal hs
    | gotoEnd =>
      rw [List.mem_singleton.mp he]
      obtain ⟨s', hs', hfirst, hstop⟩ := h.starts_stop hs
      rw [← hfirst]
      exact .gotoEnd hs hs' hstop
    | handler exception => rw [List.mem_singleton.mp he]; exact .handler hs
    | closeOnException => rw [List.mem_singleton.mp he]; exact .closeOnException hs
    | rethrow exception => cases he
  | exit hi hexit =>
    subst hexit
    cases he

namespace FlowGraph.Connects

variable {types : Option ClassTable} {b : MethodBody} {params : ParamSlots} {p : Progression}
  {g : FlowGraph} (h : g.Connects types b params p) {s : Span}

include h

/-- **Edges.** An edge is an exception edge, which leads from a statement that may throw to a
handler or to the exit, or it follows a way and closes a scope if it leaves one. -/
lemma edge_cases {i : Nat} {e : Edge} (he : e ∈ g.successors i) :
    (e.kind = .exception ∧ Holds g.statements i (fun a => a.mayThrow = true) ∧
      (e.target = p.exit b.resources ∨
        (∃ entry ∈ b.handlers, ∃ s ∈ p.spans, e.target = s.first ∧
          entry.handler = s.block.offset) ∨
        ∃ s ∈ p.scopes b.resources, e.target = s.handler)) ∨
    (e.kind ≠ .exception ∧ ∃ t, p.Way b i t ∧ (e.target = t ∨
      ∃ s ∈ p.scopes b.resources, firstAt p.spans s.scope.stop = t ∧
        e.target = s.closeNormal)) := by
  obtain ⟨mark, hmark⟩ := h.exists_successors
  have hi : i < p.exit b.resources + 1 := by
    by_contra hi
    have hnone : g.succs[i]? = none := Array.getElem?_eq_none (by rw [h.size_succs]; omega)
    simp [successors, hnone] at he
  rw [hmark i hi] at he
  obtain ⟨added, hadded, rfl⟩ := List.mem_map.mp he
  rcases mem_of_mem_foldl_insertEdge hadded with hflow | hraised
  · obtain ⟨e', he', rfl⟩ := List.mem_map.mp hflow
    obtain ⟨st, hst⟩ : ∃ st, (p.unlinked params b.resources)[i]? = some st :=
      ⟨_, Array.getElem?_eq_getElem (by rw [Progression.size_unlinked]; exact hi)⟩
    rw [flowEdges_of_getElem? hst] at he'
    have hway : e' ∈ st.action.ways i := by simpa using mem_of_mem_foldl_insertEdge he'
    exact .inr ⟨(Action.source_of_mem_ways hway).2, _, h.complete.way hst hway,
      p.leadsTo_cases params b.resources i e'.target⟩
  · obtain ⟨-, hkind, ⟨st, hst, hthrow⟩, htarget⟩ := raisedEdges_cases hraised
    refine .inl ⟨hkind, ⟨_, by rw [h.getElem?_statements, hst]; rfl, ?_⟩, ?_⟩
    · simpa [Statement.retarget] using hthrow
    · refine htarget.imp_right (.imp_left ?_)
      rintro ⟨entry, hentry, htarget⟩
      have hreferred : entry.handler ∈ b.referredOffsets := by
        unfold MethodBody.referredOffsets
        exact List.mem_append_left _ (List.mem_append_right _ (List.mem_map_of_mem hentry))
      obtain ⟨s, hs, hfirst, hoffset⟩ :=
        h.complete.starts_firstAt (h.complete.valid.handlers entry hentry) hreferred
      exact ⟨entry, hentry, s, hs, htarget.trans hfirst.symm, hoffset.symm⟩

/-- The statements of a block are those that it is lowered to. -/
lemma exists_part (hs : s ∈ p.spans) : ∃ part, LoweredFrom s.block s.reached part ∧
    s.last + 1 = s.first + part.length ∧ ∀ k l, part[k]? = some l →
      ∃ f, g.statements[s.first + k]? = some ⟨l.offset, l.action.mapLabels f, false⟩ := by
  obtain ⟨part, hpart, -, hlast, hget⟩ := h.complete.laid.part_of_mem hs
  have hbounds := h.complete.laid.bounds hs
  rw [Array.length_toList] at hbounds
  refine ⟨part, hpart, hlast, fun k l hl => ?_⟩
  have hk := (List.getElem?_eq_some_iff.mp hl).1
  have hlowered := hget (s.first + k) (by omega) (by omega)
  rw [Nat.sub_zero, Nat.add_sub_cancel_left, hl] at hlowered
  refine ⟨p.leadsTo params b.resources (s.first + k) ∘ firstAt p.spans, ?_⟩
  rw [h.getElem?_statements, Progression.getElem?_unlinked _ _ (by omega), hlowered,
    Option.map_some, Option.map_some, Statement.retarget, Action.mapLabels_mapLabels]

/-- The statement of a block that receives an exception is the first one of a handler. -/
lemma isReceive_iff (hs : s ∈ p.spans) {i : Nat} (hfirst : s.first ≤ i) (hlast : i ≤ s.last)
    {st : Statement} (hst : g.statements[i]? = some st) :
    st.action.isReceive = true ↔ i = s.first ∧ ∃ e ∈ b.handlers, e.handler = s.block.offset := by
  obtain ⟨part, hpart, hlength, hget⟩ := h.exists_part hs
  have hl := List.getElem?_eq_getElem (show i - s.first < part.length by omega)
  obtain ⟨f, hst'⟩ := hget _ _ hl
  rw [Nat.add_sub_cancel' hfirst] at hst'
  obtain rfl := Option.some.inj (hst.symm.trans hst')
  rw [Action.isReceive_mapLabels]
  generalize hreached : s.reached = reached at hpart
  cases hpart with
  | reached hins hfront hends hbegins =>
    rw [hbegins.isReceive_iff hl, MethodBody.isSome_catches_iff (h.complete.block_mem hs)]
    exact and_congr_left fun _ => by omega
  | dead hne =>
    have hdead := isUnreachable_of_mem_placeholders (List.mem_of_getElem? hl)
    refine iff_of_false ?_ ?_
    · intro hreceive
      cases ha : (placeholders s.block)[i - s.first].action <;>
        simp [ha, Action.isReceive, Action.isUnreachable] at hreceive hdead
    · rintro ⟨-, e, he, hoffset⟩
      rw [h.complete.reached_of_handler hs he hoffset] at hreached
      cases hreached

/-- The statements of a block are placeholders if and only if it is not reached. -/
lemma isUnreachable_iff (hs : s ∈ p.spans) {i : Nat} (hfirst : s.first ≤ i) (hlast : i ≤ s.last)
    {st : Statement} (hst : g.statements[i]? = some st) :
    st.action.isUnreachable = true ↔ s.reached = false := by
  obtain ⟨part, hpart, hlength, hget⟩ := h.exists_part hs
  have hl := List.getElem?_eq_getElem (show i - s.first < part.length by omega)
  obtain ⟨f, hst'⟩ := hget _ _ hl
  rw [Nat.add_sub_cancel' hfirst] at hst'
  obtain rfl := Option.some.inj (hst.symm.trans hst')
  rw [Action.isUnreachable_mapLabels]
  have hmem := List.mem_of_getElem? hl
  generalize hreached : s.reached = reached at hpart
  cases hpart with
  | reached hins hfront hends hbegins =>
    refine iff_of_false (Bool.eq_false_iff.mp ?_) (by simp)
    rcases List.mem_append.mp hmem with hmem | hmem
    · exact Action.isUnreachable_of_isStraight (hfront _ hmem)
    · rw [List.mem_singleton.mp hmem]
      exact hends.isUnreachable_eq
  | dead hne => exact iff_of_true (isUnreachable_of_mem_placeholders hmem) rfl

/-- The statements of a block that is not reached are placeholders, one for each instruction. -/
lemma getElem?_dead (hs : s ∈ p.spans) (hdead : s.reached = false) :
    s.last + 1 = s.first + s.block.instructions.length ∧
      ∀ k ins, s.block.instructions[k]? = some ins →
        g.statements[s.first + k]? = some ⟨ins.pc, .unreachable ins.op, false⟩ := by
  obtain ⟨part, hpart, hlength, hget⟩ := h.exists_part hs
  rw [hdead] at hpart
  cases hpart with
  | dead hne =>
    refine ⟨by simpa [placeholders] using hlength, fun k ins hins => ?_⟩
    obtain ⟨f, hst⟩ := hget k ⟨ins.pc, .unreachable ins.op⟩ (by simp [placeholders, hins])
    exact hst

end FlowGraph.Connects

end JvmTaint
