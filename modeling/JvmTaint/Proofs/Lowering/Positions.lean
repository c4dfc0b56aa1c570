import JvmTaint.Proofs.Lowering.BuiltGraphs

set_option autoImplicit false
set_option relaxedAutoImplicit false

/-!
# Positions of instructions

The statements of a flow graph come from instructions, in the same order. This module finds the
statements of an instruction by its offset, and the blocks that start there.

## Main definitions

* `JvmTaint.FlowGraph.entryOf`, `JvmTaint.FlowGraph.endOf`: the first and the last statement of an
  instruction.
* `JvmTaint.Progression.Complete.Starts`: a block starts at a statement and at an offset.

## Main results

* `JvmTaint.Progression.Complete.starts_firstAt`, `JvmTaint.Progression.Complete.starts_next`: a
  block starts where something refers to, and behind a block.
* `JvmTaint.FlowGraph.Connects.entryOf_offset`, `JvmTaint.FlowGraph.Connects.endOf_last`: the first
  and the last statement of a block.
-/

namespace JvmTaint

/-! ## Positions of instructions -/

namespace FlowGraph

/-- The first statement that comes from the instruction at the offset or from a later one. -/
def entryOf (g : FlowGraph) (offset : Int) : Nat :=
  g.statements.toList.findIdx fun st => decide (offset ≤ st.offset)

/-- The last statement that comes from the instruction at the offset or from an earlier one. -/
def endOf (g : FlowGraph) (offset : Int) : Nat :=
  (g.statements.toList.findIdx fun st => decide (offset < st.offset ∨ st.offset < 0)) - 1

end FlowGraph

/-- The position of the first statement with a property. -/
lemma findIdx_toList_eq {statements : Array Statement} {q : Statement → Bool} {i : Nat}
    {st : Statement} (hst : statements[i]? = some st) (hq : q st = true)
    (hbefore : ∀ j < i, ∀ st', statements[j]? = some st' → q st' = false) :
    statements.toList.findIdx q = i := by
  obtain ⟨hi, rfl⟩ := Array.getElem?_eq_some_iff.mp hst
  refine (List.findIdx_eq (by simpa using hi)).mpr ⟨by simpa using hq, fun j hj => ?_⟩
  have hj' := hbefore j hj _ (Array.getElem?_eq_getElem (Nat.lt_trans hj hi))
  simpa using hj'

namespace Progression.Complete

variable {params : ParamSlots} {p : Progression} {b : MethodBody}

/-- The instructions of the blocks make up the code. -/
lemma flatMap_instructions (h : p.Complete b) :
    p.spans.flatMap (·.block.instructions) = b.code := by
  rw [← b.flatMap_blocks, ← h.blocks, List.flatMap_map]

/-- The offsets of the statements in front of a block and behind it. -/
lemma offset_lt (h : p.Complete b) {s : Span} (hs : s ∈ p.spans) {i : Nat} {l : Lowered}
    (hl : p.lowered.toList[i]? = some l) {ins : Instruction} (hins : ins ∈ s.block.instructions) :
    (i < s.first → l.offset < ins.pc) ∧ (s.last < i → ins.pc < l.offset) :=
  h.laid.offset_lt (by rw [h.flatMap_instructions]; exact h.valid.increasing) hs hl hins

/-- The offsets increase within a block. -/
lemma pairwise_instructions (h : p.Complete b) {s : Span} (hs : s ∈ p.spans) :
    s.block.instructions.Pairwise fun x y => x.pc < y.pc := by
  have hcode := h.valid.increasing
  rw [← h.flatMap_instructions, List.pairwise_flatMap] at hcode
  exact hcode.1 s hs

/-- The offset of a block is the smallest one of it. -/
lemma offset_le (h : p.Complete b) {s : Span} (hs : s ∈ p.spans) {ins : Instruction}
    (hins : ins ∈ s.block.instructions) : s.block.offset ≤ ins.pc := by
  have hpairwise := h.pairwise_instructions hs
  unfold BasicBlock.offset
  cases hcode : s.block.instructions with
  | nil =>
    rw [hcode] at hins
    cases hins
  | cons first rest =>
    rw [hcode] at hins hpairwise
    rcases List.mem_cons.mp hins with rfl | hins
    · exact Int.le_refl _
    · exact Int.le_of_lt ((List.pairwise_cons.mp hpairwise).1 ins hins)

/-- The offset of the last instruction is the largest one of its block. -/
lemma le_last (h : p.Complete b) {s : Span} (hs : s ∈ p.spans) {last : Instruction}
    (hlast : s.block.last? = some last) {ins : Instruction} (hins : ins ∈ s.block.instructions) :
    ins.pc ≤ last.pc := by
  have hpairwise := h.pairwise_instructions hs
  obtain ⟨front, hfront⟩ := List.getLast?_eq_some_iff.mp hlast
  rw [hfront] at hins hpairwise
  rcases List.mem_append.mp hins with hins | hins
  · exact Int.le_of_lt ((List.pairwise_append.mp hpairwise).2.2 ins hins last (by simp))
  · exact Int.le_of_eq (congrArg Instruction.pc (List.mem_singleton.mp hins))

/-- The first instruction of a block. -/
lemma exists_first (h : p.Complete b) {s : Span} (hs : s ∈ p.spans) :
    ∃ first ∈ s.block.instructions, first.pc = s.block.offset := by
  obtain ⟨first, rest, hcode⟩ := List.exists_cons_of_ne_nil (h.instructions_ne_nil hs)
  exact ⟨first, by simp [hcode], by simp [BasicBlock.offset, hcode]⟩

lemma mem_code (h : p.Complete b) {s : Span} (hs : s ∈ p.spans) {ins : Instruction}
    (hins : ins ∈ s.block.instructions) : ins ∈ b.code := by
  rw [← h.flatMap_instructions]
  exact List.mem_flatMap.mpr ⟨s, hs, hins⟩

lemma exists_span_of_mem_code (h : p.Complete b) {ins : Instruction} (hins : ins ∈ b.code) :
    ∃ s ∈ p.spans, ins ∈ s.block.instructions := by
  rw [← h.flatMap_instructions] at hins
  exact List.mem_flatMap.mp hins

/-- The offsets increase from block to block. -/
lemma pc_lt (h : p.Complete b) {s s' : Span} (hs : s ∈ p.spans) (hs' : s' ∈ p.spans)
    (hlt : s.last < s'.first) : ∀ x ∈ s.block.instructions, ∀ y ∈ s'.block.instructions,
      x.pc < y.pc :=
  h.laid.pc_lt (by rw [h.flatMap_instructions]; exact h.valid.increasing) hs hs' hlt

/-- The statement `t` is the first one of the block that starts at the offset. -/
def Starts (p : Progression) (t : Nat) (offset : Int) : Prop :=
  ∃ s ∈ p.spans, s.first = t ∧ s.block.offset = offset

/-- What is referred to starts a block. -/
lemma starts_firstAt (h : p.Complete b) {offset : Int} (hoffset : b.hasOffset offset = true)
    (href : offset ∈ b.referredOffsets) : Starts p (firstAt p.spans offset) offset := by
  obtain ⟨block, hblock, hstart⟩ := b.exists_block_of_referred hoffset href
  obtain ⟨s, hs, rfl⟩ := h.exists_span hblock
  unfold firstAt
  cases hfind : p.spans.find? (·.block.offset == offset) with
  | none =>
    have := List.find?_eq_none.mp hfind s hs
    simp [hstart] at this
  | some s' =>
    exact ⟨s', List.mem_of_find?_eq_some hfind, rfl, by simpa using List.find?_some hfind⟩

/-- Different blocks start at different offsets. -/
lemma Starts.eq_iff (h : p.Complete b) {t t' : Nat} {offset offset' : Int}
    (ht : Starts p t offset) (ht' : Starts p t' offset') : t = t' ↔ offset = offset' := by
  obtain ⟨s, hs, rfl, rfl⟩ := ht
  obtain ⟨s', hs', rfl, rfl⟩ := ht'
  have hbounds := h.laid.bounds hs
  have hbounds' := h.laid.bounds hs'
  obtain ⟨first, hfirst, heq⟩ := h.exists_first hs
  obtain ⟨first', hfirst', heq'⟩ := h.exists_first hs'
  rcases h.laid.eq_or_apart hs hs' with rfl | hlt | hlt
  · simp
  · have := h.pc_lt hs hs' hlt first hfirst first' hfirst'
    omega
  · have := h.pc_lt hs' hs hlt first' hfirst' first hfirst
    omega

/-- Behind a block that does not end the flow starts the block of the next instruction.

**Proof sketch.** The statement behind the block belongs to a block, of which it is the first one.
All offsets of this block and of those behind it are larger than the offset of the last instruction,
so they are at least the offset of the next one, which belongs to one of these blocks. -/
lemma starts_next (h : p.Complete b) {s : Span} (hs : s ∈ p.spans) {ins next : Instruction}
    (hlast : s.block.last? = some ins) (hgoes : ins.op.endsBlock = false) {k : Nat}
    (hins : b.code[k]? = some ins) (hnext : b.code[k + 1]? = some next) :
    Starts p (s.last + 1) next.pc := by
  have hincrease := List.pairwise_iff_getElem.mp h.valid.increasing
  obtain ⟨hk, rfl⟩ := List.getElem?_eq_some_iff.mp hins
  obtain ⟨hk', rfl⟩ := List.getElem?_eq_some_iff.mp hnext
  have hmem := List.mem_of_getLast? hlast
  have hlt : s.last + 1 < p.lowered.size := by
    rcases h.laid.firstFrom_eq (fun s hs => h.instructions_ne_nil hs) hs with hend | hnext
    · rw [h.endsBlock_of_getLast? hend hlast] at hgoes
      cases hgoes
    · exact hnext ▸ h.firstFrom_lt _
  obtain ⟨s', hs', hfirst, hlast'⟩ :=
    h.laid.exists_span (Nat.zero_le (s.last + 1)) (by rw [Array.length_toList]; omega)
  have hbounds := h.laid.bounds hs
  have hbehind : s.last < s'.first := by
    rcases h.laid.eq_or_apart hs hs' with rfl | hlt | hlt <;> omega
  refine ⟨s', hs', by omega, ?_⟩
  obtain ⟨first, hfirstMem, hoffset⟩ := h.exists_first hs'
  rw [← hoffset]
  refine Int.le_antisymm ?_ ?_
  · obtain ⟨s'', hs'', hmem'⟩ := h.exists_span_of_mem_code (List.getElem_mem hk')
    have hpc := hincrease k (k + 1) hk hk' (Nat.lt_succ_self k)
    rcases h.laid.eq_or_apart hs' hs'' with rfl | hlt' | hlt'
    · rw [hoffset]
      exact h.offset_le hs' hmem'
    · exact Int.le_of_lt (h.pc_lt hs' hs'' hlt' first hfirstMem _ hmem')
    · -- the block of the next instruction is not in front of the end of this block
      have hbounds'' := h.laid.bounds hs''
      rcases h.laid.eq_or_apart hs hs'' with rfl | hlt'' | hlt''
      · have := h.le_last hs hlast hmem'
        omega
      · omega
      · have := h.pc_lt hs'' hs hlt'' _ hmem' _ hmem
        omega
  · have hpc := h.pc_lt hs hs' hbehind _ hmem first hfirstMem
    obtain ⟨j, hj, rfl⟩ := List.mem_iff_getElem.mp (h.mem_code hs' hfirstMem)
    have hkj : k < j := by
      by_contra hkj
      rcases Nat.lt_or_eq_of_le (Nat.le_of_not_lt hkj) with hlt' | rfl
      · have := hincrease j k hj hk hlt'
        omega
      · omega
    rcases Nat.lt_or_eq_of_le (Nat.succ_le_of_lt hkj) with hlt' | heq
    · exact Int.le_of_lt (hincrease (k + 1) j hk' hj hlt')
    · subst heq
      exact Int.le_refl _

/-- The instruction that a statement of a block comes from. -/
lemma exists_instruction (h : p.Complete b) {s : Span} (hs : s ∈ p.spans) {i : Nat}
    (hfirst : s.first ≤ i) (hlast : i ≤ s.last) {l : Lowered}
    (hl : p.lowered.toList[i]? = some l) : ∃ ins ∈ s.block.instructions, l.offset = ins.pc :=
  h.laid.exists_instruction hs hfirst hlast hl

end Progression.Complete

namespace FlowGraph.Connects

variable {types : Option ClassTable} {b : MethodBody} {params : ParamSlots} {p : Progression}
  {g : FlowGraph} (h : g.Connects types b params p)

include h

/-- The offset of a statement of a block. -/
lemma offset_eq {i : Nat} {l : Lowered} (hl : p.lowered.toList[i]? = some l) {st : Statement}
    (hst : g.statements[i]? = some st) : st.offset = l.offset := by
  have hi : i < p.lowered.size := by simpa using (List.getElem?_eq_some_iff.mp hl).1
  rw [h.getElem?_statements, Progression.getElem?_unlinked params b.resources hi, hl] at hst
  obtain rfl := Option.some.inj hst
  rfl

/-- The statements behind the blocks come from no instruction. -/
lemma offset_of_le {i : Nat} (hi : p.lowered.size ≤ i) {st : Statement}
    (hst : g.statements[i]? = some st) : st.offset = -1 := by
  rw [h.getElem?_statements] at hst
  obtain ⟨st', hst', rfl⟩ := Option.map_eq_some_iff.mp hst
  cases h.complete.has hst' with
  | block hlt hst' => omega
  | scope hs howns => cases howns <;> rfl
  | exit hexit heq =>
    subst heq
    rfl

/-- The statement of a block comes from one of its instructions. -/
lemma exists_instruction {s : Span} (hs : s ∈ p.spans) {i : Nat} (hfirst : s.first ≤ i)
    (hlast : i ≤ s.last) {st : Statement} (hst : g.statements[i]? = some st) :
    ∃ ins ∈ s.block.instructions, st.offset = ins.pc := by
  have hbounds := h.complete.laid.bounds hs
  have hl := List.getElem?_eq_getElem (show i < p.lowered.toList.length by omega)
  rw [h.offset_eq hl hst]
  exact h.complete.exists_instruction hs hfirst hlast hl

/-- The statements in front of a block come from instructions in front of it, those behind it from
instructions behind it. -/
lemma offset_lt {s : Span} (hs : s ∈ p.spans) {i : Nat} (hi : i < p.lowered.size) {st : Statement}
    (hst : g.statements[i]? = some st) {ins : Instruction} (hins : ins ∈ s.block.instructions) :
    (i < s.first → st.offset < ins.pc) ∧ (s.last < i → ins.pc < st.offset) := by
  have hl := List.getElem?_eq_getElem (show i < p.lowered.toList.length by simpa using hi)
  rw [h.offset_eq hl hst]
  exact h.complete.offset_lt hs hl hins

lemma size_le : p.lowered.size + 1 ≤ g.statements.size := by
  rw [h.size_statements]
  unfold Progression.exit
  omega

/-- The first statement of a block is the entry of its first instruction. -/
lemma entryOf_offset {s : Span} (hs : s ∈ p.spans) : g.entryOf s.block.offset = s.first := by
  have hbounds := h.complete.laid.bounds hs
  rw [Array.length_toList] at hbounds
  have hsize := h.size_le
  have hst := Array.getElem?_eq_getElem (show s.first < g.statements.size by omega)
  refine findIdx_toList_eq hst (decide_eq_true ?_) fun j hj st' hst' => decide_eq_false ?_
  · obtain ⟨ins, hins, heq⟩ := h.exists_instruction hs (Nat.le_refl _) hbounds.2.1 hst
    rw [heq]
    exact h.complete.offset_le hs hins
  · obtain ⟨first, hfirst, heq⟩ := h.complete.exists_first hs
    have := (h.offset_lt hs (by omega) hst' hfirst).1 hj
    omega

/-- The last statement of a block is the end of its last instruction. -/
lemma endOf_last {s : Span} (hs : s ∈ p.spans) {last : Instruction}
    (hlast : s.block.last? = some last) : g.endOf last.pc = s.last := by
  have hbounds := h.complete.laid.bounds hs
  rw [Array.length_toList] at hbounds
  have hsize := h.size_le
  have hmem : last ∈ s.block.instructions := List.mem_of_getLast? hlast
  have hst := Array.getElem?_eq_getElem (show s.last + 1 < g.statements.size by omega)
  have hidx : (g.statements.toList.findIdx
      fun st => decide (last.pc < st.offset ∨ st.offset < 0)) = s.last + 1 := by
    refine findIdx_toList_eq hst (decide_eq_true ?_) fun j hj st' hst' => decide_eq_false ?_
    · by_cases hblock : s.last + 1 < p.lowered.size
      · exact .inl ((h.offset_lt hs hblock hst hmem).2 (Nat.lt_succ_self _))
      · have := h.offset_of_le (by omega) hst
        omega
    · -- the offsets up to the end of the block are offsets of instructions up to the last one
      obtain ⟨s', hs', hfirst', hlast'⟩ :=
        h.complete.laid.exists_span (Nat.zero_le j) (by rw [Array.length_toList]; omega)
      obtain ⟨ins, hins, heq⟩ := h.exists_instruction hs' hfirst' hlast' hst'
      have hnonneg := h.complete.valid.nonneg ins (h.complete.mem_code hs' hins)
      have hle : st'.offset ≤ last.pc := by
        by_cases hj' : s.first ≤ j
        · obtain ⟨ins', hins', heq'⟩ := h.exists_instruction hs hj' (by omega) hst'
          rw [heq']
          exact h.complete.le_last hs hlast hins'
        · exact Int.le_of_lt ((h.offset_lt hs (by omega) hst' hmem).1 (by omega))
      omega
  unfold endOf
  omega

end FlowGraph.Connects

end JvmTaint
