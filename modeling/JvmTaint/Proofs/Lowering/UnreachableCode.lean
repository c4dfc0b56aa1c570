import JvmTaint.Proofs.Graph.Closure
import JvmTaint.Proofs.Lowering.ReachedBlocks

set_option autoImplicit false
set_option relaxedAutoImplicit false

/-!
# Unreachable code

Instructions that control does not reach are kept in the graph as placeholders. Control never comes
to a placeholder and never leaves it. A resource scope that ends at such an instruction has a jump
to its placeholder all the same, as the way behind a scope leads to the end of its range whether or
not that is reached; but control does not come to this jump, either.

## Main definitions

* `JvmTaint.Statement.StandsFor`: a statement is the placeholder of an instruction.
* `JvmTaint.FlowGraph.Connects.Active`: what all statements that control can come to have in common.

## Main results

* `JvmTaint.FlowGraph.Connects.active_of_mem_reachable`: control comes to active statements only.
* `JvmTaint.FlowGraph.Connects.source_of_dead`: the only edges into placeholders are those of scopes
  that end there.
* `JvmTaint.FlowGraph.unreachable_isolated`: placeholders stand for the instructions that are not
  reached, and are isolated.
* `JvmTaint.twoReturns_not_isolated`: a scope that ends at an instruction that is not reached.
-/

namespace JvmTaint

/-- The statement is the placeholder of an instruction that is never executed. -/
def Statement.StandsFor (st : Statement) (ins : Instruction) : Prop :=
  st.offset = ins.pc ∧ st.action = .unreachable ins.op

namespace FlowGraph

variable {types : Option ClassTable} {b : MethodBody} {params : ParamSlots} {p : Progression}
  {g : FlowGraph}

namespace Connects

/-- The statements that control can come to are no statements of blocks that are not reached, and do
not lead to the end of a scope that is not reached. -/
structure Active (b : MethodBody) (p : Progression) (i : Nat) : Prop where
  block : ∀ s ∈ p.spans, s.first ≤ i → i ≤ s.last → s.reached = true
  closing : ∀ s ∈ p.scopes b.resources, i = s.closeNormal ∨ i = s.gotoEnd →
    ∀ s' ∈ p.spans, s'.block.offset = s.scope.stop → s'.reached = true

variable (h : g.Connects types b params p)

include h

/-- The statements of blocks come first. -/
lemma last_lt {s : Span} (hs : s ∈ p.spans) : s.first ≤ s.last ∧ s.last < p.lowered.size := by
  have hbounds := h.complete.laid.bounds hs
  rw [Array.length_toList] at hbounds
  omega

/-- A statement is one of one block only. -/
lemma eq_of_within {s s' : Span} (hs : s ∈ p.spans) (hs' : s' ∈ p.spans) {i : Nat}
    (hfirst : s.first ≤ i) (hlast : i ≤ s.last) (hfirst' : s'.first ≤ i) (hlast' : i ≤ s'.last) :
    s' = s := by
  rcases h.complete.laid.eq_or_apart hs hs' with rfl | hlt | hlt
  · rfl
  · omega
  · omega

/-- Blocks that start at the same offset are one. -/
lemma eq_of_offset_eq {s s' : Span} (hs : s ∈ p.spans) (hs' : s' ∈ p.spans)
    (heq : s.block.offset = s'.block.offset) : s = s' := by
  have hfirst := h.entryOf_offset hs
  rw [heq, h.entryOf_offset hs'] at hfirst
  have hlast := (h.last_lt hs).1
  have hlast' := (h.last_lt hs').1
  exact h.eq_of_within hs' hs (Nat.le_refl _) hlast' (by omega) (by omega)

/-- The statements of blocks are not those of scopes. -/
lemma ne_base_add {s : Span} (hs : s ∈ p.spans) {i : Nat} (hlast : i ≤ s.last) {scope : Scope}
    (hscope : scope ∈ p.scopes b.resources) (k : Nat) : i ≠ scope.base + k := by
  obtain ⟨j, -, -, hbase⟩ := Progression.exists_base hscope
  have := h.last_lt hs
  omega

lemma active_block {s : Span} (hs : s ∈ p.spans) (hreached : s.reached = true) {i : Nat}
    (hfirst : s.first ≤ i) (hlast : i ≤ s.last) : Active b p i where
  block s' hs' hfirst' hlast' := by
    rw [h.eq_of_within hs hs' hfirst hlast hfirst' hlast', hreached]
  closing s' hs' hi := by
    rcases hi with hi | hi
    · exact absurd hi (h.ne_base_add hs hlast hs' 0)
    · exact absurd hi (h.ne_base_add hs hlast hs' 1)

lemma active_scope {s : Scope} (hs : s ∈ p.scopes b.resources) {k : Nat} (hk : k < 5)
    (hstop : k < 2 → ∀ s' ∈ p.spans, s'.block.offset = s.scope.stop → s'.reached = true) :
    Active b p (s.base + k) where
  block := by
    intro s' hs' hfirst hlast
    obtain ⟨j, -, -, hbase⟩ := Progression.exists_base hs
    have := h.last_lt hs'
    omega
  closing := by
    intro s' hs' hi
    obtain ⟨j, -, -, hbase⟩ := Progression.exists_base hs
    obtain ⟨j', -, -, hbase'⟩ := Progression.exists_base hs'
    unfold Scope.closeNormal Scope.gotoEnd at hi
    obtain rfl := Progression.eq_of_base_eq hs hs' (by omega)
    exact hstop (by omega)

lemma active_exit : Active b p (p.exit b.resources) where
  block := by
    intro s hs hfirst hlast
    have := h.last_lt hs
    unfold Progression.exit at hlast
    omega
  closing := by
    intro s hs hi
    obtain ⟨j, hj, -, hbase⟩ := Progression.exists_base hs
    unfold Progression.exit Scope.closeNormal Scope.gotoEnd at hi
    omega

/-- The first statement is active. -/
lemma active_entry : Active b p g.entry := by
  obtain ⟨s, hs, hfirst, hlast⟩ := h.complete.laid.exists_span (Nat.le_refl 0)
    (by rw [Array.length_toList, Nat.zero_add]; exact h.complete.lowered_pos)
  have hhead : b.blocks.head? = some s.block := by
    rw [← h.complete.blocks, List.head?_map]
    cases hspans : p.spans with
    | nil =>
      rw [hspans] at hs
      cases hs
    | cons s' spans =>
      have hs' : s' ∈ p.spans := by simp [hspans]
      rcases h.complete.laid.eq_or_apart hs hs' with rfl | hlt | hlt
      · rfl
      · have hapart := h.complete.laid.apart
        have hbounds := h.last_lt hs
        rw [hspans] at hs hapart
        have hbehind := (List.pairwise_cons.mp hapart).1 s
          ((List.mem_cons.mp hs).resolve_left (by rintro rfl; omega))
        omega
      · omega
  exact h.active_block hs ((h.complete.reached_iff hs).mpr (.first hhead)) hfirst hlast

/-- Ways lead from active statements to active ones. -/
lemma active_of_way {i t : Nat} (hi : Active b p i) (hway : p.Way b i t) : Active b p t := by
  cases hway with
  | inside hs hreached hfirst hlast => exact h.active_block hs hreached (by omega) hlast
  | leaves hs hreached hlast hs' htransfer =>
    exact h.active_block hs' (h.complete.reached_of_transfers hs hreached hlast hs' htransfer)
      (Nat.le_refl _) (h.last_lt hs').1
  | @closeNormal s hs =>
    exact h.active_scope hs (k := 1) (by omega) fun _ => hi.closing s hs (.inl rfl)
  | @gotoEnd s s' hs hs' hstop =>
    exact h.active_block hs' (hi.closing s hs (.inr rfl) s' hs' hstop) (Nat.le_refl _)
      (h.last_lt hs').1
  | handler hs => exact h.active_scope hs (k := 3) (by omega) (by omega)
  | closeOnException hs => exact h.active_scope hs (k := 4) (by omega) (by omega)

/-- **Step.** Edges lead from active statements to active ones.

**Proof sketch.** An exception edge leads to a handler, which is reached, or to a statement that is
always active. Any other edge follows a way, or closes a scope that ends where the way leads to. -/
lemma active_step {i : Nat} (hi : Active b p i) {e : Edge} (he : e ∈ g.successors i) :
    Active b p e.target := by
  rcases h.edge_cases he with ⟨-, -, htarget⟩ | ⟨-, t, hway, htarget⟩
  · rcases htarget with htarget | ⟨entry, hentry, s, hs, htarget, hoffset⟩ | ⟨s, hs, htarget⟩
    · exact htarget ▸ h.active_exit
    · exact htarget ▸ h.active_block hs (h.complete.reached_of_handler hs hentry hoffset)
        (Nat.le_refl _) (h.last_lt hs).1
    · exact htarget ▸ h.active_scope hs (k := 2) (by omega) (by omega)
  · have ht := h.active_of_way hi hway
    rcases htarget with htarget | ⟨s, hs, hstop, htarget⟩
    · exact htarget ▸ ht
    · refine htarget ▸ h.active_scope hs (k := 0) (by omega) fun _ s' hs' hoffset => ?_
      obtain ⟨s'', hs'', hfirst, hoffset'⟩ := h.complete.starts_stop hs
      obtain rfl := h.eq_of_offset_eq hs' hs'' (hoffset.trans hoffset'.symm)
      have hlast := (h.last_lt hs').1
      exact ht.block s' hs' (by omega) (by omega)

/-- **Run.** Control comes to active statements only. -/
lemma active_of_mem_reachable {i : Nat} (hi : i ∈ g.reachable) : Active b p i := by
  have hreaches := reaches_of_mem_closure (x := g.entry) _ 0
    (by simp [Relation.ReflTransGen.refl]) hi
  clear hi
  induction hreaches with
  | refl => exact h.active_entry
  | tail _ hstep ih =>
    obtain ⟨e, he, rfl⟩ := List.mem_map.mp hstep
    exact h.active_step ih he

/-- A placeholder is a statement of a block that is not reached. -/
lemma exists_dead_span {i : Nat} {st : Statement} (hst : g.statements[i]? = some st)
    (hdead : st.action.isUnreachable = true) :
    ∃ s ∈ p.spans, s.reached = false ∧ s.first ≤ i ∧ i ≤ s.last := by
  have hunlinked := hst
  rw [h.getElem?_statements] at hunlinked
  obtain ⟨st', hst', rfl⟩ := Option.map_eq_some_iff.mp hunlinked
  cases h.complete.has hst' with
  | block hi hblock =>
    obtain ⟨s, hs, hfirst, hlast⟩ := h.complete.laid.exists_span (Nat.zero_le i) (by simpa using hi)
    exact ⟨s, hs, (h.isUnreachable_iff hs hfirst hlast hst).mp hdead, hfirst, hlast⟩
  | scope hs howns => cases howns <;> cases hdead
  | exit hi hexit =>
    subst hexit
    cases hdead

/-- The statement of a block that is not reached is the placeholder of one of its instructions. -/
lemma exists_standsFor {s : Span} (hs : s ∈ p.spans) (hdead : s.reached = false) {i : Nat}
    (hfirst : s.first ≤ i) (hlast : i ≤ s.last) :
    ∃ ins, s.block.instructions[i - s.first]? = some ins ∧
      g.statements[i]? = some ⟨ins.pc, .unreachable ins.op, false⟩ := by
  obtain ⟨hlength, hget⟩ := h.getElem?_dead hs hdead
  have hlt : i - s.first < s.block.instructions.length := by omega
  refine ⟨_, List.getElem?_eq_getElem hlt, ?_⟩
  have hst := hget _ _ (List.getElem?_eq_getElem hlt)
  rwa [Nat.add_sub_cancel' hfirst] at hst

/-- No other statement has the offset of an instruction that is not reached. -/
lemma eq_of_offset {s : Span} (hs : s ∈ p.spans) (hdead : s.reached = false) {k : Nat}
    {ins : Instruction} (hk : s.block.instructions[k]? = some ins) {j : Nat} {st : Statement}
    (hst : g.statements[j]? = some st) (hoffset : st.offset = ins.pc) : j = s.first + k := by
  have hmem : ins ∈ s.block.instructions := List.mem_of_getElem? hk
  have hnonneg := h.complete.valid.nonneg ins (h.complete.mem_code hs hmem)
  have hlt : j < p.lowered.size := by
    by_contra hge
    have := h.offset_of_le (Nat.le_of_not_lt hge) hst
    omega
  have hwithin := h.offset_lt hs hlt hst hmem
  have hfirst : s.first ≤ j := by
    by_contra hlt
    have := hwithin.1 (by omega)
    omega
  have hlast : j ≤ s.last := by
    by_contra hlt
    have := hwithin.2 (by omega)
    omega
  obtain ⟨ins', hins', hst'⟩ := h.exists_standsFor hs hdead hfirst hlast
  obtain rfl := Option.some.inj (hst.symm.trans hst')
  have := eq_of_pairwise_lt (h.complete.pairwise_instructions hs) hins' hk hoffset
  omega

/-- No edge leads from a placeholder. -/
lemma successors_of_dead {i : Nat} {st : Statement} (hst : g.statements[i]? = some st)
    (hdead : st.action.isUnreachable = true) : g.successors i = [] := by
  refine List.eq_nil_iff_forall_not_mem.mpr fun e he => ?_
  obtain ⟨s, hs, hreached, hfirst, hlast⟩ := h.exists_dead_span hst hdead
  have hno : ∀ s' ∈ p.spans, s'.reached = true → s'.first ≤ i → i ≤ s'.last → False := by
    intro s' hs' halive hfirst' hlast'
    rw [h.eq_of_within hs hs' hfirst hlast hfirst' hlast', hreached] at halive
    cases halive
  rcases h.edge_cases he with ⟨-, ⟨st', hst', hthrow⟩, -⟩ | ⟨-, t, hway, -⟩
  · obtain rfl := Option.some.inj (hst.symm.trans hst')
    cases ha : st.action <;> simp_all [Action.isUnreachable, Action.mayThrow]
  · cases hway with
    | inside hs' halive hfirst' hlast' => exact hno _ hs' halive hfirst' (Nat.le_of_lt hlast')
    | leaves hs' halive hlast' hs'' htransfer =>
      exact hno _ hs' halive (h.last_lt hs').1 (Nat.le_refl _)
    | closeNormal hs' => exact h.ne_base_add hs hlast hs' 0 rfl
    | gotoEnd hs' hs'' hstop => exact h.ne_base_add hs hlast hs' 1 rfl
    | handler hs' => exact h.ne_base_add hs hlast hs' 2 rfl
    | closeOnException hs' => exact h.ne_base_add hs hlast hs' 3 rfl

/-- **Edges into placeholders.** The only edge into a block that is not reached comes from the jump
behind a scope that ends there.

**Proof sketch.** Exceptions lead to blocks that are reached, to scopes or to the exit. A way to a
statement of the block would start in the block itself, from which no ways lead, or at the end of a
block that is reached, which transfers control to blocks that are reached only. -/
lemma source_of_dead {s : Span} (hs : s ∈ p.spans) (hdead : s.reached = false) {i : Nat}
    (hfirst : s.first ≤ i) (hlast : i ≤ s.last) {j : Nat} {e : Edge} (he : e ∈ g.successors j)
    (htarget : e.target = i) :
    i = s.first ∧ ∃ scope ∈ p.scopes b.resources, j = scope.gotoEnd ∧
      scope.scope.stop = s.block.offset := by
  have hno : ∀ {P : Prop}, ∀ s' ∈ p.spans, s'.reached = true → s'.first ≤ i → i ≤ s'.last → P := by
    intro P s' hs' halive hfirst' hlast'
    rw [h.eq_of_within hs hs' hfirst hlast hfirst' hlast', hdead] at halive
    cases halive
  rcases h.edge_cases he with ⟨-, -, hcases⟩ | ⟨-, t, hway, hcases⟩
  · rcases hcases with heq | ⟨entry, hentry, s', hs', heq, hoffset⟩ | ⟨scope, hs', heq⟩
    · have := h.last_lt hs
      unfold Progression.exit at heq
      omega
    · have := h.last_lt hs'
      exact hno s' hs' (h.complete.reached_of_handler hs' hentry hoffset) (by omega) (by omega)
    · exact absurd (htarget.symm.trans heq) (h.ne_base_add hs hlast hs' 2)
  · rcases hcases with heq | ⟨scope, hs', -, heq⟩
    · obtain rfl : t = i := heq.symm.trans htarget
      cases hway with
      | inside hs' halive hfirst' hlast' => exact hno _ hs' halive (by omega) (by omega)
      | leaves hs' halive hlast' hs'' htransfer =>
        exact hno _ hs'' (h.complete.reached_of_transfers hs' halive hlast' hs'' htransfer)
          (Nat.le_refl _) (h.last_lt hs'').1
      | closeNormal hs' => exact absurd rfl (h.ne_base_add hs hlast hs' 1)
      | gotoEnd hs' hs'' hstop =>
        obtain rfl := h.eq_of_within hs hs'' hfirst hlast (Nat.le_refl _) (h.last_lt hs'').1
        exact ⟨rfl, _, hs', rfl, hstop.symm⟩
      | handler hs' => exact absurd rfl (h.ne_base_add hs hlast hs' 3)
      | closeOnException hs' => exact absurd rfl (h.ne_base_add hs hlast hs' 4)
    · exact absurd (htarget.symm.trans heq) (h.ne_base_add hs hlast hs' 0)

end Connects

/-! ## Placeholders -/

/-- **Unreachable code.** Each instruction of a block that control does not reach has one statement,
which is its placeholder, and there are no other placeholders. No edge leads from a placeholder, and
control does not come to it. No edge leads to it, either, unless a resource scope ends there.

**Proof sketch.** The statements of a block that is not reached are one placeholder for each of its
instructions, and the offsets of all other statements are different. A placeholder is not active, so
no way from the first statement leads to it. -/
theorem unreachable_isolated (hbuild : FlowGraph.build types b = .ok g) :
    (∀ block ∈ b.blocks, ¬ b.Live block → ∀ ins ∈ block.instructions,
      ∃ (i : Nat) (st : Statement), g.statements[i]? = some st ∧ st.StandsFor ins ∧
        ∀ (j : Nat) (st' : Statement), g.statements[j]? = some st' → st'.offset = ins.pc → j = i) ∧
    (∀ (i : Nat) (st : Statement), g.statements[i]? = some st → st.action.isUnreachable = true →
      ∃ block ∈ b.blocks, ¬ b.Live block ∧ ∃ ins ∈ block.instructions, st.StandsFor ins) ∧
    ∀ (i : Nat) (st : Statement), g.statements[i]? = some st → st.action.isUnreachable = true →
      g.successors i = [] ∧ i ∉ g.reachable ∧
        ((∀ r ∈ b.resources, r.stop ≠ st.offset) → g.predecessors i = []) := by
  rcases build_cases hbuild with ⟨hnil, hstatements, -⟩ | ⟨d, p, -, h⟩
  · -- a body without instructions has the exit only
    have hblocks : b.blocks = [] := by
      simp [MethodBody.blocks, hnil, MethodBody.cut, MethodBody.number]
    have hexit : ∀ (i : Nat) (st : Statement), g.statements[i]? = some st →
        st.action.isUnreachable = false := by
      intro i st hst
      rw [hstatements] at hst
      obtain rfl := Array.mem_singleton.mp (Array.mem_of_getElem? hst)
      rfl
    refine ⟨by simp [hblocks], fun i st hst hdead => ?_, fun i st hst hdead => ?_⟩
    all_goals
      rw [hexit i st hst] at hdead
      cases hdead
  refine ⟨fun block hblock hlive ins hins => ?_, fun i st hst hdead => ?_, fun i st hst hdead => ?_⟩
  · obtain ⟨s, hs, rfl⟩ := h.complete.exists_span hblock
    have hdead : s.reached = false := by
      rw [Bool.eq_false_iff, ne_eq, h.complete.reached_iff hs]
      exact hlive
    obtain ⟨k, hk⟩ := List.mem_iff_getElem?.mp hins
    refine ⟨_, _, (h.getElem?_dead hs hdead).2 k ins hk, ⟨rfl, rfl⟩, fun j st' hst' hoffset => ?_⟩
    exact h.eq_of_offset hs hdead hk hst' hoffset
  · obtain ⟨s, hs, hreached, hfirst, hlast⟩ := h.exists_dead_span hst hdead
    obtain ⟨ins, hins, hst'⟩ := h.exists_standsFor hs hreached hfirst hlast
    obtain rfl := Option.some.inj (hst.symm.trans hst')
    refine ⟨s.block, h.complete.block_mem hs, ?_, ins, List.mem_of_getElem? hins, rfl, rfl⟩
    rw [← h.complete.reached_iff hs, hreached]
    simp
  · obtain ⟨s, hs, hreached, hfirst, hlast⟩ := h.exists_dead_span hst hdead
    refine ⟨?_, fun hreachable => ?_, fun hstops => ?_⟩
    · exact h.successors_of_dead hst hdead
    · rw [(h.active_of_mem_reachable hreachable).block s hs hfirst hlast] at hreached
      cases hreached
    · refine List.filter_eq_nil_iff.mpr fun e he htarget => ?_
      obtain ⟨j, -, he⟩ := mem_edges_iff.mp he
      obtain ⟨hi, scope, hscope, -, hstop⟩ :=
        h.source_of_dead hs hreached hfirst hlast he (by simpa using htarget)
      have hoffset : s.block.offset = st.offset := by
        obtain ⟨ins, hins, hst'⟩ := h.exists_standsFor hs hreached hfirst hlast
        obtain rfl := Option.some.inj (hst.symm.trans hst')
        obtain ⟨first, rest, hcode, hoffset⟩ :=
          MethodBody.exists_head (h.complete.block_mem hs)
        rw [hi, Nat.sub_self, hcode] at hins
        rw [← hoffset, Option.some.inj hins]
      exact hstops _ (Progression.Complete.scope_mem p hscope) (hstop.trans hoffset)

end FlowGraph

/-! ## Two returns -/

/-- A static method of two returns, of which the second one is not reached. -/
def twoReturns (resources : List ResourceScope) : MethodBody where
  ref := ⟨"Desk", "close", "(LFile;)V"⟩
  modifiers := AccessFlags.empty.insert .static
  maxLocals := 1
  code := [{ pc := 0, op := ⟨177⟩ }, { pc := 1, op := ⟨177⟩ }]
  handlers := []
  resources

lemma build_twoReturns : (FlowGraph.build none (twoReturns [])).map
    (fun g => g.statements[1]?) = .ok (some ⟨1, .unreachable ⟨177⟩, false⟩) := by decide +kernel

/-- Without resource scopes, the second return is isolated. -/
theorem twoReturns_isolated : ∃ g, FlowGraph.build none (twoReturns []) = .ok g ∧
    (∃ block ∈ (twoReturns []).blocks, ¬ (twoReturns []).Live block ∧
      ∃ ins ∈ block.instructions, Statement.StandsFor ⟨1, .unreachable ⟨177⟩, false⟩ ins) ∧
    g.successors 1 = [] ∧ 1 ∉ g.reachable ∧ g.predecessors 1 = [] := by
  obtain ⟨g, hg, hst⟩ := exists_of_map_eq_ok build_twoReturns
  obtain ⟨-, hstands, hisolated⟩ := FlowGraph.unreachable_isolated hg
  obtain ⟨hout, hreachable, hin⟩ := hisolated 1 _ hst rfl
  exact ⟨g, hg, hstands 1 _ hst rfl, hout, hreachable, hin (by simp [twoReturns])⟩

/-- The file is open around the first return. -/
def openFile : ResourceScope := { slot := 0, start := 0, stop := 1, type := "File" }

lemma build_twoReturns_openFile : (FlowGraph.build none (twoReturns [openFile])).map
    (fun g => (g.statements[1]?, g.predecessors 1)) =
    .ok (some ⟨1, .unreachable ⟨177⟩, false⟩, [⟨3, 1, .normal, "", false⟩]) := by decide +kernel

/-- The scope of the file ends at the second return. The jump behind the scope leads to its
placeholder, although control does not reach it. -/
theorem twoReturns_not_isolated : ∃ g, FlowGraph.build none (twoReturns [openFile]) = .ok g ∧
    ∃ st, g.statements[1]? = some st ∧ st.action.isUnreachable = true ∧
      g.predecessors 1 ≠ [] := by
  obtain ⟨g, hg, hfacts⟩ := exists_of_map_eq_ok build_twoReturns_openFile
  obtain ⟨hst, hpredecessors⟩ := Prod.mk.inj hfacts
  exact ⟨g, hg, _, hst, rfl, by simp [hpredecessors]⟩

end JvmTaint
