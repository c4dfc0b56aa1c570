import JvmTaint.Graph.NodeSet
import JvmTaint.Proofs.Graph.Digraphs

set_option autoImplicit false
set_option relaxedAutoImplicit false

/-!
# The nodes of a graph

Whether an id is a node of a graph is recorded twice: in the list of nodes, which is what is gone
through, and by its label, which is what is looked up. A restriction shortens the list and keeps the
labels, so an id that it leaves out is still looked up as a node, and cannot be added again. Labels
are shared by a graph and its restrictions, so a node that is added to one of them is labelled in
the others too. An id to which neither has happened is a node on both records or on none.

## Main definitions

* `JvmTaint.Digraph.Change`: what is done to a graph, or to its labels from elsewhere.
* `JvmTaint.Digraph.Builds`: the graph that some changes make.
* `JvmTaint.Digraph.labelGiven?`: the label that an id was given last.
* `JvmTaint.Digraph.Missing`: the ids that have a label and cannot be nodes.

## Main results

* `JvmTaint.NodeSet.drain_eq`: what an iterator goes through.
* `JvmTaint.Digraph.Builds.label?_eq`, `JvmTaint.Digraph.Builds.mem_keys_iff`: both records in terms
  of the changes.
* `JvmTaint.Digraph.nodes_of_changes`: how the two records agree.
-/

namespace JvmTaint

/-! ## Going through nodes -/

/-- An iterator goes through the ids that it has not passed, with their labels, to its end. -/
lemma NodeSet.drain_eq (s : NodeSet) (h : s.passed ≤ s.ids.length) :
    s.drain = ((s.ids.drop s.passed).map fun id => (id, s.labels.getD id ""),
      { s with passed := s.ids.length }) := by
  obtain ⟨n, hn⟩ : ∃ n, n = s.ids.length - s.passed := ⟨_, rfl⟩
  induction n generalizing s with
  | zero =>
    have hend : s.passed = s.ids.length := by omega
    have hnone : s.next? = none := if_neg (by omega)
    rw [drain]
    split
    · rw [hend, List.drop_length, ← hend]
      rfl
    · simp_all
  | succ n ih =>
    have hlt : s.passed < s.ids.length := by omega
    have hsome : s.next? = some { s with passed := s.passed + 1 } := if_pos hlt
    rw [drain]
    split
    · simp_all
    · rename_i t ht
      obtain rfl : { s with passed := s.passed + 1 } = t := Option.some.inj (hsome.symm.trans ht)
      have hrest : n = s.ids.length - (s.passed + 1) := by omega
      have hnode : ({ s with passed := s.passed + 1 } : NodeSet).node? =
          some (s.ids[s.passed], s.labels.getD s.ids[s.passed] "") := by
        simp [node?, List.getElem?_eq_getElem hlt]
      rw [ih { s with passed := s.passed + 1 } hlt hrest, hnode, List.drop_eq_getElem_cons hlt]
      rfl

/-- An iterator that has not moved goes through its ids. -/
lemma NodeSet.map_fst_drain {s : NodeSet} (h : s.passed = 0) : s.drain.1.map Prod.fst = s.ids := by
  rw [s.drain_eq (by omega), h, List.drop_zero, List.map_map]
  exact List.map_id _

/-- A place in a list with one more element at the end is a place in the list, or the end. -/
lemma exists_place_concat_iff {α : Type} {l : List α} {x : α} {p : List α → α → List α → Prop} :
    (∃ before y after, l ++ [x] = before ++ y :: after ∧ p before y after) ↔
      (∃ before y after, l = before ++ y :: after ∧ p before y (after ++ [x])) ∨ p l x [] := by
  constructor
  · rintro ⟨before, y, after, heq, h⟩
    rcases List.eq_nil_or_concat' after with rfl | ⟨after, last, rfl⟩
    · obtain ⟨rfl, hy⟩ := List.append_inj' heq rfl
      obtain rfl := (List.cons.inj hy).1
      exact .inr h
    · rw [← List.cons_append, ← List.append_assoc] at heq
      obtain ⟨rfl, hlast⟩ := List.append_inj' heq rfl
      obtain rfl := (List.cons.inj hlast).1
      exact .inl ⟨before, y, after, rfl, h⟩
  · rintro (⟨before, y, after, rfl, h⟩ | h)
    · exact ⟨before, y, after ++ [x], by simp, h⟩
    · exact ⟨l, x, [], rfl, h⟩

namespace Digraph

variable {g : Digraph} {order id : Int} {label : String}

/-! ## Changes -/

/-- What is done to a graph. A graph shares its labels with the graph that it is a restriction of
and with its own restrictions: a node that is added to one of these is labelled `elsewhere`. -/
inductive Change where
  | node (id : Int) (label : String)
  | edge (source target : Int)
  | restrict (kept : List Int)
  | elsewhere (id : Int) (label : String)
  deriving DecidableEq, Repr

/-- Changes a graph. -/
def change (g : Digraph) : Change → Digraph
  | .node id label => g.addNode id label
  | .edge source target => g.addEdge source target
  | .restrict kept => g.subgraph kept
  | .elsewhere id label => { g with labels := g.labels.insert id label }

/-- The change may be made to the graph: edges join nodes, and a restriction is to some of the
nodes, each of them given once. -/
def Change.Allowed (g : Digraph) : Change → Prop
  | .node _ _ | .elsewhere _ _ => True
  | .edge source target => source ∈ g.keys ∧ target ∈ g.keys
  | .restrict kept => kept.Nodup ∧ ∀ id ∈ kept, id ∈ g.keys

/-- The changes, made in turn to a graph without nodes, make the graph. -/
inductive Builds (order : Int) : List Change → Digraph → Prop
  | empty : Builds order [] (empty order)
  | change {cs : List Change} {g : Digraph} (h : Builds order cs g) (c : Change)
      (hc : c.Allowed g) : Builds order (cs ++ [c]) (g.change c)

/-- The label that a change gives an id. -/
def Change.label? (id : Int) : Change → Option String
  | .node i label | .elsewhere i label => if i = id then some label else none
  | .edge _ _ | .restrict _ => none

/-- The label that an id was given last. -/
def labelGiven? (cs : List Change) (id : Int) : Option String :=
  cs.reverse.findSome? (Change.label? id)

/-- The id has a label but cannot be a node: a restriction has left it out after it was labelled, or
it was labelled elsewhere first. -/
def Missing (cs : List Change) (id : Int) : Prop :=
  ∃ before c after, cs = before ++ c :: after ∧
    ((∃ kept, c = .restrict kept ∧ labelGiven? before id ≠ none ∧ id ∉ kept) ∨
      ∃ label, c = .elsewhere id label ∧ labelGiven? before id = none)

variable {cs : List Change} {c : Change}

/-- The last change decides about the label, unless it gives none. -/
lemma labelGiven?_concat :
    labelGiven? (cs ++ [c]) id = (c.label? id).or (labelGiven? cs id) := by
  rw [labelGiven?, List.reverse_append, List.reverse_singleton, List.singleton_append,
    List.findSome?_cons]
  cases c.label? id <;> rfl

/-- A label that was given stays. -/
lemma labelGiven?_append_ne_none {before after : List Change}
    (h : labelGiven? before id ≠ none) : labelGiven? (before ++ after) id ≠ none := by
  rw [labelGiven?, List.reverse_append, List.findSome?_append]
  cases hafter : after.reverse.findSome? (Change.label? id) with
  | none => exact h
  | some label => simp

/-- An id is missing after a change if it was before, or if the change makes it so. -/
lemma missing_concat : Missing (cs ++ [c]) id ↔ Missing cs id ∨
    ((∃ kept, c = .restrict kept ∧ labelGiven? cs id ≠ none ∧ id ∉ kept) ∨
      ∃ label, c = .elsewhere id label ∧ labelGiven? cs id = none) :=
  exists_place_concat_iff

/-- No id is missing before any change. -/
lemma not_missing_nil : ¬ Missing [] id := by
  rintro ⟨before, c, after, heq, -⟩
  exact absurd heq (by simp)

/-- An id that is missing has a label. -/
lemma Missing.labelGiven?_ne_none (h : Missing cs id) : labelGiven? cs id ≠ none := by
  obtain ⟨before, c, after, rfl, ⟨kept, rfl, hgiven, -⟩ | ⟨label, rfl, -⟩⟩ := h
  · exact labelGiven?_append_ne_none hgiven
  · rw [List.append_cons]
    refine labelGiven?_append_ne_none ?_
    rw [labelGiven?_concat]
    simp [Change.label?]

namespace Builds

/-! ## Both records -/

/-- The label that is looked up is the one that was given last. -/
lemma label?_eq (h : Builds order cs g) (id : Int) : g.label? id = labelGiven? cs id := by
  have hinsert : ∀ (g : Digraph) (i : Int) (label : String),
      (g.labels.insert i label)[id]? = (if i = id then some label else none).or (g.label? id) := by
    intro g i label
    rw [Std.HashMap.getElem?_insert, label?]
    by_cases heq : i = id <;> simp [heq]
  induction h with
  | empty => simp [label?, Digraph.empty, labelGiven?]
  | change h c hc ih =>
    rw [labelGiven?_concat, ← ih]
    cases c with
    | node i label => exact hinsert ..
    | edge source target => rfl
    | restrict kept => exact congrArg (·[id]?) (subgraph_spec _ kept).2.2.1
    | elsewhere i label => exact hinsert ..

/-- An id is listed as a node exactly if it has a label and is not missing. -/
lemma mem_keys_iff (h : Builds order cs g) (id : Int) :
    id ∈ g.keys ↔ labelGiven? cs id ≠ none ∧ ¬ Missing cs id := by
  induction h with
  | empty => simp [Digraph.empty, labelGiven?]
  | @change cs g h c hc ih =>
    rw [missing_concat, labelGiven?_concat]
    cases c with
    | node i label =>
      have hlabelled : g.labels.contains i = true ↔ labelGiven? cs i ≠ none := by
        rw [← h.label?_eq i, label?, Std.HashMap.contains_eq_isSome_getElem?]
        simp
      show id ∈ (if g.labels.contains i then g.keys else insertAmong i g.keys) ↔ _
      by_cases hi : i = id
      · subst hi
        split
        · rename_i hcontains
          simp [ih, Change.label?, hlabelled.mp hcontains]
        · rename_i hcontains
          have hfresh : ¬ Missing cs i := fun hm =>
            hcontains (hlabelled.mpr hm.labelGiven?_ne_none)
          simp [mem_insertAmong, Change.label?, hfresh]
      · have hkeys : id ∈ (if g.labels.contains i then g.keys else insertAmong i g.keys) ↔
            id ∈ g.keys := by
          split
          · rfl
          · rw [mem_insertAmong, or_iff_right (Ne.symm hi)]
        rw [hkeys, ih]
        simp [Change.label?, hi]
    | edge source target =>
      show id ∈ g.keys ↔ _
      rw [ih]
      simp [Change.label?]
    | restrict kept =>
      show id ∈ (g.subgraph kept).keys ↔ _
      rw [keys_subgraph, List.mem_mergeSort]
      have hkept : id ∈ kept → id ∈ g.keys := hc.2 id
      rw [ih] at hkept
      simp only [Change.label?, Option.none_or, Change.restrict.injEq, reduceCtorEq, false_and,
        exists_false, or_false, exists_eq_left']
      tauto
    | elsewhere i label =>
      show id ∈ g.keys ↔ _
      rw [ih]
      by_cases hi : i = id
      · subst hi
        cases hgiven : labelGiven? cs i <;> simp [Change.label?]
      · simp [Change.label?, hi]

/-- Nodes are listed in increasing order, whatever has been labelled elsewhere. -/
lemma pairwise_keys (h : Builds order cs g) : g.keys.Pairwise (· < ·) := by
  induction h with
  | empty => simp [Digraph.empty]
  | @change cs g h c hc ih =>
    cases c with
    | node i label =>
      show (if g.labels.contains i then g.keys else insertAmong i g.keys).Pairwise (· < ·)
      split
      · exact ih
      · rename_i hcontains
        refine pairwise_insertAmong ih fun hmem => hcontains ?_
        have hgiven := ((h.mem_keys_iff i).mp hmem).1
        rw [← h.label?_eq i, label?] at hgiven
        rw [Std.HashMap.contains_eq_isSome_getElem?]
        exact Option.isSome_iff_ne_none.mpr hgiven
    | edge source target => exact ih
    | restrict kept =>
      show (g.subgraph kept).keys.Pairwise (· < ·)
      rw [keys_subgraph]
      exact pairwise_lt_mergeSort_self hc.1
    | elsewhere i label => exact ih

end Builds

/-- **How the two records of nodes agree.** Whatever changes have been made to a graph, its nodes
are listed in strictly increasing order, and those are the nodes that are gone through, each with
its label. A node that is added can be looked up by its label, and is listed exactly if its id is
not missing. An id is looked up as a node if and only if it is listed, exactly if it is not
missing. -/
theorem nodes_of_changes {order : Int} {cs : List Change} {g : Digraph} (h : Builds order cs g) :
    g.keys.Pairwise (· < ·) ∧
    (g.nodes.length = g.keys.length ∧ g.nodes.drain.1.map Prod.fst = g.keys ∧
      (∀ node ∈ g.nodes.drain.1, g.label? node.1 = some node.2) ∧ g.nodes.drain.2.length = 0) ∧
    (∀ id label, (g.addNode id label).label? id = some label ∧
      (id ∈ (g.addNode id label).keys ↔ ¬ Missing cs id)) ∧
    ∀ id, (g.label? id ≠ none ↔ id ∈ g.keys) ↔ ¬ Missing cs id := by
  have hdrain : g.nodes.drain = (g.keys.map fun id => (id, g.labels.getD id ""),
      { g.nodes with passed := g.keys.length }) := g.nodes.drain_eq (Nat.zero_le _)
  refine ⟨h.pairwise_keys, ⟨rfl, ?_, ?_, ?_⟩, fun id label => ?_, fun id => ?_⟩
  · rw [hdrain, List.map_map]
    exact List.map_id _
  · intro node hnode
    rw [hdrain] at hnode
    obtain ⟨id, hid, rfl⟩ := List.mem_map.mp hnode
    have hgiven := ((h.mem_keys_iff id).mp hid).1
    rw [← h.label?_eq id] at hgiven
    obtain ⟨label, hlabel⟩ := Option.ne_none_iff_exists'.mp hgiven
    rw [label?] at hlabel ⊢
    rw [hlabel, Std.HashMap.getD_eq_getD_getElem?, hlabel]
    rfl
  · rw [hdrain]
    exact Nat.sub_self _
  · have hadded := h.change (.node id label) trivial
    have hgiven : labelGiven? (cs ++ [.node id label]) id = some label := by
      rw [labelGiven?_concat]
      simp [Change.label?]
    refine ⟨(hadded.label?_eq id).trans hgiven, (hadded.mem_keys_iff id).trans ?_⟩
    rw [hgiven, missing_concat]
    simp
  · rw [h.label?_eq id, h.mem_keys_iff id]
    by_cases hmissing : Missing cs id
    · simp [hmissing, hmissing.labelGiven?_ne_none]
    · simp [hmissing]

/-! ## An example -/

/-- A graph with two nodes that is restricted to the first one. -/
def firstOfTwo : Digraph := (((empty 2).addNode 0 "a").addNode 1 "b").subgraph [0]

/-- The changes that make the graph. -/
def firstOfTwoChanges : List Change := [.node 0 "a", .node 1 "b", .restrict [0]]

lemma builds_firstOfTwo : Builds 2 firstOfTwoChanges firstOfTwo :=
  ((Builds.empty.change (.node 0 "a") trivial).change (.node 1 "b") trivial).change (.restrict [0])
    ⟨by decide, by simp [change, addNode, empty, mem_insertAmong]⟩

lemma missing_firstOfTwo : Missing firstOfTwoChanges id ↔ id = 1 := by
  have hgiven : labelGiven? [.node 0 "a", .node 1 "b"] id ≠ none ↔ 1 = id ∨ 0 = id := by
    by_cases h₁ : 1 = id <;> by_cases h₀ : 0 = id <;> simp [labelGiven?, Change.label?, h₁, h₀]
  rw [show firstOfTwoChanges = [] ++ [.node 0 "a"] ++ [.node 1 "b"] ++ [.restrict [0]] from rfl,
    missing_concat, missing_concat, missing_concat]
  simp only [not_missing_nil, reduceCtorEq, ne_eq, false_and, exists_const, or_self,
    List.nil_append, Change.restrict.injEq, List.cons_append, hgiven, exists_eq_left',
    List.mem_cons, List.not_mem_nil, or_false, false_or]
  omega

/-- The second node is missing from the graph, and the first one is not. -/
theorem nodes_of_changes_firstOfTwo :
    Builds 2 firstOfTwoChanges firstOfTwo ∧ firstOfTwo.keys.Pairwise (· < ·) ∧
      firstOfTwo.nodes.drain.1.map Prod.fst = firstOfTwo.keys ∧
      (firstOfTwo.label? 0 ≠ none ↔ 0 ∈ firstOfTwo.keys) ∧
      2 ∈ (firstOfTwo.addNode 2 "c").keys := by
  obtain ⟨hkeys, ⟨-, hnodes, -⟩, hadded, hagree⟩ := nodes_of_changes builds_firstOfTwo
  refine ⟨builds_firstOfTwo, hkeys, hnodes, (hagree 0).mpr ?_, (hadded 2 "c").2.mpr ?_⟩
  · simp [missing_firstOfTwo]
  · simp [missing_firstOfTwo]

/-- The node that the restriction leaves out is still looked up, although it is not listed, and it
is not listed when it is added again. -/
theorem looked_up_and_not_listed :
    Builds 2 firstOfTwoChanges firstOfTwo ∧ firstOfTwo.label? 1 = some "b" ∧
      1 ∉ firstOfTwo.keys ∧ (firstOfTwo.addNode 1 "c").label? 1 = some "c" ∧
      1 ∉ (firstOfTwo.addNode 1 "c").keys := by
  have hagain := builds_firstOfTwo.change (.node 1 "c") trivial
  refine ⟨builds_firstOfTwo, (builds_firstOfTwo.label?_eq 1).trans (by decide), ?_,
    (hagain.label?_eq 1).trans (by decide), ?_⟩
  · rw [builds_firstOfTwo.mem_keys_iff]
    simp [missing_firstOfTwo]
  · rw [show firstOfTwo.addNode 1 "c" = firstOfTwo.change (.node 1 "c") from rfl,
      hagain.mem_keys_iff, missing_concat]
    simp [missing_firstOfTwo]

end Digraph

end JvmTaint
