import JvmTaint.ClassFile.MethodRef
import JvmTaint.Proofs.ClassFile.Descriptors
import Mathlib.Data.Set.Function

set_option autoImplicit false
set_option relaxedAutoImplicit false

/-!
# Reading references to methods

The text of a reference is its class, a dot, its name and its descriptor. Classes have dots and
descriptors have parentheses, but no parenthesis stands in front of the descriptor and no dot stands
in the name. So the first parenthesis and the last dot in front of it are the only places where the
text can be taken apart.

## Main definitions

* `JvmTaint.MethodRef.WellFormed`: the references that can be read from their texts.

## Main results

* `JvmTaint.MethodRef.splitLast?_eq_some_iff`: a list is split at the last place of an element.
* `JvmTaint.MethodRef.parse_eq_ok_iff`: reading is inverse to writing.
* `JvmTaint.MethodRef.parse_unique`: the texts that can be read have one way to be taken apart.
-/

namespace JvmTaint

namespace MethodRef

/-- The parts of the reference can be told apart in its text, and its descriptor can be read. -/
structure WellFormed (m : MethodRef) : Prop where
  cls_ne : m.cls ≠ ""
  cls_free : '(' ∉ m.cls.toList
  name_ne : m.name ≠ ""
  name_dotFree : '.' ∉ m.name.toList
  name_free : '(' ∉ m.name.toList
  descriptor : ∃ d, MethodDescriptor.parse m.descriptor = .ok d

variable {x : Char} {cs before after : List Char} {m o : MethodRef} {s : String}

/-! ## Splitting at the last place -/

/-- **Last places.** A list is split at the last place of an element: it does not occur behind. -/
lemma splitLast?_eq_some_iff : splitLast? x cs = some (before, after) ↔
    x ∉ after ∧ cs = before ++ x :: after := by
  unfold splitLast?
  constructor
  · intro h
    split at h
    · cases h
    · rename_i c front hdrop
      cases h
      obtain ⟨-, heq⟩ := Text.eq_append_of_dropWhile hdrop
      refine ⟨?_, ?_⟩
      · simpa using Text.notMem_takeWhile x cs.reverse
      · simpa using congrArg List.reverse heq
  · rintro ⟨hfree, rfl⟩
    have hreverse : (before ++ x :: after).reverse = after.reverse ++ x :: before.reverse := by
      simp
    have hfree' : x ∉ after.reverse := by simpa using hfree
    rw [hreverse, Text.dropWhile_append_cons hfree', Text.takeWhile_append_cons hfree']
    simp

/-! ## Texts of references -/

lemma toList_render (m : MethodRef) : m.render.toList =
    m.cls.toList ++ '.' :: (m.name.toList ++ m.descriptor.toList) := by
  simp [render]

/-- A descriptor that can be read starts with a parenthesis. -/
lemma WellFormed.exists_descriptor_eq (h : m.WellFormed) :
    ∃ rest, m.descriptor.toList = '(' :: rest := by
  obtain ⟨d, hd⟩ := h.descriptor
  obtain ⟨-, heq⟩ := MethodDescriptor.parse_eq_ok_iff.mp hd
  rw [← heq, MethodDescriptor.toList_render]
  exact ⟨_, rfl⟩

/-- A reference is read from its text.

**Proof sketch.** Nothing in front of the descriptor is a parenthesis, so the descriptor starts at
the first one. The name has no dot, so the dot in front of the name is the last one. -/
lemma WellFormed.parse_render (h : m.WellFormed) : parse m.render = .ok m := by
  obtain ⟨rest, hrest⟩ := h.exists_descriptor_eq
  obtain ⟨d, hd⟩ := h.descriptor
  rw [MethodDescriptor.parse, hrest] at hd
  obtain ⟨c, cls, hcls⟩ := List.exists_cons_of_ne_nil (String.toList_eq_nil_iff.not.mpr h.cls_ne)
  obtain ⟨n, name, hname⟩ := List.exists_cons_of_ne_nil (String.toList_eq_nil_iff.not.mpr h.name_ne)
  have hfree : '(' ∉ m.cls.toList ++ '.' :: m.name.toList := by
    simp [h.cls_free, h.name_free]
  have htext : m.render.toList = m.cls.toList ++ '.' :: m.name.toList ++ '(' :: rest := by
    rw [toList_render, hrest, List.append_assoc, List.cons_append]
  have hsplit : splitLast? '.' (m.cls.toList ++ '.' :: m.name.toList) =
      some (m.cls.toList, m.name.toList) := splitLast?_eq_some_iff.mpr ⟨h.name_dotFree, rfl⟩
  unfold parse
  dsimp only
  rw [htext, Text.dropWhile_append_cons hfree, Text.takeWhile_append_cons hfree, hsplit, hcls,
    hname]
  dsimp only
  rw [hd, ← hcls, ← hname, ← hrest]
  simp

/-- What is read is a reference with the text that it is read from. -/
lemma render_of_parse (h : parse s = .ok m) : m.WellFormed ∧ m.render = s := by
  unfold parse at h
  cases hdrop : s.toList.dropWhile (· ≠ '(') with
  | nil =>
    simp only [hdrop] at h
    cases h
  | cons c rest =>
    simp only [hdrop] at h
    split at h
    · rename_i c' cls n name hsplit
      split at h
      · cases h
      · rename_i d hd
        cases h
        obtain ⟨rfl, hs⟩ := Text.eq_append_of_dropWhile hdrop
        obtain ⟨hdot, heq⟩ := splitLast?_eq_some_iff.mp hsplit
        have hfree := Text.notMem_takeWhile '(' s.toList
        rw [heq] at hs hfree
        simp only [List.mem_append, List.mem_cons, not_or] at hfree
        obtain ⟨⟨hc, hcls⟩, -, hn, hname⟩ := hfree
        refine ⟨?_, ?_⟩
        · exact {
            cls_ne := by simp
            cls_free := by simp [hc, hcls]
            name_ne := by simp
            name_dotFree := by simpa using hdot
            name_free := by simp [hn, hname]
            descriptor := ⟨d, by simpa [MethodDescriptor.parse] using hd⟩ }
        · apply String.toList_injective
          rw [hs]
          simp [toList_render]
    · cases h

/-- **References.** Reading is inverse to writing: a reference is read from its text and from no
other one. -/
lemma parse_eq_ok_iff : parse s = .ok m ↔ m.WellFormed ∧ m.render = s := by
  refine ⟨render_of_parse, ?_⟩
  rintro ⟨hm, rfl⟩
  exact hm.parse_render

/-- **Texts of references.** The texts that are read are those of a class, a dot, a name and a
descriptor that can be told apart. These three parts are read, and no other ones have the same
text. -/
theorem parse_unique :
    (∀ s, (∃ m, parse s = .ok m) ↔ ∃ cls name descriptor,
      WellFormed ⟨cls, name, descriptor⟩ ∧ s = cls ++ "." ++ name ++ descriptor) ∧
    (∀ cls name descriptor, WellFormed ⟨cls, name, descriptor⟩ →
      parse (cls ++ "." ++ name ++ descriptor) = .ok ⟨cls, name, descriptor⟩) ∧
    (∀ s m, parse s = .ok m → m.WellFormed ∧ m.render = s) ∧
    (∀ m : MethodRef, m.WellFormed → parse m.render = .ok m) ∧
    Set.InjOn render {m | m.WellFormed} := by
  refine ⟨?_, ?_, fun s m => parse_eq_ok_iff.mp, fun m => WellFormed.parse_render, ?_⟩
  · intro s
    constructor
    · rintro ⟨m, hm⟩
      obtain ⟨hwell, rfl⟩ := parse_eq_ok_iff.mp hm
      exact ⟨m.cls, m.name, m.descriptor, hwell, rfl⟩
    · rintro ⟨cls, name, descriptor, hwell, rfl⟩
      exact ⟨_, hwell.parse_render⟩
  · intro cls name descriptor hwell
    exact hwell.parse_render
  · intro m hm o ho heq
    have hread : parse m.render = .ok m := WellFormed.parse_render hm
    rw [heq, WellFormed.parse_render ho] at hread
    cases hread
    rfl

/-- A class with dots, and a descriptor with dots and parentheses. -/
theorem parse_unique_of_dots :
    let m : MethodRef := ⟨"a.b/C", "<init>", "([L.(d.e;)V"⟩
    m.WellFormed ∧ parse "a.b/C.<init>([L.(d.e;)V" = .ok m ∧
      m.render = "a.b/C.<init>([L.(d.e;)V" := by
  intro m
  have hm : m.WellFormed := {
    cls_ne := by decide
    cls_free := by decide
    name_ne := by decide
    name_dotFree := by decide
    name_free := by decide
    descriptor := ⟨⟨[.array (.object ".(d.e")], none⟩, by cbv⟩ }
  obtain ⟨-, hparse, hrender, -, -⟩ := parse_unique
  have hread := hparse _ _ _ hm
  exact ⟨hm, hread, (hrender _ _ hread).2⟩

end MethodRef

end JvmTaint
