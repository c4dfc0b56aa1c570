import JvmTaint.ClassFile.FieldType
import JvmTaint.Proofs.Text.Split

set_option autoImplicit false
set_option relaxedAutoImplicit false

/-!
# Reading descriptors

A descriptor is read from left to right, and every type ends where its own text ends. So a list of
types is the only one with its text, although the name of a class may have parentheses and brackets.
The grammar of descriptors is given for texts, without a word about how they are read.

## Main definitions

* `JvmTaint.IsFieldType`, `JvmTaint.IsReturnType`, `JvmTaint.IsMethodDescriptor`: the grammar of
  descriptors.
* `JvmTaint.FieldType.WellFormed`, `JvmTaint.MethodDescriptor.WellFormed`: the types that have a
  descriptor.

## Main results

* `JvmTaint.FieldType.parseChars_eq_ok_iff`: which texts start with a type, or with `void`.
* `JvmTaint.MethodDescriptor.parseParams_append`,
  `JvmTaint.MethodDescriptor.eq_append_of_parseParams`: which texts start with parameters.
* `JvmTaint.MethodDescriptor.parse_eq_ok_iff`: reading is inverse to writing.
* `JvmTaint.MethodDescriptor.parse_exact_grammar`: reading accepts the texts of the grammar, and
  takes them apart as they are put together.
-/

namespace JvmTaint

/-! ## The grammar -/

/-- The letters of the primitive types. -/
def primitiveTags : List Char := ['B', 'C', 'D', 'F', 'I', 'J', 'S', 'Z']

/-- The texts of field types: the letter of a primitive type; the name of a class, which is not
empty and has no semicolon, between `L` and `;`; or another field type after `[`. -/
inductive IsFieldType : String → Prop
  | primitive {tag : Char} (htag : tag ∈ primitiveTags) : IsFieldType (String.singleton tag)
  | object {name : String} (hne : name ≠ "") (hfree : ';' ∉ name.toList) :
    IsFieldType ("L" ++ name ++ ";")
  | array {element : String} (helement : IsFieldType element) : IsFieldType ("[" ++ element)

/-- The texts of return types: field types, and `V` for `void`. -/
def IsReturnType (s : String) : Prop := IsFieldType s ∨ s = "V"

/-- The texts of method descriptors: any number of field types in parentheses, and a return type. -/
def IsMethodDescriptor (s : String) : Prop :=
  ∃ (params : List String) (result : String), (∀ p ∈ params, IsFieldType p) ∧
    IsReturnType result ∧ s = "(" ++ String.join params ++ ")" ++ result

/-! ## Field types -/

namespace FieldType

/-- The names of all classes in the type can stand in a descriptor. -/
def WellFormed : FieldType → Prop
  | object name => name ≠ "" ∧ ';' ∉ name.toList
  | array element => element.WellFormed
  | _ => True

variable {t : FieldType} {cs rest : List Char}

@[simp] lemma toList_render (t : FieldType) : t.render.toList = t.renderChars := by
  simp [render]

lemma render_object (name : String) : (object name).render = "L" ++ name ++ ";" := by
  apply String.toList_injective
  simp [renderChars]

lemma render_array (t : FieldType) : (array t).render = "[" ++ t.render := by
  apply String.toList_injective
  simp [renderChars]

/-- A type whose text is the letter of a primitive type. -/
lemma isFieldType_of_tag {tag : Char} (h : t.renderChars = [tag]) (htag : tag ∈ primitiveTags) :
    IsFieldType t.render := by
  have hrender : t.render = String.singleton tag := by
    apply String.toList_injective
    simp [h]
  rw [hrender]
  exact .primitive htag

/-- The text of a well-formed type has the form of one. -/
lemma WellFormed.isFieldType (h : t.WellFormed) : IsFieldType t.render := by
  induction t with
  | object name =>
    rw [render_object]
    exact .object h.1 h.2
  | array element ih =>
    rw [render_array]
    exact .array (ih h)
  | _ => exact isFieldType_of_tag rfl (by decide)

/-- A letter of a primitive type is the text of one. -/
lemma exists_renderChars_eq {tag : Char} (htag : tag ∈ primitiveTags) :
    ∃ t : FieldType, t.WellFormed ∧ t.renderChars = [tag] := by
  simp only [primitiveTags, List.mem_cons, List.not_mem_nil, or_false] at htag
  rcases htag with rfl | rfl | rfl | rfl | rfl | rfl | rfl | rfl
  · exact ⟨.byte, trivial, rfl⟩
  · exact ⟨.char, trivial, rfl⟩
  · exact ⟨.double, trivial, rfl⟩
  · exact ⟨.float, trivial, rfl⟩
  · exact ⟨.int, trivial, rfl⟩
  · exact ⟨.long, trivial, rfl⟩
  · exact ⟨.short, trivial, rfl⟩
  · exact ⟨.boolean, trivial, rfl⟩

/-- **Field types.** The texts of field types are those of well-formed types. -/
lemma isFieldType_iff {s : String} :
    IsFieldType s ↔ ∃ t : FieldType, t.WellFormed ∧ t.render = s := by
  constructor
  · intro h
    induction h with
    | primitive htag =>
      obtain ⟨t, ht, heq⟩ := exists_renderChars_eq htag
      refine ⟨t, ht, ?_⟩
      apply String.toList_injective
      simp [heq]
    | @object name hne hfree => exact ⟨object name, ⟨hne, hfree⟩, render_object name⟩
    | array _ ih =>
      obtain ⟨t, ht, rfl⟩ := ih
      exact ⟨array t, ht, render_array t⟩
  · rintro ⟨t, ht, rfl⟩
    exact ht.isFieldType

/-- Texts of field types are those of well-formed types. -/
lemma exists_types {params : List String} (h : ∀ p ∈ params, IsFieldType p) :
    ∃ ts : List FieldType, (∀ t ∈ ts, t.WellFormed) ∧ ts.map render = params := by
  induction params with
  | nil => exact ⟨[], nofun, rfl⟩
  | cons p params ih =>
    obtain ⟨hp, hparams⟩ := List.forall_mem_cons.mp h
    obtain ⟨t, ht, rfl⟩ := isFieldType_iff.mp hp
    obtain ⟨ts, hts, rfl⟩ := ih hparams
    exact ⟨t :: ts, List.forall_mem_cons.mpr ⟨ht, hts⟩, rfl⟩

/-! ### Reading a type -/

/-- The name of a class ends at the first semicolon. -/
lemma parseChars_object {name : List Char} (hne : name ≠ []) (hfree : ';' ∉ name)
    (rest : List Char) : parseChars ('L' :: name ++ ';' :: rest) =
      .ok (some (.object (String.ofList name)), rest) := by
  obtain ⟨c, cs, rfl⟩ := List.exists_cons_of_ne_nil hne
  rw [List.cons_append, parseChars, Text.dropWhile_append_cons hfree,
    Text.takeWhile_append_cons hfree]

/-- A type is read from its text, whatever follows it. -/
lemma WellFormed.parseChars_append (h : t.WellFormed) (rest : List Char) :
    parseChars (t.renderChars ++ rest) = .ok (some t, rest) := by
  induction t with
  | object name =>
    have hne : name.toList ≠ [] := by simpa using h.1
    simpa [renderChars] using parseChars_object hne h.2 rest
  | array element ih => rw [renderChars, List.cons_append, parseChars, ih h]
  | _ => rfl

/-- The text of what a reader of types returns: `none` is `void`. -/
def resultChars : Option FieldType → List Char
  | none => ['V']
  | some t => t.renderChars

/-- What is read stands at the start of the text, and is a well-formed type or `void`.

**Proof sketch.** Induction along the reader, with one case for each letter. The name of a class is
what stands in front of the first semicolon, so it has none itself. -/
lemma eq_append_of_parseChars {result : Option FieldType}
    (h : parseChars cs = .ok (result, rest)) :
    (∀ t ∈ result, t.WellFormed) ∧ cs = resultChars result ++ rest := by
  fun_induction parseChars cs generalizing result rest with
  | case1 => cases h
  | case2 cs =>
    cases h
    exact ⟨by simp, rfl⟩
  | case11 cs hdrop => cases h
  | case12 cs c rest' hdrop htake => cases h
  | case13 cs c rest' hdrop htake =>
    cases h
    obtain ⟨-, heq⟩ := Text.eq_append_of_dropWhile hdrop
    have hfree := Text.notMem_takeWhile ';' cs
    refine ⟨?_, ?_⟩
    · intro t ht
      cases ht
      exact ⟨by simpa using htake, by simpa using hfree⟩
    · refine (congrArg ('L' :: ·) heq).trans ?_
      simp [resultChars, renderChars]
  | case14 cs e he ih => cases h
  | case15 cs rest' he ih => cases h
  | case16 cs t rest' he ih =>
    cases h
    obtain ⟨ht, heq⟩ := ih he
    refine ⟨?_, ?_⟩
    · intro t' ht'
      cases ht'
      exact ht t rfl
    · rw [heq]
      rfl
  | case17 => cases h
  | _ =>
    cases h
    refine ⟨?_, rfl⟩
    intro t ht
    cases ht
    trivial

/-- **Types.** A text starts with a type if it starts with the text of a well-formed type or
of `void`. -/
lemma parseChars_eq_ok_iff {result : Option FieldType} : parseChars cs = .ok (result, rest) ↔
    (∀ t ∈ result, t.WellFormed) ∧ cs = resultChars result ++ rest := by
  refine ⟨eq_append_of_parseChars, ?_⟩
  rintro ⟨hresult, rfl⟩
  cases result with
  | none => rfl
  | some t => exact (hresult t rfl).parseChars_append rest

/-- The text of a type does not start with a closing parenthesis. -/
lemma exists_renderChars_eq_cons (t : FieldType) :
    ∃ c cs, t.renderChars = c :: cs ∧ c ≠ ')' := by
  cases t
  all_goals exact ⟨_, _, rfl, by decide⟩

end FieldType

/-! ## Method descriptors -/

namespace MethodDescriptor

open FieldType

/-- All types of the descriptor can be written. -/
structure WellFormed (d : MethodDescriptor) : Prop where
  params : ∀ t ∈ d.params, t.WellFormed
  result : ∀ t ∈ d.result, t.WellFormed

variable {t : FieldType} {ts : List FieldType} {cs rest : List Char} {d : MethodDescriptor}

/-! ### The text of a descriptor -/

lemma toList_renderResult (d : MethodDescriptor) :
    d.renderResult.toList = resultChars d.result := by
  unfold renderResult
  cases d.result with
  | none => rfl
  | some t => exact toList_render t

/-- The text of a descriptor, with the texts of the types as they are read. -/
lemma toList_render (d : MethodDescriptor) : d.render.toList =
    '(' :: (d.params.flatMap renderChars ++ ')' :: resultChars d.result) := by
  simp [render, String.toList_join, List.flatMap_map, toList_renderResult]

/-! ### Reading a descriptor -/

/-- A type in front of other parameters is read first. -/
lemma parseParams_append_type (ht : t.WellFormed) (rest : List Char) :
    parseParams (t.renderChars ++ rest) =
      match parseParams rest with
      | .error e => .error e
      | .ok (ts, rest) => .ok (t :: ts, rest) := by
  have hread := ht.parseChars_append rest
  obtain ⟨c, cs, heq, hc⟩ := exists_renderChars_eq_cons t
  rw [heq, List.cons_append] at hread ⊢
  conv =>
    lhs
    unfold parseParams
  split
  · rename_i hnil
    cases hnil
  · rename_i hcons
    cases hcons
    exact absurd rfl hc
  · split
    all_goals
      rename_i hcase
      rw [hread] at hcase
      cases hcase
    rfl

/-- Parameters are read up to the parenthesis that closes them, not to one in the name of a
class. -/
lemma parseParams_append (h : ∀ t ∈ ts, t.WellFormed) (rest : List Char) :
    parseParams (ts.flatMap renderChars ++ ')' :: rest) = .ok (ts, rest) := by
  induction ts with
  | nil => rw [List.flatMap_nil, List.nil_append, parseParams]
  | cons t ts ih =>
    obtain ⟨ht, hts⟩ := List.forall_mem_cons.mp h
    rw [List.flatMap_cons, List.append_assoc, parseParams_append_type ht, ih hts]

/-- What is read as parameters stands in front of a closing parenthesis. -/
lemma eq_append_of_parseParams (h : parseParams cs = .ok (ts, rest)) :
    (∀ t ∈ ts, t.WellFormed) ∧ cs = ts.flatMap renderChars ++ ')' :: rest := by
  fun_induction parseParams cs generalizing ts rest with
  | case1 => cases h
  | case2 rest' =>
    cases h
    exact ⟨nofun, rfl⟩
  | case3 => cases h
  | case4 => cases h
  | case5 => cases h
  | case6 cs _ _ t after hread ts' rest' hmore ih =>
    cases h
    obtain ⟨ht, rfl⟩ := eq_append_of_parseChars hread
    obtain ⟨hts, rfl⟩ := ih hmore
    refine ⟨List.forall_mem_cons.mpr ⟨ht t rfl, hts⟩, ?_⟩
    rw [List.flatMap_cons, List.append_assoc]
    rfl

/-- A descriptor is read from its text. -/
lemma WellFormed.parse_render (h : d.WellFormed) : parse d.render = .ok d := by
  have hresult := parseChars_eq_ok_iff.mpr ⟨h.result, (List.append_nil _).symm⟩
  rw [parse, toList_render, parseChars, parseParams_append h.params]
  dsimp only
  rw [hresult]

/-- **Descriptors.** Reading is inverse to writing: a descriptor is read from its text and from no
other one. -/
lemma parse_eq_ok_iff {s : String} : parse s = .ok d ↔ d.WellFormed ∧ d.render = s := by
  constructor
  · intro h
    unfold parse parseChars at h
    split at h
    · rename_i cs hs
      split at h
      · cases h
      · rename_i params rest hparams
        obtain ⟨hts, rfl⟩ := eq_append_of_parseParams hparams
        split at h
        · cases h
        · rename_i result hresult
          cases h
          obtain ⟨ht, rfl⟩ := eq_append_of_parseChars hresult
          refine ⟨⟨hts, ht⟩, ?_⟩
          apply String.toList_injective
          rw [toList_render, hs, List.append_nil]
        · cases h
    · cases h
  · rintro ⟨hd, rfl⟩
    exact hd.parse_render

/-! ### Descriptors and their grammar -/

/-- The text of a return type that can be written has the form of one. -/
lemma WellFormed.isReturnType (h : d.WellFormed) : IsReturnType d.renderResult := by
  unfold renderResult
  cases hd : d.result with
  | none => exact .inr rfl
  | some t => exact .inl (h.result t hd).isFieldType

/-- The text of a descriptor that can be written has the form of one. -/
lemma WellFormed.isMethodDescriptor (h : d.WellFormed) : IsMethodDescriptor d.render := by
  refine ⟨d.params.map FieldType.render, d.renderResult, ?_, h.isReturnType, rfl⟩
  intro p hp
  obtain ⟨t, ht, rfl⟩ := List.mem_map.mp hp
  exact (h.params t ht).isFieldType

/-- Texts of field types and of a return type are those of a descriptor. -/
lemma exists_wellFormed {params : List String} {result : String}
    (hparams : ∀ p ∈ params, IsFieldType p) (hresult : IsReturnType result) :
    ∃ d : MethodDescriptor, d.WellFormed ∧ d.params.map FieldType.render = params ∧
      d.renderResult = result := by
  obtain ⟨ts, hts, rfl⟩ := exists_types hparams
  rcases hresult with hresult | rfl
  · obtain ⟨t, ht, rfl⟩ := isFieldType_iff.mp hresult
    exact ⟨⟨ts, some t⟩, ⟨hts, by simpa using ht⟩, rfl, rfl⟩
  · exact ⟨⟨ts, none⟩, ⟨hts, nofun⟩, rfl, rfl⟩

/-- **Descriptors and their grammar.** The texts that are read are those of the grammar; the types
that are read make up the text; and from types that are put together exactly these are read, in
their order. -/
theorem parse_exact_grammar :
    (∀ s, (∃ d, parse s = .ok d) ↔ IsMethodDescriptor s) ∧
    (∀ s d, parse s = .ok d →
      "(" ++ String.join (d.params.map FieldType.render) ++ ")" ++ d.renderResult = s) ∧
    ∀ params result, (∀ p ∈ params, IsFieldType p) → IsReturnType result →
      ∃ d, parse ("(" ++ String.join params ++ ")" ++ result) = .ok d ∧
        d.params.map FieldType.render = params ∧ d.renderResult = result := by
  have hparts : ∀ params result, (∀ p ∈ params, IsFieldType p) → IsReturnType result →
      ∃ d, parse ("(" ++ String.join params ++ ")" ++ result) = .ok d ∧
        d.params.map FieldType.render = params ∧ d.renderResult = result := by
    intro params result hparams hresult
    obtain ⟨d, hd, rfl, rfl⟩ := exists_wellFormed hparams hresult
    exact ⟨d, hd.parse_render, rfl, rfl⟩
  refine ⟨?_, ?_, hparts⟩
  · intro s
    constructor
    · rintro ⟨d, hd⟩
      obtain ⟨hwell, rfl⟩ := parse_eq_ok_iff.mp hd
      exact hwell.isMethodDescriptor
    · rintro ⟨params, result, hparams, hresult, rfl⟩
      obtain ⟨d, hd, -⟩ := hparts params result hparams hresult
      exact ⟨d, hd⟩
  · intro s d hd
    exact (parse_eq_ok_iff.mp hd).2

/-- The name of a class may have parentheses and brackets. -/
theorem parse_exact_grammar_of_brackets :
    (∀ p ∈ ["[[L)[(V;", "J"], IsFieldType p) ∧ IsReturnType "V" ∧
      ∃ d, parse "([[L)[(V;J)V" = .ok d ∧ d.params.map FieldType.render = ["[[L)[(V;", "J"] ∧
        d.renderResult = "V" := by
  have hparams : ∀ p ∈ ["[[L)[(V;", "J"], IsFieldType p := by
    have hname : IsFieldType "[[L)[(V;" :=
      isFieldType_iff.mpr ⟨.array (.array (.object ")[(V")), ⟨by decide, by decide⟩, by decide⟩
    have hlong : IsFieldType "J" := isFieldType_iff.mpr ⟨.long, trivial, by decide⟩
    simpa using ⟨hname, hlong⟩
  exact ⟨hparams, .inr rfl, parse_exact_grammar.2.2 _ _ hparams (.inr rfl)⟩

end MethodDescriptor

end JvmTaint
