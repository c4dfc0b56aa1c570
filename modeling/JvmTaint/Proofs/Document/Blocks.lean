import JvmTaint.Document.Block
import JvmTaint.Document.Decoder
import JvmTaint.Proofs.Packed.RoundTrip
import Mathlib.Data.Option.Basic

set_option autoImplicit false
set_option relaxedAutoImplicit false

/-!
# Decoding what was written

A block stands for a document, which a decoder gives a meaning. Texts and words are decoded as they
were written, lists element by element, and a record is decoded by setting the fields of its entries
in turn, so that it is enough to know what each entry sets. Beside this, a rule may refuse values
wherever they stand in a block.

## Main definitions

* `JvmTaint.Block.document`: the document that a block stands for.
* `JvmTaint.Block.Accepted`: a rule refuses no value in a block.
* `JvmTaint.Decodes`: a block is decoded as a value.
* `JvmTaint.Sets`: what the entries of a mapping set in a record.

## Main results

* `JvmTaint.Block.firstRefused_eq_none_iff`: a first refused value is found if there is one.
* `JvmTaint.NumberForm.ofText_toString`: a signed word is read from its text.
* `JvmTaint.decodes_list`, `JvmTaint.Sets.decodes`: lists and records are decoded.

## Design

How the text of a block is read as its document is a matter of the syntax of documents, and stays
out of this.
-/

namespace JvmTaint

/-! ## Documents of blocks -/

namespace Block

mutual

/-- The document that a block stands for. -/
def document : Block → Document
  | null => .null
  | bool b => .bool b
  | int n => .number (toString n)
  | text s => .string s
  | seq bs => .seq (documents bs)
  | map es => .map (entryDocuments es)

/-- The documents of the items of a sequence. -/
def documents : List Block → List Document
  | [] => []
  | b :: bs => b.document :: documents bs

/-- The documents of the entries of a mapping. -/
def entryDocuments : List (String × Block) → List (String × Document)
  | [] => []
  | (key, b) :: es => (key, b.document) :: entryDocuments es

end

lemma entryDocuments_append (es es' : List (String × Block)) :
    entryDocuments (es ++ es') = entryDocuments es ++ entryDocuments es' := by
  induction es with
  | nil => rfl
  | cons e es ih => rw [List.cons_append, entryDocuments, entryDocuments, ih, List.cons_append]

/-! ## Refused values -/

variable {refuse : String → Block → Option String}

mutual

/-- No value in the block is refused. -/
def Accepted (refuse : String → Block → Option String) : Block → Prop
  | seq bs => AcceptedItems refuse bs
  | map es => AcceptedEntries refuse es
  | _ => True

/-- No value in the items of a sequence is refused. -/
def AcceptedItems (refuse : String → Block → Option String) : List Block → Prop
  | [] => True
  | b :: bs => b.Accepted refuse ∧ AcceptedItems refuse bs

/-- No value in the entries of a mapping is refused. -/
def AcceptedEntries (refuse : String → Block → Option String) : List (String × Block) → Prop
  | [] => True
  | (key, b) :: es => (refuse key b = none ∧ b.Accepted refuse) ∧ AcceptedEntries refuse es

end

lemma acceptedItems_iff {bs : List Block} :
    AcceptedItems refuse bs ↔ ∀ b ∈ bs, b.Accepted refuse := by
  induction bs with
  | nil => simp [AcceptedItems]
  | cons b bs ih => rw [AcceptedItems, ih, List.forall_mem_cons]

lemma acceptedEntries_append {es es' : List (String × Block)} :
    AcceptedEntries refuse (es ++ es') ↔
      AcceptedEntries refuse es ∧ AcceptedEntries refuse es' := by
  induction es with
  | nil => simp [AcceptedEntries]
  | cons e es ih =>
    rw [List.cons_append, AcceptedEntries, AcceptedEntries, ih]
    exact and_assoc.symm

mutual

/-- There is no first refused value if no value is refused, wherever the block stands. -/
lemma firstRefused_eq_none_iff (b : Block) (line column : Nat) :
    b.firstRefused refuse line column = none ↔ b.Accepted refuse := by
  cases b with
  | seq bs => exact firstRefusedItem_eq_none_iff bs line column
  | map es => exact firstRefusedEntry_eq_none_iff es line column
  | null => simp [firstRefused, Accepted]
  | bool b => simp [firstRefused, Accepted]
  | int n => simp [firstRefused, Accepted]
  | text s => simp [firstRefused, Accepted]

lemma firstRefusedItem_eq_none_iff (bs : List Block) (line column : Nat) :
    firstRefusedItem refuse line column bs = none ↔ AcceptedItems refuse bs := by
  cases bs with
  | nil => simp [firstRefusedItem, AcceptedItems]
  | cons b bs =>
    rw [firstRefusedItem, AcceptedItems]
    exact (Option.orElse_eq_none _ _).trans
      (and_congr (firstRefused_eq_none_iff b _ _) (firstRefusedItem_eq_none_iff bs _ _))

lemma firstRefusedEntry_eq_none_iff (es : List (String × Block)) (line column : Nat) :
    firstRefusedEntry refuse line column es = none ↔ AcceptedEntries refuse es := by
  match es with
  | [] => simp [firstRefusedEntry, AcceptedEntries]
  | (key, b) :: es =>
    unfold firstRefusedEntry AcceptedEntries
    dsimp only
    cases refuse key b with
    | some reason => simp
    | none =>
      rw [eq_self, true_and]
      exact (Option.orElse_eq_none _ _).trans
        (and_congr (firstRefused_eq_none_iff b _ _) (firstRefusedEntry_eq_none_iff es _ _))

end

end Block

/-! ## Numbers -/

namespace NumberForm

/-- The digits of a number have its value. -/
lemma digitsValue_toDigits (n : Nat) : digitsValue (Nat.toDigits 10 n) = n := by
  have hvalue : digitsValue (Nat.toDigits 10 n) = Nat.ofDigitChars 10 (Nat.toDigits 10 n) 0 := by
    rw [digitsValue, Nat.ofDigitChars_eq_foldl]
    congr 1
    funext value c
    rw [Nat.mul_comm]
    rfl
  rw [hvalue, Nat.ofDigitChars_ten_toDigits]

/-- Digits are read as their value, and as the negative of it after a minus sign. -/
lemma integerOf?_of_isDigit {ds : List Char} (hne : ds ≠ []) (hds : ∀ c ∈ ds, c.isDigit = true) :
    integerOf? ds = some (digitsValue ds : Int) ∧
      integerOf? ('-' :: ds) = some (-(digitsValue ds : Int)) := by
  have hdigits : (!ds.isEmpty && ds.all Char.isDigit) = true := by
    rw [Bool.and_eq_true, Bool.not_eq_true', List.isEmpty_eq_false_iff, List.all_eq_true]
    exact ⟨hne, hds⟩
  constructor
  · unfold integerOf?
    split
    · exact absurd (hds '-' List.mem_cons_self) (by decide)
    · rw [if_pos hdigits]
  · rw [integerOf?, if_pos hdigits]

/-- An integer is read from its text. -/
lemma integerOf?_toString (n : Int) : integerOf? (toString n).toList = some n := by
  have hdigits : ∀ (k : Nat), ∀ c ∈ Nat.toDigits 10 k, c.isDigit = true :=
    fun k c hc => Nat.isDigit_of_mem_toDigits (by decide) (by decide) hc
  cases n with
  | ofNat k =>
    show integerOf? (Nat.repr k).toList = some (Int.ofNat k)
    rw [Nat.toList_repr, (integerOf?_of_isDigit Nat.toDigits_ne_nil (hdigits k)).1,
      digitsValue_toDigits]
    rfl
  | negSucc k =>
    show integerOf? ("-" ++ Nat.repr (k + 1)).toList = some (Int.negSucc k)
    have htext : ("-" ++ Nat.repr (k + 1)).toList = '-' :: Nat.toDigits 10 (k + 1) := by
      rw [String.toList_append, Nat.toList_repr]
      rfl
    rw [htext, (integerOf?_of_isDigit Nat.toDigits_ne_nil (hdigits (k + 1))).2,
      digitsValue_toDigits]
    rfl

/-- A signed word is read from its text. -/
lemma ofText_toString {n : Int} (h : Packed.IsWord n) : ofText (toString n) = .integer n := by
  obtain ⟨hleast, hmost⟩ := h
  have hrange : minInt64 ≤ n ∧ n < 18446744073709551616 := ⟨hleast, by omega⟩
  unfold ofText
  dsimp only
  rw [integerOf?_toString]
  dsimp only
  rw [if_pos hrange]

end NumberForm

/-! ## Decoding blocks -/

/-- The decoder gives the value for the document of the block. -/
def Decodes {α : Type} (decode : Document → Decoder (Option α)) (b : Block) (a : α) : Prop :=
  decode b.document = pure (some a)

section

variable {α β : Type} {decode : Document → Decoder (Option α)} {b : Block} {a : α}

lemma decodes_text (target s : String) : Decodes (Decoder.textAs target) (.text s) s := rfl

/-- A number is decoded if it is in the range of its type, which is one of signed words. -/
lemma decodes_int {target : String} {least most n : Int} (h : least ≤ n ∧ n ≤ most)
    (hword : Packed.IsWord n) : Decodes (Decoder.int target least most) (.int n) n := by
  unfold Decodes Block.document Decoder.int
  dsimp only
  rw [NumberForm.ofText_toString hword]
  dsimp only
  rw [if_pos h]

lemma decodes_int64 {target : String} {n : Int} (h : Packed.IsWord n) :
    Decodes (Decoder.int64 target) (.int n) n := by
  obtain ⟨hleast, hmost⟩ := h
  refine decodes_int ⟨hleast, ?_⟩ ⟨hleast, hmost⟩
  unfold NumberForm.maxInt64
  omega

lemma decodes_int32 {target : String} {n : Int} (h : Packed.IsHalfWord n) :
    Decodes (Decoder.int target (-2147483648) 2147483647) (.int n) n := by
  obtain ⟨hleast, hmost⟩ := h
  exact decodes_int ⟨hleast, by omega⟩ ⟨by omega, by omega⟩

/-- The elements of a list are decoded one after the other. -/
lemma decodes_list {target : String} {write : β → Block} {read : β → α} {l : List β}
    (h : ∀ x ∈ l, Decodes decode (write x) (read x)) :
    Decodes (Decoder.list target decode) (.seq (l.map write)) (l.map read) := by
  have helements : Decoder.elements decode (Block.documents (l.map write)) =
      pure (l.map read) := by
    induction l with
    | nil => rfl
    | cons x l ih =>
      obtain ⟨hx, hl⟩ := List.forall_mem_cons.mp h
      rw [List.map_cons, Block.documents, Decoder.elements, hx, pure_bind]
      dsimp only
      rw [ih hl, pure_bind]
      rfl
  rw [Decodes, Block.document, Decoder.list, helements, pure_bind]

/-- The elements of a list are decoded as they are. -/
lemma decodes_list_self {target : String} {write : α → Block} {l : List α}
    (h : ∀ x ∈ l, Decodes decode (write x) x) :
    Decodes (Decoder.list target decode) (.seq (l.map write)) l := by
  have hlist : Decodes (Decoder.list target decode) (.seq (l.map write)) (l.map id) :=
    decodes_list h
  rwa [List.map_id] at hlist

/-- A value that may be null, and is not. -/
lemma Decodes.nullable (h : Decodes decode b a) (hne : b.document ≠ .null) :
    Decodes (Decoder.nullable decode) b (some a) := by
  unfold Decodes Decoder.nullable
  split
  · rename_i hnull
    exact absurd hnull hne
  · rw [h, pure_bind]
    rfl

/-- A value that may be null. -/
lemma decodes_nullable {write : β → Block} {read : β → α} {v : Option β}
    (hne : ∀ x, (write x).document ≠ .null) (h : ∀ x ∈ v, Decodes decode (write x) (read x)) :
    Decodes (Decoder.nullable decode) ((v.map write).getD .null) (v.map read) := by
  cases v with
  | none => rfl
  | some x => exact (h x rfl).nullable (hne x)

end

/-! ## Entries of records -/

/-- Entries are followed one after the other. -/
lemma Decoder.fields_append {α : Type} (target : String) (strict : Bool)
    (field : String → Option (α → Document → Decoder α)) (es es' : List (String × Document))
    (a : α) : Decoder.fields target strict field (es ++ es') a =
      Decoder.fields target strict field es a >>= Decoder.fields target strict field es' := by
  induction es generalizing a with
  | nil => rw [List.nil_append, Decoder.fields, pure_bind]
  | cons e es ih =>
    obtain ⟨key, d⟩ := e
    rw [List.cons_append, Decoder.fields, Decoder.fields]
    cases field key with
    | some set => simp only [ih, bind_assoc]
    | none => cases strict <;> simp [ih, bind_assoc]

/-- The entries of a mapping set the fields of a record: from `a` they give `b`. -/
def Sets {α : Type} (fields : String → Option (α → Document → Decoder α))
    (entries : List (String × Block)) (a b : α) : Prop :=
  ∀ target strict, Decoder.fields target strict fields (Block.entryDocuments entries) a = pure b

namespace Sets

variable {α β : Type} {fields : String → Option (α → Document → Decoder α)} {a b c : α}
  {entries entries' : List (String × Block)} {key : String}

lemma nil (a : α) : Sets fields [] a a := fun _ _ => rfl

/-- A field that is written. -/
lemma field {decode : Document → Decoder (Option β)} {set : α → β → α} {value : Block} {v : β}
    (hset : fields key = Decoder.setter decode set) (h : Decodes decode value v)
    (hb : set a v = b) (hrest : Sets fields entries b c) :
    Sets fields ((key, value) :: entries) a c := by
  intro target strict
  rw [Block.entryDocuments, Decoder.fields, hset]
  unfold Decoder.setter
  dsimp only
  rw [h, pure_bind]
  dsimp only
  rw [pure_bind, hb]
  exact hrest target strict

/-- Entries set fields one after the other. -/
lemma append (h : Sets fields entries a b) (h' : Sets fields entries' b c) :
    Sets fields (entries ++ entries') a c := by
  intro target strict
  rw [Block.entryDocuments_append, Decoder.fields_append, h, pure_bind, h']

/-- Entries that are left out if they would set nothing. -/
lemma leftOut {p : Prop} [Decidable p] (hzero : p → a = b) (h : Sets fields entries a b) :
    Sets fields (if p then [] else entries) a b := by
  by_cases hp : p
  · rw [if_pos hp, hzero hp]
    exact .nil b
  · rw [if_neg hp]
    exact h

/-- A record whose fields are set by the entries of a mapping. -/
lemma decodes {target : String} {strict : Bool} (h : Sets fields entries a b) :
    Decodes (Decoder.record target strict a fields) (.map entries) b := by
  rw [Decodes, Block.document, Decoder.record, h, pure_bind]

end Sets

end JvmTaint
