import JvmTaint.Proofs.Outcomes
import JvmTaint.Proofs.Packed.RoundTrip
import Mathlib.Data.List.Induction

set_option autoImplicit false
set_option relaxedAutoImplicit false

/-!
# What readers can give

A reader of packed values can be given any bytes, so what it gives has to be bounded by the reader
itself: integers are signed words, and the values in lists and records have the properties that the
readers of their parts keep.

## Main definitions

* `JvmTaint.Packed.Yields`: all that a reader gives has a property.
* `JvmTaint.Packed.Maintains`: the reader of a field keeps a property of records.

## Main results

* `JvmTaint.Packed.yields_readInt`, `JvmTaint.Packed.yields_readInt32`: integers are words.
* `JvmTaint.Packed.yields_readList`, `JvmTaint.Packed.yields_readNullable`,
  `JvmTaint.Packed.yields_readRecordWith`: lists, values that may be absent, and records.
-/

namespace JvmTaint.Packed

variable {α β : Type}

/-- All values that the reader gives have the property, whatever bytes it reads. -/
def Yields (P : α → Prop) (reader : Reader α) : Prop := ∀ bytes, Ensures (reader bytes) (P ·.1)

namespace Yields

variable {P : α → Prop} {Q : β → Prop} {reader : Reader α} {f : α → Reader β} {a : α}

/-- A value that is given without bytes. -/
lemma pure (h : P a) : Yields P (Pure.pure a : Reader α) := fun _ => ensures_ok h

/-- Nothing is given where reading fails. -/
lemma throw (e : PackedError) : Yields P (MonadExcept.throw e : Reader α) := fun _ => ensures_error

/-- Any reader gives something. -/
lemma anything (reader : Reader α) : Yields (fun _ => True) reader := fun _ _ _ => trivial

/-- Two readers in turn. -/
lemma bind (h : Yields P reader) (h' : ∀ a, P a → Yields Q (f a)) : Yields Q (reader >>= f) :=
  fun bytes => (h bytes).bind fun x hx => h' x.1 hx x.2

/-- The value that is read, mapped. -/
lemma map {g : α → β} (h : Yields P reader) (h' : ∀ a, P a → Q (g a)) :
    Yields Q (do return g (← reader)) :=
  h.bind fun a ha => .pure (h' a ha)

end Yields

/-! ## Numbers -/

/-- As many bytes are read as are wanted. -/
lemma yields_readBytes (n : Nat) : Yields (fun bytes => bytes.length = n) (readBytes n) := by
  intro bytes
  unfold readBytes
  refine ensures_ite (fun hzero => ensures_ok hzero.symm) fun _ => ?_
  refine ensures_ite (fun _ => ensures_error) fun _ => ?_
  refine ensures_ite (fun _ => ensures_error) fun hlength => ensures_ok ?_
  have hle := List.length_take_le n bytes
  dsimp only
  omega

/-- A number is bounded by the number of its bytes. -/
lemma ofBigEndian_lt (bytes : Bytes) : ofBigEndian bytes < 256 ^ bytes.length := by
  induction bytes using List.reverseRecOn with
  | nil => simp [ofBigEndian]
  | append_singleton bytes b ih =>
    have hb := b.toNat_lt
    unfold ofBigEndian at ih ⊢
    rw [List.foldl_append, List.foldl_cons, List.foldl_nil, List.length_append,
      List.length_singleton, Nat.pow_succ]
    omega

lemma yields_readNat (width : Nat) : Yields (fun n => n < 256 ^ width) (readNat width) := by
  refine (yields_readBytes width).map fun bytes hlength => ?_
  rw [← hlength]
  exact ofBigEndian_lt bytes

/-- A number of up to eight bytes is a signed word. -/
lemma isWord_toSigned {width n : Nat} (hwidth : width ≤ 8) (h : n < 256 ^ width) :
    IsWord (toSigned width n) := by
  have hpow : 256 ^ width ≤ 256 ^ 8 := Nat.pow_le_pow_right (by decide) hwidth
  unfold IsWord toSigned
  simp only [show Nat.pow 256 width = 256 ^ width from rfl]
  generalize 256 ^ width = size at h hpow ⊢
  split <;> omega

/-- A signed number of up to eight bytes is a signed word. -/
lemma yields_toSigned {width : Nat} (hwidth : width ≤ 8) :
    Yields IsWord (do return toSigned width (← readNat width)) :=
  (yields_readNat width).map fun _ h => isWord_toSigned hwidth h

/-- A natural number of up to four bytes is a signed word. -/
lemma yields_natCast {width : Nat} (hwidth : width ≤ 4) :
    Yields IsWord (do return ((← readNat width : Nat) : Int)) := by
  have hpow : 256 ^ width ≤ 256 ^ 4 := Nat.pow_le_pow_right (by decide) hwidth
  refine (yields_readNat width).map fun n h => ?_
  unfold IsWord
  omega

/-- **Integers are signed words**, whatever form they are read in. -/
lemma yields_readIntAfter (wanted : String) (c : UInt8) :
    Yields IsWord (readIntAfter wanted c) := by
  unfold readIntAfter
  split
  · exact .pure (isWord_toSigned (by decide) c.toNat_lt)
  · split
    · exact .pure (by decide)
    · exact yields_natCast (by decide)
    · exact yields_natCast (by decide)
    · exact yields_natCast (by decide)
    · exact yields_toSigned (by decide)
    · exact yields_toSigned (by decide)
    · exact yields_toSigned (by decide)
    · exact yields_toSigned (by decide)
    · exact yields_toSigned (by decide)
    · exact .throw _

lemma yields_readInt : Yields IsWord readInt :=
  (Yields.anything readByte).bind fun c _ => yields_readIntAfter "int64" c

lemma yields_readInt32 : Yields IsHalfWord readInt32 := by
  refine yields_readInt.map fun n _ => ?_
  have hlow := Int.le_bmod (x := n) (m := 4294967296) (by decide)
  have hhigh := Int.bmod_lt (x := n) (m := 4294967296) (by decide)
  unfold IsHalfWord
  omega

/-! ## Lists -/

/-- The values of a list have what is kept when one of them is read. -/
lemma yields_readMany {P : α → Prop} {zero : α} {value : Updater α} (hzero : P zero)
    (hvalue : ∀ a, P a → Yields P (value a)) (n : Nat) {current : List α}
    (hcurrent : ∀ a ∈ current, P a) :
    Yields (fun l => ∀ a ∈ l, P a) (readMany zero value n current) := by
  induction n generalizing current with
  | zero => exact .pure (by simp)
  | succ n ih =>
    have hhead : P (current.headD zero) := by
      cases current with
      | nil => exact hzero
      | cons a current => exact hcurrent a List.mem_cons_self
    refine (hvalue _ hhead).bind fun a ha => ?_
    refine (ih fun b hb => hcurrent b (List.mem_of_mem_tail hb)).bind fun l hl => .pure ?_
    exact List.forall_mem_cons.mpr ⟨ha, hl⟩

lemma yields_readList {P : α → Prop} {zero : α} {value : Updater α} (hzero : P zero)
    (hvalue : ∀ a, P a → Yields P (value a)) {current : Option (List α)}
    (hcurrent : ∀ a ∈ current.getD [], P a) :
    Yields (fun l => ∀ a ∈ l.getD [], P a) (readList zero value current) := by
  refine (Yields.anything readByte).bind fun c _ => ?_
  refine (Yields.anything (arrayLength c)).bind fun n _ => ?_
  cases n with
  | none => exact .pure (by simp)
  | some n => exact (yields_readMany hzero hvalue n hcurrent).bind fun l hl => .pure hl

/-- A value that may be absent has what is kept when it is read. -/
lemma yields_readNullable {P : α → Prop} {zero : α} {value : Updater α} (hzero : P zero)
    (hvalue : ∀ a, P a → Yields P (value a)) {current : Option α} (hcurrent : ∀ a ∈ current, P a) :
    Yields (fun v => ∀ a ∈ v, P a) (readNullable zero value current) := by
  have hstart : P (current.getD zero) := by
    cases current with
    | none => exact hzero
    | some a => exact hcurrent a rfl
  refine (Yields.anything get).bind fun bytes _ => ?_
  split
  · exact (Yields.anything (set _)).bind fun _ _ => .pure nofun
  · refine (hvalue _ hstart).map fun a ha a' ha' => ?_
    cases ha'
    exact ha

/-! ## Records -/

/-- The reader of the field keeps a property of records. -/
def Maintains (P : α → Prop) (f : KeyReader α) : Prop := ∀ a, P a → Yields P (f.2 a)

section

variable {P : α → Prop} {fields groups : List (KeyReader α)}

/-- The entries of a map keep what all fields keep. -/
lemma yields_readEntries (hfields : ∀ f ∈ fields, Maintains P f) (n : Nat) {a : α} (h : P a) :
    Yields P (readEntries fields n a) := by
  induction n generalizing a with
  | zero => exact .pure h
  | succ n ih =>
    refine (Yields.anything readText).bind fun name _ => ?_
    cases hname : fields.lookup name with
    | none => exact (Yields.anything skipValue).bind fun _ _ => ih h
    | some set =>
      obtain ⟨before, after, rfl, -⟩ := List.lookup_eq_some_iff.mp hname
      have hset := hfields (name, set) (List.mem_append_right before List.mem_cons_self)
      exact (hset a h).bind fun b hb => ih hb

/-- The items of an array keep what all fields keep. -/
lemma yields_foldlM (hfields : ∀ f ∈ fields, Maintains P f) {a : α} (h : P a) :
    Yields P (fields.foldlM (fun a (_, set) => set a) a) := by
  induction fields generalizing a with
  | nil => exact .pure h
  | cons f fields ih =>
    obtain ⟨hf, hrest⟩ := List.forall_mem_cons.mp hfields
    rw [List.foldlM_cons]
    exact (hf a h).bind fun b hb => ih hrest hb

/-- **Records keep what their fields keep**, whether they are maps or arrays. -/
lemma yields_readRecordWith {zero current : α} (hzero : P zero) (hcurrent : P current)
    (hfields : ∀ f ∈ fields, Maintains P f) (hgroups : ∀ f ∈ groups, Maintains P f) :
    Yields P (readRecordWith zero fields groups current) := by
  have hall : ∀ f ∈ fields ++ groups, Maintains P f := List.forall_mem_append.mpr ⟨hfields, hgroups⟩
  refine (Yields.anything readByte).bind fun c _ => ?_
  split
  · refine (Yields.anything (recordLength c)).bind fun n _ => ?_
    split
    · exact .pure hzero
    · split
      · exact yields_foldlM hfields hcurrent
      · exact .throw _
  · refine (Yields.anything (mapLength c)).bind fun n _ => ?_
    cases n with
    | none => exact .pure hzero
    | some n => exact yields_readEntries hall n hcurrent

lemma yields_readRecord {zero current : α} (hzero : P zero) (hcurrent : P current)
    (hfields : ∀ f ∈ fields, Maintains P f) : Yields P (readRecord zero fields current) :=
  yields_readRecordWith hzero hcurrent hfields (List.forall_mem_nil _)

end

end JvmTaint.Packed
