import JvmTaint.ClassFile.AccessFlags
import JvmTaint.Proofs.Text.Split

set_option autoImplicit false
set_option relaxedAutoImplicit false

/-!
# Written flags are read back

Flags are written as the names of those that have one. The names are joined to one text and the text
is cut at its spaces again, which gives the names back if there are any; but the text of no name has
one part, which is empty and names no flag. So flags are read back, as far as they have names, if
one of them has a name or if there are none.

## Main definitions

* `JvmTaint.AccessFlags.named`: the flags that have a name.
* `JvmTaint.AccessFlags.Readable`: the flags that are read back.

## Main results

* `JvmTaint.AccessFlags.writtenNames_eq_split`: the names that are written are the parts of a text.
* `JvmTaint.AccessFlags.ofNames_writtenNames`: what is read from them.
-/

namespace JvmTaint

namespace AccessFlag

/-- A flag is found by its name. -/
lemma find?_name (f : AccessFlag) : all.find? (·.name == f.name) = some f := by
  cases f <;> decide

/-- The name of a flag has no space. -/
lemma notMem_name (f : AccessFlag) : ' ' ∉ f.name.toList := by
  cases f <;> decide

/-- A flag is one bit. -/
lemma exists_twoPow (f : AccessFlag) : ∃ i, f.bit = BitVec.twoPow 64 i := by
  cases f with
  | «public» => exact ⟨0, by decide⟩
  | «private» => exact ⟨1, by decide⟩
  | «protected» => exact ⟨2, by decide⟩
  | static => exact ⟨3, by decide⟩
  | final => exact ⟨4, by decide⟩
  | synchronized => exact ⟨5, by decide⟩
  | native => exact ⟨8, by decide⟩
  | interface => exact ⟨9, by decide⟩
  | abstract => exact ⟨10, by decide⟩
  | synthetic => exact ⟨12, by decide⟩

/-- The bits of some flags. -/
def bitsOf (fs : List AccessFlag) : BitVec 64 := (fs.map bit).foldr (· ||| ·) 0#64

end AccessFlag

namespace AccessFlags

variable {m : AccessFlags}

/-- The flags that have a name. -/
def named (m : AccessFlags) : AccessFlags := ⟨m.bits &&& AccessFlag.bitsOf AccessFlag.all⟩

/-- The flags can be read back: none is set, or one that has a name. -/
def Readable (m : AccessFlags) : Prop := m.bits = 0#64 ∨ m.named ≠ empty

instance (m : AccessFlags) : Decidable m.Readable := inferInstanceAs (Decidable (_ ∨ _))

/-- What a word has of a flag is the whole flag or nothing. -/
lemma bits_and_bit (m : AccessFlags) (f : AccessFlag) :
    m.bits &&& f.bit = if m.has f then f.bit else 0#64 := by
  unfold has
  by_cases hbit : m.bits &&& f.bit = 0#64
  · simp [hbit]
  · obtain ⟨i, hi⟩ := f.exists_twoPow
    rw [hi, BitVec.and_twoPow] at hbit ⊢
    split
    · rename_i hset
      simp_all
    · rename_i hset
      exact absurd (if_neg hset) hbit

/-! ## Reading names -/

/-- The names of flags are read as the union of the flags. -/
lemma ofNames_map_name (fs : List AccessFlag) :
    ofNames (fs.map AccessFlag.name) = .ok (fs.foldl insert empty) := by
  rw [ofNames, List.foldlM_map]
  simp only [AccessFlag.find?_name]
  exact List.foldlM_pure

/-- The union of those among some flags that are set. -/
lemma foldl_insert_filter (m : AccessFlags) (fs : List AccessFlag) (start : AccessFlags) :
    (fs.filter m.has).foldl insert start =
      ⟨start.bits ||| (m.bits &&& AccessFlag.bitsOf fs)⟩ := by
  induction fs generalizing start with
  | nil => simp [AccessFlag.bitsOf]
  | cons f fs ih =>
    have hbits : AccessFlag.bitsOf (f :: fs) = f.bit ||| AccessFlag.bitsOf fs := rfl
    rw [hbits, BitVec.and_or_distrib_left, bits_and_bit, ← BitVec.or_assoc]
    by_cases hset : m.has f = true
    · rw [List.filter_cons_of_pos hset, List.foldl_cons, ih, if_pos hset]
      rfl
    · rw [List.filter_cons_of_neg hset, ih, if_neg hset, BitVec.or_zero]

/-- The names of the set flags are read as the flags that have a name. -/
lemma ofNames_names (m : AccessFlags) : ofNames m.names = .ok m.named := by
  rw [names, ofNames_map_name, foldl_insert_filter]
  simp [named, empty]

/-! ## Writing names -/

/-- The bit of a flag is among those of all flags. -/
lemma bitsOf_all_and_bit (f : AccessFlag) :
    AccessFlag.bitsOf AccessFlag.all &&& f.bit = f.bit := by
  cases f <;> decide

/-- The flags that have a name are set in both. -/
lemma has_named (m : AccessFlags) (f : AccessFlag) : m.named.has f = m.has f := by
  rw [has, has, named, BitVec.and_assoc, bitsOf_all_and_bit]

/-- There are names to be written if a flag that is set has one. -/
lemma names_eq_nil_iff : m.names = [] ↔ m.named = empty := by
  constructor
  · intro hnone
    have hread := m.ofNames_names
    rw [hnone] at hread
    exact (Except.ok.inj hread).symm
  · intro hnamed
    have hunset : m.has = empty.has := by
      funext f
      rw [← has_named, hnamed]
    rw [names, hunset]
    rfl

/-- **Written names.** The names of flags are written as the parts of the text in which spaces stand
between them. -/
lemma writtenNames_eq_split (m : AccessFlags) :
    m.writtenNames = if m.bits = 0#64 then [] else Text.split ' ' m.render := by
  have hfree : ∀ name ∈ m.names, ' ' ∉ name.toList := by
    intro name hname
    obtain ⟨f, -, rfl⟩ := List.mem_map.mp hname
    exact f.notMem_name
  unfold writtenNames render
  split
  · rfl
  · cases hnames : m.names with
    | nil => rfl
    | cons first names =>
      rw [hnames] at hfree
      exact (Text.split_intercalate hfree).symm

/-- **Reading back.** Flags are read back as far as they have names. If some are set but none of
them has a name, an empty name is written, and it is refused. -/
lemma ofNames_writtenNames (m : AccessFlags) : ofNames m.writtenNames =
    if m.Readable then .ok m.named else .error "" := by
  unfold writtenNames
  by_cases hzero : m.bits = 0#64
  · rw [if_pos hzero, if_pos (.inl hzero)]
    have hnamed : m.named = empty := by simp [named, empty, hzero]
    rw [hnamed]
    rfl
  · rw [if_neg hzero]
    cases hnames : m.names with
    | nil =>
      have hnamed : m.named = empty := names_eq_nil_iff.mp hnames
      rw [if_neg (by simp [Readable, hzero, hnamed])]
      rfl
    | cons first names =>
      have hnamed : m.named ≠ empty := fun h => by simp [names_eq_nil_iff.mpr h] at hnames
      rw [if_pos (.inr hnamed)]
      dsimp only
      rw [← hnames]
      exact m.ofNames_names

end AccessFlags

end JvmTaint
