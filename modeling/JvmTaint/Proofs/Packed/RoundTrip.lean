import JvmTaint.Packed.Reader
import JvmTaint.Proofs.Text.Utf8
import Mathlib.Tactic.Ring

set_option autoImplicit false
set_option relaxedAutoImplicit false

/-!
# Reading what was packed

Each writer of packed values has a reader that takes exactly the bytes of the value, whatever
follows them, and gives the value back. Integers come back from the shortest form and from the fixed
ones if they are words of the width of the form, texts and lists if their lengths fit into a header.
A record is read by setting the fields of its entries in turn, so that it is enough to know what
each entry sets.

## Main definitions

* `JvmTaint.Packed.Reads`: a reader takes some bytes and gives a value.
* `JvmTaint.Packed.IsWord`, `JvmTaint.Packed.IsHalfWord`, `JvmTaint.Packed.FitsHeader`,
  `JvmTaint.Packed.FitsText`: the numbers and the texts that have a packed form.
* `JvmTaint.Packed.Fills`: what the entries of a map set in a record.

## Main results

* `JvmTaint.Packed.reads_int`, `JvmTaint.Packed.reads_int32`, `JvmTaint.Packed.reads_int64`,
  `JvmTaint.Packed.reads_uint8`, `JvmTaint.Packed.reads_text`, `JvmTaint.Packed.reads_array`: the
  basic types are read back.
* `JvmTaint.Packed.Fills.reads_record`: a record is read from the map of its entries.
-/

namespace JvmTaint.Packed

variable {α β : Type}

/-! ## Readers -/

/-- The reader takes exactly the bytes, whatever follows them, and gives the value. -/
def Reads (reader : Reader α) (bytes : Bytes) (a : α) : Prop :=
  ∀ rest, reader (bytes ++ rest) = .ok (a, rest)

namespace Reads

variable {reader : Reader α} {bytes bytes' : Bytes} {a : α} {b : β} {f : α → Reader β}

/-- A value is given without bytes. -/
lemma pure (a : α) : Reads (Pure.pure a : Reader α) [] a := fun _ => rfl

/-- Two readers in turn. -/
lemma bind (h : Reads reader bytes a) (h' : Reads (f a) bytes' b) :
    Reads (reader >>= f) (bytes ++ bytes') b := by
  intro rest
  show (reader (bytes ++ bytes' ++ rest) >>= fun x => f x.1 x.2) = _
  rw [List.append_assoc, h]
  exact h' rest

/-- A reader in front of one that takes no bytes. -/
lemma bind_nil (h : Reads reader bytes a) (h' : Reads (f a) [] b) :
    Reads (reader >>= f) bytes b := by
  simpa using h.bind h'

/-- The value that is read, mapped. -/
lemma map (h : Reads reader bytes a) (f : α → β) :
    Reads (do return f (← reader)) bytes (f a) :=
  h.bind_nil (pure _)

/-- A code in front of what it stands for. -/
lemma byte {c : UInt8} {f : UInt8 → Reader β} (h : Reads (f c) bytes b) :
    Reads (do f (← readByte)) (c :: bytes) b :=
  fun rest => h rest

end Reads

/-! ## Bytes and numbers -/

/-- A signed word of eight bytes. -/
def IsWord (n : Int) : Prop := -9223372036854775808 ≤ n ∧ n < 9223372036854775808

/-- A signed word of four bytes. -/
def IsHalfWord (n : Int) : Prop := -2147483648 ≤ n ∧ n < 2147483648

/-- A length that the header of a text, an array or a map can hold. -/
def FitsHeader (n : Nat) : Prop := n < 4294967296

/-- The length of the text fits into a header. -/
def FitsText (s : String) : Prop := FitsHeader (Text.toBytes s).length

instance (n : Int) : Decidable (IsWord n) := inferInstanceAs (Decidable (_ ∧ _))

instance (n : Int) : Decidable (IsHalfWord n) := inferInstanceAs (Decidable (_ ∧ _))

instance (n : Nat) : Decidable (FitsHeader n) := inferInstanceAs (Decidable (_ < _))

instance (s : String) : Decidable (FitsText s) := inferInstanceAs (Decidable (FitsHeader _))

/-- As many bytes are read as there are. -/
lemma reads_readBytes (bytes : Bytes) : Reads (readBytes bytes.length) bytes bytes := by
  intro rest
  unfold readBytes
  split
  · rename_i hzero
    rw [List.length_eq_zero_iff.mp hzero, List.nil_append]
  · rename_i hpos
    have hne : (bytes ++ rest).isEmpty = false := by
      rw [List.isEmpty_eq_false_iff]
      intro hnil
      rw [(List.append_eq_nil_iff.mp hnil).1] at hpos
      exact hpos rfl
    simp [hne]

@[simp] lemma length_bigEndian (width n : Nat) : (bigEndian width n).length = width := by
  induction width generalizing n with
  | zero => rfl
  | succ width ih => simp [bigEndian, ih]

/-- A number is read from its last bytes up to the higher ones. -/
lemma ofBigEndian_bigEndian (width n : Nat) :
    ofBigEndian (bigEndian width n) = n % 256 ^ width := by
  induction width generalizing n with
  | zero => simp [bigEndian, ofBigEndian, Nat.mod_one]
  | succ width ih =>
    have hlow : (UInt8.ofNat n).toNat = n % 256 := UInt8.toNat_ofNat'
    have hhigh := ih (n / 256)
    unfold ofBigEndian at hhigh ⊢
    rw [bigEndian, List.foldl_append, hhigh, List.foldl_cons, List.foldl_nil, hlow,
      Nat.pow_succ', Nat.mod_mul]
    ring

/-- A number is read from its bytes. -/
lemma reads_readNat (width : Nat) {n : Nat} (h : n < 256 ^ width) :
    Reads (readNat width) (bigEndian width n) n := by
  have hbytes := reads_readBytes (bigEndian width n)
  rw [length_bigEndian] at hbytes
  have hread := hbytes.map ofBigEndian
  rw [ofBigEndian_bigEndian, Nat.mod_eq_of_lt h] at hread
  exact hread

/-- The signed number with the bits of a word is the word. -/
lemma toSigned_emod (width : Nat) {n : Int} (hwidth : width ≠ 0)
    (h : -(256 ^ width / 2 : Nat) ≤ n ∧ n < (256 ^ width / 2 : Nat)) :
    toSigned width (n % (Nat.pow 256 width : Nat)).toNat = n := by
  have hhalves : 256 ^ width = 2 * (256 ^ width / 2) := by
    obtain ⟨w, rfl⟩ := Nat.exists_eq_succ_of_ne_zero hwidth
    rw [Nat.pow_succ]
    omega
  unfold toSigned
  simp only [show Nat.pow 256 width = 256 ^ width from rfl]
  generalize 256 ^ width = size at h hhalves ⊢
  rcases le_or_gt 0 n with hn | hn
  · rw [Int.emod_eq_of_lt hn (by omega), if_pos (by omega)]
    omega
  · have hmod : n % size = n + size := by
      rw [← Int.add_emod_right, Int.emod_eq_of_lt (by omega) (by omega)]
    rw [hmod, if_neg (by omega)]
    omega

/-- A signed number is read from the bytes of its two's complement. -/
lemma reads_bigEndianInt (width : Nat) {n : Int} (hwidth : width ≠ 0)
    (h : -(256 ^ width / 2 : Nat) ≤ n ∧ n < (256 ^ width / 2 : Nat)) :
    Reads (do return toSigned width (← readNat width)) (bigEndianInt width n) n := by
  have hpos : (0 : Int) < (256 ^ width : Nat) := by
    exact_mod_cast Nat.pow_pos (by decide)
  have hlt : (n % (Nat.pow 256 width : Nat)).toNat < 256 ^ width := by
    have hup := Int.emod_lt_of_pos n hpos
    have hlow := Int.emod_nonneg n hpos.ne'
    show (n % (256 ^ width : Nat)).toNat < 256 ^ width
    omega
  have hread := (reads_readNat width hlt).map (toSigned width)
  rwa [toSigned_emod width hwidth h] at hread

/-- An integer that is its own code. -/
lemma readIntAfter_fixed (wanted : String) {c : UInt8} (h : c.toNat ≤ 0x7f ∨ 0xe0 ≤ c.toNat) :
    readIntAfter wanted c = pure (toSigned 1 c.toNat) := by
  rw [readIntAfter, isFixedInt, decide_eq_true h]
  rfl

/-- A natural number is read from its shortest form. -/
lemma reads_nat {n : Nat} (h : IsWord n) : Reads readInt (nat n) n := by
  unfold IsWord at h
  unfold nat
  split
  · rename_i hle
    have hbyte : (UInt8.ofNat n).toNat = n := UInt8.toNat_ofNat_of_lt' (show n < 256 by omega)
    refine Reads.byte ?_
    rw [readIntAfter_fixed _ (by omega), hbyte, toSigned, if_pos (by simp; omega)]
    exact .pure _
  · split
    · exact Reads.byte ((reads_readNat 1 (by omega)).map Int.ofNat)
    · split
      · exact Reads.byte ((reads_readNat 2 (by omega)).map Int.ofNat)
      · split
        · exact Reads.byte ((reads_readNat 4 (by omega)).map Int.ofNat)
        · refine Reads.byte ?_
          have hread := (reads_readNat 8 (n := n) (by omega)).map (toSigned 8)
          rw [show toSigned 8 n = n from if_pos (show n < 256 ^ 8 / 2 by omega)] at hread
          exact hread

/-- **An integer is read from its shortest form.** -/
lemma reads_int {n : Int} (h : IsWord n) : Reads readInt (int n) n := by
  unfold int
  split
  · rename_i hpos
    have hnat : (n.toNat : Int) = n := Int.toNat_of_nonneg hpos
    rw [← hnat]
    exact reads_nat (hnat ▸ h)
  · unfold IsWord at h
    split
    · have hword := toSigned_emod 1 (n := n) (by decide) (by omega)
      have hbyte : (UInt8.ofNat (n % 256).toNat).toNat = (n % 256).toNat :=
        UInt8.toNat_ofNat_of_lt' (show (n % 256).toNat < 256 by omega)
      refine Reads.byte (c := UInt8.ofNat (n % 256).toNat) ?_
      rw [readIntAfter_fixed _ (by omega), hbyte]
      exact (congrArg (Reads · [] n) (congrArg Pure.pure hword)).mpr (.pure n)
    · split
      · exact Reads.byte (reads_bigEndianInt 1 (by decide) (by omega))
      · split
        · exact Reads.byte (reads_bigEndianInt 2 (by decide) (by omega))
        · split
          · exact Reads.byte (reads_bigEndianInt 4 (by decide) (by omega))
          · exact Reads.byte (reads_bigEndianInt 8 (by decide) (by omega))

/-- An integer is read from eight bytes. -/
lemma reads_int64 {n : Int} (h : IsWord n) : Reads readInt (int64 n) n := by
  unfold IsWord at h
  exact Reads.byte (reads_bigEndianInt 8 (by decide) (by omega))

/-- A short integer is read from four bytes. -/
lemma reads_int32 {n : Int} (h : IsHalfWord n) : Reads readInt32 (int32 n) n := by
  unfold IsHalfWord at h
  have hread : Reads readInt (int32 n) n :=
    Reads.byte (reads_bigEndianInt 4 (by decide) (by omega))
  have hword : Int.bmod n 4294967296 = n := Int.bmod_eq_of_le (by omega) (by omega)
  have hmap := hread.map fun n => Int.bmod n 4294967296
  rwa [hword] at hmap

/-- A byte is read from its form. -/
lemma reads_uint8 (b : UInt8) : Reads readUInt8 (uint8 b) b := by
  have hread : Reads (readNat 1) [b] b.toNat := by
    have hnat := reads_readNat 1 (n := b.toNat) (by have := b.toNat_lt; omega)
    simpa [bigEndian] using hnat
  have hbyte : UInt8.ofNat ((b.toNat : Int) % 256).toNat = b := by
    have hlt := b.toNat_lt
    rw [Int.emod_eq_of_lt (by omega) (by omega), Int.toNat_natCast, UInt8.ofNat_toNat]
  have hmap := (hread.map Int.ofNat).map fun n => UInt8.ofNat (n % 256).toNat
  rw [show UInt8.ofNat (Int.ofNat b.toNat % 256).toNat = b from hbyte] at hmap
  exact Reads.byte hmap

/-! ## Texts and lists -/

/-- **A text is read from its bytes**, which follow their number. -/
lemma reads_text {s : String} (h : FitsText s) : Reads readText (text s) s := by
  unfold FitsText FitsHeader at h
  have hlength : Reads (do textLength (← readByte))
      (if (Text.toBytes s).length ≤ 31 then [UInt8.ofNat (0xa0 + (Text.toBytes s).length)]
        else if (Text.toBytes s).length ≤ 0xff then 0xd9 :: bigEndian 1 (Text.toBytes s).length
        else if (Text.toBytes s).length ≤ 0xffff then 0xda :: bigEndian 2 (Text.toBytes s).length
        else 0xdb :: bigEndian 4 (Text.toBytes s).length) (Text.toBytes s).length := by
    generalize (Text.toBytes s).length = n at h ⊢
    split
    · have hbyte : (UInt8.ofNat (0xa0 + n)).toNat = 0xa0 + n :=
        UInt8.toNat_ofNat_of_lt' (show 0xa0 + n < 256 by omega)
      refine Reads.byte ?_
      rw [textLength, hbyte, if_pos (by omega), Nat.add_sub_cancel_left]
      exact .pure n
    · split
      · exact Reads.byte (reads_readNat 1 (by omega))
      · split
        · exact Reads.byte (reads_readNat 2 (by omega))
        · exact Reads.byte (reads_readNat 4 (by omega))
  have hread := (hlength.bind (f := readBytes) (reads_readBytes (Text.toBytes s))).map Text.ofBytes
  rw [Text.ofBytes_toBytes, bind_assoc, bind_assoc] at hread
  exact hread

/-- The header of an array gives its length. -/
lemma reads_arrayHeader {n : Nat} (h : FitsHeader n) :
    Reads (do arrayLength (← readByte)) (arrayHeader n) (some n) := by
  unfold FitsHeader at h
  unfold arrayHeader
  split
  · have hbyte : (UInt8.ofNat (0x90 + n)).toNat = 0x90 + n :=
      UInt8.toNat_ofNat_of_lt' (show 0x90 + n < 256 by omega)
    refine Reads.byte ?_
    rw [arrayLength, hbyte, if_pos (by omega), Nat.add_sub_cancel_left]
    exact .pure _
  · split
    · exact Reads.byte ((reads_readNat 2 (by omega)).map some)
    · exact Reads.byte ((reads_readNat 4 (by omega)).map some)

/-- The header of a map gives the number of its entries. -/
lemma reads_mapHeader {n : Nat} (h : FitsHeader n) :
    Reads (do mapLength (← readByte)) (mapHeader n) (some n) := by
  unfold FitsHeader at h
  unfold mapHeader
  split
  · have hbyte : (UInt8.ofNat (0x80 + n)).toNat = 0x80 + n :=
      UInt8.toNat_ofNat_of_lt' (show 0x80 + n < 256 by omega)
    refine Reads.byte ?_
    rw [mapLength, hbyte, if_pos (by omega), Nat.add_sub_cancel_left]
    exact .pure _
  · split
    · exact Reads.byte ((reads_readNat 2 (by omega)).map some)
    · exact Reads.byte ((reads_readNat 4 (by omega)).map some)

/-- Values are read in turn, each into the zero value. -/
lemma reads_readMany {zero : α} {value : Updater α} {f : α → Bytes} {l : List α}
    (h : ∀ a ∈ l, Reads (value zero) (f a) a) :
    Reads (readMany zero value l.length []) (l.flatMap f) l := by
  induction l with
  | nil => exact .pure _
  | cons a l ih =>
    rw [List.flatMap_cons]
    exact (h a List.mem_cons_self).bind ((ih fun b hb => h b (List.mem_cons_of_mem _ hb)).map _)

/-- **A list is read from its array**, if there was none or an empty one. -/
lemma reads_array {zero : α} {value : Updater α} {f : α → Bytes} {l : List α}
    {current : Option (List α)} (hcurrent : current.getD [] = [])
    (hlength : FitsHeader l.length) (h : ∀ a ∈ l, Reads (value zero) (f a) a) :
    Reads (readList zero value current) (array f l) (some l) := by
  have hmany := (reads_readMany h).map some
  rw [← hcurrent] at hmany
  rw [readList, ← bind_assoc]
  exact (reads_arrayHeader hlength).bind hmany

/-- A list of texts is read from its array. -/
lemma reads_texts {l : List String} (hlength : FitsHeader l.length)
    (h : ∀ s ∈ l, FitsText s) :
    Reads (readTexts []) (array text l) l := by
  have hmany : Reads (readMany "" (fun _ => readText) l.length []) (l.flatMap text) l :=
    reads_readMany fun s hs => reads_text (h s hs)
  rw [readTexts, ← bind_assoc]
  exact (reads_arrayHeader hlength).bind hmany

/-- The bytes are not those of an absent value. -/
def Present (bytes : Bytes) : Prop := ∃ c rest, bytes = c :: rest ∧ c ≠ 0xc0

/-- An absent value is read from its code. -/
lemma reads_none (zero : α) (value : Updater α) (current : Option α) :
    Reads (readNullable zero value current) nil none := fun _ => rfl

/-- A value that is there is read from its bytes. -/
lemma reads_some {zero : α} {value : Updater α} {current : Option α} {bytes : Bytes} {a : α}
    (hpresent : Present bytes) (h : Reads (value (current.getD zero)) bytes a) :
    Reads (readNullable zero value current) bytes (some a) := by
  obtain ⟨c, tail, rfl, hc⟩ := hpresent
  intro rest
  have hget (f : Bytes → Reader (Option α)) (s : Bytes) : (get >>= f) s = f s s := rfl
  rw [readNullable, hget]
  generalize hbytes : c :: tail ++ rest = bytes
  split
  · cases hbytes
    exact absurd rfl hc
  · rw [← hbytes]
    exact h.map some rest

/-! ## Records -/

/-- The entries of a map set fields of a record, one after the other. -/
inductive Fills (fields : List (KeyReader α)) : List (String × Bytes) → α → α → Prop
  | nil (a : α) : Fills fields [] a a
  | cons {key : String} {set : Updater α} {bytes : Bytes} {entries : List (String × Bytes)}
      {a b c : α} (hset : fields.lookup key = some set) (h : Reads (set a) bytes b)
      (hrest : Fills fields entries b c) : Fills fields ((key, bytes) :: entries) a c

namespace Fills

variable {fields groups : List (KeyReader α)} {entries entries' : List (String × Bytes)}
  {a b c : α} {key : String} {set : Updater α} {bytes : Bytes}

/-- More entries set more fields. -/
lemma append (h : Fills fields entries a b) (h' : Fills fields entries' b c) :
    Fills fields (entries ++ entries') a c := by
  induction h with
  | nil a => exact h'
  | cons hset hread _ ih => exact .cons hset hread (ih h')

/-- The entries are read in turn. -/
lemma reads_entries (hkeys : ∀ f ∈ fields, FitsText f.1) (h : Fills fields entries a b) :
    Reads (readEntries fields entries.length a) (entries.flatMap fun (k, v) => text k ++ v) b := by
  induction h with
  | nil a => exact .pure a
  | @cons key set bytes entries a b c hset hread _ ih =>
    have hkey : FitsText key := by
      obtain ⟨before, after, hfields, -⟩ := List.lookup_eq_some_iff.mp hset
      exact hkeys (key, set) (hfields ▸ List.mem_append_right before List.mem_cons_self)
    rw [List.flatMap_cons, List.append_assoc, List.length_cons, readEntries]
    refine (reads_text hkey).bind ?_
    rw [hset]
    exact hread.bind ih

end Fills

/-- The header of a map is neither that of an array nor an absent value. -/
lemma mapHeader_eq_cons {n : Nat} : ∃ c tail, mapHeader n = c :: tail ∧
    (0x80 ≤ c.toNat ∧ c.toNat ≤ 0x8f ∨ 0xde ≤ c.toNat) := by
  unfold mapHeader
  split
  · have hbyte : (UInt8.ofNat (0x80 + n)).toNat = 0x80 + n :=
      UInt8.toNat_ofNat_of_lt' (show 0x80 + n < 256 by omega)
    exact ⟨_, _, rfl, by omega⟩
  · split <;> exact ⟨_, _, rfl, by decide⟩

/-- A map is there. -/
lemma present_map (entries : List (String × Bytes)) : Present (map entries) := by
  obtain ⟨c, tail, hheader, hcode⟩ := mapHeader_eq_cons (n := entries.length)
  refine ⟨c, _, by rw [map, hheader, List.cons_append], ?_⟩
  rintro rfl
  revert hcode
  decide

/-- **A record is read from the map of its entries**: the fields that they set are set, and the
others stay. -/
lemma Fills.reads_record {zero current a : α} {fields groups : List (KeyReader α)}
    {entries : List (String × Bytes)} (hkeys : ∀ f ∈ fields ++ groups, FitsText f.1)
    (h : Fills (fields ++ groups) entries current a) (hlength : FitsHeader entries.length) :
    Reads (readRecordWith zero fields groups current) (map entries) a := by
  obtain ⟨c, tail, hheader, hcode⟩ := mapHeader_eq_cons (n := entries.length)
  have hmap : Reads (mapLength c) tail (some entries.length) := by
    have hread := reads_mapHeader hlength
    rw [hheader] at hread
    exact hread
  rw [map, hheader, List.cons_append]
  refine Reads.byte ?_
  rw [if_neg (by omega)]
  exact hmap.bind (h.reads_entries hkeys)

end JvmTaint.Packed
