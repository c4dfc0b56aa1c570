import JvmTaint.Text.Utf8
import Mathlib.Tactic.Lemma

set_option autoImplicit false
set_option relaxedAutoImplicit false

/-!
# Texts from their bytes

The bytes of a text are read back as the text: each character has a form of one to four bytes, which
begins with the length of the form, and reading takes exactly that many bytes.

## Main results

* `JvmTaint.Text.decodeChars_utf8EncodeChar_append`: a character is read from its bytes.
* `JvmTaint.Text.ofBytes_toBytes`: a text is read from its bytes.
-/

namespace JvmTaint.Text

/-- The payload of a continuation byte is read from it. -/
lemma continuation?_ofNat (n : Nat) :
    continuation? (UInt8.ofNat (n % 64 + 128)) = some (n % 64) := by
  have hlt : n % 64 + 128 < 256 := by omega
  have hbyte : (UInt8.ofNat (n % 64 + 128)).toNat = n % 64 + 128 := UInt8.toNat_ofNat_of_lt' hlt
  rw [continuation?, hbyte, if_pos (by omega), Nat.add_sub_cancel]

/-- A code point that is not too small for its form names its character. -/
lemma charOf?_toNat {c : Char} {least : Nat} (h : least ≤ c.toNat) :
    charOf? least c.toNat = some c := by
  rw [charOf?, if_pos ⟨h, c.valid⟩, Char.ofNat_toNat]

/-- **A character is read from its bytes**, whatever follows them.

**Proof sketch.** The four cases are the forms of one to four bytes. In each of them the first byte
lies in the range of its form, and the payloads add up to the code point. -/
lemma decodeChars_utf8EncodeChar_append (c : Char) (rest : List UInt8) :
    decodeChars (String.utf8EncodeChar c ++ rest) = c :: decodeChars rest := by
  have hmax : c.toNat < 1114112 := by
    rcases c.valid with h | h
    · exact Nat.lt_trans h (by decide)
    · exact h.2
  have hval : c.val.toNat = c.toNat := rfl
  have hbyte {n : Nat} (h : n < 256) : (UInt8.ofNat n).toNat = n := UInt8.toNat_ofNat_of_lt' h
  unfold String.utf8EncodeChar
  simp only [hval]
  split
  · rw [List.singleton_append, decodeChars, decodeChar?, hbyte (by omega), if_pos (by omega)]
    simp
  · split
    · have hcode : c.toNat / 64 % 32 * 64 + c.toNat % 64 = c.toNat := by omega
      rw [List.cons_append, List.singleton_append, decodeChars, decodeChar?, hbyte (by omega),
        if_neg (by omega), if_neg (by omega), if_pos (by omega)]
      have hleast : 128 ≤ c.toNat := by omega
      simp [-UInt8.ofNat_add, continuation?_ofNat, hcode, charOf?_toNat hleast]
    · split
      · have hcode : (c.toNat / 4096 % 16 * 64 + c.toNat / 64 % 64) * 64 +
            c.toNat % 64 = c.toNat := by omega
        rw [List.cons_append, List.cons_append, List.singleton_append, decodeChars, decodeChar?,
          hbyte (by omega), if_neg (by omega), if_neg (by omega), if_neg (by omega),
          if_pos (by omega)]
        have hleast : 2048 ≤ c.toNat := by omega
        simp [-UInt8.ofNat_add, continuation?_ofNat, hcode, charOf?_toNat hleast]
      · have hcode : ((c.toNat / 262144 % 8 * 64 + c.toNat / 4096 % 64) * 64 +
            c.toNat / 64 % 64) * 64 + c.toNat % 64 = c.toNat := by omega
        rw [List.cons_append, List.cons_append, List.cons_append, List.singleton_append,
          decodeChars, decodeChar?, hbyte (by omega), if_neg (by omega), if_neg (by omega),
          if_neg (by omega), if_neg (by omega), if_pos (by omega)]
        have hleast : 65536 ≤ c.toNat := by omega
        simp [-UInt8.ofNat_add, continuation?_ofNat, hcode, charOf?_toNat hleast]

/-- **A text is read from its bytes.** -/
lemma ofBytes_toBytes (s : String) : ofBytes (toBytes s) = s := by
  have hchars (cs : List Char) : decodeChars (cs.flatMap String.utf8EncodeChar) = cs := by
    induction cs with
    | nil => rw [List.flatMap_nil, decodeChars]
    | cons c cs ih => rw [List.flatMap_cons, decodeChars_utf8EncodeChar_append, ih]
  rw [ofBytes, toBytes, hchars, String.ofList_toList]

end JvmTaint.Text
