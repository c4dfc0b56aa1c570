import JvmTaint.ClassFile.ProgramFile
import JvmTaint.Proofs.ClassFile.PackedLayout
import JvmTaint.Proofs.Packed.RoundTrip
import Mathlib.Tactic.MkIffOfInductiveProp

set_option autoImplicit false
set_option relaxedAutoImplicit false

/-!
# Packed programs are read back

The packed form of a program has the layout of its tables, and it is read as the program, whatever
bytes follow it. Fields that are left out of a record because they are zero or empty are zero or
empty in the record that is filled in.

## Main definitions

* `JvmTaint.Program.Packable` and its companions: all numbers of a program are words of the widths
  that they are written in, and all lengths fit into a header.
* `JvmTaint.Packed.Fills.field`, `JvmTaint.Packed.Fills.packInt` and their companions: what each
  kind of entry sets in a record.

## Main results

* `JvmTaint.Instruction.Packable.reads_pack`, `JvmTaint.MethodDecl.Packable.reads_pack`,
  `JvmTaint.ClassDecl.Packable.reads_pack`, `JvmTaint.Program.Packable.reads_pack`: records are read
  back.
* `JvmTaint.Program.ofBytes_toBytes_packed`: files have the layout and are read back.

## Design

A list that is left out when it is empty is a plain list in the records, so a list that is left out
and an empty one are one value there, as they have the same bytes. The code of a method and the
classes of a program are written even if they are empty, and both come back as they are.
-/

namespace JvmTaint

open Packed

/-! ## What can be packed -/

/-- The texts of the constant fit. -/
@[mk_iff]
structure Constant.Packable (c : Constant) : Prop where
  kind : FitsText c.kind
  value : FitsText c.value

/-- The numbers and the texts of the instruction fit. -/
@[mk_iff]
structure Instruction.Packable (i : Instruction) : Prop where
  words : ∀ n ∈ [i.pc, i.slot, i.immediate, i.target, i.fallback, i.dims] ++ i.cases, IsWord n
  keys : ∀ n ∈ i.keys, IsHalfWord n
  texts : ∀ s ∈ [i.owner, i.name, i.desc, i.type], FitsText s
  constant : ∀ c ∈ i.constant, c.Packable
  casesLength : FitsHeader i.cases.length
  keysLength : FitsHeader i.keys.length

/-- The numbers and the type of the entry fit. -/
@[mk_iff]
structure HandlerEntry.Packable (e : HandlerEntry) : Prop where
  words : ∀ n ∈ [e.start, e.stop, e.handler], IsWord n
  catchType : FitsText e.catchType

/-- The numbers and the type of the scope fit. -/
@[mk_iff]
structure ResourceScope.Packable (r : ResourceScope) : Prop where
  words : ∀ n ∈ [r.slot, r.start, r.stop], IsWord n
  type : FitsText r.type

/-- All that the method consists of fits. -/
@[mk_iff]
structure MethodDecl.Packable (m : MethodDecl) : Prop where
  texts : ∀ s ∈ [m.name, m.descriptor], FitsText s
  maxLocals : IsWord m.maxLocals
  code : ∀ code ∈ m.code, FitsHeader code.length ∧ ∀ i ∈ code, i.Packable
  handlers : FitsHeader m.handlers.length ∧ ∀ e ∈ m.handlers, e.Packable
  resources : FitsHeader m.resources.length ∧ ∀ r ∈ m.resources, r.Packable

/-- All that the class consists of fits. -/
@[mk_iff]
structure ClassDecl.Packable (c : ClassDecl) : Prop where
  texts : ∀ s ∈ [c.name, c.super] ++ c.interfaces, FitsText s
  interfacesLength : FitsHeader c.interfaces.length
  methods : FitsHeader c.methods.length ∧ ∀ m ∈ c.methods, ∀ m' ∈ m, m'.Packable

/-- All that the program consists of fits: numbers are words of the width that they are written in,
and the lengths of texts and lists are below `2 ^ 32`, since headers have four bytes. -/
def Program.Packable (p : Program) : Prop :=
  ∀ classes ∈ p.classes, FitsHeader classes.length ∧ ∀ c ∈ classes, ∀ c' ∈ c, c'.Packable

instance (c : Constant) : Decidable c.Packable :=
  decidable_of_iff _ c.packable_iff.symm

instance (i : Instruction) : Decidable i.Packable :=
  decidable_of_iff _ i.packable_iff.symm

instance (e : HandlerEntry) : Decidable e.Packable :=
  decidable_of_iff _ e.packable_iff.symm

instance (r : ResourceScope) : Decidable r.Packable :=
  decidable_of_iff _ r.packable_iff.symm

instance (m : MethodDecl) : Decidable m.Packable :=
  decidable_of_iff _ m.packable_iff.symm

instance (c : ClassDecl) : Decidable c.Packable :=
  decidable_of_iff _ c.packable_iff.symm

instance (p : Program) : Decidable p.Packable :=
  inferInstanceAs (Decidable (∀ classes ∈ p.classes, _ ∧ ∀ c ∈ classes, ∀ c' ∈ c, _))

/-! ## Flags -/

namespace AccessFlags

/-- The word of flags is a signed word. -/
lemma isWord_toInt (flags : AccessFlags) : IsWord flags.toInt :=
  ⟨BitVec.le_toInt flags.bits, BitVec.toInt_lt⟩

/-- Flags are read back, also those without a name. -/
lemma reads_int_toInt (flags : AccessFlags) : Reads unpack (Packed.int flags.toInt) flags := by
  have hread := (reads_int flags.isWord_toInt).map ofInt
  rwa [ofInt_toInt] at hread

end AccessFlags

/-! ## Fields -/

namespace Packed.Fills

variable {α β : Type} {fields : List (KeyReader α)} {a b c : α} {key : String} {bytes : Bytes}
  {entries : List (String × Bytes)}

/-- A field that is written. -/
lemma field {value : α → Reader β} {set : α → β → α} {v : β}
    (hset : fields.lookup key = some fun a => do return set a (← value a))
    (h : Reads (value a) bytes v) (hb : set a v = b) (hrest : Fills fields entries b c) :
    Fills fields ((key, bytes) :: entries) a c :=
  .cons hset (h.map (set a)) (hb ▸ hrest)

/-- Entries that are left out if they would set nothing. -/
lemma leftOut {p : Prop} [Decidable p] (hzero : p → a = b)
    (h : Fills fields entries a b) : Fills fields (if p then [] else entries) a b := by
  split
  · rename_i hp
    exact hzero hp ▸ .nil a
  · exact h

/-- A number that is left out if it is zero. -/
lemma packInt {set : α → Int → α} {n : Int}
    (hset : fields.lookup key = some fun a => do return set a (← readInt))
    (h : IsWord n) (hzero : set a 0 = a) (hb : set a n = b) :
    Fills fields (packInt key n) a b :=
  .leftOut (fun hn => by rw [← hb, hn, hzero]) (field hset (reads_int h) hb (.nil b))

/-- A text that is left out if it is empty. -/
lemma packText {set : α → String → α} {s : String}
    (hset : fields.lookup key = some fun a => do return set a (← readText))
    (h : FitsText s) (hzero : set a "" = a) (hb : set a s = b) :
    Fills fields (packText key s) a b :=
  .leftOut (fun hs => by rw [← hb, hs, hzero]) (field hset (reads_text h) hb (.nil b))

/-- Flags that are left out if none is set. -/
lemma packFlags {set : α → AccessFlags → α} {flags : AccessFlags}
    (hset : fields.lookup key = some fun a => do return set a (← AccessFlags.unpack))
    (hzero : set a .empty = a) (hb : set a flags = b) :
    Fills fields (JvmTaint.packInt key flags.toInt) a b :=
  .leftOut (fun hn => by rw [← hb, AccessFlags.toInt_eq_zero_iff.mp hn, hzero])
    (field hset (AccessFlags.reads_int_toInt flags) hb (.nil b))

/-- A list that is left out if it is empty. -/
lemma packList {zero : β} {value : Updater β} {get : α → List β} {set : α → Option (List β) → α}
    {f : β → Bytes} {l : List β}
    (hset : fields.lookup key =
      some fun a => do return set a (← readList zero value (some (get a))))
    (hlength : FitsHeader l.length) (h : ∀ b ∈ l, Reads (value zero) (f b) b)
    (hget : get a = []) (hzero : set a (some []) = a) (hb : set a (some l) = b) :
    Fills fields (packList key f l) a b :=
  .leftOut (fun hl => by rw [← hb, List.isEmpty_iff.mp hl, hzero])
    (field hset (reads_array hget hlength h) hb (.nil b))

/-- A value that is left out if there is none. -/
lemma optional {zero : β} {value : Updater β} {get : α → Option β} {set : α → Option β → α}
    {f : β → Bytes} {v : Option β}
    (hset : fields.lookup key = some fun a => do return set a (← readNullable zero value (get a)))
    (hpresent : ∀ b, Present (f b)) (h : ∀ b ∈ v, Reads (value zero) (f b) b)
    (hget : get a = none) (hzero : set a none = a) (hb : set a v = b) :
    Fills fields (v.toList.map fun b => (key, f b)) a b := by
  cases v with
  | none => exact hb ▸ hzero.symm ▸ .nil a
  | some v =>
    refine field hset (reads_some (hpresent v) ?_) hb (.nil b)
    rw [hget]
    exact h v rfl

end Packed.Fills

@[grind! .] lemma length_packInt_le (key : String) (n : Int) : (packInt key n).length ≤ 1 := by
  unfold packInt
  split <;> simp

@[grind! .] lemma length_packText_le (key s : String) : (packText key s).length ≤ 1 := by
  unfold packText
  split <;> simp

@[grind! .] lemma length_packList_le {α : Type} (key : String) (f : α → Bytes) (l : List α) :
    (packList key f l).length ≤ 1 := by
  unfold packList
  split <;> simp

/-! ## Values that may be absent -/

namespace Packed

/-- A list that may be absent is read back, an empty one as an empty one. -/
lemma reads_nullable_array {α : Type} {zero : α} {value : Updater α} {f : α → Bytes}
    {l : Option (List α)}
    (h : ∀ l' ∈ l, FitsHeader l'.length ∧ ∀ a ∈ l', Reads (value zero) (f a) a) :
    Reads (readList zero value none) (packNullable (array f) l) l := by
  cases l with
  | none => exact fun _ => rfl
  | some l => exact reads_array rfl (h l rfl).1 (h l rfl).2

/-- A value that may be absent is read back. -/
lemma reads_nullable {α : Type} {zero : α} {value : Updater α} {f : α → Bytes} {v : Option α}
    (hpresent : ∀ a, Present (f a)) (h : ∀ a ∈ v, Reads (value zero) (f a) a) :
    Reads (readNullable zero value none) (packNullable f v) v := by
  cases v with
  | none => exact reads_none zero value none
  | some a => exact reads_some (hpresent a) (h a rfl)

end Packed

/-! ## Records -/

-- The entries of a map are followed in the order in which they are written. Each key is looked up in
-- the fields, and each field is set in the record that the entries before it give; both are computed.

/-- A constant is read back. -/
lemma Constant.Packable.reads_pack {c : Constant} (h : c.Packable) :
    Reads (Constant.unpack ⟨"", ""⟩) c.pack c := by
  refine Fills.reads_record (a := c) (by decide) ?_ (by grind [FitsHeader])
  refine .append (.packText rfl h.kind rfl rfl) ?_
  exact .field rfl (reads_text h.value) rfl (.nil c)

/-- An instruction is read back. -/
lemma Instruction.Packable.reads_pack {i : Instruction} (h : i.Packable) :
    Reads (Instruction.unpack {}) i.pack i := by
  refine Fills.reads_record (a := i) (by decide) ?fields ?length
  case length =>
    simp only [FitsHeader, List.length_append, List.length_cons, List.length_nil, List.length_map]
    grind
  simp only [List.append_assoc, List.cons_append, List.nil_append]
  refine .field rfl (reads_int (h.words i.pc (by simp))) rfl ?_
  refine .field rfl (reads_uint8 i.op.byte) rfl ?_
  refine .append (.packInt rfl (h.words i.slot (by simp)) rfl rfl) ?_
  refine .append (.leftOut (fun hzero => ?_)
    (.field rfl (reads_int64 (h.words i.immediate (by simp))) rfl (.nil _))) ?_
  · rw [hzero]
  refine .append (.optional rfl (fun _ => present_map _) (fun c hc => (h.constant c hc).reads_pack)
    rfl rfl rfl) ?_
  refine .append (.packInt rfl (h.words i.target (by simp)) rfl rfl) ?_
  refine .append (.packList rfl h.casesLength (fun n hn => reads_int (h.words n (by simp [hn])))
    rfl rfl rfl) ?_
  refine .append (.packList rfl h.keysLength (fun n hn => reads_int32 (h.keys n hn))
    rfl rfl rfl) ?_
  refine .append (.packInt rfl (h.words i.fallback (by simp)) rfl rfl) ?_
  refine .append (.packText rfl (h.texts i.owner (by simp)) rfl rfl) ?_
  refine .append (.packText rfl (h.texts i.name (by simp)) rfl rfl) ?_
  refine .append (.packText rfl (h.texts i.desc (by simp)) rfl rfl) ?_
  refine .append (.packText rfl (h.texts i.type (by simp)) rfl rfl) ?_
  exact .packInt rfl (h.words i.dims (by simp)) rfl rfl

/-- An entry of an exception table is read back. -/
lemma HandlerEntry.Packable.reads_pack {e : HandlerEntry} (h : e.Packable) :
    Reads (HandlerEntry.unpack {}) e.pack e := by
  refine Fills.reads_record (a := e) (by decide) ?_ (by grind [FitsHeader])
  refine .field rfl (reads_int (h.words e.start (by simp))) rfl ?_
  refine .field rfl (reads_int (h.words e.stop (by simp))) rfl ?_
  refine .field rfl (reads_int (h.words e.handler (by simp))) rfl ?_
  exact .packText rfl h.catchType rfl rfl

/-- A resource scope is read back. -/
lemma ResourceScope.Packable.reads_pack {r : ResourceScope} (h : r.Packable) :
    Reads (ResourceScope.unpack {}) r.pack r := by
  refine Fills.reads_record (a := r) (by decide) ?_ (by grind [FitsHeader])
  refine .field rfl (reads_int (h.words r.slot (by simp))) rfl ?_
  refine .field rfl (reads_int (h.words r.start (by simp))) rfl ?_
  refine .field rfl (reads_int (h.words r.stop (by simp))) rfl ?_
  exact .field rfl (reads_text h.type) rfl (.nil r)

/-- A method declaration is read back, its body beside its other fields. -/
lemma MethodDecl.Packable.reads_pack {m : MethodDecl} (h : m.Packable) :
    Reads (MethodDecl.unpack {}) m.pack m := by
  refine Fills.reads_record (a := m) (by decide) ?_ (by grind [FitsHeader])
  simp only [List.append_assoc, List.cons_append, List.nil_append]
  refine .field rfl (reads_text (h.texts m.name (by simp))) rfl ?_
  refine .field rfl (reads_text (h.texts m.descriptor (by simp))) rfl ?_
  refine .append (.packFlags rfl rfl rfl) ?_
  refine .field rfl (reads_int h.maxLocals) rfl ?_
  refine .field rfl (reads_nullable_array fun code hcode =>
    ⟨(h.code code hcode).1, fun i hi => ((h.code code hcode).2 i hi).reads_pack⟩) rfl ?_
  refine .append (.packList rfl h.handlers.1 (fun e he => (h.handlers.2 e he).reads_pack)
    rfl rfl rfl) ?_
  exact .packList rfl h.resources.1 (fun r hr => (h.resources.2 r hr).reads_pack) rfl rfl rfl

/-- A class declaration is read back. -/
lemma ClassDecl.Packable.reads_pack {c : ClassDecl} (h : c.Packable) :
    Reads (ClassDecl.unpack {}) c.pack c := by
  refine Fills.reads_record (a := c) (by decide) ?_ (by grind [FitsHeader])
  simp only [List.append_assoc, List.cons_append, List.nil_append]
  refine .field rfl (reads_text (h.texts c.name (by simp))) rfl ?_
  refine .append (.packText rfl (h.texts c.super (by simp)) rfl rfl) ?_
  refine .append (.leftOut (fun hempty => ?_) (.field rfl
    (reads_texts h.interfacesLength fun s hs => h.texts s (by simp [hs])) rfl (.nil _))) ?_
  · rw [List.isEmpty_iff.mp hempty]
  refine .append (.packFlags rfl rfl rfl) ?_
  exact .packList rfl h.methods.1 (fun m hm => reads_nullable (fun _ => present_map _)
    fun m' hm' => (h.methods.2 m hm m' hm').reads_pack) rfl rfl rfl

/-- A program is read back. -/
lemma Program.Packable.reads_pack {p : Program} (h : p.Packable) :
    Reads (Program.unpackReader {}) p.pack p := by
  refine Fills.reads_record (a := p) (by decide) ?_ (show 1 < 4294967296 by decide)
  refine .field rfl (reads_nullable_array fun classes hclasses => ?_) rfl (.nil p)
  have hfits := h classes hclasses
  exact ⟨hfits.1, fun c hc => reads_nullable (fun _ => present_map _)
    fun c' hc' => (hfits.2 c hc c' hc').reads_pack⟩

/-! ## Files -/

namespace Program

/-- A program is read from its file, whatever bytes follow it. -/
lemma Packable.ofBytes_toBytes_append {p : Program} (h : p.Packable) (rest : Bytes) :
    ofBytes .packed (p.toBytes .packed ++ rest) = .ok p := by
  show ((unpackReader {} (p.pack ++ rest)).map (·.1)).mapError ProgramFileError.packed = .ok p
  rw [h.reads_pack rest]
  rfl

/-- **Packed programs are read back.** The bytes of a program are those that the tables of fields
say. They are read as the program itself, whatever follows them, and what is read from them has the
same bytes again. Classes and methods that are null stay null, code and classes that are left out
stay left out and empty ones stay empty, immediate operands keep all eight bytes and flags all their
bits. -/
theorem ofBytes_toBytes_packed {p : Program} (h : p.Packable) :
    p.toBytes .packed = writeRecord layout p ∧
    (∀ rest, ofBytes .packed (p.toBytes .packed ++ rest) = .ok p) ∧
    ∀ q, ofBytes .packed (p.toBytes .packed) = .ok q → q.toBytes .packed = p.toBytes .packed := by
  refine ⟨congrFun pack_eq_writeRecord p, h.ofBytes_toBytes_append, fun q hq => ?_⟩
  have hself := h.ofBytes_toBytes_append []
  rw [List.append_nil, hq] at hself
  rw [Except.ok.inj hself]

/-- A program with all that is hard to write: classes and methods that are null, flags without a
name, code that is empty, left out or has an undefined opcode, and numbers at the ends of words. -/
theorem ofBytes_toBytes_packed_assorted :
    let long : Instruction := {
      pc := -33, op := ⟨0xfe⟩, immediate := -9223372036854775808, constant := some ⟨"", "\u00fc"⟩,
      cases := [128, -32769], keys := [-2147483648, 2147483647], dims := 9223372036854775807 }
    let p : Program := ⟨some [none, some {
      name := "A", interfaces := ["", "I"], flags := ⟨0x8000000000000021#64⟩
      methods := [none, some {}, some {
        name := "m", descriptor := "()V", maxLocals := 65536, code := some [long, {}],
        handlers := [{ stop := 256, catchType := "E" }], resources := [{ slot := -129 }] },
        some { code := some [] }] }]⟩
    p.Packable ∧ p.toBytes .packed = writeRecord layout p ∧
      (∀ rest, ofBytes .packed (p.toBytes .packed ++ rest) = .ok p) ∧
      ∀ q, ofBytes .packed (p.toBytes .packed) = .ok q → q.toBytes .packed = p.toBytes .packed :=
  have h : Packable _ := by decide +kernel
  ⟨h, ofBytes_toBytes_packed h⟩

end Program

end JvmTaint
