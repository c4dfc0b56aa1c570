import JvmTaint.Proofs.ClassFile.PackedPrograms
import JvmTaint.Proofs.ClassFile.PackedWords
import JvmTaint.Proofs.ClassFile.WrittenFlags
import JvmTaint.Proofs.Document.Blocks
import Mathlib.Data.List.ReduceOption

set_option autoImplicit false
set_option relaxedAutoImplicit false

/-!
# Written programs are read back

A program is written as a block of nested values. The document of the block is decoded as the
program, up to what has no written form: flags without a name are lost, and lists of classes and
code that are left out come back empty. The decoders refuse some values by a rule of the domain:
opcodes without a mnemonic, and names of no flag. So a program whose opcodes have mnemonics is read
back if all its flags can be, which flags without any name can not.

## Main definitions

* `JvmTaint.Program.named`: a program as it is read back.
* `JvmTaint.Program.flagWords`, `JvmTaint.Program.opcodes`: the flags and opcodes of a program.

## Main results

* `JvmTaint.Instruction.OfWords.decodes_toBlock`, `JvmTaint.MethodDecl.OfWords.decodes_toBlock`,
  `JvmTaint.ClassDecl.OfWords.decodes_toBlock`, `JvmTaint.Program.OfWords.decodes_toBlock`: records
  are read back.
* `JvmTaint.Program.unreadable?_eq_none_iff`: only flags and opcodes are refused.
* `JvmTaint.Program.flags_survive`: flags are read back as far as they have names, unless all of
  them are without one.

## Design

That no value is refused says nothing about what the values are decoded as, and the other way round,
so both are followed through the records for themselves: the first by what is accepted in the
entries of a record, the second by what the entries set.
-/

namespace JvmTaint

/-! ## Opcodes and flags -/

/-- The opcode is found by its mnemonic. -/
def Opcode.Named (op : Opcode) : Prop := Opcode.ofName? op.name = some op

instance (op : Opcode) : Decidable op.Named := inferInstanceAs (Decidable (_ = _))

/-- An opcode is decoded from its mnemonic. -/
lemma Opcode.Named.decodes {op : Opcode} (h : op.Named) :
    Decodes Opcode.decode (.text op.name) op := by
  unfold Decodes Opcode.decode Decoder.string
  rw [decodes_text, pure_bind]
  dsimp only
  rw [h]

/-- The mnemonic of an opcode is not refused. -/
lemma Opcode.Named.refuseWritten_eq {op : Opcode} (h : op.Named) :
    refuseWritten "op" (.text op.name) = none := by
  have hread : ofName? op.name = some op := h
  simp only [refuseWritten, hread]

/-- What the reader says about written flags. -/
lemma AccessFlags.refuseWritten_eq (m : AccessFlags) :
    refuseWritten "flags" (.seq (m.writtenNames.map .text)) =
      if m.Readable then none else some (unknownNameMessage "") := by
  have hnames : ∀ f : Block → Option String, f ∘ Block.text = some →
      (m.writtenNames.map Block.text).filterMap f = m.writtenNames := by
    intro f hf
    rw [List.filterMap_map, hf, List.filterMap_some]
  simp only [refuseWritten]
  rw [hnames _ rfl, ofNames_writtenNames]
  by_cases h : m.Readable
  · rw [if_pos h, if_pos h]
  · rw [if_neg h, if_neg h]

/-- Flags are decoded from their names. -/
lemma AccessFlags.Readable.decodes {m : AccessFlags} (h : m.Readable) :
    Decodes AccessFlags.decode (.seq (m.writtenNames.map .text)) m.named := by
  have hnames : Decodes (Decoder.list "[]string" Decoder.string)
      (.seq (m.writtenNames.map .text)) m.writtenNames :=
    decodes_list_self fun s _ => decodes_text "string" s
  have hread := m.ofNames_writtenNames
  rw [if_pos h] at hread
  unfold Decodes Block.document at hnames ⊢
  unfold AccessFlags.decode
  dsimp only
  rw [hnames]
  simp only [pure_bind, hread]
  funext mismatches
  simp

/-! ## Entries of records -/

namespace Sets

variable {α β : Type} {fields : String → Option (α → Document → Decoder α)} {a b : α}
  {key : String}

/-- A number that is left out if it is zero. -/
lemma intEntry {target : String} {set : α → Int → α} {n : Int}
    (hset : fields key = Decoder.setter (Decoder.int64 target) set)
    (h : Packed.IsWord n) (hzero : set a 0 = a) (hb : set a n = b) :
    Sets fields (intEntry key n) a b :=
  .leftOut (fun hn => by rw [← hb, hn, hzero]) (field hset (decodes_int64 h) hb (.nil b))

/-- A text that is left out if it is empty. -/
lemma textEntry {target : String} {set : α → String → α} {s : String}
    (hset : fields key = Decoder.setter (Decoder.textAs target) set)
    (hzero : set a "" = a) (hb : set a s = b) : Sets fields (textEntry key s) a b :=
  .leftOut (fun hs => by rw [← hb, hs, hzero]) (field hset (decodes_text target s) hb (.nil b))

/-- A list that is left out if it is empty. -/
lemma listEntry {γ : Type} {target : String} {decode : Document → Decoder (Option β)}
    {set : α → List β → α} {write : γ → Block} {read : γ → β} {l : List γ}
    (hset : fields key = Decoder.setter (Decoder.list target decode) set)
    (h : ∀ x ∈ l, Decodes decode (write x) (read x))
    (hzero : set a [] = a) (hb : set a (l.map read) = b) :
    Sets fields (listEntry key write l) a b :=
  .leftOut (fun hl => by rw [← hb, List.isEmpty_iff.mp hl, List.map_nil, hzero])
    (field hset (decodes_list h) hb (.nil b))

/-- A list that is left out if it is empty, and read as it is. -/
lemma listEntry_self {target : String} {decode : Document → Decoder (Option β)}
    {set : α → List β → α} {write : β → Block} {l : List β}
    (hset : fields key = Decoder.setter (Decoder.list target decode) set)
    (h : ∀ x ∈ l, Decodes decode (write x) x) (hzero : set a [] = a) (hb : set a l = b) :
    Sets fields (JvmTaint.listEntry key write l) a b := by
  have hread : ∀ x ∈ l, Decodes decode (write x) (id x) := h
  refine listEntry hset hread hzero ?_
  rwa [List.map_id]

/-- A value that is left out if there is none. -/
lemma optional {decode : Document → Decoder (Option β)} {set : α → Option β → α}
    {write : β → Block} {v : Option β}
    (hset : fields key = Decoder.setter (Decoder.nullable decode) set)
    (h : ∀ x ∈ v, Decodes (Decoder.nullable decode) (write x) (some x))
    (hzero : set a none = a) (hb : set a v = b) :
    Sets fields (v.toList.map fun x => (key, write x)) a b := by
  cases v with
  | none =>
    rw [← hb, hzero]
    exact .nil a
  | some x => exact field hset (h x rfl) hb (.nil b)

/-- Flags that are left out if none is set. -/
lemma flagsEntry {set : α → AccessFlags → α} {m : AccessFlags}
    (hset : fields "flags" = Decoder.setter AccessFlags.decode set) (h : m.Readable)
    (hzero : set a .empty = a) (hb : set a m.named = b) :
    Sets fields (flagsEntry m) a b := by
  refine .leftOut (fun hbits => ?_) (field hset h.decodes hb (.nil b))
  have hnamed : m.named = .empty := by simp [AccessFlags.named, AccessFlags.empty, hbits]
  rw [← hb, hnamed, hzero]

end Sets

/-! ## Records -/

-- The entries of a mapping are followed in the order in which they are written. Each key is looked
-- up in the fields, and each field is set in the record that the entries before it give; both are
-- computed.

lemma Constant.decodes_toBlock (c : Constant) : Decodes (Constant.decode true) c.toBlock c := by
  refine Sets.decodes ?_
  refine .append (.textEntry rfl rfl rfl) ?_
  exact .field rfl (decodes_text "string" c.value) rfl (.nil c)

/-- An instruction is read back if its opcode has a mnemonic. -/
lemma Instruction.OfWords.decodes_toBlock {i : Instruction} (h : i.OfWords)
    (hop : i.op.Named) : Decodes (Instruction.decode true) i.toBlock i := by
  have hconstant (c : Constant) : c.toBlock.document ≠ .null := nofun
  refine Sets.decodes ?_
  simp only [List.append_assoc, List.cons_append, List.nil_append]
  refine .field rfl (decodes_int64 h.pc) rfl ?_
  refine .field rfl hop.decodes rfl ?_
  refine .append (.intEntry rfl h.slot rfl rfl) ?_
  refine .append (.intEntry rfl h.immediate rfl rfl) ?_
  refine .append (.optional rfl (fun c _ => c.decodes_toBlock.nullable (hconstant c)) rfl rfl) ?_
  refine .append (.intEntry rfl h.target rfl rfl) ?_
  refine .append (.listEntry_self rfl (fun n hn => decodes_int64 (h.cases n hn)) rfl rfl) ?_
  refine .append (.listEntry_self rfl (fun n hn => decodes_int32 (h.keys n hn)) rfl rfl) ?_
  refine .append (.intEntry rfl h.fallback rfl rfl) ?_
  refine .append (.textEntry rfl rfl rfl) ?_
  refine .append (.textEntry rfl rfl rfl) ?_
  refine .append (.textEntry rfl rfl rfl) ?_
  refine .append (.textEntry rfl rfl rfl) ?_
  exact .intEntry rfl h.dims rfl rfl

/-- An entry of an exception table is read back. -/
lemma HandlerEntry.OfWords.decodes_toBlock {e : HandlerEntry} (h : e.OfWords) :
    Decodes HandlerEntry.decode e.toBlock e := by
  refine Sets.decodes ?_
  refine .field rfl (decodes_int64 h.start) rfl ?_
  refine .field rfl (decodes_int64 h.stop) rfl ?_
  refine .field rfl (decodes_int64 h.handler) rfl ?_
  exact .textEntry rfl rfl rfl

/-- A resource scope is read back. -/
lemma ResourceScope.OfWords.decodes_toBlock {r : ResourceScope} (h : r.OfWords) :
    Decodes ResourceScope.decode r.toBlock r := by
  refine Sets.decodes ?_
  refine .field rfl (decodes_int64 h.slot) rfl ?_
  refine .field rfl (decodes_int64 h.start) rfl ?_
  refine .field rfl (decodes_int64 h.stop) rfl ?_
  exact .field rfl (decodes_text "string" r.type) rfl (.nil r)

/-! ## Programs -/

/-- A method as it is read back. -/
def MethodDecl.named (m : MethodDecl) : MethodDecl :=
  { m with flags := m.flags.named, code := some (m.code.getD []) }

/-- A class as it is read back. -/
def ClassDecl.named (c : ClassDecl) : ClassDecl :=
  { c with flags := c.flags.named, methods := c.methods.map (Option.map MethodDecl.named) }

namespace Program

/-- A program as it is read back: without the flags that have no name, and with the lists that are
left out as empty ones. -/
def named (p : Program) : Program :=
  ⟨some ((p.classes.getD []).map (Option.map ClassDecl.named))⟩

/-- The classes that the program declares. -/
def classDecls (p : Program) : List ClassDecl := (p.classes.getD []).reduceOption

/-- The methods that the program declares. -/
def methodDecls (p : Program) : List MethodDecl := p.classDecls.flatMap (·.methods.reduceOption)

/-- The flags of the classes and methods. -/
def flagWords (p : Program) : List AccessFlags :=
  p.classDecls.map (·.flags) ++ p.methodDecls.map (·.flags)

/-- The opcodes in the code of the program. -/
def opcodes (p : Program) : List Opcode :=
  p.methodDecls.flatMap fun m => (m.code.getD []).map (·.op)

lemma forall_mem_flagWords {p : Program} {q : AccessFlags → Prop} :
    (∀ m ∈ p.flagWords, q m) ↔
      ∀ c ∈ p.classDecls, q c.flags ∧ ∀ m ∈ c.methods.reduceOption, q m.flags := by
  simp only [flagWords, methodDecls, List.forall_mem_append, List.forall_mem_map,
    List.forall_mem_flatMap, forall_and]

lemma forall_mem_opcodes {p : Program} {q : Opcode → Prop} :
    (∀ op ∈ p.opcodes, q op) ↔ ∀ c ∈ p.classDecls, ∀ m ∈ c.methods.reduceOption,
      ∀ i ∈ m.code.getD [], q i.op := by
  simp only [opcodes, methodDecls, List.forall_mem_flatMap, List.forall_mem_map]

end Program

/-- A method is read back if its flags can be, and the opcodes of its code have mnemonics. -/
lemma MethodDecl.OfWords.decodes_toBlock {m : MethodDecl} (h : m.OfWords)
    (hflags : m.flags.Readable) (hops : ∀ i ∈ m.code.getD [], i.op.Named) :
    Decodes MethodDecl.decode m.toBlock m.named := by
  have hcode : ∀ i ∈ m.code.getD [], Decodes (Instruction.decode true) i.toBlock i :=
    fun i hi => (h.code i hi).decodes_toBlock (hops i hi)
  refine Sets.decodes ?_
  simp only [List.append_assoc, List.cons_append, List.nil_append]
  refine .field rfl (decodes_text "string" m.name) rfl ?_
  refine .field rfl (decodes_text "string" m.descriptor) rfl ?_
  refine .append (.flagsEntry rfl hflags rfl rfl) ?_
  refine .field rfl (decodes_int64 h.maxLocals) rfl ?_
  refine .field rfl ((decodes_list_self hcode).nullable nofun) rfl ?_
  refine .append (.listEntry_self rfl (fun e he => (h.handlers e he).decodes_toBlock)
    rfl rfl) ?_
  exact .listEntry_self rfl (fun r hr => (h.resources r hr).decodes_toBlock) rfl rfl

/-- A class is read back if its flags and those of its methods can be, and the opcodes of its
methods have mnemonics. -/
lemma ClassDecl.OfWords.decodes_toBlock {c : ClassDecl} (h : c.OfWords)
    (hflags : c.flags.Readable ∧ ∀ m ∈ c.methods.reduceOption, m.flags.Readable)
    (hops : ∀ m ∈ c.methods.reduceOption, ∀ i ∈ m.code.getD [], i.op.Named) :
    Decodes ClassDecl.decode c.toBlock c.named := by
  refine Sets.decodes ?_
  simp only [List.append_assoc, List.cons_append, List.nil_append]
  refine .field rfl (decodes_text "string" c.name) rfl ?_
  refine .append (.textEntry rfl rfl rfl) ?_
  refine .append (.listEntry_self rfl (fun s _ => decodes_text "string" s) rfl rfl) ?_
  refine .append (.flagsEntry rfl hflags.1 rfl rfl) ?_
  refine .listEntry rfl (fun m hm => decodes_nullable nofun fun m' hm' => ?_) rfl rfl
  obtain rfl : m = some m' := hm'
  have hmem := List.reduceOption_mem_iff.mpr hm
  exact (h _ hm m' rfl).decodes_toBlock (hflags.2 m' hmem) (hops m' hmem)

/-- A program is decoded from its block if its flags can be, and its opcodes have mnemonics. -/
lemma Program.OfWords.decodes_toBlock {p : Program} (h : p.OfWords)
    (hops : ∀ op ∈ p.opcodes, op.Named) (hflags : ∀ m ∈ p.flagWords, m.Readable) :
    Decodes Program.decode p.toBlock p.named := by
  have hclass : ∀ c ∈ p.classDecls, Decodes ClassDecl.decode c.toBlock c.named := by
    intro c hc
    have hwords : c.OfWords := h _ (List.reduceOption_mem_iff.mp hc) c rfl
    exact hwords.decodes_toBlock (Program.forall_mem_flagWords.mp hflags c hc)
      (Program.forall_mem_opcodes.mp hops c hc)
  refine Sets.decodes ?_
  refine .field rfl ((decodes_list fun c hc => decodes_nullable nofun ?_).nullable nofun) rfl
    (.nil _)
  intro c' hc'
  obtain rfl : c = some c' := hc'
  exact hclass c' (List.reduceOption_mem_iff.mpr hc)

/-! ## What is refused -/

namespace Block

variable {key : String}

/-- Only opcodes and flags are refused. -/
lemma refuseWritten_of_ne (hop : key ≠ "op") (hflags : key ≠ "flags") (b : Block) :
    refuseWritten key b = none := by
  unfold refuseWritten
  split
  · contradiction
  · contradiction
  · rfl

lemma acceptedEntries_intEntry (hop : key ≠ "op") (hflags : key ≠ "flags") (n : Int) :
    AcceptedEntries refuseWritten (intEntry key n) := by
  unfold intEntry
  split <;> simp [AcceptedEntries, Accepted, refuseWritten_of_ne hop hflags]

lemma acceptedEntries_textEntry (hop : key ≠ "op") (hflags : key ≠ "flags") (s : String) :
    AcceptedEntries refuseWritten (textEntry key s) := by
  unfold textEntry
  split <;> simp [AcceptedEntries, Accepted, refuseWritten_of_ne hop hflags]

/-- A list is refused because of its elements. -/
lemma acceptedEntries_listEntry_iff {α : Type} {write : α → Block} {l : List α}
    (hop : key ≠ "op") (hflags : key ≠ "flags") :
    AcceptedEntries refuseWritten (listEntry key write l) ↔
      ∀ x ∈ l, (write x).Accepted refuseWritten := by
  unfold listEntry
  split
  · rename_i hl
    simp [AcceptedEntries, List.isEmpty_iff.mp hl]
  · simp [AcceptedEntries, Accepted, acceptedItems_iff, refuseWritten_of_ne hop hflags]

/-- Flags are refused if they cannot be read back. -/
lemma acceptedEntries_flagsEntry_iff {m : AccessFlags} :
    AcceptedEntries refuseWritten (flagsEntry m) ↔ m.Readable := by
  unfold flagsEntry
  split
  · rename_i hzero
    exact iff_of_true trivial (.inl hzero)
  · have haccepted : Accepted refuseWritten (.seq (m.writtenNames.map .text)) := by
      simp [Accepted, acceptedItems_iff]
    rw [AcceptedEntries, AcceptedEntries, and_true, and_iff_left haccepted,
      AccessFlags.refuseWritten_eq]
    exact ite_eq_left_iff.trans (by simp)

/-- Values that may be null are refused because of those that are not. -/
lemma accepted_nullables_iff {α : Type} {write : α → Block} {l : List (Option α)} :
    (∀ v ∈ l, ((v.map write).getD null).Accepted refuseWritten) ↔
      ∀ x ∈ l.reduceOption, (write x).Accepted refuseWritten := by
  constructor
  · intro h x hx
    exact h (some x) (List.reduceOption_mem_iff.mp hx)
  · intro h v hv
    cases v with
    | none => exact trivial
    | some x => exact h x (List.reduceOption_mem_iff.mpr hv)

end Block

open Block

lemma Constant.accepted_toBlock (c : Constant) : c.toBlock.Accepted refuseWritten := by
  simp [toBlock, Accepted, acceptedEntries_append, acceptedEntries_textEntry, AcceptedEntries,
    refuseWritten_of_ne]

/-- Nothing in an instruction is refused if its opcode has a mnemonic. -/
lemma Instruction.accepted_toBlock {i : Instruction} (hop : i.op.Named) :
    i.toBlock.Accepted refuseWritten := by
  have hconstant :
      AcceptedEntries refuseWritten (i.constant.toList.map fun c => ("const", c.toBlock)) := by
    cases i.constant with
    | none => exact trivial
    | some c => exact ⟨⟨rfl, c.accepted_toBlock⟩, trivial⟩
  simp [toBlock, Accepted, acceptedEntries_append, acceptedEntries_intEntry,
    acceptedEntries_textEntry, acceptedEntries_listEntry_iff, AcceptedEntries, refuseWritten_of_ne,
    hop.refuseWritten_eq, hconstant]

lemma HandlerEntry.accepted_toBlock (e : HandlerEntry) : e.toBlock.Accepted refuseWritten := by
  simp [toBlock, Accepted, acceptedEntries_textEntry, AcceptedEntries, refuseWritten_of_ne]

lemma ResourceScope.accepted_toBlock (r : ResourceScope) : r.toBlock.Accepted refuseWritten := by
  simp [toBlock, Accepted, AcceptedEntries, refuseWritten_of_ne]

/-- In a method whose opcodes have mnemonics, only the flags may be refused. -/
lemma MethodDecl.accepted_toBlock_iff {m : MethodDecl} (hops : ∀ i ∈ m.code.getD [], i.op.Named) :
    m.toBlock.Accepted refuseWritten ↔ m.flags.Readable := by
  have hcode : AcceptedItems refuseWritten ((m.code.getD []).map Instruction.toBlock) := by
    rw [acceptedItems_iff, List.forall_mem_map]
    exact fun i hi => Instruction.accepted_toBlock (hops i hi)
  simp [toBlock, Accepted, acceptedEntries_append, acceptedEntries_flagsEntry_iff,
    acceptedEntries_listEntry_iff, AcceptedEntries, refuseWritten_of_ne,
    HandlerEntry.accepted_toBlock, ResourceScope.accepted_toBlock, hcode]

/-- In a class whose opcodes have mnemonics, only its flags and those of its methods may be
refused. -/
lemma ClassDecl.accepted_toBlock_iff {c : ClassDecl}
    (hops : ∀ m ∈ c.methods.reduceOption, ∀ i ∈ m.code.getD [], i.op.Named) :
    c.toBlock.Accepted refuseWritten ↔
      c.flags.Readable ∧ ∀ m ∈ c.methods.reduceOption, m.flags.Readable := by
  have hmethods : AcceptedEntries refuseWritten
      (listEntry "methods" (fun m => (m.map MethodDecl.toBlock).getD .null) c.methods) ↔
        ∀ m ∈ c.methods.reduceOption, m.flags.Readable := by
    rw [acceptedEntries_listEntry_iff (by decide) (by decide), accepted_nullables_iff]
    exact forall₂_congr fun m hm => MethodDecl.accepted_toBlock_iff (hops m hm)
  simp [toBlock, Accepted, acceptedEntries_append, acceptedEntries_textEntry, hmethods,
    acceptedEntries_flagsEntry_iff, acceptedEntries_listEntry_iff, AcceptedEntries,
    refuseWritten_of_ne]

namespace Program

variable {p : Program}

/-- In a program whose opcodes have mnemonics, only flags may be refused. -/
lemma accepted_toBlock_iff (hops : ∀ op ∈ p.opcodes, op.Named) :
    p.toBlock.Accepted refuseWritten ↔ ∀ m ∈ p.flagWords, m.Readable := by
  calc p.toBlock.Accepted refuseWritten
      ↔ ∀ c ∈ p.classDecls, c.toBlock.Accepted refuseWritten := by
        simp [toBlock, Accepted, AcceptedEntries, refuseWritten_of_ne, acceptedItems_iff,
          accepted_nullables_iff, classDecls]
    _ ↔ ∀ c ∈ p.classDecls, c.flags.Readable ∧ ∀ m ∈ c.methods.reduceOption, m.flags.Readable :=
        forall₂_congr fun c hc => ClassDecl.accepted_toBlock_iff (forall_mem_opcodes.mp hops c hc)
    _ ↔ ∀ m ∈ p.flagWords, m.Readable := forall_mem_flagWords.symm

/-- A program whose opcodes have mnemonics can be read back if its flags can be. -/
lemma unreadable?_eq_none_iff (hops : ∀ op ∈ p.opcodes, op.Named) :
    p.unreadable? = none ↔ ∀ m ∈ p.flagWords, m.Readable := by
  rw [unreadable?, Option.map_eq_none_iff, firstRefused_eq_none_iff, accepted_toBlock_iff hops]

/-- A program is read from the document of its block. -/
lemma OfWords.ofDocument_eq (h : p.OfWords) (hops : ∀ op ∈ p.opcodes, op.Named)
    (hflags : ∀ m ∈ p.flagWords, m.Readable) :
    ofDocument (some p.toBlock.document) = .ok p.named := by
  have hdecode : Program.decode p.toBlock.document = pure (some p.named) :=
    h.decodes_toBlock hops hflags
  rw [ofDocument, hdecode]
  rfl

/-- **Flags are read back** as far as they have names, unless some are set and none of them has one:
then the text of no name is cut into an empty one, which is refused. So a program of a packed file
whose opcodes have mnemonics is refused because of such flags only; if it has none, it is read back
with the flags that have names, and so it is from its text wherever the text is read as the document
that was written. -/
theorem flags_survive (m : AccessFlags) :
    (m.writtenNames = (if m.bits = 0#64 then [] else Text.split ' ' m.render) ∧
      AccessFlags.ofNames m.writtenNames = (if m.Readable then .ok m.named else .error "") ∧
      ∀ f, m.named.has f = m.has f) ∧
    ∀ bytes p, ofBytes .packed bytes = .ok p → (∀ op ∈ p.opcodes, op.Named) →
      (p.unreadable? = none ↔ ∀ w ∈ p.flagWords, w.Readable) ∧
      ((∀ w ∈ p.flagWords, w.Readable) →
        ofDocument (some p.toBlock.document) = .ok p.named ∧
        (Document.read p.render = .ok (some p.toBlock.document) → p.reread = .ok p.named)) := by
  refine ⟨⟨m.writtenNames_eq_split, m.ofNames_writtenNames, m.has_named⟩, ?_⟩
  intro bytes p hread hops
  refine ⟨unreadable?_eq_none_iff hops, fun hflags => ?_⟩
  have hdocument := (ofWords_of_ofBytes_packed hread).ofDocument_eq hops hflags
  refine ⟨hdocument, fun htext => ?_⟩
  rw [reread, htext, (unreadable?_eq_none_iff hops).mpr hflags]
  exact hdocument

end Program

/-- A public class with a flag that has no name, and a method with an instruction. -/
def halfNamedProgram : Program :=
  ⟨some [some { name := "A", flags := ⟨0x8001#64⟩, methods := [some { code := some [{}] }] }]⟩

namespace Program

set_option maxRecDepth 100000 in
/-- The flag that has a name is read back, and the other one is lost. -/
theorem flags_survive_halfNamed :
    AccessFlags.ofNames (AccessFlags.writtenNames ⟨0x8001#64⟩) = .ok ⟨1#64⟩ ∧
      ofBytes .packed (halfNamedProgram.toBytes .packed ++ []) = .ok halfNamedProgram ∧
      halfNamedProgram.unreadable? = none ∧
      halfNamedProgram.named.flagWords = [⟨1#64⟩, .empty] ∧
      halfNamedProgram.reread = .ok halfNamedProgram.named := by
  have hfits : halfNamedProgram.Packable := by decide +kernel
  have hread := hfits.ofBytes_toBytes_append []
  have hops : ∀ op ∈ halfNamedProgram.opcodes, op.Named := by decide +kernel
  have hflags : ∀ m ∈ halfNamedProgram.flagWords, m.Readable := by decide +kernel
  have htext : Document.read halfNamedProgram.render =
      .ok (some halfNamedProgram.toBlock.document) := by rfl
  obtain ⟨⟨-, hnames, -⟩, hprograms⟩ := flags_survive ⟨0x8001#64⟩
  rw [if_pos (by decide)] at hnames
  obtain ⟨hrefused, hback⟩ := hprograms _ halfNamedProgram hread hops
  exact ⟨hnames, hread, hrefused.mpr hflags, rfl, (hback hflags).2 htext⟩

set_option maxRecDepth 100000 in
/-- A class whose only flag has no name is read from its packed file, and what is written for it is
refused. -/
theorem unnamed_flags_refused :
    let p : Program := ⟨some [some { name := "A", flags := ⟨0x40#64⟩ }]⟩
    ofBytes .packed (p.toBytes .packed ++ []) = .ok p ∧
      AccessFlags.ofNames (AccessFlags.writtenNames ⟨0x40#64⟩) = .error "" ∧
      p.reread = .error (.refused 4 "unknown modifier \"\"") :=
  have hfits : Packable _ := by decide +kernel
  ⟨hfits.ofBytes_toBytes_append [], rfl, rfl⟩

end Program

end JvmTaint
