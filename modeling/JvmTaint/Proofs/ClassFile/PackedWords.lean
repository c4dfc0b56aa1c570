import JvmTaint.ClassFile.ProgramFile
import JvmTaint.Proofs.Packed.Ranges

set_option autoImplicit false
set_option relaxedAutoImplicit false

/-!
# Programs of packed files are of words

Whatever the bytes of a packed file are, the numbers of the program that is read from them are
signed words, and the keys of its switches are half as wide: each field is read by a reader of
words, and a field that is read into the value that it has keeps those that are there.

## Main definitions

* `JvmTaint.Program.OfWords` and its companions: all numbers of a program are words.

## Main results

* `JvmTaint.Program.ofWords_of_ofBytes_packed`: programs of packed files are of words.
-/

namespace JvmTaint

open Packed

/-! ## Records of words -/

/-- The numbers of the instruction are words. -/
structure Instruction.OfWords (i : Instruction) : Prop where
  pc : IsWord i.pc
  slot : IsWord i.slot
  immediate : IsWord i.immediate
  target : IsWord i.target
  cases : ∀ n ∈ i.cases, IsWord n
  keys : ∀ n ∈ i.keys, IsHalfWord n
  fallback : IsWord i.fallback
  dims : IsWord i.dims

/-- The numbers of the entry are words. -/
structure HandlerEntry.OfWords (e : HandlerEntry) : Prop where
  start : IsWord e.start
  stop : IsWord e.stop
  handler : IsWord e.handler

/-- The numbers of the scope are words. -/
structure ResourceScope.OfWords (r : ResourceScope) : Prop where
  slot : IsWord r.slot
  start : IsWord r.start
  stop : IsWord r.stop

/-- The numbers of the method are words. -/
structure MethodDecl.OfWords (m : MethodDecl) : Prop where
  maxLocals : IsWord m.maxLocals
  code : ∀ i ∈ m.code.getD [], i.OfWords
  handlers : ∀ e ∈ m.handlers, e.OfWords
  resources : ∀ r ∈ m.resources, r.OfWords

/-- The numbers of the class are words. -/
def ClassDecl.OfWords (c : ClassDecl) : Prop := ∀ m ∈ c.methods, ∀ m' ∈ m, m'.OfWords

/-- The numbers of the program are words. -/
def Program.OfWords (p : Program) : Prop := ∀ c ∈ p.classes.getD [], ∀ c' ∈ c, c'.OfWords

/-! ## Fields -/

section

variable {α β : Type} {P : α → Prop} {Q : β → Prop} {key : String} {set : α → β → α}

/-- A field keeps a property if what is read for it does. -/
lemma maintains_field {value : Reader β} (hvalue : Yields Q value)
    (hset : ∀ a v, P a → Q v → P (set a v)) : Maintains P (field key value set) :=
  fun a ha => hvalue.map fun v hv => hset a v ha hv

/-- A field that is not of words keeps any property of those that are. -/
lemma maintains_other {value : Reader β} (hset : ∀ a v, P a → P (set a v)) :
    Maintains P (field key value set) :=
  maintains_field (Yields.anything value) fun a v ha _ => hset a v ha

lemma maintains_fieldInto {value : Updater β} {get : α → β}
    (hvalue : ∀ a, P a → Yields Q (value (get a)))
    (hset : ∀ a v, P a → Q v → P (set a v)) : Maintains P (fieldInto key value get set) :=
  fun a ha => (hvalue a ha).map fun v hv => hset a v ha hv

lemma maintains_listField {zero : β} {value : Updater β} {get : α → List β} {set : α → List β → α}
    (hzero : Q zero) (hvalue : ∀ b, Q b → Yields Q (value b)) (hget : ∀ a, P a → ∀ b ∈ get a, Q b)
    (hset : ∀ a l, P a → (∀ b ∈ l, Q b) → P (set a l)) :
    Maintains P (listField key zero value get set) := by
  intro a ha
  have hlist : Yields (fun l => ∀ b ∈ l.getD [], Q b) (readList zero value (some (get a))) :=
    yields_readList hzero hvalue (hget a ha)
  exact hlist.map fun l hl => hset a (l.getD []) ha hl

end

/-! ## Records -/

lemma isWord_zero : IsWord 0 := by decide

lemma Instruction.ofWords_default : ({} : Instruction).OfWords :=
  { pc := isWord_zero, slot := isWord_zero, immediate := isWord_zero, target := isWord_zero
    cases := by simp, keys := by simp, fallback := isWord_zero, dims := isWord_zero }

/-- The numbers of an instruction are read as words. -/
lemma Instruction.yields_unpack {i : Instruction} (h : i.OfWords) :
    Yields OfWords (Instruction.unpack i) := by
  refine yields_readRecord ofWords_default h ?_
  simp only [List.forall_mem_cons, List.not_mem_nil, false_imp_iff, implies_true, and_true]
  refine ⟨?pc, ?op, ?slot, ?immediate, ?constant, ?target, ?cases, ?keys, ?fallback, ?owner, ?name,
    ?desc, ?type, ?dims⟩
  case pc => exact maintains_field yields_readInt fun _ _ h hv => { h with pc := hv }
  case op => exact maintains_other fun _ _ h => { h with }
  case slot => exact maintains_field yields_readInt fun _ _ h hv => { h with slot := hv }
  case immediate => exact maintains_field yields_readInt fun _ _ h hv => { h with immediate := hv }
  case constant =>
    exact maintains_fieldInto (fun _ _ => Yields.anything _) fun _ _ h _ => { h with }
  case target => exact maintains_field yields_readInt fun _ _ h hv => { h with target := hv }
  case cases =>
    exact maintains_listField isWord_zero (fun _ _ => yields_readInt) (fun _ h => h.cases)
      fun _ _ h hl => { h with cases := hl }
  case keys =>
    exact maintains_listField (by decide) (fun _ _ => yields_readInt32) (fun _ h => h.keys)
      fun _ _ h hl => { h with keys := hl }
  case fallback => exact maintains_field yields_readInt fun _ _ h hv => { h with fallback := hv }
  case dims => exact maintains_field yields_readInt fun _ _ h hv => { h with dims := hv }
  all_goals exact maintains_other fun _ _ h => { h with }

lemma HandlerEntry.ofWords_default : ({} : HandlerEntry).OfWords :=
  ⟨isWord_zero, isWord_zero, isWord_zero⟩

/-- The numbers of an entry of an exception table are read as words. -/
lemma HandlerEntry.yields_unpack {e : HandlerEntry} (h : e.OfWords) :
    Yields OfWords (HandlerEntry.unpack e) := by
  refine yields_readRecord ofWords_default h ?_
  simp only [List.forall_mem_cons, List.not_mem_nil, false_imp_iff, implies_true, and_true]
  refine ⟨?start, ?stop, ?handler, ?catchType⟩
  case start => exact maintains_field yields_readInt fun _ _ h hv => { h with start := hv }
  case stop => exact maintains_field yields_readInt fun _ _ h hv => { h with stop := hv }
  case handler => exact maintains_field yields_readInt fun _ _ h hv => { h with handler := hv }
  case catchType => exact maintains_other fun _ _ h => { h with }

lemma ResourceScope.ofWords_default : ({} : ResourceScope).OfWords :=
  ⟨isWord_zero, isWord_zero, isWord_zero⟩

/-- The numbers of a resource scope are read as words. -/
lemma ResourceScope.yields_unpack {r : ResourceScope} (h : r.OfWords) :
    Yields OfWords (ResourceScope.unpack r) := by
  refine yields_readRecord ofWords_default h ?_
  simp only [List.forall_mem_cons, List.not_mem_nil, false_imp_iff, implies_true, and_true]
  refine ⟨?slot, ?start, ?stop, ?type⟩
  case slot => exact maintains_field yields_readInt fun _ _ h hv => { h with slot := hv }
  case start => exact maintains_field yields_readInt fun _ _ h hv => { h with start := hv }
  case stop => exact maintains_field yields_readInt fun _ _ h hv => { h with stop := hv }
  case type => exact maintains_other fun _ _ h => { h with }

namespace MethodDecl

lemma ofWords_withoutBody (m : MethodDecl) : m.withoutBody.OfWords := by
  constructor <;> simp [withoutBody, isWord_zero]

lemma ofWords_default : ({} : MethodDecl).OfWords := ofWords_withoutBody {}

/-- The fields of a body keep the numbers of a method words. -/
lemma maintains_bodyFields : ∀ f ∈ bodyFields, Maintains OfWords f := by
  unfold bodyFields
  simp only [List.forall_mem_cons, List.not_mem_nil, false_imp_iff, implies_true, and_true]
  refine ⟨?maxLocals, ?code, ?handlers, ?resources⟩
  case maxLocals => exact maintains_field yields_readInt fun _ _ h hv => { h with maxLocals := hv }
  case code =>
    exact maintains_fieldInto (fun _ h => yields_readList Instruction.ofWords_default
      (fun _ h => Instruction.yields_unpack h) h.code) fun _ _ h hl => { h with code := hl }
  case handlers =>
    exact maintains_listField HandlerEntry.ofWords_default (fun _ h => HandlerEntry.yields_unpack h)
      (fun _ h => h.handlers) fun _ _ h hl => { h with handlers := hl }
  case resources =>
    exact maintains_listField ResourceScope.ofWords_default
      (fun _ h => ResourceScope.yields_unpack h) (fun _ h => h.resources)
      fun _ _ h hl => { h with resources := hl }

/-- The numbers of a method are read as words. -/
lemma yields_unpack {m : MethodDecl} (h : m.OfWords) : Yields OfWords (MethodDecl.unpack m) := by
  refine yields_readRecordWith ofWords_default h ?fields ?groups
  case fields =>
    refine List.forall_mem_append.mpr ⟨?_, maintains_bodyFields⟩
    simp only [List.forall_mem_cons, List.not_mem_nil, false_imp_iff, implies_true, and_true]
    refine ⟨?_, ?_, ?_⟩ <;> exact maintains_other fun _ _ h => { h with }
  case groups =>
    simp only [List.forall_mem_cons, List.not_mem_nil, false_imp_iff, implies_true, and_true]
    exact fun m hm => yields_readRecord (ofWords_withoutBody m) hm maintains_bodyFields

end MethodDecl

lemma ClassDecl.ofWords_default : ({} : ClassDecl).OfWords := by
  intro m hm
  cases hm

/-- The numbers of a class are read as words. -/
lemma ClassDecl.yields_unpack {c : ClassDecl} (h : c.OfWords) :
    Yields OfWords (ClassDecl.unpack c) := by
  have hnone : ∀ m ∈ (none : Option MethodDecl), m.OfWords := by simp
  have hmethod : ∀ v : Option MethodDecl, (∀ m ∈ v, m.OfWords) →
      Yields (fun v => ∀ m ∈ v, m.OfWords) (readNullable {} MethodDecl.unpack v) := fun v hv =>
    yields_readNullable MethodDecl.ofWords_default (fun _ h => MethodDecl.yields_unpack h) hv
  refine yields_readRecord ofWords_default h ?_
  simp only [List.forall_mem_cons, List.not_mem_nil, false_imp_iff, implies_true, and_true]
  refine ⟨?name, ?super, ?interfaces, ?flags, ?methods⟩
  case methods => exact maintains_listField hnone hmethod (fun _ h => h) fun _ _ _ hl => hl
  case interfaces => exact maintains_fieldInto (fun _ _ => Yields.anything _) fun _ _ h _ => h
  all_goals exact maintains_other fun _ _ h => h

namespace Program

lemma ofWords_default : ({} : Program).OfWords := by
  intro c hc
  cases hc

/-- The numbers of a program are read as words. -/
lemma yields_unpackReader {p : Program} (h : p.OfWords) : Yields OfWords (unpackReader p) := by
  have hnone : ∀ c ∈ (none : Option ClassDecl), c.OfWords := by simp
  have hclass : ∀ v : Option ClassDecl, (∀ c ∈ v, c.OfWords) →
      Yields (fun v => ∀ c ∈ v, c.OfWords) (readNullable {} ClassDecl.unpack v) := fun v hv =>
    yields_readNullable ClassDecl.ofWords_default (fun _ h => ClassDecl.yields_unpack h) hv
  refine yields_readRecord ofWords_default h ?_
  simp only [List.forall_mem_cons, List.not_mem_nil, false_imp_iff, implies_true, and_true]
  exact maintains_fieldInto (fun p hp => yields_readList hnone hclass hp) fun _ _ _ hl => hl

/-- **Programs of packed files are of words**, whatever the bytes of the file are. -/
theorem ofWords_of_ofBytes_packed {bytes : List UInt8} {p : Program}
    (h : ofBytes .packed bytes = .ok p) : p.OfWords := by
  change ((unpackReader {} bytes).map (·.1)).mapError ProgramFileError.packed = .ok p at h
  cases hread : unpackReader {} bytes with
  | error e =>
    rw [hread] at h
    cases h
  | ok x =>
    rw [hread] at h
    cases h
    exact yields_unpackReader ofWords_default bytes x hread

end Program

end JvmTaint
