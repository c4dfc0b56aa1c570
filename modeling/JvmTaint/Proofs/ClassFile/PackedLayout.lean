import JvmTaint.ClassFile.Pack
import Mathlib.Tactic.Lemma

set_option autoImplicit false
set_option relaxedAutoImplicit false

/-!
# The layout of packed programs

Tables of the fields of each record, in the order in which they are written: the key, the value, and
the form of the value. Some fields are always written, the others are left out if they have their
zero value. The packed form of a program is the one that the tables say.

## Main definitions

* `JvmTaint.Packed.KeyWriter.always`, `JvmTaint.Packed.KeyWriter.optional`: the two kinds of fields.
* `JvmTaint.Packed.writeRecord`: the bytes of a record, from the table of its fields.
* `JvmTaint.Instruction.layout`, `JvmTaint.MethodDecl.layout`, `JvmTaint.ClassDecl.layout`,
  `JvmTaint.Program.layout`: the tables.

## Main results

* `JvmTaint.Program.pack_eq_writeRecord`: programs are packed as the tables say.
-/

namespace JvmTaint

open Packed

namespace Packed

/-- A field of a record as it is written: its entry, or none. -/
abbrev KeyWriter (α : Type) := α → List (String × Bytes)

namespace KeyWriter

variable {α β : Type}

/-- A field that is always written. -/
def always (key : String) (get : α → β) (write : β → Bytes) : KeyWriter α :=
  fun a => [(key, write (get a))]

/-- A field that is left out if it has its zero value. -/
def optional [DecidableEq β] (key : String) (get : α → β) (zero : β) (write : β → Bytes) :
    KeyWriter α :=
  fun a => if get a = zero then [] else [(key, write (get a))]

end KeyWriter

/-- The map of the fields of a record that are written. -/
def writeRecord {α : Type} (fields : List (KeyWriter α)) (a : α) : Bytes :=
  map (fields.flatMap (· a))

end Packed

/-! ## The tables -/

/-- The fields of a constant. -/
def Constant.layout : List (KeyWriter Constant) := [
  .optional "kind" (·.kind) "" text,
  .always "value" (·.value) text]

/-- The fields of an instruction. Offsets and variables are as short as they can be; the opcode has
one byte, the immediate operand eight, and the keys of a switch four. -/
def Instruction.layout : List (KeyWriter Instruction) := [
  .always "pc" (·.pc) int,
  .always "op" (·.op.byte) uint8,
  .optional "var" (·.slot) 0 int,
  .optional "int" (·.immediate) 0 int64,
  .optional "const" (·.constant) none (packNullable (writeRecord Constant.layout)),
  .optional "target" (·.target) 0 int,
  .optional "targets" (·.cases) [] (array int),
  .optional "keys" (·.keys) [] (array int32),
  .optional "default" (·.fallback) 0 int,
  .optional "owner" (·.owner) "" text,
  .optional "name" (·.name) "" text,
  .optional "desc" (·.desc) "" text,
  .optional "type" (·.type) "" text,
  .optional "dims" (·.dims) 0 int]

/-- The fields of an entry of an exception table. -/
def HandlerEntry.layout : List (KeyWriter HandlerEntry) := [
  .always "start" (·.start) int,
  .always "end" (·.stop) int,
  .always "handler" (·.handler) int,
  .optional "type" (·.catchType) "" text]

/-- The fields of a resource scope. -/
def ResourceScope.layout : List (KeyWriter ResourceScope) := [
  .always "var" (·.slot) int,
  .always "start" (·.start) int,
  .always "end" (·.stop) int,
  .always "type" (·.type) text]

/-- The fields of the body of a method. -/
def MethodDecl.bodyLayout : List (KeyWriter MethodDecl) := [
  .always "max-locals" (·.maxLocals) int,
  .always "code" (·.code) (packNullable (array (writeRecord Instruction.layout))),
  .optional "exception-table" (·.handlers) [] (array (writeRecord HandlerEntry.layout)),
  .optional "resources" (·.resources) [] (array (writeRecord ResourceScope.layout))]

/-- The fields of a method: those of its body follow its own in the same map. -/
def MethodDecl.layout : List (KeyWriter MethodDecl) := [
  .always "name" (·.name) text,
  .always "descriptor" (·.descriptor) text,
  .optional "flags" (·.flags) .empty (fun flags => int flags.toInt)] ++ bodyLayout

/-- The fields of a class. -/
def ClassDecl.layout : List (KeyWriter ClassDecl) := [
  .always "name" (·.name) text,
  .optional "super" (·.super) "" text,
  .optional "interfaces" (·.interfaces) [] (array text),
  .optional "flags" (·.flags) .empty (fun flags => int flags.toInt),
  .optional "methods" (·.methods) [] (array (packNullable (writeRecord MethodDecl.layout)))]

/-- The fields of a program. -/
def Program.layout : List (KeyWriter Program) := [
  .always "classes" (·.classes) (packNullable (array (packNullable (writeRecord ClassDecl.layout))))]

/-! ## Packing -/

/-- Flags are the bits of their word. -/
lemma AccessFlags.ofInt_toInt (flags : AccessFlags) : ofInt flags.toInt = flags :=
  congrArg mk BitVec.ofInt_toInt

/-- The word of flags is zero if none is set. -/
lemma AccessFlags.toInt_eq_zero_iff {flags : AccessFlags} : flags.toInt = 0 ↔ flags = .empty := by
  constructor
  · intro h
    rw [← ofInt_toInt flags, h]
    rfl
  · rintro rfl
    rfl

section Fields

variable {α β : Type} {a : α} {key : String}

/-- An entry that is left out exactly for the zero value. -/
lemma ite_eq_optional [DecidableEq β] {get : α → β} {zero : β} (write : β → Bytes) {p : Prop}
    [Decidable p] (hzero : p ↔ get a = zero) :
    (if p then [] else [(key, write (get a))]) = KeyWriter.optional key get zero write a :=
  ite_congr (propext hzero) (fun _ => rfl) fun _ => rfl

lemma packInt_eq_optional (get : α → Int) :
    packInt key (get a) = KeyWriter.optional key get 0 int a := rfl

lemma packText_eq_optional (get : α → String) :
    packText key (get a) = KeyWriter.optional key get "" text a := rfl

lemma packList_eq_optional [DecidableEq β] (get : α → List β) (write : β → Bytes) :
    packList key write (get a) = KeyWriter.optional key get [] (array write) a :=
  ite_eq_optional (array write) List.isEmpty_iff

lemma packInt_toInt_eq_optional (get : α → AccessFlags) :
    packInt key (get a).toInt =
      KeyWriter.optional key get .empty (fun flags => int flags.toInt) a :=
  ite_eq_optional (fun flags : AccessFlags => int flags.toInt) AccessFlags.toInt_eq_zero_iff

lemma map_toList_eq_optional [DecidableEq β] (key : String) (get : α → Option β) (write : β → Bytes)
    (a : α) :
    (get a).toList.map (fun b => (key, write b)) =
      KeyWriter.optional key get none (packNullable write) a := by
  unfold KeyWriter.optional
  cases get a <;> rfl

end Fields

/-- Constants are packed as their table says. -/
lemma Constant.pack_eq_writeRecord : Constant.pack = writeRecord layout := rfl

/-- Instructions are packed as their table says. -/
lemma Instruction.pack_eq_writeRecord : Instruction.pack = writeRecord layout := by
  funext i
  have hconstant := map_toList_eq_optional "const" constant Constant.pack i
  rw [Constant.pack_eq_writeRecord] at hconstant
  rw [pack, writeRecord, Constant.pack_eq_writeRecord, hconstant]
  simp only [packInt_eq_optional, packText_eq_optional, packList_eq_optional, layout,
    List.flatMap_cons, List.flatMap_nil, List.append_nil, List.append_assoc]
  rfl

/-- Entries of exception tables are packed as their table says. -/
lemma HandlerEntry.pack_eq_writeRecord : HandlerEntry.pack = writeRecord layout := by
  funext e
  rw [pack, writeRecord]
  simp only [packText_eq_optional, layout, List.flatMap_cons, List.flatMap_nil, List.append_nil]
  rfl

/-- Resource scopes are packed as their table says. -/
lemma ResourceScope.pack_eq_writeRecord : ResourceScope.pack = writeRecord layout := rfl

/-- Methods are packed as their table says. -/
lemma MethodDecl.pack_eq_writeRecord : MethodDecl.pack = writeRecord layout := by
  funext m
  rw [pack, writeRecord, Instruction.pack_eq_writeRecord, HandlerEntry.pack_eq_writeRecord,
    ResourceScope.pack_eq_writeRecord]
  simp only [packInt_toInt_eq_optional, packList_eq_optional, layout, bodyLayout, List.flatMap_cons,
    List.flatMap_nil, List.flatMap_append, List.append_nil, List.append_assoc]
  rfl

/-- Classes are packed as their table says. -/
lemma ClassDecl.pack_eq_writeRecord : ClassDecl.pack = writeRecord layout := by
  funext c
  rw [pack, writeRecord, MethodDecl.pack_eq_writeRecord]
  simp only [packText_eq_optional, packList_eq_optional, packInt_toInt_eq_optional, layout,
    List.flatMap_cons, List.flatMap_nil, List.append_nil, List.append_assoc]
  rfl

/-- **Programs are packed as the tables say.** -/
lemma Program.pack_eq_writeRecord : Program.pack = writeRecord layout := by
  funext p
  rw [pack, ClassDecl.pack_eq_writeRecord]
  rfl

end JvmTaint
