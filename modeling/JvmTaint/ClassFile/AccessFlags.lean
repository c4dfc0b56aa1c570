import JvmTaint.Text.Quoted

set_option autoImplicit false
set_option relaxedAutoImplicit false

/-!
# Access flags

The flags of a class or method: a 64-bit word of which ten bits have a name. A program file lists
the names; a packed file holds the word, so that bits without a name occur as well.

## Main definitions

* `JvmTaint.AccessFlag`: a named flag, with its bit and its name.
* `JvmTaint.AccessFlags`: a word of flags, with `AccessFlags.has` and `AccessFlags.render`.
* `JvmTaint.AccessFlags.writtenNames`, `JvmTaint.AccessFlags.ofNames`: the list of names that a
  program file holds.
-/

namespace JvmTaint

/-- The flags that have a name. -/
inductive AccessFlag where
  | «public»
  | «private»
  | «protected»
  | static
  | final
  | synchronized
  | native
  | interface
  | abstract
  | synthetic
  deriving DecidableEq, Repr

namespace AccessFlag

/-- The named flags in the order of their bits. -/
def all : List AccessFlag :=
  [«public», «private», «protected», static, final, synchronized, native, interface, abstract,
    synthetic]

/-- The name of a flag. -/
def name : AccessFlag → String
  | «public» => "public"
  | «private» => "private"
  | «protected» => "protected"
  | static => "static"
  | final => "final"
  | synchronized => "synchronized"
  | native => "native"
  | interface => "interface"
  | abstract => "abstract"
  | synthetic => "synthetic"

/-- The bit of a flag. -/
def bit : AccessFlag → BitVec 64
  | «public» => 0x0001#64
  | «private» => 0x0002#64
  | «protected» => 0x0004#64
  | static => 0x0008#64
  | final => 0x0010#64
  | synchronized => 0x0020#64
  | native => 0x0100#64
  | interface => 0x0200#64
  | abstract => 0x0400#64
  | synthetic => 0x1000#64

end AccessFlag

/-- The flags of a class, method or field. -/
structure AccessFlags where
  bits : BitVec 64
  deriving DecidableEq, Repr

namespace AccessFlags

instance : Inhabited AccessFlags := ⟨⟨0#64⟩⟩

/-- No flag. -/
def empty : AccessFlags := ⟨0#64⟩

/-- The flags of a signed 64-bit integer. -/
def ofInt (n : Int) : AccessFlags := ⟨BitVec.ofInt 64 n⟩

/-- The flags as a signed 64-bit integer. -/
def toInt (m : AccessFlags) : Int := m.bits.toInt

/-- Whether a flag is set. -/
def has (m : AccessFlags) (f : AccessFlag) : Bool := m.bits &&& f.bit != 0#64

/-- The flags with one more set. -/
def insert (m : AccessFlags) (f : AccessFlag) : AccessFlags := ⟨m.bits ||| f.bit⟩

/-- The names of the set flags, in the order of their bits. -/
def names (m : AccessFlags) : List String :=
  (AccessFlag.all.filter m.has).map AccessFlag.name

/-- The names of the set flags, separated by spaces. -/
def render (m : AccessFlags) : String := " ".intercalate m.names

/-- The names that a program file lists for the flags. Flags without a name alone are listed as one
empty name. -/
def writtenNames (m : AccessFlags) : List String :=
  if m.bits = 0#64 then []
  else match m.names with
    | [] => [""]
    | names => names

/-- The union of the flags with the given names; a name of no flag is returned as the error. -/
def ofNames (names : List String) : Except String AccessFlags :=
  names.foldlM
    (fun m n =>
      match AccessFlag.all.find? (·.name == n) with
      | some f => .ok (m.insert f)
      | none => .error n)
    AccessFlags.empty

/-- The message about a name of no flag. -/
def unknownNameMessage (name : String) : String := "unknown modifier " ++ Text.quote name

end AccessFlags

end JvmTaint
