import JvmTaint.Sum
import JvmTaint.Text.Quoted

set_option autoImplicit false
set_option relaxedAutoImplicit false

/-!
# Type descriptors

Field types, written `I`, `Ljava/lang/String;` or `[D`, and method descriptors such as
`(ILjava/lang/String;)V`. A method descriptor is read into its parameter and return types; the
types that instructions and values carry stay texts, since nothing promises that they are well
formed, and are classified by their first letter.

## Main definitions

* `JvmTaint.Kind`: the computational kind of a value, with the number of words it takes.
* `JvmTaint.FieldType`: a field type, with `FieldType.render`.
* `JvmTaint.MethodDescriptor`: parameter types and return type, with `MethodDescriptor.render` and
  `MethodDescriptor.parse`.
* `JvmTaint.Kind.ofDescriptor`, `JvmTaint.classOf`, `JvmTaint.descriptorOf`: classification of
  descriptor texts.
-/

namespace JvmTaint

/-! ## Kinds of values -/

/-- The computational kind of a value on the operand stack. -/
inductive Kind where
  | void
  | int
  | long
  | float
  | double
  | reference
  deriving DecidableEq, Repr, Inhabited

namespace Kind

/-- The number of words a value takes: two for `long` and `double`. -/
def category : Kind → Nat
  | long | double => 2
  | _ => 1

/-- The name of a kind. -/
def name : Kind → String
  | void => "void"
  | int => "int"
  | long => "long"
  | float => "float"
  | double => "double"
  | reference => "reference"

/-- The kind of the values of a type, read off the first letter of its descriptor. Booleans, bytes,
chars and shorts are ints; an empty descriptor is an unknown reference type. -/
def ofDescriptor (desc : String) : Kind :=
  match desc.toList with
  | 'V' :: _ => void
  | 'Z' :: _ | 'B' :: _ | 'C' :: _ | 'S' :: _ | 'I' :: _ => int
  | 'J' :: _ => long
  | 'F' :: _ => float
  | 'D' :: _ => double
  | _ => reference

/-- The descriptor of the primitive values of a kind; empty for references and `void`. -/
def primitive : Kind → String
  | int => "I"
  | long => "J"
  | float => "F"
  | double => "D"
  | _ => ""

end Kind

/-- The class named by a reference descriptor: `java/lang/String` for `Ljava/lang/String;`. An array
descriptor names itself, and other descriptors name no class. -/
def classOf (desc : String) : String :=
  match desc.toList with
  | 'L' :: cs => if cs.getLast? = some ';' then String.ofList cs.dropLast else ""
  | '[' :: _ => desc
  | _ => ""

/-- The descriptor of a class as operands name it: an array type is already a descriptor. -/
def descriptorOf (cls : String) : String :=
  match cls.toList with
  | '[' :: _ => cls
  | _ => "L" ++ cls ++ ";"

/-! ## Field types and method descriptors -/

/-- The type of a field, parameter or array element. -/
inductive FieldType where
  | boolean
  | byte
  | char
  | short
  | int
  | long
  | float
  | double
  | object (name : String)
  | array (element : FieldType)
  deriving DecidableEq, Repr, Inhabited

namespace FieldType

/-- The descriptor of a field type, as characters. -/
def renderChars : FieldType → List Char
  | boolean => ['Z']
  | byte => ['B']
  | char => ['C']
  | short => ['S']
  | int => ['I']
  | long => ['J']
  | float => ['F']
  | double => ['D']
  | object name => 'L' :: name.toList ++ [';']
  | array element => '[' :: element.renderChars

/-- The descriptor of a field type. -/
def render (t : FieldType) : String := String.ofList t.renderChars

/-- The kind of the values of a field type. -/
def kind : FieldType → Kind
  | boolean | byte | char | short | int => .int
  | long => .long
  | float => .float
  | double => .double
  | object _ | array _ => .reference

end FieldType

/-- The parameter types and the return type of a method; no return type is `void`. -/
structure MethodDescriptor where
  params : List FieldType
  result : Option FieldType
  deriving DecidableEq, Repr, Inhabited

namespace MethodDescriptor

/-- The descriptor of the return type: `V` for `void`. -/
def renderResult (d : MethodDescriptor) : String :=
  match d.result with
  | none => "V"
  | some t => t.render

/-- The text of a method descriptor. -/
def render (d : MethodDescriptor) : String :=
  "(" ++ String.join (d.params.map FieldType.render) ++ ")" ++ d.renderResult

/-- The number of local variable slots that the parameters take, without the receiver. -/
def argSlots (d : MethodDescriptor) : Nat :=
  sumOf (d.params.map fun p => p.kind.category)

end MethodDescriptor

/-! ## Reading descriptors -/

/-- Why a text is no method descriptor. -/
inductive DescriptorError where
  /-- The text does not start with an opening parenthesis. -/
  | noOpening
  /-- The text ends where a type should start. -/
  | unexpectedEnd
  /-- A class type without a name. -/
  | emptyClassName
  /-- A class type without its semicolon. -/
  | unterminatedClass
  /-- An array of `void`. -/
  | arrayOfVoid
  /-- No type starts with this byte. -/
  | unknownTag (byte : UInt8)
  /-- A parameter of type `void`. -/
  | voidParameter
  /-- The parameter list does not end. -/
  | noClosing
  /-- Text follows the return type. -/
  | trailing
  deriving DecidableEq, Repr

/-- The message about the descriptor `desc`. -/
def DescriptorError.message (desc : String) (e : DescriptorError) : String :=
  let subject := "method descriptor " ++ Text.quote desc
  match e with
  | noOpening => subject ++ " does not start with '('"
  | unexpectedEnd => subject ++ ": unexpected end of descriptor"
  | emptyClassName => subject ++ ": empty class name"
  | unterminatedClass => subject ++ ": fully qualified class missing terminating ';'"
  | arrayOfVoid => subject ++ ": array of void"
  | unknownTag b => subject ++ ": unknown type tag '" ++ (Char.ofNat b.toNat).toString ++ "'"
  | voidParameter => subject ++ ": void parameter"
  | noClosing => subject ++ " is missing ')'"
  | trailing => subject ++ " has trailing characters"

/-- Reads the type that a text starts with: `none` is `void`, which is no field type but may be a
return type. The rest of the text comes back with it. -/
def FieldType.parseChars : List Char → Except DescriptorError (Option FieldType × List Char)
  | [] => .error .unexpectedEnd
  | 'V' :: cs => .ok (none, cs)
  | 'Z' :: cs => .ok (some .boolean, cs)
  | 'B' :: cs => .ok (some .byte, cs)
  | 'C' :: cs => .ok (some .char, cs)
  | 'S' :: cs => .ok (some .short, cs)
  | 'I' :: cs => .ok (some .int, cs)
  | 'J' :: cs => .ok (some .long, cs)
  | 'F' :: cs => .ok (some .float, cs)
  | 'D' :: cs => .ok (some .double, cs)
  | 'L' :: cs =>
    match cs.dropWhile (· ≠ ';') with
    | [] => .error .unterminatedClass
    | _ :: rest =>
      match cs.takeWhile (· ≠ ';') with
      | [] => .error .emptyClassName
      | name => .ok (some (.object (String.ofList name)), rest)
  | '[' :: cs =>
    match parseChars cs with
    | .error e => .error e
    | .ok (none, _) => .error .arrayOfVoid
    | .ok (some t, rest) => .ok (some (.array t), rest)
  | c :: _ => .error (.unknownTag ((String.utf8EncodeChar c).headD 0))

/-- What is left after a dropped stretch of a list is no longer than the list. -/
theorem length_dropWhile_le {α : Type} (p : α → Bool) (l : List α) :
    (l.dropWhile p).length ≤ l.length :=
  (List.dropWhile_sublist p).length_le

/-- Reading a type takes at least one character. -/
theorem FieldType.length_parseChars_lt {cs rest : List Char} {t : Option FieldType}
    (h : FieldType.parseChars cs = .ok (t, rest)) : rest.length < cs.length := by
  fun_induction FieldType.parseChars cs generalizing t rest with
  | case1 => simp at h
  | case11 cs hd => simp at h
  | case12 cs c rest' hd hn => simp at h
  | case13 cs c rest' hd hn =>
    have hle := length_dropWhile_le (· ≠ ';') cs
    rw [hd] at hle
    simp only [Except.ok.injEq, Prod.mk.injEq] at h
    obtain ⟨-, rfl⟩ := h
    simp only [List.length_cons] at hle ⊢
    omega
  | case14 cs e he ih => simp at h
  | case15 cs rest' he ih => simp at h
  | case16 cs t' rest' he ih =>
    simp only [Except.ok.injEq, Prod.mk.injEq] at h
    obtain ⟨-, rfl⟩ := h
    have := ih he
    simp only [List.length_cons]
    omega
  | case17 => simp at h
  | _ =>
    simp only [Except.ok.injEq, Prod.mk.injEq] at h
    obtain ⟨-, rfl⟩ := h
    simp

namespace MethodDescriptor

/-- Reads parameter types up to the closing parenthesis, and returns them with the text after it. -/
def parseParams (cs : List Char) : Except DescriptorError (List FieldType × List Char) :=
  match cs with
  | [] => .error .noClosing
  | ')' :: rest => .ok ([], rest)
  | cs =>
    match _h : FieldType.parseChars cs with
    | .error e => .error e
    | .ok (none, _) => .error .voidParameter
    | .ok (some t, rest) =>
      match parseParams rest with
      | .error e => .error e
      | .ok (ts, rest) => .ok (t :: ts, rest)
termination_by cs.length
decreasing_by exact FieldType.length_parseChars_lt (by assumption)

/-- Reads a method descriptor given as characters. -/
def parseChars : List Char → Except DescriptorError MethodDescriptor
  | '(' :: cs =>
    match parseParams cs with
    | .error e => .error e
    | .ok (params, rest) =>
      match FieldType.parseChars rest with
      | .error e => .error e
      | .ok (result, []) => .ok ⟨params, result⟩
      | .ok (_, _ :: _) => .error .trailing
  | _ => .error .noOpening

/-- Reads a method descriptor. -/
def parse (desc : String) : Except DescriptorError MethodDescriptor := parseChars desc.toList

end MethodDescriptor

end JvmTaint
