import Wapc.Codegen.Types
import Wapc.Codegen.Names
import Wapc.Codegen.Comment
import Mathlib.Tactic.MkIffOfInductiveProp

/-!
# Structs of generated code

The struct visitor looks for `Vec<u8>` in the text of a field's type to decide whether the
field is written with `serde_bytes`. The text also has it where byte vectors are the elements
of a list or of a map, which `serde_bytes` does not write.
-/

namespace Wapc.Codegen

/-! ### The struct visitor -/

/-- A literal of the generator. -/
def ascii (text : String) : JsString := text.toList.map fun c => UInt16.ofNat c.toNat

/-- A field of a WIDL type. -/
structure FieldDefinition where
  name : Name
  description : CommentText
  type : WidlType
  annotations : List Annotation
deriving DecidableEq

/-- A field of a generated struct. -/
structure StructField where
  comment : JsString
  /-- The field has the attribute `serde_bytes`. -/
  serdeBytes : Bool
  rename : String
  name : String
  type : String
deriving DecidableEq

/-- The text of a vector of bytes. -/
abbrev byteVector : List Char := "Vec<u8>".toList

/-- `expandedType.indexOf("Vec<u8>") != -1`. -/
def hasByteVector (expandedType : String) : Bool := decide (byteVector <:+: expandedType.toList)

def visitTypeField (field : FieldDefinition) : StructField :=
  let expandedType := expandType none (isReference field.annotations) true field.type
  { comment := formatComment (ascii "  /// ") field.description defaultWrapLength
    serdeBytes := hasByteVector expandedType
    rename := field.name.value
    name := fieldName field.name.value
    type := expandedType }

/-- A type of a WIDL definition. -/
structure TypeDefinition where
  name : String
  description : CommentText
  fields : List FieldDefinition
deriving DecidableEq

/-- A generated struct. -/
structure Struct where
  comment : JsString
  name : String
  fields : List StructField
deriving DecidableEq

/-- What the struct visitor writes for a type, before its fields and for each of them. -/
def visitType (type : TypeDefinition) : Struct where
  comment := formatComment (ascii "/// ") type.description defaultWrapLength
  name := type.name
  fields := type.fields.map visitTypeField

namespace WidlType

/-- The types that `serde_bytes` writes: a vector of bytes, perhaps optional. -/
@[mk_iff]
inductive IsByteVector : List Char → Prop where
  | vector : IsByteVector byteVector
  | option {text : List Char} (inner : IsByteVector text) :
      IsByteVector ("Option<".toList ++ text ++ ['>'])

/-- The type is the byte. -/
def IsByte : WidlType → Prop
  | named name => name.value = "u8"
  | _ => False

/-- A vector of bytes occurs in the type. -/
def HasBytes : WidlType → Prop
  | named name => name.value = "bytes"
  | listType type => type.IsByte ∨ type.HasBytes
  | mapType keyType valueType => keyType.HasBytes ∨ valueType.HasBytes
  | optional type => type.HasBytes

/-- The type is a vector of bytes under options only. -/
def BytesUnderOptions : WidlType → Prop
  | named name => name.value = "bytes"
  | listType type => type.IsByte
  | mapType _ _ => False
  | optional type => type.BytesUnderOptions

/-- A vector of bytes occurs inside a list or a map. -/
def BytesInside : WidlType → Prop
  | named _ => False
  | listType type => type.HasBytes
  | mapType keyType valueType => keyType.HasBytes ∨ valueType.HasBytes
  | optional type => type.BytesInside

theorem IsByte.not_hasBytes {type : WidlType} (byte : type.IsByte) : ¬ type.HasBytes := by
  cases type with
  | named name =>
    intro bytes
    exact absurd (byte.symm.trans bytes) (by decide)
  | mapType keyType valueType => exact byte.elim
  | listType type => exact byte.elim
  | optional type => exact byte.elim

/-- A vector of bytes is under options only, or is inside a list or a map. -/
theorem hasBytes_iff_or (type : WidlType) :
    type.HasBytes ↔ type.BytesUnderOptions ∨ type.BytesInside := by
  induction type with
  | named name => exact (or_iff_left not_false).symm
  | mapType keyType valueType => exact (or_iff_right not_false).symm
  | listType type => exact Iff.rfl
  | optional type ih => exact ih

theorem BytesUnderOptions.not_inside {type : WidlType} (bytes : type.BytesUnderOptions) :
    ¬ type.BytesInside := by
  induction type with
  | named name => exact not_false
  | mapType keyType valueType => exact bytes.elim
  | listType type => exact IsByte.not_hasBytes bytes
  | optional type ih => exact ih bytes

/-! ### Where a vector of bytes occurs in the text -/

section Text

variable {text : List Char}

/-- Only a vector of bytes that ends with the text could use the bracket that follows. -/
theorem not_suffix_of_shape (shape : IsWord text ∨ IsGeneric text) :
    ¬ "Vec<u8".toList <:+ text := by
  rintro ⟨front, rfl⟩
  rcases shape with word | generic
  · exact word.not_bracket.1 (List.mem_append_right _ (by decide))
  · have last := generic.getLast
    rw [List.getLast?_append_of_ne_nil _ (by decide)] at last
    exact absurd last (by decide)

theorem infix_close_iff (shape : IsWord text ∨ IsGeneric text) :
    byteVector <:+: text ++ ['>'] ↔ byteVector <:+: text := by
  rw [List.infix_concat_iff, show byteVector = "Vec<u8".toList ++ ['>'] from rfl,
    List.suffix_append_self_iff]
  exact or_iff_right (not_suffix_of_shape shape)

theorem byte_close_iff (shape : IsWord text ∨ IsGeneric text) :
    ['u', '8', '>'] <+: text ++ ['>'] ↔ text = ['u', '8'] := by
  constructor
  · rintro ⟨rest, split⟩
    rcases shape with word | ⟨first, inner, rfl, begins⟩
    · have closed := word.not_bracket.2
      rcases text with _ | ⟨first, _ | ⟨second, _ | ⟨third, text⟩⟩⟩ <;> simp_all [eq_comm]
    · obtain ⟨rfl, -⟩ := List.cons.inj split
      exact absurd begins (by decide)
  · rintro rfl
    exact List.prefix_rfl

end Text

section Leaves

variable (name : Name)

theorem leaf_eq_byte_iff : leaf name = "u8" ↔ name.value = "u8" := by
  rw [leaf_eq]
  split_ifs with string bytes
  · rcases string with named | named <;> simp [named]
  · simp [bytes]
  · rfl

theorem leaf_eq_bytes_iff : leaf name = "Vec<u8>" ↔ name.value = "bytes" := by
  rw [leaf_eq]
  split_ifs with string bytes
  · rcases string with named | named <;> simp [named]
  · simp [bytes]
  · refine iff_of_false ?_ bytes
    intro generic
    exact not_isWord_bytes (generic ▸ name_isWord name)

theorem hasBytes_leaf_iff : byteVector <:+: (leaf name).toList ↔ name.value = "bytes" := by
  rw [← leaf_eq_bytes_iff]
  constructor
  · intro inside
    refine (leaf_isWord_or name).resolve_left ?_
    intro word
    exact word.not_bracket.1 (inside.subset (by decide))
  · intro bytes
    rw [bytes]

end Leaves

section Fields

variable {isReference : Bool}

theorem text_eq_byte_iff (type : WidlType) :
    type.text isReference = ['u', '8'] ↔ isReference = false ∧ type.IsByte := by
  cases type with
  | named name =>
    rw [text_named, show ['u', '8'] = "u8".toList from rfl, String.toList_inj]
    cases isReference with
    | true => simp
    | false => simpa [IsByte] using leaf_eq_byte_iff name
  | mapType keyType valueType => simp [text_mapType, IsByte]
  | listType type => simp [text_listType, IsByte]
  | optional type => simp [text_optional, IsByte]

/-- The comma of a map is in no vector of bytes. -/
theorem infix_comma_iff {text rest : List Char} :
    byteVector <:+: text ++ (", ".toList ++ rest) ↔
      byteVector <:+: text ∨ byteVector <:+: rest := by
  have after : byteVector <:+: ", ".toList ++ rest ↔ byteVector <:+: rest := by
    simp [byteVector, List.infix_cons_iff]
  rw [List.infix_append_iff, after]
  constructor
  · rintro (front | back | ⟨front, back, split, suffix, begins⟩)
    · exact .inl front
    · exact .inr back
    · cases back with
      | nil =>
        rw [split, List.append_nil]
        exact .inl suffix.isInfix
      | cons c back =>
        obtain ⟨rfl, -⟩ := List.cons_prefix_cons.mp begins
        have member : ',' ∈ byteVector := split ▸ List.mem_append_right _ List.mem_cons_self
        exact absurd member (by decide)
  · rintro (front | back)
    · exact .inl front
    · exact .inr (.inl back)

/-- The search finds the vectors of bytes of the type. -/
theorem text_hasBytes_iff (type : WidlType) :
    byteVector <:+: type.text isReference ↔ isReference = false ∧ type.HasBytes := by
  induction type with
  | named name =>
    rw [text_named]
    cases isReference with
    | true =>
      rw [if_pos rfl]
      exact iff_of_false (by decide) (by simp)
    | false => simpa [HasBytes] using hasBytes_leaf_iff name
  | mapType keyType valueType keys values =>
    have literal : byteVector <:+: "std::collections::HashMap<".toList ++
        (keyType.text isReference ++ (", ".toList ++ (valueType.text isReference ++ ['>']))) ↔
        byteVector <:+: keyType.text isReference ++
          (", ".toList ++ (valueType.text isReference ++ ['>'])) := by
      simp [byteVector, List.infix_cons_iff]
    rw [text_mapType, literal, infix_comma_iff, infix_close_iff (text_shape valueType isReference),
      keys, values, ← and_or_left]
    rfl
  | listType type ih =>
    have shape := text_shape type isReference
    rw [text_listType, List.append_assoc]
    have literal : byteVector <:+: "Vec<".toList ++ (type.text isReference ++ ['>']) ↔
        ['u', '8', '>'] <+: type.text isReference ++ ['>'] ∨
          byteVector <:+: type.text isReference ++ ['>'] := by
      simp [byteVector, List.infix_cons_iff]
    rw [literal, byte_close_iff shape, infix_close_iff shape, text_eq_byte_iff, ih, ← and_or_left]
    rfl
  | optional type ih =>
    have literal : byteVector <:+: "Option<".toList ++ (type.text isReference ++ ['>']) ↔
        byteVector <:+: type.text isReference ++ ['>'] := by
      simp [byteVector, List.infix_cons_iff]
    rw [text_optional, List.append_assoc, literal,
      infix_close_iff (text_shape type isReference), ih]
    rfl

theorem IsByteVector.mem_bracket {text : List Char} (bytes : IsByteVector text) : '<' ∈ text := by
  cases bytes with
  | vector => decide
  | option inner =>
    rw [List.append_assoc]
    exact List.mem_append_left _ (by decide)

/-- The emitted type is a vector of bytes under options only. -/
theorem text_isByteVector_iff (type : WidlType) :
    IsByteVector (type.text isReference) ↔ isReference = false ∧ type.BytesUnderOptions := by
  induction type with
  | named name =>
    rw [text_named]
    cases isReference with
    | true =>
      refine iff_of_false ?_ (by simp)
      intro bytes
      exact string_isWord.not_bracket.1 bytes.mem_bracket
    | false =>
      simp only [Bool.false_eq_true, if_false, true_and, BytesUnderOptions, ← leaf_eq_bytes_iff]
      constructor
      · intro bytes
        refine (leaf_isWord_or name).resolve_left ?_
        intro word
        exact word.not_bracket.1 bytes.mem_bracket
      · intro bytes
        rw [bytes]
        exact .vector
  | mapType keyType valueType =>
    rw [text_mapType, isByteVector_iff]
    simp [byteVector, BytesUnderOptions]
  | listType type =>
    have bytes : "Vec<".toList ++ type.text isReference ++ ['>'] = byteVector ↔
        type.text isReference = ['u', '8'] := by
      rw [show byteVector = "Vec<".toList ++ ['u', '8'] ++ ['>'] from rfl, List.append_left_inj,
        List.append_right_inj]
    rw [text_listType, isByteVector_iff, bytes, text_eq_byte_iff]
    simp [BytesUnderOptions]
  | optional type ih =>
    rw [text_optional, isByteVector_iff]
    simp [byteVector, ih, BytesUnderOptions]

end Fields

end WidlType

/-- The attribute is attached exactly where the emitted type is one that it can write. -/
def AttachedWhereValid (field : FieldDefinition) : Prop :=
  (visitTypeField field).serdeBytes ↔ WidlType.IsByteVector (visitTypeField field).type.toList

/-- The attribute is right except where a list or a map has a vector of bytes in it. -/
theorem attachedWhereValid_iff (field : FieldDefinition) : AttachedWhereValid field ↔
    isReference field.annotations ∨ ¬ field.type.BytesInside := by
  have attached : (visitTypeField field).serdeBytes ↔
      isReference field.annotations = false ∧ field.type.HasBytes := by
    rw [← WidlType.text_hasBytes_iff]
    exact decide_eq_true_iff
  have valid : WidlType.IsByteVector (visitTypeField field).type.toList ↔
      isReference field.annotations = false ∧ field.type.BytesUnderOptions :=
    WidlType.text_isByteVector_iff field.type
  rw [AttachedWhereValid, attached, valid, WidlType.hasBytes_iff_or]
  cases isReference field.annotations with
  | true => simp
  | false =>
    simp only [Bool.false_eq_true, true_and, false_or, or_iff_left_iff_imp]
    constructor
    · intro agrees inside
      exact (agrees inside).not_inside inside
    · intro clear inside
      exact absurd inside clear

/-- A field for a list of chunks. -/
def chunks : FieldDefinition where
  name := ⟨"chunks", by decide⟩
  description := .undefined
  type := .listType (.named ⟨"bytes", by decide⟩)
  annotations := []

theorem list_of_bytes_attached :
    (visitTypeField chunks).type = "Vec<Vec<u8>>" ∧ (visitTypeField chunks).serdeBytes ∧
      ¬ AttachedWhereValid chunks := by
  have written : (visitTypeField chunks).type = "Vec<Vec<u8>>" := by decide
  have attached : (visitTypeField chunks).serdeBytes := by decide
  refine ⟨written, attached, ?_⟩
  intro valid
  have bytes := valid.mp attached
  rw [written, WidlType.isByteVector_iff] at bytes
  simp [byteVector] at bytes

end Wapc.Codegen
