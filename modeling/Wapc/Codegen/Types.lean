import Mathlib.Data.List.Infix

/-!
# Types of WIDL definitions, and their Rust text

`expandType` writes a type of a WIDL definition as a type of the generated code. The parts of
the text are told apart by its brackets: a type is either a word of name characters or begins
and ends like a generic type, and the text of a type determines the texts of its parts.
-/

namespace Wapc.Codegen

/-! ### Definitions -/

/-- The characters of a WIDL name. -/
def isNameChar (c : Char) : Bool := c.isAlphanum || c == '_'

/-- A name is not empty and does not begin with a digit. -/
def isName : List Char → Bool
  | [] => false
  | first :: rest => !first.isDigit && isNameChar first && rest.all isNameChar

/-- A name as the WIDL parser reads it. -/
structure Name where
  value : String
  valid : isName value.toList = true
deriving DecidableEq

/-- The type nodes of a WIDL definition. -/
inductive WidlType where
  | named (name : Name)
  | mapType (keyType valueType : WidlType)
  | listType (type : WidlType)
  | optional (type : WidlType)
deriving DecidableEq

/-- An annotation; its arguments are not read. -/
structure Annotation where
  name : Name
deriving DecidableEq

/-! ### Helpers of the generator -/

def translations : List (String × String) :=
  [("ID", "String"), ("string", "String"), ("bytes", "Vec<u8>")]

def primitives : List String :=
  ["bool", "i8", "i16", "i32", "i64", "u8", "u16", "u32", "u64", "f32", "f64", "string"]

/-- A named type that is not one of the primitives. -/
def isObject : WidlType → Bool
  | .named name => !primitives.contains name.value
  | _ => false

def isVoid : WidlType → Bool
  | .named name => name.value == "void"
  | _ => false

def isReference (annotations : List Annotation) : Bool :=
  annotations.any fun annotation =>
    annotation.name.value == "ref" || annotation.name.value == "reference"

/-- The case of `expandType` for a named type. -/
def expandNamed (name : Name) (packageName : Option String) (isReference : Bool) : String :=
  if isReference then "String"
  else match translations.lookup name.value with
    | some translation => translation
    | none =>
      if isObject (.named name) && packageName.getD "" != "" then
        packageName.getD "" ++ "." ++ name.value
      else name.value

/-- The Rust type of a type node. A reference is the `String` that names it, and
`useOptional` counts for the node itself only. -/
def expandType (packageName : Option String) (isReference : Bool) : Bool → WidlType → String
  | _, .named name => expandNamed name packageName isReference
  | _, .mapType keyType valueType =>
    "std::collections::HashMap<" ++ expandType packageName isReference true keyType ++ ", " ++
      expandType packageName isReference true valueType ++ ">"
  | _, .listType type => "Vec<" ++ expandType packageName isReference true type ++ ">"
  | useOptional, .optional type =>
    let expanded := expandType packageName isReference true type
    if useOptional then "Option<" ++ expanded ++ ">" else expanded

/-! ### The text of a type -/

namespace WidlType

/-- The text of a type, as characters. All callers leave out the package. -/
abbrev text (type : WidlType) (isReference : Bool) : List Char :=
  (expandType none isReference true type).toList

/-- The text of a named type that is no reference. -/
def leaf (name : Name) : String := (translations.lookup name.value).getD name.value

section Equations

variable (isReference useOptional : Bool)

theorem expandType_named (name : Name) : expandType none isReference useOptional (.named name) =
    if isReference then "String" else leaf name := by
  change expandNamed name none isReference = _
  unfold expandNamed leaf
  split
  · rfl
  · cases translations.lookup name.value <;> simp

theorem expandType_listType (type : WidlType) :
    expandType none isReference useOptional (.listType type) =
      "Vec<" ++ expandType none isReference true type ++ ">" := rfl

theorem expandType_mapType (keyType valueType : WidlType) :
    expandType none isReference useOptional (.mapType keyType valueType) =
      "std::collections::HashMap<" ++ expandType none isReference true keyType ++ ", " ++
        expandType none isReference true valueType ++ ">" := rfl

theorem expandType_optional (type : WidlType) :
    expandType none isReference useOptional (.optional type) =
      if useOptional then "Option<" ++ expandType none isReference true type ++ ">"
      else expandType none isReference true type := rfl

end Equations

section Text

variable (isReference : Bool)

theorem toList_close : ">".toList = ['>'] := rfl

theorem text_named (name : Name) :
    (named name).text isReference = (if isReference then "String" else leaf name).toList := by
  rw [text, expandType_named]

theorem text_listType (type : WidlType) :
    (listType type).text isReference = "Vec<".toList ++ type.text isReference ++ ['>'] := by
  rw [text, expandType_listType, String.toList_append, String.toList_append, toList_close]

theorem text_optional (type : WidlType) :
    (optional type).text isReference = "Option<".toList ++ type.text isReference ++ ['>'] := by
  rw [text, expandType_optional, if_pos rfl, String.toList_append, String.toList_append,
    toList_close]

theorem text_mapType (keyType valueType : WidlType) :
    (mapType keyType valueType).text isReference =
      "std::collections::HashMap<".toList ++ (keyType.text isReference ++
        (", ".toList ++ (valueType.text isReference ++ ['>']))) := by
  rw [text, expandType_mapType, String.toList_append, String.toList_append,
    String.toList_append, String.toList_append, toList_close]
  simp only [List.append_assoc]

end Text

/-! ### What the text of a type looks like -/

/-- The text has name characters only. -/
def IsWord (text : List Char) : Prop := ∀ c ∈ text, isNameChar c

/-- The text begins like a generic type and ends with its bracket. -/
def IsGeneric (text : List Char) : Prop :=
  ∃ first inner, text = first :: inner ++ ['>'] ∧ first ∈ ['V', 'O', 's']

section Shape

variable {text : List Char}

theorem IsWord.not_bracket (word : IsWord text) : '<' ∉ text ∧ '>' ∉ text := by
  constructor
  · intro member
    exact absurd (word '<' member) (by decide)
  · intro member
    exact absurd (word '>' member) (by decide)

theorem IsGeneric.getLast (generic : IsGeneric text) : text.getLast? = some '>' := by
  obtain ⟨first, inner, rfl, -⟩ := generic
  exact List.getLast?_concat

end Shape

theorem name_isWord (name : Name) : IsWord name.value.toList := by
  have valid := name.valid
  intro c member
  cases characters : name.value.toList with
  | nil => rw [characters] at member; cases member
  | cons first rest =>
    rw [characters] at valid member
    simp only [isName, Bool.and_eq_true, List.all_eq_true] at valid
    rcases List.mem_cons.mp member with rfl | later
    · exact valid.1.2
    · exact valid.2 c later

/-- A named type is translated, or is its own name. -/
theorem leaf_eq (name : Name) : leaf name =
    if name.value = "ID" ∨ name.value = "string" then "String"
    else if name.value = "bytes" then "Vec<u8>" else name.value := by
  unfold leaf translations
  by_cases id : name.value = "ID"
  · rw [id]
    decide
  · by_cases string : name.value = "string"
    · rw [string]
      decide
    · by_cases bytes : name.value = "bytes"
      · rw [bytes]
        decide
      · simp [id, string, bytes, List.lookup_cons, beq_eq_false_iff_ne.mpr id,
          beq_eq_false_iff_ne.mpr string, beq_eq_false_iff_ne.mpr bytes]

theorem not_isWord_bytes : ¬ IsWord "Vec<u8>".toList := by
  intro word
  exact absurd (word '<' (by decide)) (by decide)

theorem string_isWord : IsWord "String".toList := List.all_eq_true.mp (by decide)

theorem bytes_isGeneric : IsGeneric "Vec<u8>".toList :=
  ⟨'V', "ec<u8".toList, rfl, by decide⟩

theorem leaf_isWord_or (name : Name) : IsWord (leaf name).toList ∨ leaf name = "Vec<u8>" := by
  rw [leaf_eq]
  split_ifs
  · exact .inl string_isWord
  · exact .inr rfl
  · exact .inl (name_isWord name)

theorem text_named_isWord_or (name : Name) (isReference : Bool) :
    IsWord ((named name).text isReference) ∨
      (named name).text isReference = "Vec<u8>".toList := by
  rw [text_named]
  split
  · exact .inl string_isWord
  · exact (leaf_isWord_or name).imp_right (congrArg String.toList)

theorem text_shape (type : WidlType) (isReference : Bool) :
    IsWord (type.text isReference) ∨ IsGeneric (type.text isReference) := by
  cases type with
  | named name =>
    refine (text_named_isWord_or name isReference).imp_right ?_
    intro bytes
    rw [bytes]
    exact bytes_isGeneric
  | listType type =>
    rw [text_listType]
    exact .inr ⟨'V', "ec<".toList ++ type.text isReference, rfl, by decide⟩
  | optional type =>
    rw [text_optional]
    exact .inr ⟨'O', "ption<".toList ++ type.text isReference, rfl, by decide⟩
  | mapType keyType valueType =>
    rw [text_mapType]
    refine .inr ⟨'s', "td::collections::HashMap<".toList ++ (keyType.text isReference ++
      (", ".toList ++ valueType.text isReference)), ?_, by decide⟩
    simp only [List.append_assoc, List.cons_append]
    rfl

/-! ### The parts of a text -/

/-- What comes after the text of a type inside of another. -/
def Stops (rest : List Char) : Prop := ∀ c ∈ rest.head?, c = ',' ∨ c = '>'

section Parts

variable {first second rest rest' : List Char}

theorem stops_close (rest : List Char) : Stops (['>'] ++ rest) := by
  rintro c ⟨⟩
  exact .inr rfl

theorem stops_comma (rest : List Char) : Stops (", ".toList ++ rest) := by
  rintro c ⟨⟩
  exact .inl rfl

theorem Stops.not_isNameChar (stops : Stops rest) : ∀ c ∈ rest.head?, isNameChar c = false := by
  intro c head
  rcases stops c head with rfl | rfl <;> decide

theorem IsWord.takeWhile_append (word : IsWord first) (stops : Stops rest) :
    (first ++ rest).takeWhile isNameChar = first := by
  rw [List.takeWhile_append_of_pos word]
  cases rest with
  | nil => simp
  | cons c rest => simp [stops.not_isNameChar c rfl]

theorem IsWord.append_inj (word : IsWord first) (word' : IsWord second) (stops : Stops rest)
    (stops' : Stops rest') (same : first ++ rest = second ++ rest') :
    first = second ∧ rest = rest' := by
  have equal : first = second := by
    rw [← word.takeWhile_append stops, same, word'.takeWhile_append stops']
  subst equal
  exact ⟨rfl, List.append_cancel_left same⟩

theorem IsWord.append_ne_bytes (word : IsWord first) (stops : Stops rest) :
    first ++ rest ≠ "Vec<u8>".toList ++ rest' := by
  intro same
  have vec : "Vec".toList = first := by
    rw [← word.takeWhile_append stops, same]
    rfl
  subst vec
  have bracket : rest = '<' :: ("u8>".toList ++ rest') := List.append_cancel_left same
  rw [bracket] at stops
  exact absurd (stops '<' rfl) (by decide)

/-- In the text of a type, the text of each part ends where it ends for all readings. -/
theorem text_append_inj (type : WidlType) {isReference isReference' : Bool} (stops : Stops rest)
    (stops' : Stops rest')
    (same : type.text isReference ++ rest = type.text isReference' ++ rest') :
    type.text isReference = type.text isReference' ∧ rest = rest' := by
  induction type generalizing rest rest' with
  | named name =>
    rcases text_named_isWord_or name isReference with word | bytes
    · rcases text_named_isWord_or name isReference' with word' | bytes'
      · exact word.append_inj word' stops stops' same
      · rw [bytes'] at same
        exact absurd same (word.append_ne_bytes stops)
    · rcases text_named_isWord_or name isReference' with word' | bytes'
      · rw [bytes] at same
        exact absurd same.symm (word'.append_ne_bytes stops')
      · rw [bytes, bytes'] at same ⊢
        exact ⟨rfl, List.append_cancel_left same⟩
  | listType type ih =>
    simp only [text_listType, List.append_assoc, List.append_cancel_left_eq] at same ⊢
    obtain ⟨equal, after⟩ := ih (stops_close rest) (stops_close rest') same
    rw [equal]
    exact ⟨rfl, List.append_cancel_left after⟩
  | optional type ih =>
    simp only [text_optional, List.append_assoc, List.append_cancel_left_eq] at same ⊢
    obtain ⟨equal, after⟩ := ih (stops_close rest) (stops_close rest') same
    rw [equal]
    exact ⟨rfl, List.append_cancel_left after⟩
  | mapType keyType valueType keys values =>
    simp only [text_mapType, List.append_assoc, List.append_cancel_left_eq] at same ⊢
    obtain ⟨key, after⟩ := keys (stops_comma _) (stops_comma _) same
    obtain ⟨value, after⟩ := values (stops_close rest) (stops_close rest')
      (List.append_cancel_left after)
    rw [key, value]
    exact ⟨rfl, List.append_cancel_left after⟩

end Parts

/-! ### References -/

/-- Every name in the type stands for a string. -/
def StringsOnly : WidlType → Prop
  | named name => name.value = "ID" ∨ name.value = "string" ∨ name.value = "String"
  | mapType keyType valueType => keyType.StringsOnly ∧ valueType.StringsOnly
  | listType type => type.StringsOnly
  | optional type => type.StringsOnly

def IsOptional : WidlType → Prop
  | optional _ => True
  | _ => False

theorem leaf_eq_string_iff (name : Name) : leaf name = "String" ↔ (named name).StringsOnly := by
  rw [leaf_eq, StringsOnly]
  split_ifs with string bytes
  · simp [← or_assoc, string]
  · simp [bytes]
  · rw [← or_assoc, or_iff_right string]

/-- A reference is written as other types are where all its names stand for strings. -/
theorem text_reference_iff (type : WidlType) :
    type.text true = type.text false ↔ type.StringsOnly := by
  induction type with
  | named name =>
    rw [text_named, text_named, if_pos rfl, if_neg Bool.false_ne_true, String.toList_inj, eq_comm,
      leaf_eq_string_iff]
  | mapType keyType valueType keys values =>
    rw [text_mapType, text_mapType, List.append_right_inj]
    constructor
    · intro same
      obtain ⟨key, after⟩ := text_append_inj keyType (stops_comma _) (stops_comma _) same
      have value := List.append_cancel_right (List.append_cancel_left after)
      exact ⟨keys.mp key, values.mp value⟩
    · rintro ⟨key, value⟩
      rw [keys.mpr key, values.mpr value]
  | listType type ih => rw [text_listType, text_listType, List.append_left_inj,
      List.append_right_inj, ih, StringsOnly]
  | optional type ih => rw [text_optional, text_optional, List.append_left_inj,
      List.append_right_inj, ih, StringsOnly]

/-- An option more is another type. -/
theorem text_ne_optional (type : WidlType) (isReference : Bool) :
    type.text isReference ≠ type.optional.text false := by
  induction type with
  | named name =>
    intro same
    rw [text_optional] at same
    rcases text_named_isWord_or name isReference with word | bytes
    · rw [same] at word
      exact word.not_bracket.2 List.mem_concat_self
    · rw [bytes] at same
      simp at same
  | mapType keyType valueType => simp [text_mapType, text_optional]
  | listType type => simp [text_listType, text_optional]
  | optional type ih =>
    rw [text_optional _ type, text_optional _ type.optional, ne_eq, List.append_left_inj,
      List.append_right_inj]
    exact ih

/-- References count where a name in the type is not a string. -/
theorem expandType_reference_iff (type : WidlType) (isReference : Bool) :
    expandType none isReference true type = expandType none false true type ↔
      (isReference → type.StringsOnly) := by
  rw [← String.toList_inj]
  cases isReference with
  | false => simp
  | true => simpa using text_reference_iff type

/-- Only the type of an option differs where options are not used. -/
theorem expandType_useOptional_iff (type : WidlType) (isReference : Bool) :
    expandType none isReference false type = expandType none false true type ↔
      ¬ type.IsOptional ∧ (isReference → type.StringsOnly) := by
  rw [← expandType_reference_iff]
  cases type with
  | optional type =>
    refine iff_of_false ?_ (fun allowed => allowed.1 trivial)
    intro same
    exact text_ne_optional type isReference (congrArg String.toList same)
  | named name => exact (and_iff_right id).symm
  | mapType keyType valueType => exact (and_iff_right id).symm
  | listType type => exact (and_iff_right id).symm

end WidlType
end Wapc.Codegen
