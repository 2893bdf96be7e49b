import Wapc.Codegen.Types

/-!
# The Rust types that texts stand for

`expandType` writes a text where a Rust type is meant. `rustType` is the type that is meant,
and `RustType.text` writes it. A text stands for one type only: the generator writes two types
of a definition alike exactly when they mean the same Rust type.
-/

namespace Wapc.Codegen

open WidlType

/-- The Rust types of generated code. -/
inductive RustType where
  | path (name : Name)
  | vec (type : RustType)
  | hashMap (keyType valueType : RustType)
  | option (type : RustType)
deriving DecidableEq

namespace RustType

def text : RustType → List Char
  | path name => name.value.toList
  | vec type => "Vec<".toList ++ (type.text ++ ['>'])
  | hashMap keyType valueType => "std::collections::HashMap<".toList ++
      (keyType.text ++ (", ".toList ++ (valueType.text ++ ['>'])))
  | option type => "Option<".toList ++ (type.text ++ ['>'])

section Equations

variable (type keyType valueType : RustType)

theorem text_vec : (vec type).text = "Vec<".toList ++ (type.text ++ ['>']) := rfl

theorem text_hashMap : (hashMap keyType valueType).text = "std::collections::HashMap<".toList ++
    (keyType.text ++ (", ".toList ++ (valueType.text ++ ['>']))) := rfl

theorem text_option : (option type).text = "Option<".toList ++ (type.text ++ ['>']) := rfl

end Equations

section Parts

variable {rest rest' : List Char}

/-- A word that stops is not the beginning of a generic type. -/
theorem word_ne_generic {first more : List Char} (begins : List Char) (c : Char)
    (word : IsWord first) (stops : Stops rest) (begun : IsWord begins)
    (bracket : isNameChar c = false) (inner : c ≠ ',' ∧ c ≠ '>') :
    first ++ rest ≠ begins ++ c :: more := by
  intro same
  have equal : begins = first := by
    rw [← word.takeWhile_append stops, same, List.takeWhile_append_of_pos begun,
      List.takeWhile_cons_of_neg (by simp [bracket]), List.append_nil]
  subst equal
  have next : rest = c :: more := List.append_cancel_left same
  subst next
  rcases stops c rfl with comma | close
  · exact inner.1 comma
  · exact inner.2 close

theorem path_ne_generic (name : Name) (stops : Stops rest) (type : RustType)
    (generic : ∀ other, type ≠ path other) : (path name).text ++ rest ≠ type.text ++ rest' := by
  have word := name_isWord name
  cases type with
  | path other => exact absurd rfl (generic other)
  | vec type =>
    exact word_ne_generic "Vec".toList '<' word stops
      (List.all_eq_true.mp (by decide)) (by decide) (by decide)
  | hashMap keyType valueType =>
    exact word_ne_generic "std".toList ':' word stops
      (List.all_eq_true.mp (by decide)) (by decide) (by decide)
  | option type =>
    exact word_ne_generic "Option".toList '<' word stops
      (List.all_eq_true.mp (by decide)) (by decide) (by decide)

/-- Where the text of a type ends, and which type it is, can be told from what is read. -/
theorem text_append_inj (first second : RustType) (stops : Stops rest) (stops' : Stops rest')
    (same : first.text ++ rest = second.text ++ rest') : first = second ∧ rest = rest' := by
  induction first generalizing second rest rest' with
  | path name =>
    cases second with
    | path other =>
      obtain ⟨equal, after⟩ :=
        (name_isWord name).append_inj (name_isWord other) stops stops' same
      refine ⟨?_, after⟩
      rw [path.injEq, Name.mk.injEq]
      exact String.toList_inj.mp equal
    | _ => exact absurd same (path_ne_generic name stops _ (by simp))
  | vec type ih =>
    cases second with
    | path other => exact absurd same.symm (path_ne_generic other stops' _ (by simp))
    | vec other =>
      simp only [text_vec, List.append_assoc, List.append_cancel_left_eq] at same
      obtain ⟨equal, after⟩ := ih other (stops_close rest) (stops_close rest') same
      exact ⟨congrArg vec equal, List.append_cancel_left after⟩
    | hashMap | option => simp [text_vec, text_hashMap, text_option] at same
  | option type ih =>
    cases second with
    | path other => exact absurd same.symm (path_ne_generic other stops' _ (by simp))
    | option other =>
      simp only [text_option, List.append_assoc, List.append_cancel_left_eq] at same
      obtain ⟨equal, after⟩ := ih other (stops_close rest) (stops_close rest') same
      exact ⟨congrArg option equal, List.append_cancel_left after⟩
    | hashMap | vec => simp [text_vec, text_hashMap, text_option] at same
  | hashMap keyType valueType keys values =>
    cases second with
    | path other => exact absurd same.symm (path_ne_generic other stops' _ (by simp))
    | hashMap otherKey otherValue =>
      simp only [text_hashMap, List.append_assoc, List.append_cancel_left_eq] at same
      obtain ⟨key, after⟩ := keys otherKey (stops_comma _) (stops_comma _) same
      obtain ⟨value, after⟩ := values otherValue (stops_close rest) (stops_close rest')
        (List.append_cancel_left after)
      exact ⟨by rw [key, value], List.append_cancel_left after⟩
    | option | vec => simp [text_vec, text_hashMap, text_option] at same

theorem text_inj {first second : RustType} : first.text = second.text ↔ first = second := by
  refine ⟨fun same => ?_, congrArg text⟩
  have ended : Stops [] := by simp [Stops]
  exact (text_append_inj first second ended ended (by rw [same])).1

end Parts

end RustType

/-! ### The type that is meant -/

def stringType : RustType := .path ⟨"String", by decide⟩

/-- The type for a name that is no reference. -/
def namedType (name : Name) : RustType :=
  if name.value = "ID" ∨ name.value = "string" then stringType
  else if name.value = "bytes" then .vec (.path ⟨"u8", by decide⟩)
  else .path name

/-- The Rust type for a type of a definition: a reference is kept as a string, and options of
the node itself count only where they are asked for. -/
def rustType (isReference : Bool) : Bool → WidlType → RustType
  | _, .named name => if isReference then stringType else namedType name
  | _, .mapType keyType valueType =>
    .hashMap (rustType isReference true keyType) (rustType isReference true valueType)
  | _, .listType type => .vec (rustType isReference true type)
  | useOptional, .optional type =>
    if useOptional then .option (rustType isReference true type)
    else rustType isReference true type

theorem text_namedType (name : Name) : (namedType name).text = (leaf name).toList := by
  rw [namedType, leaf_eq]
  split_ifs <;> rfl

/-- `expandType` writes the type that is meant. -/
theorem toList_expandType (isReference useOptional : Bool) (type : WidlType) :
    (expandType none isReference useOptional type).toList =
      (rustType isReference useOptional type).text := by
  induction type generalizing useOptional with
  | named name =>
    rw [expandType_named, rustType]
    cases isReference with
    | true => rfl
    | false => exact (text_namedType name).symm
  | mapType keyType valueType keys values =>
    rw [expandType_mapType, rustType, RustType.text_hashMap, ← keys true, ← values true]
    simp only [String.toList_append, List.append_assoc]
    rfl
  | listType type ih =>
    rw [expandType_listType, rustType, RustType.text_vec, ← ih true]
    simp only [String.toList_append, List.append_assoc]
    rfl
  | optional type ih =>
    rw [expandType_optional, rustType]
    cases useOptional with
    | false => exact ih true
    | true =>
      rw [if_pos rfl, if_pos rfl, RustType.text_option, ← ih true]
      simp only [String.toList_append, List.append_assoc]
      rfl

/-- Two types are written alike, with or without references and options, if and only if the
same Rust type is meant. -/
theorem expandType_eq_iff (isReference isReference' useOptional useOptional' : Bool)
    (type type' : WidlType) :
    expandType none isReference useOptional type =
        expandType none isReference' useOptional' type' ↔
      rustType isReference useOptional type = rustType isReference' useOptional' type' := by
  rw [← String.toList_inj, toList_expandType, toList_expandType, RustType.text_inj]

end Wapc.Codegen
