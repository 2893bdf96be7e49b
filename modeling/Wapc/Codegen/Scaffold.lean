import Wapc.Semantics.Ascii
import Wapc.Codegen.Operations
import Wapc.Codegen.RustTypes

/-!
# The scaffold of a module

The scaffold has one function for each handler, which returns a default value of the
operation's type. The value is chosen by the type node alone, while the type that the function
declares depends on references too, so they fit for some types only.
-/

namespace Wapc.Codegen

open Semantics Ascii WidlType

/-! ### Default values -/

/-- The expressions that `defaultValueForType` writes. -/
inductive DefaultValue where
  | noneValue
  | vecNew
  | mapTypeNew
  | emptyString
  | falseValue
  | zero
  | default (typeName : String)
deriving DecidableEq

def DefaultValue.text : DefaultValue → String
  | noneValue => "None"
  | vecNew => "Vec::new()"
  | mapTypeNew => "MapType::new()"
  | emptyString => "\"\".to_string()"
  | falseValue => "false"
  | zero => "0"
  | default typeName => typeName ++ "::default()"

def integers : List String := ["i8", "u8", "i16", "u16", "i32", "u32", "i64", "u64"]

def floats : List String := ["f32", "f64"]

/-- `defaultValueForType`, without a package as the scaffold calls it. -/
def defaultValueForType : WidlType → DefaultValue
  | .optional _ => .noneValue
  | .listType _ => .vecNew
  | .mapType _ _ => .mapTypeNew
  | .named name =>
    if name.value = "ID" ∨ name.value = "string" then .emptyString
    else if name.value = "bool" then .falseValue
    else if name.value ∈ integers ∨ name.value ∈ floats then .zero
    else if name.value = "bytes" then .vecNew
    else .default (capitalize name.value)

/-- The types of the default values in Rust. Nothing generated has a type `MapType`. -/
inductive DefaultValue.HasType : DefaultValue → RustType → Prop where
  | noneValue {type : RustType} : HasType .noneValue (.option type)
  | vecNew {type : RustType} : HasType .vecNew (.vec type)
  | emptyString : HasType .emptyString stringType
  | falseValue {name : Name} (bool : name.value = "bool") : HasType .falseValue (.path name)
  | zero {name : Name} (integer : name.value ∈ integers) : HasType .zero (.path name)
  | default {name : Name} : HasType (.default name.value) (.path name)

/-- The types with a default value that fits. A list and an option have one even where they are
references, and so has a named type that does not begin with a small letter. -/
def WidlType.Defaultable (isReference : Bool) : WidlType → Prop
  | .optional _ | .listType _ => True
  | .mapType _ _ => False
  | .named name =>
    if isReference then (named name).StringsOnly
    else name.value ∉ floats ∧ (name.value ∈ primitives ∨ name.value = "ID" ∨
      name.value = "bytes" ∨ capitalize name.value = name.value)

section HasType

variable {name : Name}

theorem emptyString_hasType_iff :
    DefaultValue.emptyString.HasType (.path name) ↔ name.value = "String" := by
  have same : stringType = .path ⟨"String", by decide⟩ := rfl
  constructor
  · generalize string : RustType.path name = type
    rintro ⟨⟩
    rw [same, RustType.path.injEq] at string
    rw [string]
  · intro string
    have path : RustType.path name = stringType := by
      rw [same, RustType.path.injEq, Name.mk.injEq]
      exact string
    rw [path]
    exact .emptyString

theorem falseValue_hasType_iff :
    DefaultValue.falseValue.HasType (.path name) ↔ name.value = "bool" := by
  constructor
  · rintro ⟨⟩
    assumption
  · exact .falseValue

theorem zero_hasType_iff : DefaultValue.zero.HasType (.path name) ↔ name.value ∈ integers := by
  constructor
  · rintro ⟨⟩
    assumption
  · exact .zero

theorem default_hasType_iff {typeName : String} :
    (DefaultValue.default typeName).HasType (.path name) ↔ typeName = name.value := by
  constructor
  · rintro ⟨⟩
    rfl
  · rintro rfl
    exact .default

theorem not_vecNew_hasType : ¬ DefaultValue.vecNew.HasType (.path name) := by
  rintro ⟨⟩

end HasType

theorem capitalize_eq_string_iff (text : String) :
    capitalize text = "String" ↔ text = "String" ∨ text = "string" := by
  have upper (c : Char) : c.toUpper = 'S' ↔ c = 'S' ∨ c = 's' := by
    rw [← Char.toNat_inj, ← Char.toNat_inj, ← Char.toNat_inj, toNat_toUpper]
    change _ = 83 ↔ c.toNat = 83 ∨ c.toNat = 115
    split <;> omega
  simp only [← String.toList_inj, capitalize]
  cases characters : text.toList with
  | nil => simp [characters]
  | cons first rest =>
    rw [String.toList_ofList]
    change first.toUpper :: rest = 'S' :: "tring".toList ↔
      first :: rest = 'S' :: "tring".toList ∨ first :: rest = 's' :: "tring".toList
    rw [List.cons.injEq, List.cons.injEq, List.cons.injEq, upper, or_and_right]

theorem hasType_named_iff (name : Name) (isReference : Bool) :
    (defaultValueForType (.named name)).HasType (rustType isReference true (.named name)) ↔
      (WidlType.named name).Defaultable isReference := by
  cases isReference with
  | true =>
    simp only [defaultValueForType, rustType, if_true, Defaultable, StringsOnly]
    change DefaultValue.HasType _ (.path ⟨"String", _⟩) ↔ _
    split_ifs with string bool number bytes
    · rw [emptyString_hasType_iff]
      exact iff_of_true rfl (string.imp_right .inl)
    · rw [falseValue_hasType_iff]
      simp [bool]
    · rw [zero_hasType_iff]
      refine iff_of_false (by decide) ?_
      rintro (id | string' | string') <;> simp [*, integers, floats] at number
    · exact iff_of_false not_vecNew_hasType (by simp [bytes])
    · rw [default_hasType_iff, capitalize_eq_string_iff]
      grind
  | false =>
    simp only [defaultValueForType, rustType, Bool.false_eq_true, if_false, Defaultable, namedType]
    by_cases bytes : name.value = "bytes"
    · simpa [bytes, integers, floats] using DefaultValue.HasType.vecNew
    · simp only [if_neg bytes]
      split_ifs with string bool number
      · refine iff_of_true .emptyString ?_
        rcases string with id | string <;> simp [*, floats, primitives]
      · rw [falseValue_hasType_iff]
        simp [bool, floats, primitives]
      · rw [zero_hasType_iff]
        rcases number with integer | float
        · refine iff_of_true integer ?_
          simp only [integers, List.mem_cons, List.not_mem_nil, or_false] at integer
          rcases integer with value | value | value | value | value | value | value | value <;>
            simp [value, floats, primitives]
        · refine iff_of_false ?_ (fun fits => fits.1 float)
          simp only [floats, List.mem_cons, List.not_mem_nil, or_false] at float
          rcases float with value | value <;> simp [value, integers]
      · rw [default_hasType_iff]
        simp only [integers, floats, primitives, List.mem_cons, List.not_mem_nil, or_false]
          at number ⊢
        grind

theorem hasType_default_iff (type : WidlType) (isReference : Bool) :
    (defaultValueForType type).HasType (rustType isReference true type) ↔
      type.Defaultable isReference := by
  cases type with
  | optional type => exact iff_of_true .noneValue trivial
  | listType type => exact iff_of_true .vecNew trivial
  | mapType keyType valueType => exact iff_of_false (by rintro ⟨⟩) not_false
  | named name => exact hasType_named_iff name isReference

/-! ### Scaffold functions -/

/-- `mapArg`: the name of a parameter, marked as unused in a template, and its type. -/
def mapArg (template : Bool) (arg : ParameterDefinition) : String × String :=
  ((if template then "_" else "") ++ arg.name.value,
    expandType none (isReference arg.annotations) true arg.type)

def mapArgs (args : List ParameterDefinition) (template : Bool) : Record String String :=
  args.map (mapArg template)

/-- A generated function for a handler to start from. -/
structure ScaffoldFunction where
  name : String
  parameters : Record String String
  returnType : String
  /-- The value that it returns; `none` is the value `()`. -/
  value : Option DefaultValue

def scaffoldFunction (operation : OperationDefinition) : ScaffoldFunction where
  name := functionName operation.name.value
  parameters := mapArgs operation.parameters true
  returnType := returnType operation
  value := if isVoid operation.type then none else some (defaultValueForType operation.type)

def ScaffoldVisitor.visitOperation (context : Context) (operation : OperationDefinition) :
    Option ScaffoldFunction :=
  if shouldIncludeHandler context then some (scaffoldFunction operation) else none

/-- The parameters have different names, and the value has the type that is declared. -/
structure ScaffoldFunction.Compiles (function : ScaffoldFunction) : Prop where
  parameters : (function.parameters.map Prod.fst).Nodup
  unit : function.value = none → function.returnType = "()"
  typed : ∀ value, function.value = some value →
    ∃ type : RustType, type.text = function.returnType.toList ∧ value.HasType type

theorem mapArgs_names (args : List ParameterDefinition) :
    (mapArgs args true).map Prod.fst = (args.map (·.name.value)).map ("_" ++ ·) := by
  simp [mapArgs, mapArg, Function.comp_def]

theorem append_left_injective (front : String) : Function.Injective (front ++ ·) := by
  intro first second same
  rw [← String.toList_inj, String.toList_append, String.toList_append] at same
  exact String.toList_inj.mp (List.append_cancel_left same)

/-- A scaffold function compiles exactly if its parameters have different names and there is a
default value for what it returns. -/
theorem scaffoldFunction_compiles_iff (operation : OperationDefinition) :
    (scaffoldFunction operation).Compiles ↔
      (operation.parameters.map (·.name.value)).Nodup ∧
        (isVoid operation.type ∨
          operation.type.Defaultable (isReference operation.annotations)) := by
  have names : ((scaffoldFunction operation).parameters.map Prod.fst).Nodup ↔
      (operation.parameters.map (·.name.value)).Nodup := by
    change ((mapArgs operation.parameters true).map Prod.fst).Nodup ↔ _
    rw [mapArgs_names, List.nodup_map_iff (append_left_injective "_")]
  rw [← names]
  cases void : isVoid operation.type with
  | true =>
    have empty : (scaffoldFunction operation).value = none := if_pos void
    have declared : (scaffoldFunction operation).returnType = "()" := if_pos void
    constructor
    · intro compiles
      exact ⟨compiles.parameters, .inl rfl⟩
    · rintro ⟨nodup, -⟩
      refine ⟨nodup, fun _ => declared, ?_⟩
      intro value present
      rw [empty] at present
      cases present
  | false =>
    have present : (scaffoldFunction operation).value =
        some (defaultValueForType operation.type) := if_neg (by simp [void])
    have declared : (scaffoldFunction operation).returnType =
        expandType none (isReference operation.annotations) true operation.type :=
      if_neg (by simp [void])
    rw [or_iff_right Bool.false_ne_true, ← hasType_default_iff]
    constructor
    · intro compiles
      obtain ⟨type, text, typed⟩ := compiles.typed _ present
      rw [declared, toList_expandType, RustType.text_inj] at text
      rw [← text]
      exact ⟨compiles.parameters, typed⟩
    · rintro ⟨nodup, typed⟩
      refine ⟨nodup, ?_, ?_⟩
      · intro empty
        rw [present] at empty
        cases empty
      · intro value same
        cases present.symm.trans same
        exact ⟨_, by rw [declared, toList_expandType], typed⟩

end Wapc.Codegen
