import Wapc.Semantics.Records
import Wapc.Codegen.Structs

/-!
# Host stubs and handler wrappers

An operation is generated twice: as a stub that sends its arguments and as a wrapper that
hands them to the registered function. Visitors write the two apart from each other, and a
callback writes the struct that carries the arguments. They agree if a module that is called
through the stub hands its handler the arguments of the call.
-/

namespace Wapc.Codegen

open Semantics

/-! ### Definitions of operations -/

structure ParameterDefinition where
  name : Name
  description : CommentText
  type : WidlType
  annotations : List Annotation
deriving DecidableEq

/-- An operation. Only an operation with one parameter is unary. -/
structure OperationDefinition where
  name : Name
  description : CommentText
  parameters : List ParameterDefinition
  type : WidlType
  annotations : List Annotation
  isUnary : Bool
  one_of_isUnary : isUnary = true → parameters.length = 1
deriving DecidableEq

namespace OperationDefinition

variable (operation : OperationDefinition)

theorem parameters_ne_nil (unary : operation.isUnary = true) : operation.parameters ≠ [] :=
  List.ne_nil_of_length_eq_add_one (operation.one_of_isUnary unary)

/-- The parameter of a unary operation. -/
def unaryOp (unary : operation.isUnary = true) : ParameterDefinition :=
  operation.parameters.head (operation.parameters_ne_nil unary)

theorem parameters_eq (unary : operation.isUnary = true) :
    operation.parameters = [operation.unaryOp unary] := by
  obtain ⟨parameter, one⟩ := List.length_eq_one_iff.mp (operation.one_of_isUnary unary)
  simp only [unaryOp, one, List.head_cons]

end OperationDefinition

/-- The settings that the visitors of operations read. -/
structure Config where
  hostRoles : Option (List String)
  handlerRoles : Option (List String)
  skipInterface : Bool

/-- Where an operation is visited: in a role, or in the interface. -/
structure Context where
  config : Config
  role : Option Name
  namespaceName : Name

def shouldInclude (context : Context) (roles : Option (List String)) : Bool :=
  match context.role with
  | some role =>
    match roles with
    | none => false
    | some roles => roles.contains role.value
  | none => !context.config.skipInterface

def shouldIncludeHostCall (context : Context) : Bool :=
  shouldInclude context context.config.hostRoles

def shouldIncludeHandler (context : Context) : Bool :=
  shouldInclude context context.config.handlerRoles

/-- The name of the struct for the arguments of an operation. -/
def argsName (operation : OperationDefinition) : String := capitalize operation.name.value ++ "Args"

/-! ### The host visitor -/

/-- The message of a host call: no bytes, or a variable or a struct that is serialized. The
fields of the struct are the variables of their names. -/
inductive Message where
  | empty
  | single (name : String)
  | record (struct : String) (fields : List String)
deriving DecidableEq

/-- The variables that a message serializes. -/
def Message.variables : Message → List String
  | empty => []
  | single name => [name]
  | record _ fields => fields

/-- A generated method of the host. -/
structure HostStub where
  comment : JsString
  name : String
  parameters : Record String String
  returnType : String
  namespaceName : String
  operation : String
  message : Message
  /-- The type that the reply is deserialized as. -/
  response : Option String

def hostMessage (operation : OperationDefinition) : Message :=
  if operation.parameters.length = 0 then .empty
  else if unary : operation.isUnary then .single (operation.unaryOp unary).name.value
  else .record (argsName operation)
    (operation.parameters.map fun param => fieldName param.name.value)

def hostStub (context : Context) (operation : OperationDefinition) : HostStub where
  comment := formatComment (ascii "  /// ") operation.description defaultWrapLength
  name := functionName operation.name.value
  parameters := operation.parameters.map fun param =>
    (fieldName param.name.value, expandType none false true param.type)
  returnType := if isVoid operation.type then "()" else expandType none false true operation.type
  namespaceName := context.namespaceName.value
  operation := operation.name.value
  message := hostMessage operation
  response := if isVoid operation.type then none
    else some (expandType none (isReference operation.annotations) true operation.type)

def HostVisitor.visitOperation (context : Context) (operation : OperationDefinition) :
    Option HostStub :=
  if shouldIncludeHostCall context then some (hostStub context operation) else none

/-! ### The handlers visitor and the wrapper visitor -/

/-- The types of the parameters of a handler. -/
def paramTypes (operation : OperationDefinition) : List String :=
  operation.parameters.map fun param =>
    expandType none (isReference param.annotations) true param.type

def returnType (operation : OperationDefinition) : String :=
  if isVoid operation.type then "()"
  else expandType none (isReference operation.annotations) true operation.type

/-- A generated function that registers a handler. -/
structure Registration where
  comment : JsString
  name : String
  parameterTypes : List String
  returnType : String
  /-- The static that keeps the handler. -/
  slot : String
  operation : String
  wrapper : String

def registration (operation : OperationDefinition) : Registration where
  comment := formatComment (ascii "    /// ") operation.description defaultWrapLength
  name := "register_" ++ functionName operation.name.value
  parameterTypes := paramTypes operation
  returnType := returnType operation
  slot := (functionName operation.name.value).toUpper
  operation := operation.name.value
  wrapper := functionName operation.name.value ++ "_wrapper"

def HandlersVisitor.visitOperation (context : Context) (operation : OperationDefinition) :
    Option Registration :=
  if shouldIncludeHandler context then some (registration operation) else none

/-- The type of a message: an expanded type, or a struct for arguments. -/
inductive MessageType where
  | expanded (type : String)
  | args (struct : String)
deriving DecidableEq

def MessageType.text : MessageType → String
  | expanded type => type
  | args struct => struct

/-- An argument that a wrapper passes: its input, or a field of it. -/
inductive Access where
  | input
  | field (name : String)
deriving DecidableEq

def varAccessArg (args : List ParameterDefinition) : List Access :=
  args.map fun arg => .field (snakeCase arg.name.value)

/-- A generated wrapper of a handler. -/
structure Wrapper where
  name : String
  inputType : MessageType
  /-- The static that the handler is read from. -/
  slot : String
  inputArgs : List Access

def wrapper (operation : OperationDefinition) : Wrapper where
  name := functionName operation.name.value ++ "_wrapper"
  inputType :=
    if unary : operation.isUnary then
      .expanded (expandType none (isReference operation.annotations) false
        (operation.unaryOp unary).type)
    else .args (argsName operation)
  slot := (functionName operation.name.value).toUpper
  inputArgs := if operation.isUnary then [.input] else varAccessArg operation.parameters

def WrapperFuncsVisitor.visitOperation (context : Context) (operation : OperationDefinition) :
    Option Wrapper :=
  if shouldIncludeHandler context then some (wrapper operation) else none

/-! ### The struct for the arguments -/

def convertOperationToType (operation : OperationDefinition) : TypeDefinition where
  name := argsName operation
  description := .undefined
  fields := operation.parameters.map fun param =>
    ⟨param.name, param.description, param.type, param.annotations⟩

/-- The callback `arguments`, which follows every operation. -/
def argumentsCallback (operation : OperationDefinition) : Option Struct :=
  if operation.parameters.length = 0 || operation.isUnary then none
  else some (visitType (convertOperationToType operation))

/-! ### Calls of generated code -/

/-- The contents of a message. -/
inductive Payload (α : Type) where
  | empty
  | value (value : α)
  | record (fields : Record String α)

/-- What a stub sends for the arguments of a call. -/
def HostStub.sends {α : Type} (stub : HostStub) (arguments : List α) : Option (Payload α) :=
  let scope : Record String α := (stub.parameters.map Prod.fst).zip arguments
  match stub.message with
  | .empty => some .empty
  | .single name => (scope.lookup name).map .value
  | .record _ fields => (scope.project fields).map fun values => .record (fields.zip values)

/-- The type that the stub's message is serialized from. -/
def HostStub.messageType (stub : HostStub) : Option MessageType :=
  match stub.message with
  | .empty => none
  | .single name => (stub.parameters.lookup name).map .expanded
  | .record struct _ => some (.args struct)

def Access.value {α : Type} (payload : Payload α) : Access → Option α
  | input => match payload with
    | .value value => some value
    | _ => none
  | field name => match payload with
    | .record fields => fields.lookup name
    | _ => none

/-- The arguments that a wrapper passes to the handler. -/
def Wrapper.passes {α : Type} (wrapper : Wrapper) (payload : Payload α) : Option (List α) :=
  wrapper.inputArgs.mapM (Access.value payload)

/-- The names and types of a struct's fields. -/
def Struct.types (struct : Struct) : Record String String :=
  struct.fields.map fun field => (field.name, field.type)

def Access.type (inputType : MessageType) (emitted : Option Struct) : Access → Option String
  | input => some inputType.text
  | field name => emitted.bind fun struct => struct.types.lookup name

/-- The types of the arguments that a wrapper passes. -/
def Wrapper.argumentTypes (wrapper : Wrapper) (emitted : Option Struct) : Option (List String) :=
  wrapper.inputArgs.mapM (Access.type wrapper.inputType emitted)

/-- A stub, the wrapper and the registration of its operation, and the struct that is emitted
for it, agree. -/
structure Agreement (stub : HostStub) (wrapper : Wrapper) (registration : Registration)
    (emitted : Option Struct) : Prop where
  /-- The message is serialized from the type that it is deserialized as. -/
  encoded : stub.messageType = some wrapper.inputType
  /-- The struct that the stub builds is emitted with the types of the variables. -/
  built : ∀ name fields, stub.message = .record name fields → ∃ struct, emitted = some struct ∧
    struct.name = name ∧ struct.types.map Prod.fst = fields ∧
      stub.parameters.project fields = some (struct.types.map Prod.snd)
  /-- The struct that the wrapper reads is emitted. -/
  read : ∀ name, wrapper.inputType = .args name →
    ∃ struct, emitted = some struct ∧ struct.name = name
  declared : ∀ name ∈ stub.message.variables, name ∈ stub.parameters.map Prod.fst
  /-- The handler gets the arguments of the call, in the order of their declaration. -/
  delivered : ∀ (α : Type) (arguments : List α), arguments.length = stub.parameters.length →
    (stub.sends arguments).bind wrapper.passes = some arguments
  typed : wrapper.argumentTypes emitted = some registration.parameterTypes

/-- The generated code of an operation agrees wherever it is generated. -/
def Agrees (operation : OperationDefinition) : Prop :=
  ∀ hostContext handlerContext stub wrapper registration,
    HostVisitor.visitOperation hostContext operation = some stub →
    WrapperFuncsVisitor.visitOperation handlerContext operation = some wrapper →
    HandlersVisitor.visitOperation handlerContext operation = some registration →
    Agreement stub wrapper registration (argumentsCallback operation)

/-- The names of the fields that the parameters of an operation get. -/
def fieldNames (operation : OperationDefinition) : List String :=
  operation.parameters.map fun param => fieldName param.name.value

/-- The operations whose generated code agrees. A unary operation is generated under the name
of its parameter as it stands, and its wrapper takes the references from the operation and
drops an option; any other operation needs a parameter and one field name for each. -/
def OperationDefinition.Compatible (operation : OperationDefinition) : Prop :=
  if unary : operation.isUnary then
    let param := operation.unaryOp unary
    fieldName param.name.value = param.name.value ∧ ¬ param.type.IsOptional ∧
      (isReference operation.annotations ∨ isReference param.annotations → param.type.StringsOnly)
  else
    operation.parameters ≠ [] ∧ (fieldNames operation).Nodup ∧
      ∀ param ∈ operation.parameters, isReference param.annotations → param.type.StringsOnly

/-! ### Unary operations -/

section Unary

variable {operation : OperationDefinition} (context : Context)
  (unary : operation.isUnary = true)
include unary

theorem hostMessage_unary :
    hostMessage operation = .single (operation.unaryOp unary).name.value := by
  have one := operation.one_of_isUnary unary
  rw [hostMessage, if_neg (by omega), dif_pos unary]

theorem hostStub_parameters_unary : (hostStub context operation).parameters =
    [(fieldName (operation.unaryOp unary).name.value,
      expandType none false true (operation.unaryOp unary).type)] := by
  rw [hostStub, operation.parameters_eq unary]
  rfl

theorem wrapper_inputType_unary : (wrapper operation).inputType = .expanded
    (expandType none (isReference operation.annotations) false (operation.unaryOp unary).type) :=
  dif_pos unary

theorem wrapper_inputArgs_unary : (wrapper operation).inputArgs = [.input] := if_pos unary

theorem hostStub_messageType_unary
    (named : fieldName (operation.unaryOp unary).name.value =
      (operation.unaryOp unary).name.value) :
    (hostStub context operation).messageType =
      some (.expanded (expandType none false true (operation.unaryOp unary).type)) := by
  have message : (hostStub context operation).message = _ := hostMessage_unary unary
  rw [HostStub.messageType, message, hostStub_parameters_unary context unary, named]
  simp

theorem wrapper_argumentTypes_unary (emitted : Option Struct) :
    (wrapper operation).argumentTypes emitted = some [expandType none
      (isReference operation.annotations) false (operation.unaryOp unary).type] := by
  rw [Wrapper.argumentTypes, wrapper_inputArgs_unary unary, wrapper_inputType_unary unary]
  rfl

theorem registration_parameterTypes_unary : (registration operation).parameterTypes =
    [expandType none (isReference (operation.unaryOp unary).annotations) true
      (operation.unaryOp unary).type] := by
  rw [registration, paramTypes, operation.parameters_eq unary]
  rfl

/-- A unary operation agrees if its parameter is found under its name and has one type. -/
theorem agreement_unary_iff :
    Agreement (hostStub context operation) (wrapper operation) (registration operation)
      (argumentsCallback operation) ↔ operation.Compatible := by
  have message : (hostStub context operation).message = _ := hostMessage_unary unary
  have parameters := hostStub_parameters_unary context unary
  have argumentTypes := wrapper_argumentTypes_unary unary (argumentsCallback operation)
  have parameterTypes := registration_parameterTypes_unary unary
  have inputType := wrapper_inputType_unary unary
  rw [OperationDefinition.Compatible, dif_pos unary]
  constructor
  · intro agreement
    have named : fieldName (operation.unaryOp unary).name.value =
        (operation.unaryOp unary).name.value := by
      have declared := agreement.declared (operation.unaryOp unary).name.value
        (by rw [message]; exact List.mem_singleton_self _)
      rw [parameters] at declared
      exact (List.mem_singleton.mp declared).symm
    have encoded := agreement.encoded
    rw [hostStub_messageType_unary context unary named, inputType, Option.some_inj,
      MessageType.expanded.injEq] at encoded
    have typed := agreement.typed
    rw [argumentTypes, parameterTypes, Option.some_inj, List.singleton_inj] at typed
    obtain ⟨plain, operationStrings⟩ := (WidlType.expandType_useOptional_iff _ _).mp encoded.symm
    have parameterStrings :=
      (WidlType.expandType_reference_iff _ _).mp (typed.symm.trans encoded.symm)
    exact ⟨named, plain, fun reference => reference.elim operationStrings parameterStrings⟩
  · rintro ⟨named, plain, strings⟩
    have encoded := (WidlType.expandType_useOptional_iff _ _).mpr ⟨plain, strings ∘ .inl⟩
    have typed := (WidlType.expandType_reference_iff _ _).mpr (strings ∘ .inr)
    refine ⟨?_, ?_, ?_, ?_, ?_, ?_⟩
    · rw [hostStub_messageType_unary context unary named, inputType, encoded]
    · intro name fields built
      rw [message] at built
      cases built
    · intro name read
      rw [inputType] at read
      cases read
    · rw [message, parameters, named]
      intro name
      exact id
    · intro α arguments full
      rw [parameters] at full
      obtain ⟨argument, rfl⟩ := List.length_eq_one_iff.mp full
      have sent : (hostStub context operation).sends [argument] = some (.value argument) := by
        rw [HostStub.sends, message, parameters, named]
        simp
      rw [sent, Option.bind_some, Wrapper.passes, wrapper_inputArgs_unary unary]
      rfl
    · rw [argumentTypes, parameterTypes, encoded, typed]

end Unary

/-! ### Operations with a struct for their arguments -/

section Args

variable {operation : OperationDefinition} (context : Context)
  (args : operation.isUnary = false)

theorem hostStub_names :
    (hostStub context operation).parameters.map Prod.fst = fieldNames operation := by
  simp [hostStub, fieldNames, Function.comp_def]

theorem hostStub_parameters : (hostStub context operation).parameters =
    (fieldNames operation).zip
      (operation.parameters.map fun param => expandType none false true param.type) :=
  List.zip_map'.symm

theorem struct_types : (visitType (convertOperationToType operation)).types =
    (fieldNames operation).zip (paramTypes operation) := by
  rw [fieldNames, paramTypes, List.zip_map']
  simp [Struct.types, visitType, convertOperationToType, visitTypeField, Function.comp_def]

theorem struct_types_names :
    (visitType (convertOperationToType operation)).types.map Prod.fst = fieldNames operation := by
  rw [struct_types, List.map_fst_zip (by simp [fieldNames, paramTypes])]

theorem struct_types_types :
    (visitType (convertOperationToType operation)).types.map Prod.snd = paramTypes operation := by
  rw [struct_types, List.map_snd_zip (by simp [fieldNames, paramTypes])]

/-- The parameters of the stub have the types of the handler's. -/
theorem paramTypes_eq_iff :
    operation.parameters.map (fun param => expandType none false true param.type) =
      paramTypes operation ↔
      ∀ param ∈ operation.parameters, isReference param.annotations → param.type.StringsOnly := by
  rw [paramTypes, eq_comm, List.map_inj_left]
  simp only [WidlType.expandType_reference_iff]

/-- The names find the types that the stub declares. -/
theorem hostStub_project (nodup : (fieldNames operation).Nodup) :
    (hostStub context operation).parameters.project (fieldNames operation) =
      some (operation.parameters.map fun param => expandType none false true param.type) := by
  rw [hostStub_parameters]
  exact Record.project_zip nodup (by simp [fieldNames])

include args

theorem wrapper_inputType_args : (wrapper operation).inputType = .args (argsName operation) :=
  dif_neg (by simp [args])

theorem wrapper_inputArgs_args :
    (wrapper operation).inputArgs = (fieldNames operation).map .field := by
  simp [wrapper, args, varAccessArg, fieldNames, fieldName]

variable (nonempty : operation.parameters ≠ [])
include nonempty

theorem hostMessage_args :
    hostMessage operation = .record (argsName operation) (fieldNames operation) := by
  rw [hostMessage, if_neg (by simpa using nonempty), dif_neg (by simp [args])]
  rfl

theorem argumentsCallback_args : argumentsCallback operation =
    some (visitType (convertOperationToType operation)) := by
  simp [argumentsCallback, args, nonempty]

theorem hostStub_sends_args {α : Type} (arguments : List α) :
    (hostStub context operation).sends arguments =
      (Record.project ((fieldNames operation).zip arguments) (fieldNames operation)).map
        fun values => .record ((fieldNames operation).zip values) := by
  have message : (hostStub context operation).message = _ := hostMessage_args args nonempty
  rw [HostStub.sends, message, hostStub_names]

omit nonempty in
theorem wrapper_passes_args {α : Type} (fields : Record String α) :
    (wrapper operation).passes (.record fields) = fields.project (fieldNames operation) := by
  rw [Wrapper.passes, wrapper_inputArgs_args args, List.mapM_map]
  rfl

omit nonempty in
theorem wrapper_argumentTypes_args (struct : Struct) :
    (wrapper operation).argumentTypes (some struct) =
      struct.types.project (fieldNames operation) := by
  rw [Wrapper.argumentTypes, wrapper_inputArgs_args args, List.mapM_map]
  rfl

theorem agreement_args_iff :
    Agreement (hostStub context operation) (wrapper operation) (registration operation)
      (argumentsCallback operation) ↔ operation.Compatible := by
  have message : (hostStub context operation).message = _ := hostMessage_args args nonempty
  have inputType := wrapper_inputType_args args
  have emitted := argumentsCallback_args args nonempty
  rw [OperationDefinition.Compatible, dif_neg (by simp [args])]
  constructor
  · intro agreement
    have nodup : (fieldNames operation).Nodup := by
      have delivered := agreement.delivered Nat
        (List.range (hostStub context operation).parameters.length) List.length_range
      rw [hostStub_sends_args context args nonempty] at delivered
      obtain ⟨payload, sent, passed⟩ := Option.bind_eq_some_iff.mp delivered
      obtain ⟨values, -, rfl⟩ := Option.map_eq_some_iff.mp sent
      rw [wrapper_passes_args args] at passed
      exact Record.nodup_of_project passed List.nodup_range
    obtain ⟨struct, same, -, -, types⟩ := agreement.built _ _ message
    cases emitted.symm.trans same
    rw [hostStub_project context nodup, struct_types_types, Option.some_inj] at types
    exact ⟨nonempty, nodup, paramTypes_eq_iff.mp types⟩
  · rintro ⟨-, nodup, strings⟩
    refine ⟨?_, ?_, ?_, ?_, ?_, ?_⟩
    · rw [HostStub.messageType, message, inputType]
    · intro name fields built
      rw [message] at built
      cases built
      refine ⟨_, emitted, rfl, struct_types_names, ?_⟩
      rw [hostStub_project context nodup, struct_types_types, paramTypes_eq_iff.mpr strings]
    · intro name read
      rw [inputType] at read
      cases read
      exact ⟨_, emitted, rfl⟩
    · rw [message, hostStub_names]
      intro name
      exact id
    · intro α arguments full
      have length : arguments.length = (fieldNames operation).length := by
        rw [full, ← hostStub_names context, List.length_map]
      rw [hostStub_sends_args context args nonempty, Record.project_zip nodup length,
        Option.map_some, Option.bind_some, wrapper_passes_args args,
        Record.project_zip nodup length]
    · rw [emitted, wrapper_argumentTypes_args args, struct_types]
      exact Record.project_zip nodup (by simp [fieldNames, paramTypes])

end Args

/-- Without parameters the stub sends no bytes, and the struct that the wrapper reads is not
emitted. -/
theorem not_agreement_none {operation : OperationDefinition} (context : Context)
    (empty : operation.parameters = []) :
    ¬ Agreement (hostStub context operation) (wrapper operation) (registration operation)
      (argumentsCallback operation) := by
  intro agreement
  have message : (hostStub context operation).message = .empty := by
    simp [hostStub, hostMessage, empty]
  have encoded := agreement.encoded
  rw [HostStub.messageType, message] at encoded
  cases encoded

theorem agreement_iff (operation : OperationDefinition) (context : Context) :
    Agreement (hostStub context operation) (wrapper operation) (registration operation)
      (argumentsCallback operation) ↔ operation.Compatible := by
  cases unary : operation.isUnary with
  | true => exact agreement_unary_iff context unary
  | false =>
    by_cases empty : operation.parameters = []
    · refine iff_of_false (not_agreement_none context empty) ?_
      rw [OperationDefinition.Compatible, dif_neg (by simp [unary])]
      intro compatible
      exact compatible.1 empty
    · exact agreement_args_iff context unary empty

/-- The stub and the wrapper of an operation agree for the compatible operations only. -/
theorem agrees_iff (operation : OperationDefinition) : Agrees operation ↔ operation.Compatible := by
  constructor
  · intro agrees
    let context : Context := ⟨⟨none, none, false⟩, none, operation.name⟩
    rw [← agreement_iff operation context]
    exact agrees context context _ _ _ rfl rfl rfl
  · intro compatible hostContext handlerContext stub wrapper registration stubbed wrapped registered
    obtain ⟨-, stubbed⟩ := Option.ite_none_right_eq_some.mp stubbed
    obtain ⟨-, wrapped⟩ := Option.ite_none_right_eq_some.mp wrapped
    obtain ⟨-, registered⟩ := Option.ite_none_right_eq_some.mp registered
    rw [← Option.some.inj stubbed, ← Option.some.inj wrapped, ← Option.some.inj registered]
    exact (agreement_iff operation hostContext).mpr compatible

/-- An operation without parameters, as it is written `ping(): void`. -/
def ping : OperationDefinition where
  name := ⟨"ping", by decide⟩
  description := .undefined
  parameters := []
  type := .named ⟨"void", by decide⟩
  annotations := []
  isUnary := false
  one_of_isUnary := by simp

theorem ping_disagrees : ¬ Agrees ping := by
  intro agrees
  let context : Context := ⟨⟨none, none, false⟩, none, ping.name⟩
  exact not_agreement_none context rfl (agrees context context _ _ _ rfl rfl rfl)

end Wapc.Codegen
