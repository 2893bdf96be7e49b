import Wapc.Codegen.SnakeCase
import Wapc.Codegen.Scaffold

/-!
# Generated modules

The module visitor lets one visitor after the other walk over the document. Two of them keep a
flag in the configuration that they share, and write the head of a class before its first
method and its end after the last. What they write is a module whose scaffold registers a
function for each handler, and whose dispatch finds it again.
-/

namespace Wapc.Codegen

open Semantics Ascii

/-- An operation where the visitors meet it. -/
structure Visit where
  context : Context
  operation : OperationDefinition

/-! ### Writing -/

/-- A static for a handler. -/
structure Slot where
  name : String
  parameterTypes : List String
  returnType : String

def slot (operation : OperationDefinition) : Slot where
  name := (functionName operation.name.value).toUpper
  parameterTypes := paramTypes operation
  returnType := returnType operation

/-- The pieces of a generated module. -/
inductive Piece where
  | uses
  | hostClass (name : String)
  | method (stub : HostStub)
  | handlersClass (name : String)
  | register (registration : Registration)
  | classEnd
  | static (slot : Slot)
  | function (wrapper : Wrapper)
  | struct (struct : Struct)

/-- The flags that visitors keep in the configuration. -/
inductive Preamble where
  | host
  | handler
deriving DecidableEq

/-- The flags that are set, and what was written. -/
structure Output where
  config : Preamble → Bool
  pieces : List Piece

namespace Output

variable (output : Output) (preamble : Preamble) (opening : Piece)

def write (pieces : List Piece) : Output := { output with pieces := output.pieces ++ pieces }

@[simp] theorem write_config (pieces : List Piece) :
    (output.write pieces).config = output.config := rfl

/-- Write a method, and before the first one the head of its class. -/
def writeMethod (method : Option Piece) : Output :=
  match method with
  | none => output
  | some method =>
    if output.config preamble then output.write [method]
    else { output.write [opening, method] with
      config := Function.update output.config preamble true }

/-- End the class if it was begun. -/
def endClass : Output :=
  if output.config preamble then
    { output.write [.classEnd] with config := Function.update output.config preamble false }
  else output

/-- Write the methods of a class, and its end after the last of them. -/
def writeClass (methods : List (Option Piece)) : Output :=
  (methods.foldl (writeMethod · preamble opening) output).endClass preamble

end Output

/-- The names of the generated classes, where they are set. -/
structure ClassNames where
  hostClassName : Option String
  handlersClassName : Option String

/-- `name || otherwise`. -/
def orElse (name : Option String) (otherwise : String) : String :=
  if name.getD "" = "" then otherwise else name.getD ""

def ClassNames.host (names : ClassNames) : String := orElse names.hostClassName "Host"

def ClassNames.handlers (names : ClassNames) : String := orElse names.handlersClassName "Handlers"

section Visitors

variable (names : ClassNames) (visits : List Visit) (output : Output)

def HostVisitor.accept : Output :=
  output.writeClass .host (.hostClass names.host) <| visits.map fun visit =>
    (HostVisitor.visitOperation visit.context visit.operation).map .method

def HandlersVisitor.accept : Output :=
  output.writeClass .handler (.handlersClass names.handlers) <| visits.map fun visit =>
    (HandlersVisitor.visitOperation visit.context visit.operation).map .register

def WrapperVarsVisitor.visitOperation (context : Context) (operation : OperationDefinition) :
    Option Slot :=
  if shouldIncludeHandler context then some (slot operation) else none

/-- The statics; an end where the class of the handlers were not ended. -/
def WrapperVarsVisitor.accept : Output :=
  let output := output.write <| visits.filterMap fun visit =>
    (WrapperVarsVisitor.visitOperation visit.context visit.operation).map .static
  if output.config .handler then output.write [.classEnd] else output

def WrapperFuncsVisitor.accept : Output :=
  output.write <| visits.filterMap fun visit =>
    (WrapperFuncsVisitor.visitOperation visit.context visit.operation).map .function

/-- `ModuleVisitor`: the callbacks before all operations, in the order they were set, the
structs for arguments after each operation, and the types. -/
def ModuleVisitor.accept (types : List TypeDefinition) : Output :=
  let output := output.write [.uses]
  let output := HostVisitor.accept names visits output
  let output := HandlersVisitor.accept names visits output
  let output := WrapperVarsVisitor.accept visits output
  let output := WrapperFuncsVisitor.accept visits output
  let output := output.write <| visits.filterMap fun visit =>
    (argumentsCallback visit.operation).map .struct
  output.write (types.map fun type => .struct (visitType type))

end Visitors

/-! ### What is written -/

/-- A class with its methods, if it has any. -/
def classOf (opening : Piece) (methods : List Piece) : List Piece :=
  if methods = [] then [] else opening :: methods ++ [.classEnd]

section Written

variable {output : Output} {preamble : Preamble} (opening : Piece)

/-- From where the class was begun, methods are written as they are. -/
theorem foldl_writeMethod_begun (methods : List (Option Piece)) (begun : output.config preamble) :
    methods.foldl (Output.writeMethod · preamble opening) output =
      output.write (methods.filterMap id) := by
  induction methods generalizing output with
  | nil => simp [Output.write]
  | cons method methods ih =>
    cases method with
    | none => exact ih begun
    | some method =>
      have written : output.writeMethod preamble opening (some method) = output.write [method] :=
        if_pos begun
      have still : (output.write [method]).config preamble := begun
      rw [List.foldl_cons, written, ih still]
      simp [Output.write]

/-- The flag is back as it was, and the class was written as a whole. -/
theorem writeClass_eq (methods : List (Option Piece)) (closed : output.config preamble = false) :
    output.writeClass preamble opening methods =
      output.write (classOf opening (methods.filterMap id)) := by
  induction methods with
  | nil => simp [Output.writeClass, Output.endClass, closed, classOf, Output.write]
  | cons method methods ih =>
    cases method with
    | none => exact ih
    | some method =>
      let begun : Output := { output.write [opening, method] with
        config := Function.update output.config preamble true }
      have written : output.writeMethod preamble opening (some method) = begun :=
        if_neg (by simp [closed])
      have flag : begun.config preamble := Function.update_self ..
      have again : Function.update begun.config preamble false = output.config := by
        rw [Function.update_idem, ← closed, Function.update_eq_self]
      have whole : (methods.foldl (Output.writeMethod · preamble opening) begun).endClass preamble =
          ⟨output.config, output.pieces ++ opening :: method :: methods.filterMap id ++
            [.classEnd]⟩ := by
        rw [foldl_writeMethod_begun opening methods flag, Output.endClass,
          if_pos (by rw [Output.write_config, flag]), Output.write_config, again]
        simp [begun, Output.write]
      rw [Output.writeClass, List.foldl_cons, written, whole]
      simp [Output.write, classOf]

/-- The module that is written for a document. -/
def moduleOf (names : ClassNames) (visits : List Visit) (types : List TypeDefinition) :
    List Piece :=
  [.uses] ++
    classOf (.hostClass names.host) (visits.filterMap fun visit =>
      (HostVisitor.visitOperation visit.context visit.operation).map .method) ++
    classOf (.handlersClass names.handlers) (visits.filterMap fun visit =>
      (HandlersVisitor.visitOperation visit.context visit.operation).map .register) ++
    (visits.filterMap fun visit =>
      (WrapperVarsVisitor.visitOperation visit.context visit.operation).map .static) ++
    (visits.filterMap fun visit =>
      (WrapperFuncsVisitor.visitOperation visit.context visit.operation).map .function) ++
    (visits.filterMap fun visit => (argumentsCallback visit.operation).map .struct) ++
    types.map fun type => .struct (visitType type)

theorem HostVisitor.accept_eq (names : ClassNames) (visits : List Visit)
    (closed : output.config .host = false) : HostVisitor.accept names visits output =
      output.write (classOf (.hostClass names.host) (visits.filterMap fun visit =>
        (HostVisitor.visitOperation visit.context visit.operation).map .method)) := by
  rw [HostVisitor.accept, writeClass_eq _ _ closed, List.filterMap_map]
  rfl

theorem HandlersVisitor.accept_eq (names : ClassNames) (visits : List Visit)
    (closed : output.config .handler = false) : HandlersVisitor.accept names visits output =
      output.write (classOf (.handlersClass names.handlers) (visits.filterMap fun visit =>
        (HandlersVisitor.visitOperation visit.context visit.operation).map .register)) := by
  rw [HandlersVisitor.accept, writeClass_eq _ _ closed, List.filterMap_map]
  rfl

end Written

/-- The visitors leave no flag behind, and write each class once, from its head to its end,
or not at all if it has no method: the walks do not disturb each other. -/
theorem module_written (names : ClassNames) (visits : List Visit) (types : List TypeDefinition) :
    ModuleVisitor.accept names visits ⟨fun _ => false, []⟩ types =
      ⟨fun _ => false, moduleOf names visits types⟩ := by
  unfold ModuleVisitor.accept
  simp only []
  rw [HostVisitor.accept_eq names visits rfl, HandlersVisitor.accept_eq names visits rfl]
  simp [WrapperVarsVisitor.accept, WrapperFuncsVisitor.accept, Output.write, moduleOf]

/-! ### The items of a module -/

/-- A call of `wapc_init`, which registers a scaffold function. -/
structure InitCall where
  className : String
  method : String
  function : String

def initCall (operation : OperationDefinition) : InitCall where
  className := "Handlers"
  method := "register_" ++ functionName operation.name.value
  function := functionName operation.name.value

def HandlerRegistrationVisitor.visitOperation (context : Context)
    (operation : OperationDefinition) : Option InitCall :=
  if shouldIncludeHandler context then some (initCall operation) else none

section Items

variable (visits : List Visit)

/-- The operations with a host method. -/
def hosted : List OperationDefinition :=
  (visits.filter fun visit => shouldIncludeHostCall visit.context).map (·.operation)

/-- The operations with a handler. -/
def handled : List OperationDefinition :=
  (visits.filter fun visit => shouldIncludeHandler visit.context).map (·.operation)

def hostStubs : List HostStub :=
  visits.filterMap fun visit => HostVisitor.visitOperation visit.context visit.operation

def registrations : List Registration :=
  visits.filterMap fun visit => HandlersVisitor.visitOperation visit.context visit.operation

def slots : List Slot :=
  visits.filterMap fun visit => WrapperVarsVisitor.visitOperation visit.context visit.operation

def wrappers : List Wrapper :=
  visits.filterMap fun visit => WrapperFuncsVisitor.visitOperation visit.context visit.operation

def scaffoldFunctions : List ScaffoldFunction :=
  visits.filterMap fun visit => ScaffoldVisitor.visitOperation visit.context visit.operation

def initCalls : List InitCall :=
  visits.filterMap fun visit =>
    HandlerRegistrationVisitor.visitOperation visit.context visit.operation

/-- The functions and statics of the module; the first two come with the class of the host. -/
def valueItems : List String :=
  (if (hostStubs visits).isEmpty then [] else ["host", "default"]) ++
    ((slots visits).map (·.name) ++ (wrappers visits).map (·.name))

def scaffoldItems : List String := "wapc_init" :: (scaffoldFunctions visits).map (·.name)

/-- No two items have one name where they are declared. The `default` of the host's trait
implementation is declared apart from its methods and is not among them; a method `default`
does take its place in calls of `Host::default()`. -/
structure DistinctItems : Prop where
  methods : ((hostStubs visits).map (·.name)).Nodup
  registrations : ((registrations visits).map (·.name)).Nodup
  values : (valueItems visits).Nodup
  scaffold : (scaffoldItems visits).Nodup

/-- The names of the functions that are generated for some operations. -/
def functionNames (operations : List OperationDefinition) : List String :=
  operations.map fun operation => functionName operation.name.value

theorem filterMap_included {α : Type} (included : Context → Bool) (make : OperationDefinition → α) :
    (visits.filterMap fun visit =>
      if included visit.context then some (make visit.operation) else none) =
        ((visits.filter fun visit => included visit.context).map (·.operation)).map make := by
  induction visits with
  | nil => rfl
  | cons visit visits ih => by_cases kept : included visit.context <;> simp [kept, ih]

theorem registrations_eq : registrations visits = (handled visits).map registration :=
  filterMap_included visits shouldIncludeHandler registration

theorem wrappers_eq : wrappers visits = (handled visits).map wrapper :=
  filterMap_included visits shouldIncludeHandler wrapper

theorem scaffoldFunctions_eq :
    scaffoldFunctions visits = (handled visits).map scaffoldFunction :=
  filterMap_included visits shouldIncludeHandler scaffoldFunction

theorem hostStubs_names : (hostStubs visits).map (·.name) = functionNames (hosted visits) := by
  induction visits with
  | nil => rfl
  | cons visit visits ih =>
    by_cases kept : shouldIncludeHostCall visit.context <;>
      simp_all [hostStubs, HostVisitor.visitOperation, hosted, functionNames, hostStub]

theorem slots_names :
    (slots visits).map (·.name) = (functionNames (handled visits)).map String.toUpper := by
  have same : slots visits = (handled visits).map slot :=
    filterMap_included visits shouldIncludeHandler slot
  simp [same, functionNames, slot, Function.comp_def]

theorem wrappers_names :
    (wrappers visits).map (·.name) = (functionNames (handled visits)).map (· ++ "_wrapper") := by
  simp [wrappers_eq, functionNames, wrapper, Function.comp_def]

theorem scaffoldFunctions_names :
    (scaffoldFunctions visits).map (·.name) = functionNames (handled visits) := by
  simp [scaffoldFunctions_eq, functionNames, scaffoldFunction, Function.comp_def]

theorem registrations_names : (registrations visits).map (·.name) =
    (functionNames (handled visits)).map ("register_" ++ ·) := by
  simp [registrations_eq, functionNames, registration, Function.comp_def]

end Items

theorem append_right_injective (back : String) : Function.Injective (· ++ back) := by
  intro first second same
  rw [← String.toList_inj, String.toList_append, String.toList_append] at same
  exact String.toList_inj.mp (List.append_cancel_right same)

/-- A static has no small letter in its name. -/
theorem not_isLower_toUpper {name : String} : ∀ c ∈ name.toUpper.toList, c.isLower = false := by
  intro c member
  rw [String.toUpper, String.toList_map] at member
  obtain ⟨d, -, rfl⟩ := List.mem_map.mp member
  rw [Bool.eq_false_iff, ne_eq, isLower_iff, toNat_toUpper]
  split <;> omega

theorem slots_nodup_iff (operations : List OperationDefinition) :
    ((functionNames operations).map String.toUpper).Nodup ↔ (functionNames operations).Nodup := by
  refine ⟨fun nodup => nodup.of_map, fun nodup => nodup.map_on ?_⟩
  intro first member second member' same
  obtain ⟨operation, -, rfl⟩ := List.mem_map.mp member
  obtain ⟨operation', -, rfl⟩ := List.mem_map.mp member'
  exact toUpper_functionName_inj.mp same

/-- A text with a small letter is no static. -/
theorem not_mem_slots {names : List String} {name : String} {c : Char} (member : c ∈ name.toList)
    (small : c.isLower) : name ∉ names.map String.toUpper := by
  intro static
  obtain ⟨other, -, rfl⟩ := List.mem_map.mp static
  rw [not_isLower_toUpper c member] at small
  cases small

/-- A wrapper ends in a letter of its own, and in a small one. -/
theorem not_mem_wrappers {names : List String} {name : String}
    (last : name.toList.getLast? ≠ some 'r') : name ∉ names.map (· ++ "_wrapper") := by
  intro wrapped
  obtain ⟨other, -, rfl⟩ := List.mem_map.mp wrapped
  apply last
  have ends : "_wrapper".toList = ['_', 'w', 'r', 'a', 'p', 'p', 'e', 'r'] := by decide
  rw [String.toList_append, ends, List.getLast?_append]
  rfl

theorem values_nodup_iff (visits : List Visit) :
    (valueItems visits).Nodup ↔ (functionNames (handled visits)).Nodup := by
  rw [valueItems, slots_names, wrappers_names]
  set names := functionNames (handled visits) with names_eq
  constructor
  · intro nodup
    exact nodup.of_append_right.of_append_left.of_map
  · intro nodup
    have own : (names.map String.toUpper ++ names.map (· ++ "_wrapper")).Nodup := by
      refine .append ((slots_nodup_iff _).mpr nodup)
        (nodup.map (append_right_injective "_wrapper")) ?_
      intro name static wrapped
      obtain ⟨other, -, rfl⟩ := List.mem_map.mp wrapped
      exact not_mem_slots (c := 'r') (by simp) rfl static
    split
    · exact own
    · refine .append (by decide) own ?_
      intro name preamble declared
      rcases List.mem_append.mp declared with static | wrapped
      · refine not_mem_slots (c := 't') ?_ rfl static
        rcases List.mem_pair.mp preamble with rfl | rfl <;> decide
      · refine not_mem_wrappers ?_ wrapped
        rcases List.mem_pair.mp preamble with rfl | rfl <;> decide

/-- No item of the module and of its scaffold has the name of another exactly if all functions
have different names, and none has the name of the function that registers them. -/
theorem distinctItems_iff (visits : List Visit) : DistinctItems visits ↔
    (functionNames (hosted visits)).Nodup ∧ (functionNames (handled visits)).Nodup ∧
      "wapc_init" ∉ functionNames (handled visits) := by
  constructor
  · intro distinct
    have scaffold := distinct.scaffold
    rw [scaffoldItems, scaffoldFunctions_names, List.nodup_cons] at scaffold
    exact ⟨by rw [← hostStubs_names]; exact distinct.methods, scaffold.2, scaffold.1⟩
  · rintro ⟨methods, handlers, apart⟩
    refine ⟨by rwa [hostStubs_names], ?_, (values_nodup_iff visits).mpr handlers, ?_⟩
    · rw [registrations_names]
      exact handlers.map (append_left_injective "register_")
    · rw [scaffoldItems, scaffoldFunctions_names]
      exact List.nodup_cons.mpr ⟨apart, handlers⟩

end Wapc.Codegen
