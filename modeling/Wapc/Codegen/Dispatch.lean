import Mathlib.Data.Option.Basic
import Wapc.Codegen.Modules

/-!
# Dispatch in a scaffold

`wapc_init` of a scaffold registers a function for every handler: its static gets the function,
and the registry of the guest the wrapper that reads the static. A message that comes for an
operation finds its way back to the function over both names.
-/

namespace Wapc.Codegen

open Semantics

/-- What is kept of the registrations: the statics, and the wrappers under the operations. -/
structure Registered where
  statics : String → Option ScaffoldFunction
  registry : String → Option String

/-- The body of a `register_` function. -/
def Registration.run (registration : Registration) (f : ScaffoldFunction)
    (registered : Registered) : Registered where
  statics := Function.update registered.statics registration.slot (some f)
  registry := Function.update registered.registry registration.operation
    (some registration.wrapper)

section Scaffold

variable (names : ClassNames) (visits : List Visit)

/-- A call of `wapc_init`, whose names must be there. -/
def InitCall.run (registered : Registered) (call : InitCall) : Option Registered := do
  guard (call.className = names.handlers)
  let registration ← (registrations visits).find? (·.name = call.method)
  let f ← (scaffoldFunctions visits).find? (·.name = call.function)
  return registration.run f registered

def wapcInit : Option Registered :=
  (initCalls visits).foldlM (InitCall.run names visits) ⟨fun _ => none, fun _ => none⟩

/-- The function that a message for an operation gets to, and its arguments. -/
def dispatch {α : Type} (registered : Registered) (operation : String) (payload : Payload α) :
    Option (ScaffoldFunction × List α) := do
  let name ← registered.registry operation
  let wrapper ← (wrappers visits).find? (·.name = name)
  let arguments ← wrapper.passes payload
  let f ← registered.statics wrapper.slot
  return (f, arguments)

variable {names visits} {operation : OperationDefinition}

section Distinct

variable (distinct : (functionNames (handled visits)).Nodup) (member : operation ∈ handled visits)
include distinct member

end Distinct

/-- The operation `put(key: string, value: string): bool` of a handler. -/
def put : Visit where
  context := ⟨⟨none, none, false⟩, none, ⟨"store", by decide⟩⟩
  operation :=
    { name := ⟨"put", by decide⟩
      description := .undefined
      parameters :=
        [⟨⟨"key", by decide⟩, .undefined, .named ⟨"string", by decide⟩, []⟩,
          ⟨⟨"value", by decide⟩, .undefined, .named ⟨"string", by decide⟩, []⟩]
      type := .named ⟨"bool", by decide⟩
      annotations := []
      isUnary := false
      one_of_isUnary := by
        intro unary
        cases unary }

end Scaffold
end Wapc.Codegen
