import Wapc.Provider.Writes
import Wapc.Semantics.Sandbox

/-!
# The guest's side of the imports

The guest SDK declares the imports of the module `wapc` in an `extern` block. A
pointer, a `usize` and an `i32` are each one 32-bit parameter on wasm32. The name
and the type of an import are resolved together, and a guest is instantiated only
if all of its imports resolve.
-/

namespace Wapc.Guest

open Semantics Host Provider

/-- The functions of the `extern` block. -/
inductive Extern where
  | consoleLog
  | hostCall
  | asyncHostCall
  | hostResponse
  | hostResponseLen
  | hostError
  | hostErrorLen
  | guestResponse
  | guestError
  | guestRequest
  | guestCallResponseReady
deriving DecidableEq, Repr

namespace Extern

def name : Extern → String
  | .consoleLog => "__console_log"
  | .hostCall => "__host_call"
  | .asyncHostCall => "__async_host_call"
  | .hostResponse => "__host_response"
  | .hostResponseLen => "__host_response_len"
  | .hostError => "__host_error"
  | .hostErrorLen => "__host_error_len"
  | .guestResponse => "__guest_response"
  | .guestError => "__guest_error"
  | .guestRequest => "__guest_request"
  | .guestCallResponseReady => "__guest_call_response_ready"

/-- The declared type. Both kinds of host calls have the guest's number of the
call in front of the four regions. -/
def funcType : Extern → FuncType
  | .consoleLog => ⟨[.i32, .i32], []⟩
  | .hostCall => ⟨[.i32, .i32, .i32, .i32, .i32, .i32, .i32, .i32, .i32], [.i32]⟩
  | .asyncHostCall => ⟨[.i32, .i32, .i32, .i32, .i32, .i32, .i32, .i32, .i32], [.i32]⟩
  | .hostResponse => ⟨[.i32, .i32], []⟩
  | .hostResponseLen => ⟨[.i32], [.i32]⟩
  | .hostError => ⟨[.i32, .i32], []⟩
  | .hostErrorLen => ⟨[.i32], [.i32]⟩
  | .guestResponse => ⟨[.i32, .i32, .i32], []⟩
  | .guestError => ⟨[.i32, .i32, .i32], []⟩
  | .guestRequest => ⟨[.i32, .i32, .i32], []⟩
  | .guestCallResponseReady => ⟨[.i32, .i32], []⟩

/-- The host export the linker finds for an import. -/
def resolve (callee : Extern) : Option HostExports :=
  HostExports.all.find? fun found =>
    found.asRef = callee.name ∧ found.funcType = callee.funcType

/-- All imports resolve but those of the two kinds of host calls, whose types the
host and the guest declare differently. -/
theorem resolve_isSome_iff (callee : Extern) :
    callee.resolve.isSome ↔ callee ≠ .hostCall ∧ callee ≠ .asyncHostCall := by
  cases callee <;> decide

end Extern

/-- `linker.instantiate` accepts a module with these imports. -/
def Instantiates (imports : List Extern) : Prop := ∀ callee ∈ imports, callee.resolve.isSome

instance (imports : List Extern) : Decidable (Instantiates imports) :=
  inferInstanceAs (Decidable (∀ _ ∈ imports, _))

/-- A guest that answers calls and makes none can be instantiated. -/
example : Instantiates [.guestRequest, .guestResponse, .guestError] := by decide

/-- Where the imports of an instance lead. -/
abbrev Linkage (World : Type) := Extern → List I32 → Store World → ImportResult World

/-- The linkage of the wasmtime provider. An import that does not resolve is
never called, because the instance does not exist. -/
def linked {World : Type} (overflowChecks : Bool) (callback : Option (HostCallback World)) :
    Linkage World := fun callee params store =>
  match callee.resolve with
  | some found => found.guarded overflowChecks callback store params
  | none => .panicked

/-- An instance of a guest: its store, the SDK's `CALL_NUM`, and the arguments
its handlers were given, which only statements read. -/
structure Instance (World : Type) where
  store : Store World
  callNum : I32
  handled : List Bytes

/-- Code of the guest. -/
abbrev GuestCode (World α : Type) := Sandbox (Instance World) α

section Code

variable {World : Type}

/-- Call an import. -/
def invoke (linkage : Linkage World) (callee : Extern) (params : List I32) :
    GuestCode World (List I32) := fun guest =>
  match linkage callee params guest.store with
  | .returned (results, store) => (.returned results, { guest with store := store })
  | .trapped message => (.trapped message, guest)
  | .panicked => (.panicked, guest)

/-- Call an import that has one result. -/
def invokeI32 (linkage : Linkage World) (callee : Extern) (params : List I32) :
    GuestCode World I32 := do
  let results ← invoke linkage callee params
  return results.headD 0

/-- Read bytes of the guest's own memory. -/
def load (ptr : I32) (len : Nat) : GuestCode World Bytes := fun guest =>
  if guest.store.memory.Inside ptr len then
    (.returned (guest.store.memory.region ptr len), guest)
  else (.trapped "out of bounds memory access", guest)

/-- Put bytes into the guest's own memory. -/
def put (ptr : I32) (bytes : Bytes) : GuestCode World Unit := fun guest =>
  if guest.store.memory.Inside ptr bytes.length then
    (.returned (), { guest with
      store := { guest.store with memory := guest.store.memory.write ptr.toNat bytes } })
  else (.trapped "out of bounds memory access", guest)

variable {linkage : Linkage World} {callee : Extern} {params results : List I32}
  {guest : Instance World} {next : Store World}

theorem invoke_returned (called : linkage callee params guest.store = .returned (results, next)) :
    invoke linkage callee params guest = (.returned results, { guest with store := next }) := by
  rw [invoke, called]

theorem invokeI32_returned {value : I32}
    (called : linkage callee params guest.store = .returned ([value], next)) :
    invokeI32 linkage callee params guest = (.returned value, { guest with store := next }) := by
  unfold invokeI32
  rw [Sandbox.bind_returned (invoke_returned called)]
  rfl

theorem invoke_panicked (panics : linkage callee params guest.store = .panicked) :
    invoke linkage callee params guest = (.panicked, guest) := by
  rw [invoke, panics]

theorem load_inside {ptr : I32} {len : Nat} (inside : guest.store.memory.Inside ptr len) :
    load ptr len guest = (.returned (guest.store.memory.region ptr len), guest) := by
  rw [load, if_pos inside]

theorem put_inside {ptr : I32} {bytes : Bytes}
    (inside : guest.store.memory.Inside ptr bytes.length) :
    put ptr bytes guest = (.returned (), { guest with
      store := { guest.store with memory := guest.store.memory.write ptr.toNat bytes } }) := by
  rw [put, if_pos inside]

end Code

end Wapc.Guest
