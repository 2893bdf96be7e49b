import Wapc.Host.Step
import Wapc.Provider.Memory

/-!
# The imports of the wasmtime provider

One function for each import the provider defines in the module `wapc`. An import
gets its parameters by position, works on the guest's memory and the shared
module state, and returns its results; a failing `unwrap` or an index out of
range is a panic of the host. `call_runs_ops` says that whatever an import does
to the module state is a list of the operations that runs are made of.
-/

namespace Wapc.Provider

open Semantics Host

inductive ValType where
  | i32
deriving DecidableEq, Repr

/-- The parameters and results of a function. -/
structure FuncType where
  params : List ValType
  results : List ValType
deriving DecidableEq, Repr

/-- The functions the host exports to the guest. -/
inductive HostExports where
  | consoleLog
  | hostCall
  | asyncHostCall
  | guestRequest
  | hostResponse
  | hostResponseLen
  | guestResponse
  | guestError
  | hostError
  | hostErrorLen
  | guestResponseReady
deriving DecidableEq, Repr

namespace HostExports

def asRef : HostExports → String
  | .consoleLog => "__console_log"
  | .hostCall => "__host_call"
  | .asyncHostCall => "__async_host_call"
  | .guestRequest => "__guest_request"
  | .hostResponse => "__host_response"
  | .hostResponseLen => "__host_response_len"
  | .guestResponse => "__guest_response"
  | .guestError => "__guest_error"
  | .hostError => "__host_error"
  | .hostErrorLen => "__host_error_len"
  | .guestResponseReady => "__guest_call_response_ready"

/-- All of them, in the order of `HostExports::iter`. -/
def all : List HostExports :=
  [.consoleLog, .hostCall, .asyncHostCall, .guestRequest, .hostResponse, .hostResponseLen,
    .guestResponse, .guestError, .hostError, .hostErrorLen, .guestResponseReady]

/-- The type each `linker_` function declares. -/
def funcType : HostExports → FuncType
  | .consoleLog => ⟨[.i32, .i32], []⟩
  | .hostCall => ⟨[.i32, .i32, .i32, .i32, .i32, .i32, .i32, .i32], [.i32]⟩
  | .asyncHostCall => ⟨[.i32, .i32, .i32, .i32, .i32, .i32, .i32, .i32], [.i32]⟩
  | .guestRequest => ⟨[.i32, .i32, .i32], []⟩
  | .hostResponse => ⟨[.i32, .i32], []⟩
  | .hostResponseLen => ⟨[.i32], [.i32]⟩
  | .guestResponse => ⟨[.i32, .i32, .i32], []⟩
  | .guestError => ⟨[.i32, .i32, .i32], []⟩
  | .hostError => ⟨[.i32, .i32], []⟩
  | .hostErrorLen => ⟨[.i32], [.i32]⟩
  | .guestResponseReady => ⟨[.i32, .i32], []⟩

end HostExports

/-- What the imports of one instance work on: the shared module state, the
guest's memory, the lines printed, the tasks spawned for async host calls, and
the state of the synchronous callback. -/
structure Store (World : Type) where
  module : ModuleState
  memory : Memory
  console : List String
  spawned : List (I32 × HostRequest)
  world : World

section Imports

variable {World : Type} (overflowChecks : Bool) (callback : Option (HostCallback World))
  (store : Store World)

/-- The results of an import and the store after it. -/
abbrev ImportResult (World : Type) := Outcome (List I32 × Store World)

def linkerGuestRequest : List I32 → ImportResult World
  | [id, opPtr, ptr] =>
    match store.module.getGuestRequest id with
    | some inv =>
      let memory := writeBytesToMemory store.memory ptr inv.msg
      let memory := writeBytesToMemory memory opPtr (asBytes inv.operation)
      .returned ([], { store with memory := memory })
    | none => .returned ([], store)
  | _ => .panicked

def linkerConsoleLog : List I32 → ImportResult World
  | [ptr, len] =>
    (getVecFromMemory overflowChecks store.memory ptr len).bind fun vec =>
    (Outcome.unwrap (fromUtf8 vec)).bind fun msg =>
    .returned ([], { store with console := store.console ++ [msg] })
  | _ => .panicked

/-- The four regions of a host call: the payload first, then the three texts. -/
def decodeRequest (memory : Memory) (bdPtr bdLen nsPtr nsLen opPtr opLen ptr len : I32) :
    Outcome HostRequest :=
  (getVecFromMemory overflowChecks memory ptr len).bind fun vec =>
  (getVecFromMemory overflowChecks memory bdPtr bdLen).bind fun bdVec =>
  (Outcome.unwrap (fromUtf8 bdVec)).bind fun bd =>
  (getVecFromMemory overflowChecks memory nsPtr nsLen).bind fun nsVec =>
  (Outcome.unwrap (fromUtf8 nsVec)).bind fun ns =>
  (getVecFromMemory overflowChecks memory opPtr opLen).bind fun opVec =>
  (Outcome.unwrap (fromUtf8 opVec)).bind fun op =>
  .returned { binding := bd, namespace_ := ns, operation := op, payload := vec }

/-- Make the host call and return its code. -/
def makeHostCall (request : HostRequest) : List I32 × Store World :=
  let (code, module, _, world) := store.module.doHostCall callback store.world request
  ([code], { store with module := module, world := world })

def linkerHostCall : List I32 → ImportResult World
  | [bdPtr, bdLen, nsPtr, nsLen, opPtr, opLen, ptr, len] =>
    (decodeRequest overflowChecks store.memory bdPtr bdLen nsPtr nsLen opPtr opLen ptr len).bind
      fun request => .returned (makeHostCall callback store request)
  | _ => .panicked

/-- Number the call, spawn its task and return its id. -/
def spawnHostCall (request : HostRequest) : List I32 × Store World :=
  let (id, module) := store.module.beginHostCall
  ([id], { store with module := module, spawned := store.spawned ++ [(id, request)] })

def linkerAsyncHostCall : List I32 → ImportResult World
  | [bdPtr, bdLen, nsPtr, nsLen, opPtr, opLen, ptr, len] =>
    (decodeRequest overflowChecks store.memory bdPtr bdLen nsPtr nsLen opPtr opLen ptr len).bind
      fun request => .returned (spawnHostCall store request)
  | _ => .panicked

def linkerHostResponse : List I32 → ImportResult World
  | [id, ptr] =>
    match store.module.getHostResponse id with
    | some e => .returned ([], { store with memory := writeBytesToMemory store.memory ptr e })
    | none => .returned ([], store)
  | _ => .panicked

def linkerHostResponseLen : List I32 → ImportResult World
  | [id] =>
    .returned ([match store.module.getHostResponse id with
      | some r => BitVec.ofNat 32 r.length
      | none => 0], store)
  | _ => .panicked

def linkerGuestResponseReady : List I32 → ImportResult World
  | [id, code] =>
    (store.module.finishGuestInvocation id code).bind fun module =>
    .returned ([], { store with module := module })
  | _ => .panicked

def linkerGuestResponse : List I32 → ImportResult World
  | [id, ptr, len] =>
    (getVecFromMemory overflowChecks store.memory ptr len).bind fun vec =>
    .returned ([], { store with module := store.module.setGuestResponse id vec })
  | _ => .panicked

def linkerGuestError : List I32 → ImportResult World
  | [id, ptr, len] =>
    (getVecFromMemory overflowChecks store.memory ptr len).bind fun vec =>
    (Outcome.unwrap (fromUtf8 vec)).bind fun error =>
    .returned ([], { store with module := store.module.setGuestError id error })
  | _ => .panicked

def linkerHostError : List I32 → ImportResult World
  | [id, ptr] =>
    match store.module.getHostError id with
    | some e =>
      .returned ([], { store with memory := writeBytesToMemory store.memory ptr (asBytes e) })
    | none => .returned ([], store)
  | _ => .panicked

def linkerHostErrorLen : List I32 → ImportResult World
  | [id] =>
    .returned ([match store.module.getHostError id with
      | some e => BitVec.ofNat 32 (asBytes e).length
      | none => 0], store)
  | _ => .panicked

/-- `add_to_linker`: the function behind each export. -/
def HostExports.call (params : List I32) : HostExports → ImportResult World
  | .consoleLog => linkerConsoleLog overflowChecks store params
  | .hostCall => linkerHostCall overflowChecks callback store params
  | .asyncHostCall => linkerAsyncHostCall overflowChecks store params
  | .guestRequest => linkerGuestRequest store params
  | .hostResponse => linkerHostResponse store params
  | .hostResponseLen => linkerHostResponseLen store params
  | .guestResponse => linkerGuestResponse overflowChecks store params
  | .guestError => linkerGuestError overflowChecks store params
  | .hostError => linkerHostError store params
  | .hostErrorLen => linkerHostErrorLen store params
  | .guestResponseReady => linkerGuestResponseReady store params

variable {overflowChecks callback store}

/-- What an import does to the module state is a run of operations, and none of
them creates or takes back a guest invocation. -/
theorem HostExports.call_runs_ops {export' : HostExports} {params results : List I32}
    {next : Store World}
    (called : export'.call overflowChecks callback store params = .returned (results, next)) :
    ∃ ops, store.module.run ops = .returned next.module ∧
      ∀ op ∈ ops, (∀ inv, op ≠ .newInvocation inv) ∧ ∀ id, op ≠ .takeState id := by
  have untouched (same : next.module = store.module) : ∃ ops,
      store.module.run ops = .returned next.module ∧
      ∀ op ∈ ops, (∀ inv, op ≠ .newInvocation inv) ∧ ∀ id, op ≠ .takeState id :=
    ⟨[], by rw [same]; rfl, by simp⟩
  cases export' with
  | consoleLog =>
    simp only [call] at called
    unfold linkerConsoleLog at called
    split at called
    · obtain ⟨vec, _, rest⟩ := Outcome.bind_eq_returned.mp called
      obtain ⟨msg, _, returned⟩ := Outcome.bind_eq_returned.mp rest
      cases returned
      exact untouched rfl
    · cases called
  | hostCall =>
    simp only [call] at called
    unfold linkerHostCall at called
    split at called
    · obtain ⟨request, _, returned⟩ := Outcome.bind_eq_returned.mp called
      cases returned
      exact ⟨[.beginHostCall, .recordHostResult store.module.callIndex _], rfl, by simp⟩
    · cases called
  | asyncHostCall =>
    simp only [call] at called
    unfold linkerAsyncHostCall at called
    split at called
    · obtain ⟨request, _, returned⟩ := Outcome.bind_eq_returned.mp called
      cases returned
      exact ⟨[.beginHostCall], rfl, by simp⟩
    · cases called
  | guestResponse =>
    simp only [call] at called
    unfold linkerGuestResponse at called
    split at called
    · obtain ⟨vec, _, returned⟩ := Outcome.bind_eq_returned.mp called
      cases returned
      exact ⟨[.setGuestResponse _ vec], rfl, by simp⟩
    · cases called
  | guestError =>
    simp only [call] at called
    unfold linkerGuestError at called
    split at called
    · obtain ⟨vec, _, rest⟩ := Outcome.bind_eq_returned.mp called
      obtain ⟨error, _, returned⟩ := Outcome.bind_eq_returned.mp rest
      cases returned
      exact ⟨[.setGuestError _ error], rfl, by simp⟩
    · cases called
  | guestResponseReady =>
    simp only [call] at called
    unfold linkerGuestResponseReady at called
    split at called
    · obtain ⟨module, finished, returned⟩ := Outcome.bind_eq_returned.mp called
      cases returned
      exact ⟨[.finishGuestInvocation _ _], Outcome.bind_eq_returned.mpr ⟨module, finished, rfl⟩,
        by simp⟩
    · cases called
  | guestRequest =>
    simp only [call] at called
    unfold linkerGuestRequest at called
    split at called
    · split at called <;> cases called <;> exact untouched rfl
    · cases called
  | hostResponse =>
    simp only [call] at called
    unfold linkerHostResponse at called
    split at called
    · split at called <;> cases called <;> exact untouched rfl
    · cases called
  | hostError =>
    simp only [call] at called
    unfold linkerHostError at called
    split at called
    · split at called <;> cases called <;> exact untouched rfl
    · cases called
  | hostResponseLen =>
    simp only [call] at called
    unfold linkerHostResponseLen at called
    split at called <;> cases called
    exact untouched rfl
  | hostErrorLen =>
    simp only [call] at called
    unfold linkerHostErrorLen at called
    split at called <;> cases called
    exact untouched rfl

/-- Imports keep the shared map well formed. -/
theorem HostExports.call_wellFormed {export' : HostExports} {params results : List I32}
    {next : Store World} (wellFormed : store.module.WellFormed)
    (called : export'.call overflowChecks callback store params = .returned (results, next)) :
    next.module.WellFormed := by
  obtain ⟨ops, executed, _⟩ := call_runs_ops called
  exact wellFormed.run executed

end Imports

end Wapc.Provider
