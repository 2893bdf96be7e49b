import Wapc.Guest.HostCall
import Wapc.Host.Step
import Wapc.Semantics.Machine

/-!
# Asynchronous host calls

`async_host_call` of the SDK keeps the sender of a oneshot channel in
`ASYNC_HOST_CALLS` under the guest's own number of the call, and the host wakes
the call up under the number the host gave it. `AsyncSystem` puts the SDK of one
instance next to its call context, so a run interleaves the guest's calls and
polls with the callback tasks and the handler loop in every order.
-/

namespace Wapc.Guest

open Semantics Host

/-- The receiver of a call's oneshot channel. -/
inductive Receiver where
  | pending
  | code (code : I32)
  | closed
deriving DecidableEq, Repr

/-- The future of one `async_host_call`. -/
structure Future where
  index : I32
  callresult : I32
  recv : Receiver
  result : Option (Except ErrorKind Bytes)

/-- The SDK's state for asynchronous host calls; a sender is named by the position
of its future. -/
structure AsyncSdk where
  callNum : I32
  asyncHostCalls : I32 → Option Nat
  futures : List Future

namespace AsyncSdk

/-- Change the receiver a sender belongs to. -/
def send (sdk : AsyncSdk) (tx : Nat) (recv : Receiver) : AsyncSdk :=
  { sdk with futures := sdk.futures.modify tx ({ · with recv := recv }) }

/-- `HashMap::insert`: the sender it replaces is dropped, which closes its channel. -/
def insertCall (sdk : AsyncSdk) (index : I32) (tx : Nat) : AsyncSdk :=
  let replaced := match sdk.asyncHostCalls index with
    | some old => sdk.send old .closed
    | none => sdk
  { replaced with asyncHostCalls := Function.update sdk.asyncHostCalls index (some tx) }

/-- `async_host_call` around its import, which returned `callresult`. -/
def asyncHostCall (sdk : AsyncSdk) (callresult : I32) : AsyncSdk :=
  let index := sdk.callNum
  let sdk := { sdk with callNum := sdk.callNum + 1 }
  let sdk := sdk.insertCall index sdk.futures.length
  { sdk with futures := sdk.futures ++ [⟨index, callresult, .pending, none⟩] }

/-- `__host_call_response_ready`; the failing `unwrap` is `none`. -/
def hostCallResponseReady (sdk : AsyncSdk) (id code : I32) : Option AsyncSdk :=
  match sdk.asyncHostCalls id with
  | some tx =>
    let sdk := { sdk with asyncHostCalls := Function.update sdk.asyncHostCalls id none }
    some (sdk.send tx (.code code))
  | none => none

/-- Poll a future: a refused call returns the error's bytes as `Ok`, and the code
of an answered one is only printed. -/
def pollResult (module : ModuleState) (future : Future) : Option (Except ErrorKind Bytes) :=
  if future.callresult = 0 then
    some (.ok ((module.getHostError future.index).elim [] asBytes))
  else
    match future.recv with
    | .pending => none
    | .code _ => some (.ok ((module.getHostResponse future.index).getD []))
    | .closed => some (.error (.async future.index "channel closed"))

end AsyncSdk

/-- One instance and its call context. -/
structure AsyncSystem where
  ctx : Context
  sdk : AsyncSdk

/-- An event of the context, a call of `async_host_call`, or the poll of a future. -/
inductive AsyncEvent where
  | host (event : Event)
  | asyncHostCall (request : HostRequest)
  | poll (n : Nat)

namespace AsyncSystem

def new (id : Nat) : AsyncSystem := ⟨.new id, ⟨0, fun _ => none, []⟩⟩

/-- The guest makes an asynchronous host call. The host ignores the guest's number
of the call and returns its own. -/
def asyncHostCall (system : AsyncSystem) (request : HostRequest) : Option AsyncSystem :=
  (system.ctx.step (.guest (.asyncHostCall request))).map fun ctx =>
    { ctx := ctx, sdk := system.sdk.asyncHostCall system.ctx.module.callIndex }

/-- The handler loop enters `__host_call_response_ready`, which traps when it does
not find the call. -/
def notify (system : AsyncSystem) : Option AsyncSystem :=
  match system.ctx.handler with
  | .received id code =>
    (system.ctx.step .notify).bind fun ctx =>
      match system.sdk.hostCallResponseReady id code with
      | some sdk => some { ctx := ctx, sdk := sdk }
      | none => (ctx.step (.exit (.trapped
          "called `Option::unwrap()` on a `None` value"))).map ({ system with ctx := · })
  | _ => none

/-- The guest's executor polls a future that is not resolved yet. -/
def poll (system : AsyncSystem) (n : Nat) : Option AsyncSystem :=
  match system.ctx.frame, system.sdk.futures[n]? with
  | some { holder := _, hostCall := none }, some future =>
    if future.result.isSome then none
    else
      (AsyncSdk.pollResult system.ctx.module future).map fun result =>
        { system with sdk := { system.sdk with
          futures := system.sdk.futures.set n { future with result := some result } } }
  | _, _ => none

def step (system : AsyncSystem) : AsyncEvent → Option AsyncSystem
  | .asyncHostCall request => system.asyncHostCall request
  | .poll n => system.poll n
  | .host .notify => system.notify
  -- The guest makes its asynchronous host calls through the SDK only.
  | .host (.guest (.asyncHostCall _)) => none
  | .host event => (system.ctx.step event).map ({ system with ctx := · })

/-- The instance as a machine over its events. -/
def machine : Machine AsyncSystem AsyncEvent := ⟨step⟩

end AsyncSystem

/-- The imports `async_host_call` uses. -/
def asyncHostCallImports : List Extern :=
  [.asyncHostCall, .hostErrorLen, .hostError, .hostResponseLen, .hostResponse]

/-- A guest and the asynchronous host calls it makes, in order; one that makes any
has their imports. -/
structure AsyncHostCallGuest where
  imports : List Extern
  requests : List HostRequest
  declared : requests ≠ [] → ∀ callee ∈ asyncHostCallImports, callee ∈ imports

namespace AsyncHostCallGuest

variable (guest : AsyncHostCallGuest)

/-- The guest makes its calls in order; everything else may happen at any time. -/
def Admits (system : AsyncSystem) : AsyncEvent → Prop
  | .asyncHostCall request => guest.requests[system.sdk.futures.length]? = some request
  | _ => True

/-- A resolved future has the outcome of its own callback invocation. -/
def OwnOutcome (system : AsyncSystem) (future : Future) : Prop :=
  ∀ result, future.result = some result →
    ∃ returned, Observation.callback future.callresult returned ∈ system.ctx.log ∧
      result = sdkResult returned

/-- The call the handler loop is about to wake up is waiting. -/
def ReadyFindsCall (system : AsyncSystem) : Prop :=
  ∀ id code, system.ctx.handler = .received id code → (system.sdk.asyncHostCalls id).isSome

/-- Each call is made by an instance, and in every run of the instance it resolves
with its own outcome and every message finds its call. -/
def Contract (id : Nat) : Prop :=
  ∀ (n : Nat) (request : HostRequest), guest.requests[n]? = some request →
    Instantiates guest.imports ∧
      ∀ events final, AsyncSystem.machine.Steps guest.Admits (.new id) events final →
        (∀ future, final.sdk.futures[n]? = some future → OwnOutcome final future) ∧
          ReadyFindsCall final

variable {guest}

/-- A guest that makes asynchronous host calls is never instantiated. -/
theorem not_instantiates (calls : guest.requests ≠ []) : ¬ Instantiates guest.imports := by
  intro resolves
  have import' : Extern.asyncHostCall ∈ guest.imports :=
    guest.declared calls .asyncHostCall (List.mem_cons_self ..)
  exact ((Extern.resolve_isSome_iff .asyncHostCall).mp (resolves .asyncHostCall import')).2 rfl

end AsyncHostCallGuest

/-- Asynchronous host calls meet their contract exactly in guests that make none. -/
theorem async_host_calls_meet_contract_iff (guest : AsyncHostCallGuest) (id : Nat) :
    guest.Contract id ↔ guest.requests = [] := by
  constructor
  · intro contract
    by_contra calls
    obtain ⟨request, requests, split⟩ := List.exists_cons_of_ne_nil calls
    have instantiated := (contract 0 request (by rw [split]; rfl)).1
    exact AsyncHostCallGuest.not_instantiates calls instantiated
  · intro idle n request call
    rw [idle] at call
    cases call

/-- A guest that makes one asynchronous host call has an import that does not
resolve. -/
theorem async_host_call_does_not_link :
    ¬ ∀ guest : AsyncHostCallGuest, guest.Contract 0 := by
  intro contracts
  let guest : AsyncHostCallGuest :=
    ⟨asyncHostCallImports, [⟨"", "", "", []⟩], fun _ _ member => member⟩
  have unlinked : ¬ Instantiates guest.imports := by decide
  exact unlinked (contracts guest 0 _ rfl).1

section FirstAnswer

/-- Up to the guest's first chance to make a call. -/
def entering (inv : Invocation) : List AsyncEvent :=
  [.host (.start .async inv), .host .enter]

/-- The first call is answered before the guest makes another. -/
def answering (result : HostResult) : List AsyncEvent :=
  [.host (.exit (.returned 0)), .host (.taskRecord 0 result), .host (.taskSend 0), .host .receive]

/-- The host numbers the first call 2, after the invocation; the guest waits for it
under 0. -/
theorem run_first_answer (id : Nat) (inv : Invocation) (request : HostRequest)
    (result : HostResult) :
    ∃ entered called final code,
      AsyncSystem.machine.run (.new id) (entering inv) = some entered ∧
      entered.sdk.futures = [] ∧
      AsyncSystem.machine.step entered (.asyncHostCall request) = some called ∧
      AsyncSystem.machine.run called (answering result) = some final ∧
      final.ctx.handler = .received 2 code ∧ final.sdk.asyncHostCalls 2 = none := by
  cases result with
  | ok value => exact ⟨_, _, _, 2, rfl, rfl, rfl, rfl, rfl, rfl⟩
  | error text => exact ⟨_, _, _, 0, rfl, rfl, rfl, rfl, rfl, rfl⟩

/-- Even an instance would trap on the first answer, whatever the guest calls and
the callback returns. -/
theorem first_answer_finds_no_call {guest : AsyncHostCallGuest} (calls : guest.requests ≠ [])
    (id : Nat) (inv : Invocation) (result : HostResult) :
    ∃ request final, AsyncSystem.machine.Steps guest.Admits (.new id)
        (entering inv ++ [.asyncHostCall request] ++ answering result) final ∧
      ¬ AsyncHostCallGuest.ReadyFindsCall final := by
  obtain ⟨request, requests, split⟩ := List.exists_cons_of_ne_nil calls
  obtain ⟨entered, called, final, code, enters, fresh, makes, answers, received, absent⟩ :=
    run_first_answer id inv request result
  have admitted : guest.Admits entered (.asyncHostCall request) := by
    change guest.requests[entered.sdk.futures.length]? = some request
    rw [fresh, split]
    rfl
  have before : AsyncSystem.machine.Steps guest.Admits (.new id) (entering inv) entered :=
    .ofRun (by simp [entering, AsyncHostCallGuest.Admits]) enters
  have after : AsyncSystem.machine.Steps guest.Admits called (answering result) final :=
    .ofRun (by simp [answering, AsyncHostCallGuest.Admits]) answers
  refine ⟨request, final, (before.step admitted makes).trans after, ?_⟩
  intro found
  have present := found 2 code received
  rw [absent] at present
  cases present

end FirstAnswer

end Wapc.Guest
