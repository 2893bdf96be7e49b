import Mathlib.Algebra.Group.Nat.Defs
import Mathlib.Logic.Function.Basic
import Wapc.Semantics.Outcome

/-!
# The call states of one module

`ModuleState` is the handle the host and the engine share during a waPC
conversation: a map from call ids to `CallState`s and a wrapping counter that
numbers guest invocations and host calls alike. Every operation takes the lock
of the map once, so it is one function here. The oneshot channels are the part
of the async runtime these operations can see: which were opened, what was sent
on each, and which senders were dropped unused.
-/

namespace Wapc

open Semantics

/-- Rust's `i32`: the sign is in how a value is read, not in how it is stored. -/
abbrev I32 := BitVec 32

/-- `Vec<u8>` and `&[u8]`. -/
abbrev Bytes := List UInt8

/-- The bytes of a `String`. -/
def asBytes (text : String) : Bytes := text.toByteArray.data.toList

/-- `String::from_utf8` and `str::from_utf8`; `none` is their error. -/
def fromUtf8 (bytes : Bytes) : Option String := String.fromUTF8? ⟨⟨bytes⟩⟩

/-- Decoding the bytes of a string gives the string back. -/
@[simp] theorem fromUtf8_asBytes (text : String) : fromUtf8 (asBytes text) = some text := by
  have valid : ByteArray.IsValidUTF8 ⟨⟨asBytes text⟩⟩ := text.isValidUTF8
  unfold fromUtf8 String.fromUTF8?
  rw [dif_pos valid]
  rfl

/-- Only the bytes of a string decode to it. -/
theorem eq_asBytes_of_fromUtf8 {bytes : Bytes} {text : String}
    (decoded : fromUtf8 bytes = some text) : bytes = asBytes text := by
  unfold fromUtf8 String.fromUTF8? at decoded
  split at decoded
  · cases decoded
    rfl
  · cases decoded

@[simp] theorem asBytes_append (first second : String) :
    asBytes (first ++ second) = asBytes first ++ asBytes second := by
  simp [asBytes, String.toByteArray_append]

namespace Host

/-- What a host callback returns; an error is kept as its displayed text. -/
abbrev HostResult := Except String Bytes

/-- An operation name and its payload. -/
structure Invocation where
  operation : String
  msg : Bytes
deriving DecidableEq, Repr

/-- A oneshot channel, named by the order in which it was opened. -/
abbrev Oneshot := Nat

/-- Everything recorded under one call id. Only guest invocations have a request
and a channel; host calls start from the default. -/
structure CallState where
  guestRequest : Option Invocation := none
  guestResponse : Option Bytes := none
  hostResponse : Option Bytes := none
  guestError : Option String := none
  hostError : Option String := none
  channel : Option Oneshot := none
deriving DecidableEq, Repr

/-- How an async invocation ended. -/
inductive CallStatus where
  | complete (state : CallState)
  | error (state : CallState)
deriving DecidableEq, Repr

/-- The oneshot channels opened so far. -/
structure Oneshots where
  opened : Nat := 0
  delivered : Oneshot → List CallStatus := fun _ => []
  dropped : Oneshot → Bool := fun _ => false

namespace Oneshots

/-- `oneshot::channel()`. -/
def channel (oneshots : Oneshots) : Oneshot × Oneshots :=
  (oneshots.opened, { oneshots with opened := oneshots.opened + 1 })

/-- `Sender::send`, which consumes the sender. -/
def send (oneshots : Oneshots) (tx : Oneshot) (status : CallStatus) : Oneshots :=
  { oneshots with
    delivered := Function.update oneshots.delivered tx (oneshots.delivered tx ++ [status]) }

/-- Drop a value that may hold a sender. -/
def dropSender (oneshots : Oneshots) : Option Oneshot → Oneshots
  | some tx => { oneshots with dropped := Function.update oneshots.dropped tx true }
  | none => oneshots

@[simp] theorem dropSender_opened (oneshots : Oneshots) (held : Option Oneshot) :
    (oneshots.dropSender held).opened = oneshots.opened := by
  cases held <;> rfl

@[simp] theorem dropSender_delivered (oneshots : Oneshots) (held : Option Oneshot) :
    (oneshots.dropSender held).delivered = oneshots.delivered := by
  cases held <;> rfl

theorem dropSender_dropped_other (oneshots : Oneshots) {held : Option Oneshot} {tx : Oneshot}
    (different : held ≠ some tx) : (oneshots.dropSender held).dropped tx = oneshots.dropped tx := by
  cases held with
  | none => rfl
  | some other =>
    have apart : tx ≠ other := fun same => different (congrArg some same.symm)
    simp [dropSender, apart]

@[simp] theorem send_opened (oneshots : Oneshots) (tx : Oneshot) (status : CallStatus) :
    (oneshots.send tx status).opened = oneshots.opened := rfl

@[simp] theorem send_dropped (oneshots : Oneshots) (tx : Oneshot) (status : CallStatus) :
    (oneshots.send tx status).dropped = oneshots.dropped := rfl

@[simp] theorem send_delivered_self (oneshots : Oneshots) (tx : Oneshot) (status : CallStatus) :
    (oneshots.send tx status).delivered tx = oneshots.delivered tx ++ [status] := by
  simp [send]

theorem send_delivered_other (oneshots : Oneshots) {tx other : Oneshot} (status : CallStatus)
    (different : other ≠ tx) :
    (oneshots.send tx status).delivered other = oneshots.delivered other := by
  simp [send, different]

end Oneshots

/-- The state shared by the host, the engine and the callback tasks of one
module. The two callbacks are fixed when it is created; what they return enters
the operations below as an argument. -/
structure ModuleState where
  calls : I32 → Option CallState
  callIndex : I32
  id : Nat
  oneshots : Oneshots

namespace ModuleState

/-- `ModuleState::new`. -/
def new (id : Nat) : ModuleState where
  calls := fun _ => none
  callIndex := 1
  id := id
  oneshots := {}

/-- `HashMap::insert`; the entry it replaces is dropped with the sender in it. -/
def insertCall (state : ModuleState) (id : I32) (call : CallState) : ModuleState :=
  { state with
    calls := Function.update state.calls id (some call)
    oneshots := state.oneshots.dropSender ((state.calls id).bind (·.channel)) }

/-- `if let Some(c) = self.calls.lock().get_mut(&id) { change c }`. -/
def modifyCall (state : ModuleState) (id : I32) (change : CallState → CallState) : ModuleState :=
  match state.calls id with
  | some call => { state with calls := Function.update state.calls id (some (change call)) }
  | none => state

/-- `call_index.fetch_add(1)`, which wraps. -/
def fetchAdd (state : ModuleState) : I32 × ModuleState :=
  (state.callIndex, { state with callIndex := state.callIndex + 1 })

def initHostCall (state : ModuleState) (id : I32) : ModuleState :=
  state.insertCall id {}

/-- The new id, the receiver of the invocation's status, and the new state. -/
def newInvocation (state : ModuleState) (inv : Invocation) : I32 × Oneshot × ModuleState :=
  let (id, state) := state.fetchAdd
  let (tx, oneshots) := state.oneshots.channel
  let state := { state with oneshots := oneshots }
  (id, tx, state.insertCall id { guestRequest := some inv, channel := some tx })

def finishGuestInvocation (state : ModuleState) (id code : I32) : Outcome ModuleState :=
  match state.calls id with
  | some call =>
    let state := { state with calls := Function.update state.calls id none }
    -- A host call's entry has no channel: this is the failing `unwrap`.
    (Outcome.unwrap call.channel).bind fun tx =>
      let call := { call with channel := none }
      if code = 0 then
        .returned { state with oneshots := state.oneshots.send tx (.complete call) }
      else
        .returned { state with oneshots := state.oneshots.send tx (.error call) }
  | none => .returned state

def takeState (state : ModuleState) (id : I32) : Option CallState × ModuleState :=
  (state.calls id, { state with calls := Function.update state.calls id none })

def getGuestRequest (state : ModuleState) (id : I32) : Option Invocation :=
  (state.calls id).bind (·.guestRequest)

def getHostResponse (state : ModuleState) (id : I32) : Option Bytes :=
  (state.calls id).bind (·.hostResponse)

def setGuestError (state : ModuleState) (id : I32) (error : String) : ModuleState :=
  state.modifyCall id ({ · with guestError := some error })

def setGuestResponse (state : ModuleState) (id : I32) (response : Bytes) : ModuleState :=
  state.modifyCall id ({ · with guestResponse := some response })

def setGuestCallComplete (state : ModuleState) (id code : I32) (response : Bytes) :
    Outcome ModuleState :=
  (state.setGuestResponse id response).finishGuestInvocation id code

def getGuestResponse (state : ModuleState) (id : I32) : Option Bytes :=
  (state.calls id).bind (·.guestResponse)

def getHostError (state : ModuleState) (id : I32) : Option String :=
  (state.calls id).bind (·.hostError)

/-- `do_host_call` and `do_async_host_call` up to the point where the callback
runs: number the call and give it an entry. -/
def beginHostCall (state : ModuleState) : I32 × ModuleState :=
  let (id, state) := state.fetchAdd
  (id, state.initHostCall id)

/-- The rest of `do_host_call`, and the end of the task `do_async_host_call`
spawns: store what the callback gave and compute the return code. -/
def recordHostResult (state : ModuleState) (id : I32) : HostResult → I32 × ModuleState
  | .ok value => (id, state.modifyCall id ({ · with hostResponse := some value }))
  | .error text => (0, state.modifyCall id ({ · with hostError := some text }))

section Spec

variable (state : ModuleState) (id other : I32)

@[simp] theorem insertCall_calls (call : CallState) :
    (state.insertCall id call).calls other =
      if other = id then some call else state.calls other := by
  simp [insertCall, Function.update_apply]

@[simp] theorem insertCall_callIndex (call : CallState) :
    (state.insertCall id call).callIndex = state.callIndex := rfl

@[simp] theorem insertCall_oneshots (call : CallState) :
    (state.insertCall id call).oneshots =
      state.oneshots.dropSender ((state.calls id).bind (·.channel)) := rfl

@[simp] theorem modifyCall_calls (change : CallState → CallState) :
    (state.modifyCall id change).calls other =
      if other = id then (state.calls id).map change else state.calls other := by
  unfold modifyCall
  split <;> rename_i found
  · simp [Function.update_apply, found]
  · by_cases same : other = id
    · simp [same, found]
    · simp [same]

@[simp] theorem modifyCall_callIndex (change : CallState → CallState) :
    (state.modifyCall id change).callIndex = state.callIndex := by
  unfold modifyCall
  split <;> rfl

@[simp] theorem modifyCall_oneshots (change : CallState → CallState) :
    (state.modifyCall id change).oneshots = state.oneshots := by
  unfold modifyCall
  split <;> rfl

@[simp] theorem newInvocation_callIndex (inv : Invocation) :
    (state.newInvocation inv).2.2.callIndex = state.callIndex + 1 := rfl

@[simp] theorem beginHostCall_callIndex :
    state.beginHostCall.2.callIndex = state.callIndex + 1 := rfl

end Spec

/-- The status a finishing code sends. -/
def statusOf (code : I32) (call : CallState) : CallStatus :=
  if code = 0 then .complete call else .error call

/-- The return code of a host call: its id, or 0 when the callback failed. -/
def returnCode (id : I32) : HostResult → I32
  | .ok _ => id
  | .error _ => 0

/-- Store the callback's result in an entry. -/
def storeHostResult : HostResult → CallState → CallState
  | .ok value, call => { call with hostResponse := some value }
  | .error text, call => { call with hostError := some text }

theorem recordHostResult_eq (state : ModuleState) (id : I32) (result : HostResult) :
    state.recordHostResult id result =
      (returnCode id result, state.modifyCall id (storeHostResult result)) := by
  cases result <;> rfl

/-- The state after a guest invocation was finished: its entry is gone and its
sender was used. -/
def finished (state : ModuleState) (id code : I32) (call : CallState) (tx : Oneshot) :
    ModuleState :=
  { state with
    calls := Function.update state.calls id none
    oneshots := state.oneshots.send tx (statusOf code { call with channel := none }) }

theorem finish_absent {state : ModuleState} {id : I32} (code : I32)
    (absent : state.calls id = none) : state.finishGuestInvocation id code = .returned state := by
  simp [finishGuestInvocation, absent]

/-- Finishing the id of a host call hits the failing `unwrap`. -/
theorem finish_without_channel {state : ModuleState} {id : I32} {call : CallState} (code : I32)
    (present : state.calls id = some call) (hostCall : call.channel = none) :
    state.finishGuestInvocation id code = .panicked := by
  simp [finishGuestInvocation, present, hostCall]

theorem finish_with_channel {state : ModuleState} {id : I32} {call : CallState} {tx : Oneshot}
    (code : I32) (present : state.calls id = some call) (holds : call.channel = some tx) :
    state.finishGuestInvocation id code = .returned (state.finished id code call tx) := by
  unfold finishGuestInvocation finished statusOf
  rw [present]
  simp only [holds, Outcome.unwrap_some, Outcome.returned_bind]
  split <;> rfl

/-- Everything a returning finish can do. -/
theorem finish_cases {state next : ModuleState} {id code : I32}
    (finish : state.finishGuestInvocation id code = .returned next) :
    (state.calls id = none ∧ next = state) ∨
      ∃ call tx, state.calls id = some call ∧ call.channel = some tx ∧
        next = state.finished id code call tx := by
  cases present : state.calls id with
  | none =>
    rw [finish_absent code present] at finish
    cases finish
    exact .inl ⟨rfl, rfl⟩
  | some call =>
    cases holds : call.channel with
    | none =>
      rw [finish_without_channel code present holds] at finish
      cases finish
    | some tx =>
      rw [finish_with_channel code present holds] at finish
      cases finish
      exact .inr ⟨call, tx, rfl, holds, rfl⟩

/-- The id has an entry without a channel, as a host call has. -/
def HasHostCall (state : ModuleState) (id : I32) : Prop :=
  ∃ call, state.calls id = some call ∧ call.channel = none

/-- Finishing panics exactly on an entry without a channel. -/
theorem finish_panics_iff {state : ModuleState} {id code : I32} :
    state.finishGuestInvocation id code = .panicked ↔ state.HasHostCall id := by
  constructor
  · intro panics
    cases present : state.calls id with
    | none => rw [finish_absent code present] at panics; cases panics
    | some call =>
      cases holds : call.channel with
      | none => exact ⟨call, present, holds⟩
      | some tx => rw [finish_with_channel code present holds] at panics; cases panics
  · rintro ⟨call, present, hostCall⟩
    exact finish_without_channel code present hostCall

namespace HasHostCall

variable {state next : ModuleState} {id : I32}

theorem modifyCall (has : state.HasHostCall id) (other : I32) {change : CallState → CallState}
    (channel : ∀ call, (change call).channel = call.channel) :
    (state.modifyCall other change).HasHostCall id := by
  obtain ⟨call, present, hostCall⟩ := has
  by_cases same : id = other
  · subst same
    exact ⟨change call, by simp [present], (channel call).trans hostCall⟩
  · exact ⟨call, by simpa [same] using present, hostCall⟩

/-- A host call leaves such an entry, under its own id as well. -/
theorem beginHostCall (has : state.callIndex = id ∨ state.HasHostCall id) :
    state.beginHostCall.2.HasHostCall id := by
  by_cases same : id = state.callIndex
  · exact ⟨{}, by simp [ModuleState.beginHostCall, initHostCall, fetchAdd, same], rfl⟩
  · obtain ⟨call, present, hostCall⟩ := has.resolve_left (Ne.symm same)
    exact ⟨call, by simp [ModuleState.beginHostCall, initHostCall, fetchAdd, same, present],
      hostCall⟩

/-- Finishing the entry would panic, so another one was finished. -/
theorem finish (has : state.HasHostCall id) {other code : I32}
    (finish : state.finishGuestInvocation other code = .returned next) : next.HasHostCall id := by
  obtain ⟨call, present, hostCall⟩ := has
  rcases finish_cases finish with ⟨_, rfl⟩ | ⟨call', tx, present', holds, rfl⟩
  · exact ⟨call, present, hostCall⟩
  · have different : id ≠ other := by
      rintro rfl
      rw [present] at present'
      cases present'
      rw [hostCall] at holds
      cases holds
    exact ⟨call, by simpa [finished, different] using present, hostCall⟩

end HasHostCall

end ModuleState

/-- The binding, namespace, operation and payload of a host call. -/
structure HostRequest where
  binding : String
  namespace_ : String
  operation : String
  payload : Bytes
deriving DecidableEq, Repr

/-- A host callback with a state of its own; its first argument is the call id. -/
abbrev HostCallback (World : Type) := World → I32 → HostRequest → HostResult × World

/-- Run the configured callback, or report that there is none. -/
def runCallback {World : Type} (callback : Option (HostCallback World)) (world : World)
    (id : I32) (request : HostRequest) : HostResult × World :=
  match callback with
  | some f => f world id request
  | none => (.error "Missing host callback function!", world)

/-- `ModuleState::do_host_call`: the return code, the new state, the callback's
result and its new state. -/
def ModuleState.doHostCall {World : Type} (state : ModuleState)
    (callback : Option (HostCallback World)) (world : World) (request : HostRequest) :
    I32 × ModuleState × HostResult × World :=
  let (id, state) := state.beginHostCall
  let (result, world) := runCallback callback world id request
  let (code, state) := state.recordHostResult id result
  (code, state, result, world)

end Host
end Wapc
