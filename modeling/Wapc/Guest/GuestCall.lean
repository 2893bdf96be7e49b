import Wapc.Guest.Externs
import Wapc.Host.Context

/-!
# The round trip of a synchronous guest call

`WapcCallContext::call` hands an operation and a payload to a guest whose export
is the SDK's `__guest_call`, and gets the registered handler's answer back. All
three of request, response and error cross linear memory, so the round trip is
exact as long as the pointers survive the sign extension on the host's side. The
host writes the request before the guest looks for a handler.
-/

namespace Wapc.Guest

open Semantics Host Provider

/-- A registered function; its error is kept as its text. -/
abbrev Handler := Bytes → Except String Bytes

/-- `REGISTRY`. -/
abbrev Registry := Bytes → Option Handler

def registerFunction (registry : Registry) (name : String) (f : Handler) : Registry :=
  Function.update registry (asBytes name) (some f)

/-- The registry after these registrations, made in this order. -/
def registered (registrations : List (String × Handler)) : Registry :=
  registrations.foldl (fun registry entry => registerFunction registry entry.1 entry.2)
    fun _ => none

/-- The latest handler registered under these bytes. -/
def latest (registrations : List (String × Handler)) (op : Bytes) : Option Handler :=
  (registrations.reverse.find? fun entry => asBytes entry.1 = op).map (·.2)

theorem registered_append (registrations : List (String × Handler)) (name : String)
    (f : Handler) :
    registered (registrations ++ [(name, f)]) =
      registerFunction (registered registrations) name f := by
  simp [registered, List.foldl_append]

theorem latest_append (registrations : List (String × Handler)) (name : String) (f : Handler)
    (op : Bytes) :
    latest (registrations ++ [(name, f)]) op =
      if asBytes name = op then some f else latest registrations op := by
  unfold latest
  rw [List.reverse_append, List.reverse_singleton, List.singleton_append, List.find?_cons]
  by_cases same : asBytes name = op <;> simp [same]

theorem registered_eq_latest (registrations : List (String × Handler)) (op : Bytes) :
    registered registrations op = latest registrations op := by
  induction registrations using List.reverseRecOn with
  | nil => rfl
  | append_singleton registrations entry ih =>
    obtain ⟨name, f⟩ := entry
    rw [registered_append, latest_append, registerFunction, Function.update_apply, ih]
    exact if_congr eq_comm rfl rfl

/-- Where the guest's allocator puts the buffers of one call: the two that
receive the request, and the one that holds what is sent back. -/
structure Buffers where
  op : I32
  buf : I32
  out : Nat → I32

/-- What `__guest_call` sends to the host. -/
inductive Answer where
  | response (result : Bytes)
  | error (errmsg : Bytes)

namespace Answer

/-- The import the answer is sent through. -/
def callee : Answer → Extern
  | .response _ => .guestResponse
  | .error _ => .guestError

def bytes : Answer → Bytes
  | .response result => result
  | .error errmsg => errmsg

/-- The code `__guest_call` returns with it. -/
def code : Answer → I32
  | .response _ => 1
  | .error _ => 0

/-- The caller's result; an error must be text. -/
def result : Answer → Option CallResult
  | .response result => some (.ok result)
  | .error errmsg => (fromUtf8 errmsg).map fun text => .error (.guestCallFailure text)

/-- The host's state once it has received the answer; an error must be text. -/
def record (module : ModuleState) (index : I32) : Answer → Option ModuleState
  | .response result => some (module.setGuestResponse index result)
  | .error errmsg => (fromUtf8 errmsg).map (module.setGuestError index)

end Answer

/-- What the handler is given, and the answer. -/
def Registry.answer (registry : Registry) (opbuf buf : Bytes) : List Bytes × Answer :=
  match registry opbuf with
  | some handler =>
    match handler buf with
    | .ok result => ([buf], .response result)
    | .error errmsg => ([buf], .error (asBytes errmsg))
  | none => ([], .error (asBytes "No handler registered for function " ++ opbuf))

section Call

variable {World : Type} (linkage : Linkage World) (registry : Registry) (buffers : Buffers)

/-- Run the handler on its argument, which the instance remembers. -/
def handle (handler : Handler) (buf : Bytes) : GuestCode World (Except String Bytes) :=
  fun guest => (.returned (handler buf), { guest with handled := guest.handled ++ [buf] })

/-- Send bytes of the guest to the host by pointer and length. -/
def send (callee : Extern) (index : I32) (bytes : Bytes) : GuestCode World Unit := do
  put (buffers.out bytes.length) bytes
  let _ ← invoke linkage callee [index, buffers.out bytes.length, BitVec.ofNat 32 bytes.length]

/-- `__guest_call`. -/
def guestCall (index opLen reqLen : I32) : GuestCode World I32 := do
  let _ ← invoke linkage .guestRequest [index, buffers.op, buffers.buf]
  let buf ← load buffers.buf reqLen.toNat
  let opbuf ← load buffers.op opLen.toNat
  match registry opbuf with
  | some handler =>
    match ← handle handler buf with
    | .ok result =>
      send linkage buffers .guestResponse index result
      return 1
    | .error errmsg =>
      send linkage buffers .guestError index (asBytes errmsg)
      return 0
  | none =>
    send linkage buffers .guestError index
      (asBytes "No handler registered for function " ++ opbuf)
    return 0

/-- `WasmtimeCallContext::call`: a trap becomes a guest error and code 0. -/
def engineCall (id : I32) (guestCode : GuestCode World I32) : GuestCode World I32 := fun guest =>
  match guestCode guest with
  | (.returned result, guest) => (.returned result, guest)
  | (.trapped e, guest) => (.returned 0, { guest with
      store := { guest.store with module := guest.store.module.setGuestError id e } })
  | (.panicked, guest) => (.panicked, guest)

def newInvocation (inv : Invocation) : GuestCode World I32 := fun guest =>
  let (id, _, module) := guest.store.module.newInvocation inv
  (.returned id, { guest with store := { guest.store with module := module } })

def takeState (id : I32) : GuestCode World CallState := fun guest =>
  let (state, module) := guest.store.module.takeState id
  (Outcome.unwrap state, { guest with store := { guest.store with module := module } })

/-- `WapcCallContext::call`. -/
def call (op : String) (payload : Bytes) : GuestCode World CallResult := do
  let index ← newInvocation { operation := op, msg := payload }
  let callresult ← engineCall index (guestCall linkage registry buffers index
    (BitVec.ofNat 32 (asBytes op).length) (BitVec.ofNat 32 payload.length))
  let state ← takeState index
  return syncResult callresult state

end Call

/-- A buffer of the guest: inside its memory, and no longer than `isize::MAX`. -/
def Buffer (memory : Memory) (ptr : I32) (len : Nat) : Prop :=
  memory.Inside ptr len ∧ len < 2 ^ 31

/-- The allocations of one call succeed. -/
structure Allocated (memory : Memory) (buffers : Buffers) (registry : Registry)
    (op payload : Bytes) : Prop where
  operation : Buffer memory buffers.op op.length
  request : Buffer memory buffers.buf payload.length
  apart : buffers.op.toNat + op.length ≤ buffers.buf.toNat ∨
    buffers.buf.toNat + payload.length ≤ buffers.op.toNat
  answer : Buffer memory (buffers.out (registry.answer op payload).2.bytes.length)
    (registry.answer op payload).2.bytes.length

/-- The host can write the request: what is not empty starts below `2 ^ 31`. -/
def RequestLow (buffers : Buffers) (op payload : Bytes) : Prop :=
  (op = [] ∨ buffers.op.toNat < 2 ^ 31) ∧ (payload = [] ∨ buffers.buf.toNat < 2 ^ 31)

/-- The host can read the answer: it ends below `2 ^ 31`. -/
def AnswerLow (buffers : Buffers) (answer : Bytes) : Prop :=
  (buffers.out answer.length).toNat + answer.length < 2 ^ 31

instance (buffers : Buffers) (op payload : Bytes) : Decidable (RequestLow buffers op payload) :=
  inferInstanceAs (Decidable (_ ∧ _))

instance (buffers : Buffers) (answer : Bytes) : Decidable (AnswerLow buffers answer) :=
  inferInstanceAs (Decidable (_ < _))

section Run

variable {World : Type} (overflowChecks : Bool) (callback : Option (HostCallback World))
  {registry : Registry} {buffers : Buffers} {guest : Instance World}

theorem toNat_length {bytes : Bytes} {memory : Memory} {ptr : I32}
    (buffer : Buffer memory ptr bytes.length) :
    (BitVec.ofNat 32 bytes.length).toNat = bytes.length := by
  rw [BitVec.toNat_ofNat]
  exact Nat.mod_eq_of_lt (Nat.lt_trans buffer.2 (by omega))

/-- The guest reads what its buffer holds. -/
theorem load_buffer {bytes : Bytes} {ptr : I32}
    (buffer : Buffer guest.store.memory ptr bytes.length)
    (holds : guest.store.memory.region ptr bytes.length = bytes) :
    load ptr (BitVec.ofNat 32 bytes.length).toNat guest = (.returned bytes, guest) := by
  rw [toNat_length buffer, load_inside buffer.1, holds]

/-- The instance after it has put an answer into its buffer. -/
def Instance.answering (guest : Instance World) (buffers : Buffers) (answer : Answer) :
    Instance World :=
  { guest with store := { guest.store with
      memory := guest.store.memory.write (buffers.out answer.bytes.length).toNat answer.bytes } }

/-- What the host does with an answer: it records it when it can read the buffer
and an error is text, and panics otherwise. -/
theorem invoke_answer (answer : Answer) (index : I32)
    (buffer : Buffer guest.store.memory (buffers.out answer.bytes.length) answer.bytes.length) :
    linked overflowChecks callback answer.callee
        [index, buffers.out answer.bytes.length, BitVec.ofNat 32 answer.bytes.length]
        (guest.answering buffers answer).store =
      if AnswerLow buffers answer.bytes then
        (Outcome.unwrap (answer.record guest.store.module index)).bind fun module =>
          .returned ([], { (guest.answering buffers answer).store with module := module })
      else .panicked := by
  have length := toNat_length buffer
  have readable : Readable (guest.answering buffers answer).store.memory
      (buffers.out answer.bytes.length) (BitVec.ofNat 32 answer.bytes.length) ↔
      AnswerLow buffers answer.bytes := by
    unfold Readable Memory.Inside
    rw [length]
    exact and_iff_right buffer.1
  have holds : (guest.answering buffers answer).store.memory.region
      (buffers.out answer.bytes.length) answer.bytes.length = answer.bytes :=
    guest.store.memory.cells.read_write _ answer.bytes
  have vec : getVecFromMemory overflowChecks (guest.answering buffers answer).store.memory
      (buffers.out answer.bytes.length) (BitVec.ofNat 32 answer.bytes.length) =
      if AnswerLow buffers answer.bytes then .returned answer.bytes else .panicked := by
    rw [getVecFromMemory_eq, length, holds]
    exact if_congr readable rfl rfl
  cases answer with
  | response result =>
    change (getVecFromMemory _ _ _ _).bind _ = _
    rw [vec]
    split <;> rfl
  | error errmsg =>
    change (getVecFromMemory _ _ _ _).bind _ = _
    rw [vec]
    split
    · change (Outcome.unwrap (fromUtf8 errmsg)).bind _ = (Outcome.unwrap (Option.map _ _)).bind _
      cases fromUtf8 errmsg <;> rfl
    · rfl

/-- An answer the host can read and record is sent. -/
theorem send_recorded {answer : Answer} {index : I32} {module : ModuleState}
    (buffer : Buffer guest.store.memory (buffers.out answer.bytes.length) answer.bytes.length)
    (low : AnswerLow buffers answer.bytes)
    (recorded : answer.record guest.store.module index = some module) :
    send (linked overflowChecks callback) buffers answer.callee index answer.bytes guest =
      (.returned (), { guest.answering buffers answer with
        store := { (guest.answering buffers answer).store with module := module } }) := by
  have invoked := invoke_answer overflowChecks callback answer index buffer
  rw [if_pos low, recorded, Outcome.unwrap_some, Outcome.returned_bind] at invoked
  unfold send
  rw [Sandbox.bind_returned (put_inside buffer.1)]
  exact Sandbox.bind_returned (invoke_returned invoked)

/-- On an answer it cannot read the host panics. -/
theorem send_lost {answer : Answer} {index : I32}
    (buffer : Buffer guest.store.memory (buffers.out answer.bytes.length) answer.bytes.length)
    (lost : ¬ AnswerLow buffers answer.bytes) :
    send (linked overflowChecks callback) buffers answer.callee index answer.bytes guest =
      (.panicked, guest.answering buffers answer) := by
  have invoked := invoke_answer overflowChecks callback answer index buffer
  rw [if_neg lost] at invoked
  unfold send
  rw [Sandbox.bind_returned (put_inside buffer.1)]
  exact Sandbox.bind_panicked (invoke_panicked invoked)

/-- The instance after the host has delivered a request. -/
def Instance.requested (guest : Instance World) (buffers : Buffers) (op payload : Bytes) :
    Instance World :=
  { guest with store := { guest.store with
      memory := (guest.store.memory.write buffers.buf.toNat payload).write buffers.op.toNat op } }

/-- What the host does when it is asked for a request: it delivers both parts, or
is lost. Whether a handler is registered plays no part in it. -/
theorem linked_guestRequest {op : String} {payload : Bytes} {index : I32}
    (found : guest.store.module.getGuestRequest index = some ⟨op, payload⟩)
    (allocated : Allocated guest.store.memory buffers registry (asBytes op) payload) :
    linked overflowChecks callback .guestRequest [index, buffers.op, buffers.buf] guest.store =
      if RequestLow buffers (asBytes op) payload then
        .returned ([], (guest.requested buffers (asBytes op) payload).store)
      else .panicked := by
  have deliveries : (DeliveringCall.guestRequest index buffers.op buffers.buf).deliveries
      guest.store.module = [(buffers.buf, payload), (buffers.op, asBytes op)] := by
    simp only [DeliveringCall.deliveries, found]
  have stays : (DeliveringCall.guestRequest index buffers.op buffers.buf).Stays guest.store ↔
      RequestLow buffers (asBytes op) payload := by
    unfold DeliveringCall.Stays
    rw [deliveries, List.forall_mem_cons, List.forall_mem_singleton,
      Memory.holds_iff allocated.request.1, Memory.holds_iff allocated.operation.1]
    exact and_comm
  have guarded := DeliveringCall.guarded_eq overflowChecks callback guest.store
    (.guestRequest index buffers.op buffers.buf)
  rw [deliveries] at guarded
  exact guarded.trans (if_congr stays rfl rfl)

/-- What the two buffers hold once the request was delivered. -/
theorem requested_regions {op payload : Bytes}
    (allocated : Allocated guest.store.memory buffers registry op payload) :
    (guest.requested buffers op payload).store.memory.region buffers.op op.length = op ∧
      (guest.requested buffers op payload).store.memory.region buffers.buf payload.length =
        payload := by
  have apart := allocated.apart
  refine ⟨Space.read_write _ _ _, ?_⟩
  have kept : (guest.requested buffers op payload).store.memory.region buffers.buf
      payload.length = (guest.store.memory.write buffers.buf.toNat payload).region buffers.buf
        payload.length :=
    Space.read_write_apart _ (by omega)
  rw [kept]
  exact Space.read_write _ _ _

/-- `__guest_call` sends the answer to the request. -/
theorem guestCall_answers {op : String} {payload : Bytes} {index : I32}
    (found : guest.store.module.getGuestRequest index = some ⟨op, payload⟩)
    (allocated : Allocated guest.store.memory buffers registry (asBytes op) payload)
    (low : RequestLow buffers (asBytes op) payload) :
    let answer := registry.answer (asBytes op) payload
    guestCall (linked overflowChecks callback) registry buffers index
        (BitVec.ofNat 32 (asBytes op).length) (BitVec.ofNat 32 payload.length) guest =
      (send (linked overflowChecks callback) buffers answer.2.callee index answer.2.bytes >>=
        fun _ => pure answer.2.code)
        { guest.requested buffers (asBytes op) payload with
          handled := guest.handled ++ answer.1 } := by
  have requested := linked_guestRequest overflowChecks callback found allocated
  rw [if_pos low] at requested
  obtain ⟨opRegion, bufRegion⟩ := requested_regions allocated
  have buf : load buffers.buf (BitVec.ofNat 32 payload.length).toNat
      (guest.requested buffers (asBytes op) payload) =
      (.returned payload, guest.requested buffers (asBytes op) payload) :=
    load_buffer allocated.request bufRegion
  have opbuf : load buffers.op (BitVec.ofNat 32 (asBytes op).length).toNat
      (guest.requested buffers (asBytes op) payload) =
      (.returned (asBytes op), guest.requested buffers (asBytes op) payload) :=
    load_buffer allocated.operation opRegion
  intro answer
  unfold guestCall
  rw [Sandbox.bind_returned (invoke_returned requested)]
  refine (Sandbox.bind_returned buf).trans ((Sandbox.bind_returned opbuf).trans ?_)
  have answered : answer = registry.answer (asBytes op) payload := rfl
  clear_value answer
  unfold Registry.answer at answered
  cases lookup : registry (asBytes op) with
  | none =>
    simp only [lookup] at answered
    rw [answered]
    simp only [List.append_nil]
    rfl
  | some handler =>
    cases result : handler payload with
    | ok response =>
      simp only [lookup, result] at answered
      rw [answered]
      refine (Sandbox.bind_returned (by rw [handle, result])).trans ?_
      rfl
    | error errmsg =>
      simp only [lookup, result] at answered
      rw [answered]
      refine (Sandbox.bind_returned (by rw [handle, result])).trans ?_
      rfl

/-- `__guest_call` returns the code of an answer the host has recorded. -/
theorem guestCall_returned {op : String} {payload : Bytes} {index : I32} {recorded : ModuleState}
    (found : guest.store.module.getGuestRequest index = some ⟨op, payload⟩)
    (allocated : Allocated guest.store.memory buffers registry (asBytes op) payload)
    (low : RequestLow buffers (asBytes op) payload)
    (answerLow : AnswerLow buffers (registry.answer (asBytes op) payload).2.bytes)
    (record : (registry.answer (asBytes op) payload).2.record guest.store.module index =
      some recorded) :
    ∃ final, guestCall (linked overflowChecks callback) registry buffers index
          (BitVec.ofNat 32 (asBytes op).length) (BitVec.ofNat 32 payload.length) guest =
        (.returned (registry.answer (asBytes op) payload).2.code, final) ∧
      final.store.module = recorded ∧
      final.handled = guest.handled ++ (registry.answer (asBytes op) payload).1 := by
  have answers := guestCall_answers overflowChecks callback found allocated low
  exact ⟨_, answers.trans (Sandbox.bind_returned
    (send_recorded overflowChecks callback allocated.answer answerLow record)), rfl, rfl⟩

/-- On a request it cannot write or an answer it cannot read, the host is lost
inside `__guest_call`. -/
theorem guestCall_panics {op : String} {payload : Bytes} {index : I32}
    (found : guest.store.module.getGuestRequest index = some ⟨op, payload⟩)
    (allocated : Allocated guest.store.memory buffers registry (asBytes op) payload)
    (lost : ¬ (RequestLow buffers (asBytes op) payload ∧
      AnswerLow buffers (registry.answer (asBytes op) payload).2.bytes)) :
    ∃ final, guestCall (linked overflowChecks callback) registry buffers index
        (BitVec.ofNat 32 (asBytes op).length) (BitVec.ofNat 32 payload.length) guest =
      (.panicked, final) := by
  by_cases low : RequestLow buffers (asBytes op) payload
  · have unread := not_and.mp lost low
    have answers := guestCall_answers overflowChecks callback found allocated low
    exact ⟨_, answers.trans (Sandbox.bind_panicked
      (send_lost overflowChecks callback allocated.answer unread))⟩
  · have requested := linked_guestRequest overflowChecks callback found allocated
    rw [if_neg low] at requested
    exact ⟨_, Sandbox.bind_panicked (invoke_panicked requested)⟩

/-- A recorded answer is what the caller takes back. -/
theorem Answer.taken {answer : Answer} {module recorded : ModuleState} {inv : Invocation}
    (record : answer.record (module.newInvocation inv).2.2 module.callIndex = some recorded) :
    ∃ state, recorded.calls module.callIndex = some state ∧
      answer.result = some (syncResult answer.code state) := by
  have fresh : (module.newInvocation inv).2.2.calls module.callIndex = some {
      guestRequest := some inv, channel := some module.oneshots.opened } := by
    simp [ModuleState.newInvocation, ModuleState.fetchAdd, Oneshots.channel]
  cases answer with
  | response result =>
    cases record
    exact ⟨_, by rw [ModuleState.setGuestResponse, ModuleState.modifyCall_calls, if_pos rfl, fresh,
      Option.map_some], rfl⟩
  | error errmsg =>
    obtain ⟨text, decoded, rfl⟩ := Option.map_eq_some_iff.mp record
    refine ⟨_, by rw [ModuleState.setGuestError, ModuleState.modifyCall_calls, if_pos rfl, fresh,
      Option.map_some], ?_⟩
    simp [Answer.result, decoded, Answer.code, syncResult]

/-- An answer has a result exactly when the host can record it. -/
theorem Answer.result_isSome {answer : Answer} (module : ModuleState) (index : I32) :
    answer.result.isSome ↔ (answer.record module index).isSome := by
  cases answer <;> simp [Answer.result, Answer.record]

/-- The instance once `call` has numbered its invocation. -/
def Instance.started (guest : Instance World) (inv : Invocation) : Instance World :=
  { guest with store := { guest.store with module := (guest.store.module.newInvocation inv).2.2 } }

theorem newInvocation_returned (guest : Instance World) (inv : Invocation) :
    newInvocation inv guest = (.returned guest.store.module.callIndex, guest.started inv) := rfl

theorem started_request (guest : Instance World) (inv : Invocation) :
    (guest.started inv).store.module.getGuestRequest guest.store.module.callIndex = some inv := by
  simp [Instance.started, ModuleState.getGuestRequest, ModuleState.newInvocation,
    ModuleState.fetchAdd]

/-- `call` returns the result of an answer the host can read and record. -/
theorem call_returned {op : String} {payload : Bytes} {result : CallResult}
    (allocated : Allocated guest.store.memory buffers registry (asBytes op) payload)
    (low : RequestLow buffers (asBytes op) payload)
    (answerLow : AnswerLow buffers (registry.answer (asBytes op) payload).2.bytes)
    (answered : (registry.answer (asBytes op) payload).2.result = some result) :
    ∃ final, call (linked overflowChecks callback) registry buffers op payload guest =
        (.returned result, final) ∧
      final.handled = guest.handled ++ (registry.answer (asBytes op) payload).1 := by
  have recordable := (Answer.result_isSome (guest.started ⟨op, payload⟩).store.module
    guest.store.module.callIndex).mp (Option.isSome_of_eq_some answered)
  obtain ⟨recorded, record⟩ := Option.isSome_iff_exists.mp recordable
  obtain ⟨state, taken, same⟩ := Answer.taken record
  obtain ⟨inside, ran, module, handled⟩ := guestCall_returned overflowChecks callback
    (started_request guest ⟨op, payload⟩) allocated low answerLow record
  have engine : engineCall guest.store.module.callIndex (guestCall
      (linked overflowChecks callback) registry buffers guest.store.module.callIndex
      (BitVec.ofNat 32 (asBytes op).length) (BitVec.ofNat 32 payload.length))
      (guest.started ⟨op, payload⟩) =
        (.returned (registry.answer (asBytes op) payload).2.code, inside) := by
    rw [engineCall, ran]
  let final : Instance World := { inside with store := { inside.store with
    module := (recorded.takeState guest.store.module.callIndex).2 } }
  have take : takeState guest.store.module.callIndex inside = (.returned state, final) := by
    rw [takeState, module, ModuleState.takeState, taken]
    rfl
  rw [same] at answered
  cases answered
  refine ⟨final, ?_, handled⟩
  unfold call
  rw [Sandbox.bind_returned (newInvocation_returned guest _), Sandbox.bind_returned engine,
    Sandbox.bind_returned take]
  rfl

/-- In every other case the host is lost. -/
theorem call_panics {op : String} {payload : Bytes}
    (allocated : Allocated guest.store.memory buffers registry (asBytes op) payload)
    (lost : ¬ (RequestLow buffers (asBytes op) payload ∧
      AnswerLow buffers (registry.answer (asBytes op) payload).2.bytes)) :
    ∃ final, call (linked overflowChecks callback) registry buffers op payload guest =
      (.panicked, final) := by
  obtain ⟨inside, ran⟩ := guestCall_panics overflowChecks callback
    (started_request guest ⟨op, payload⟩) allocated lost
  have engine : engineCall guest.store.module.callIndex (guestCall
      (linked overflowChecks callback) registry buffers guest.store.module.callIndex
      (BitVec.ofNat 32 (asBytes op).length) (BitVec.ofNat 32 payload.length))
      (guest.started ⟨op, payload⟩) = (.panicked, inside) := by
    rw [engineCall, ran]
  refine ⟨inside, ?_⟩
  unfold call
  rw [Sandbox.bind_returned (newInvocation_returned guest _), Sandbox.bind_panicked engine]

end Run

section Contract

variable {World : Type} (overflowChecks : Bool) (callback : Option (HostCallback World))
  (guest : Instance World) (registrations : List (String × Handler)) (buffers : Buffers)
  (op : String) (payload : Bytes)

/-- The result the handlers stand for. -/
def expected : CallResult :=
  match latest registrations (asBytes op) with
  | some handler =>
    match handler payload with
    | .ok result => .ok result
    | .error errmsg => .error (.guestCallFailure errmsg)
  | none => .error (.guestCallFailure ("No handler registered for function " ++ op))

/-- The latest handler registered under the operation is given exactly the
payload, once, and the caller gets exactly its answer. -/
def RoundTrip : Prop :=
  ∃ final, call (linked overflowChecks callback) (registered registrations) buffers op payload
      guest = (.returned (expected registrations op payload), final) ∧
    final.handled = guest.handled ++
      if (latest registrations (asBytes op)).isSome then [payload] else []

/-- The buffers are where the host's casts keep the sign: those that receive the
request, registered or not, start below `2 ^ 31`, and the answer ends there. -/
def LowBuffers : Prop :=
  RequestLow buffers (asBytes op) payload ∧
    AnswerLow buffers ((registered registrations).answer (asBytes op) payload).2.bytes

variable {registrations buffers op payload}

/-- The answer to the request stands for the expected result. -/
theorem answer_expected (registrations : List (String × Handler)) (op : String)
    (payload : Bytes) :
    ((registered registrations).answer (asBytes op) payload).1 =
        (if (latest registrations (asBytes op)).isSome then [payload] else []) ∧
      ((registered registrations).answer (asBytes op) payload).2.result =
        some (expected registrations op payload) := by
  unfold Registry.answer expected
  rw [registered_eq_latest]
  cases latest registrations (asBytes op) with
  | none =>
    refine ⟨rfl, ?_⟩
    simp only [Answer.result]
    rw [← asBytes_append, fromUtf8_asBytes]
    rfl
  | some handler =>
    cases result : handler payload with
    | ok response => simp [result, Answer.result]
    | error errmsg => simp [result, Answer.result]

/-- The round trip is exact exactly when the buffers are below `2 ^ 31`. -/
theorem guest_call_round_trip_iff (overflowChecks : Bool)
    (callback : Option (HostCallback World)) (guest : Instance World)
    (registrations : List (String × Handler)) (buffers : Buffers) (op : String) (payload : Bytes)
    (allocated : Allocated guest.store.memory buffers (registered registrations) (asBytes op)
      payload) :
    RoundTrip overflowChecks callback guest registrations buffers op payload ↔
      LowBuffers registrations buffers op payload := by
  constructor
  · rintro ⟨_, returned, _⟩
    by_contra lost
    obtain ⟨_, panicked⟩ := call_panics overflowChecks callback allocated lost
    rw [panicked] at returned
    cases returned
  · rintro ⟨low, answerLow⟩
    obtain ⟨handled, result⟩ := answer_expected registrations op payload
    obtain ⟨final, returned, given⟩ := call_returned overflowChecks callback allocated low
      answerLow result
    exact ⟨final, returned, by rw [given, handled]⟩

end Contract

section Echo

/-- A guest whose one function returns its payload. -/
def echoGuest (size : Nat) (bounded : size ≤ 2 ^ 32) : Instance Unit :=
  ⟨⟨.new 0, ⟨size, bounded, fun _ => 0⟩, [], [], ()⟩, 0, []⟩

def echo : List (String × Handler) := [("echo", .ok)]

theorem echo_answer (payload : Bytes) :
    ((registered echo).answer (asBytes "echo") payload).2.bytes = payload := by
  unfold Registry.answer
  rw [registered_eq_latest]
  simp [latest, echo, Answer.bytes]

/-- An echo in the first page of memory. -/
theorem low_echo_round_trip :
    RoundTrip true none (echoGuest 65536 (by decide)) echo
      ⟨1024, 2048, fun _ => 4096⟩ "echo" [1, 2, 3] := by
  have length : (asBytes "echo").length = 4 := by decide
  refine (guest_call_round_trip_iff true none (echoGuest 65536 (by decide)) echo
    ⟨1024, 2048, fun _ => 4096⟩ "echo" [1, 2, 3] ⟨?_, ?_, ?_, ?_⟩).mpr ⟨⟨?_, ?_⟩, ?_⟩
  · rw [length]; exact ⟨by decide, by decide⟩
  · exact ⟨by decide, by decide⟩
  · rw [length]; exact .inl (by decide)
  · rw [echo_answer]; exact ⟨by decide, by decide⟩
  · exact .inr (by decide)
  · exact .inr (by decide)
  · rw [echo_answer]; decide

/-- An echo from the upper half of a memory of 4 GiB makes the host panic. -/
theorem high_echo_fails :
    ¬ ∀ (guest : Instance Unit) (registrations : List (String × Handler)) (buffers : Buffers)
      (op : String) (payload : Bytes),
      Allocated guest.store.memory buffers (registered registrations) (asBytes op) payload →
      RoundTrip true none guest registrations buffers op payload := by
  intro trips
  have length : (asBytes "echo").length = 4 := by decide
  have allocated : Allocated (echoGuest (2 ^ 32) (Nat.le_refl _)).store.memory
      ⟨1024, 2048, fun _ => BitVec.ofNat 32 (2 ^ 31)⟩ (registered echo) (asBytes "echo") [7] := by
    refine ⟨?_, ?_, ?_, ?_⟩
    · rw [length]; exact ⟨by decide, by decide⟩
    · exact ⟨by decide, by decide⟩
    · rw [length]; exact .inl (by decide)
    · rw [echo_answer]; exact ⟨by decide, by decide⟩
  have lost : ¬ AnswerLow ⟨1024, 2048, fun _ => BitVec.ofNat 32 (2 ^ 31)⟩
      ((registered echo).answer (asBytes "echo") [7]).2.bytes := by
    rw [echo_answer]
    decide
  obtain ⟨_, returned, _⟩ := trips _ _ _ _ _ allocated
  obtain ⟨_, panicked⟩ := call_panics true none allocated fun low => lost low.2
  rw [panicked] at returned
  cases returned

end Echo

end Wapc.Guest
