import Wapc.Provider.Regions
import Wapc.Provider.Writes
import Wapc.Provider.Wasm3
import Wapc.Semantics.Traces

/-!
# The two providers side by side

Both providers serve the same imports, the one through slices of guest memory and the other
through pointers and a signed addition, and only the second with ids. With the ids supplied
they serve a call in the same way exactly where the two mean the same region, and in a small
memory the wasmtime provider does all that the wasm3 provider does, over whole runs of a
guest.
-/

namespace Wapc.Provider.Wasm3

open Semantics Host

/-! ### Reading and writing -/

/-- A way to read that gives the regions it accepts. -/
def reader (memory : Memory) (accepts : I32 → I32 → Prop) [DecidableRel accepts] (ptr len : I32) :
    Outcome Bytes :=
  if accepts ptr len then .returned (memory.region ptr len.toNat) else .panicked

theorem reader_bind_ne_panicked {α : Type} {memory : Memory} {accepts : I32 → I32 → Prop}
    [DecidableRel accepts] {ptr len : I32} {next : Bytes → Outcome α} :
    (reader memory accepts ptr len).bind next ≠ .panicked ↔
      accepts ptr len ∧ next (memory.region ptr len.toNat) ≠ .panicked := by
  unfold reader
  split
  · simp [*]
  · simp [*]

/-- The wasm3 provider reads the region, and its bytes are text where they must be. -/
def Accepted (memory : Memory) (region : Region) : Prop :=
  Readable memory region.ptr region.len ∧
    (region.text → (fromUtf8 (region.bytes memory)).isSome)

/-- What the wasmtime provider reads is what the wasm3 provider reads below `2 ^ 31`. -/
theorem readable_iff_low (memory : Memory) (ptr len : I32) : Provider.Readable memory ptr len ↔
    Readable memory ptr len ∧ ptr.toNat + len.toNat < 2 ^ 31 := by
  unfold Provider.Readable Readable
  constructor
  · rintro ⟨inside, low⟩
    exact ⟨⟨by omega, by omega, inside⟩, low⟩
  · rintro ⟨⟨-, -, inside⟩, low⟩
    exact ⟨inside, low⟩

/-- The checked write lets the delivery through. -/
def Fits (memory : Memory) (delivery : I32 × Bytes) : Prop :=
  delivery.1.toNat < 2 ^ 31 ∧ memory.Inside delivery.1 delivery.2.length

theorem write_of_fits {memory : Memory} {ptr : I32} {slice : Bytes}
    (fits : Fits memory (ptr, slice)) : Wasm3.writeBytesToMemory memory ptr slice =
      .returned (Provider.writeBytesToMemory memory ptr slice) :=
  ((writeBytesToMemory_checked_iff memory ptr slice).mpr fits).symm

theorem write_bind_ne_panicked {α : Type} {memory : Memory} {ptr : I32} {slice : Bytes}
    {next : Memory → Outcome α} :
    (Wasm3.writeBytesToMemory memory ptr slice).bind next ≠ .panicked ↔
      Fits memory (ptr, slice) ∧
        next (Provider.writeBytesToMemory memory ptr slice) ≠ .panicked := by
  by_cases fits : Fits memory (ptr, slice)
  · simp [write_of_fits fits, fits]
  · have refused : Wasm3.writeBytesToMemory memory ptr slice = .panicked := by
      rw [writeBytesToMemory_eq]
      exact if_neg fits
    simp [refused, fits]

/-! ### One call served by both providers

The imports of the wasm3 provider have no ids, so neither guests nor `ModuleHost` say which
invocation and which host call are meant. Here both are supplied: the host keeps them, and
the imports of the wasmtime provider get them as further parameters.
-/

/-- A module and the ids that its guest works with on the wasmtime provider. -/
structure OneCall (World : Type) where
  store : Store World
  /-- The invocation that the guest was called with. -/
  invocation : I32
  /-- The host call that the guest made last. -/
  hostCall : I32

namespace OneCall

variable {World : Type} (call : OneCall World)

def setGuestError (error : String) : OneCall World :=
  let module := call.store.module.setGuestError call.invocation error
  { call with store := { call.store with module := module } }

def setGuestResponse (response : Bytes) : OneCall World :=
  let module := call.store.module.setGuestResponse call.invocation response
  { call with store := { call.store with module := module } }

/-- Make a host call, the last one from now on. -/
def doHostCall (callback : Option (HostCallback World)) (request : HostRequest) :
    I32 × OneCall World :=
  let (code, module, _, world) := call.store.module.doHostCall callback call.store.world request
  (code, { call with
    store := { call.store with module := module, world := world }
    hostCall := call.store.module.callIndex })

def doConsoleLog (msg : String) : OneCall World :=
  { call with store := { call.store with console := call.store.console ++ [msg] } }

end OneCall

/-- A module host that serves one call of a module as the state shared with the wasmtime
provider does: `call` is the call that one of its states stands for, with the ids. -/
structure CallHost (State : Type) {World : Type} (callback : Option (HostCallback World))
    extends ModuleHost State where
  call : State → OneCall World
  requests : ∀ state, getGuestRequest state =
    (call state).store.module.getGuestRequest (call state).invocation
  responses : ∀ state, getHostResponse state =
    (call state).store.module.getHostResponse (call state).hostCall
  errors : ∀ state, getHostError state =
    (call state).store.module.getHostError (call state).hostCall
  guestErrors : ∀ state error, call (setGuestError state error) = (call state).setGuestError error
  guestResponses : ∀ state response,
    call (setGuestResponse state response) = (call state).setGuestResponse response
  hostCalls : ∀ state request, (doHostCall state request).map id call =
    ((call state).doHostCall callback request).map .ok id
  logs : ∀ state msg, call (doConsoleLog state msg) = (call state).doConsoleLog msg

/-- The shared module state itself, as the host of one call. -/
def callHost {World : Type} (callback : Option (HostCallback World)) :
    CallHost (OneCall World) callback where
  getGuestRequest call := call.store.module.getGuestRequest call.invocation
  getHostResponse call := call.store.module.getHostResponse call.hostCall
  setGuestError := OneCall.setGuestError
  setGuestResponse := OneCall.setGuestResponse
  getHostError call := call.store.module.getHostError call.hostCall
  doHostCall call request := (call.doHostCall callback request).map .ok id
  doConsoleLog := OneCall.doConsoleLog
  call := id
  requests _ := rfl
  responses _ := rfl
  errors _ := rfl
  guestErrors _ _ := rfl
  guestResponses _ _ := rfl
  hostCalls _ _ := rfl
  logs _ _ := rfl

namespace CallHost

variable {State World : Type} {callback : Option (HostCallback World)}
  (host : CallHost State callback) (guest : Instance State)

/-- The call of an instance, with the memory where the wasmtime provider has it. -/
def oneCall : OneCall World :=
  { host.call guest.host with
    store := { (host.call guest.host).store with memory := guest.memory } }

@[simp] theorem oneCall_memory : (host.oneCall guest).store.memory = guest.memory := rfl

/-! What an instance is told does not depend on its memory. -/

theorem request_eq : host.getGuestRequest guest.host =
    (host.oneCall guest).store.module.getGuestRequest (host.oneCall guest).invocation :=
  host.requests guest.host

theorem response_eq : host.getHostResponse guest.host =
    (host.oneCall guest).store.module.getHostResponse (host.oneCall guest).hostCall :=
  host.responses guest.host

theorem error_eq : host.getHostError guest.host =
    (host.oneCall guest).store.module.getHostError (host.oneCall guest).hostCall :=
  host.errors guest.host

theorem oneCall_setGuestError (error : String) :
    host.oneCall { guest with host := host.setGuestError guest.host error } =
      (host.oneCall guest).setGuestError error := by
  unfold oneCall
  rw [host.guestErrors]
  rfl

theorem oneCall_setGuestResponse (response : Bytes) :
    host.oneCall { guest with host := host.setGuestResponse guest.host response } =
      (host.oneCall guest).setGuestResponse response := by
  unfold oneCall
  rw [host.guestResponses]
  rfl

theorem oneCall_doConsoleLog (msg : String) :
    host.oneCall { guest with host := host.doConsoleLog guest.host msg } =
      (host.oneCall guest).doConsoleLog msg := by
  unfold oneCall
  rw [host.logs]
  rfl

/-- A host call of the guest is one of its call. -/
theorem makeHostCall_map (request : HostRequest) :
    (makeHostCall host.toModuleHost guest request).map id host.oneCall =
      ((host.oneCall guest).doHostCall callback request).map (fun code => [code]) id := by
  have made := host.hostCalls guest.host request
  unfold makeHostCall
  cases done : host.doHostCall guest.host request with
  | mk result state =>
    rw [done] at made
    obtain ⟨rfl, same⟩ := Prod.mk.inj made
    simp only [oneCall, Prod.map_apply, same]
    rfl

end CallHost

section Agreement

variable {State World : Type} (overflowChecks : Bool) (callback : Option (HostCallback World))

namespace Import

/-- The import of the wasmtime provider. -/
def hostExport : Import → HostExports
  | hostCall _ _ _ _ _ _ _ _ => .hostCall
  | guestRequest _ _ => .guestRequest
  | consoleLog _ _ => .consoleLog
  | hostResponse _ => .hostResponse
  | hostResponseLen => .hostResponseLen
  | guestResponse _ _ => .guestResponse
  | guestError _ _ => .guestError
  | hostError _ => .hostError
  | hostErrorLen => .hostErrorLen

/-- Its parameters: those of the guest, with the ids put in front. -/
def params (call : OneCall World) : Import → List I32
  | hostCall bdPtr bdLen nsPtr nsLen opPtr opLen ptr len =>
    [bdPtr, bdLen, nsPtr, nsLen, opPtr, opLen, ptr, len]
  | guestRequest opPtr ptr => [call.invocation, opPtr, ptr]
  | consoleLog ptr len => [ptr, len]
  | hostResponse ptr => [call.hostCall, ptr]
  | hostResponseLen => [call.hostCall]
  | guestResponse ptr len => [call.invocation, ptr, len]
  | guestError ptr len => [call.invocation, ptr, len]
  | hostError ptr => [call.hostCall, ptr]
  | hostErrorLen => [call.hostCall]

/-- The call after an import left this store; the id of a host call is kept for the imports
that follow. -/
def after (call : OneCall World) (store : Store World) : Import → OneCall World
  | hostCall _ _ _ _ _ _ _ _ =>
    { call with store := store, hostCall := call.store.module.callIndex }
  | _ => { call with store := store }

/-- The import call as the wasmtime provider serves it. -/
def onWasmtime (call : OneCall World) (closure : Import) : Outcome (List I32 × OneCall World) :=
  (closure.hostExport.call overflowChecks callback call.store (closure.params call)).bind
    fun result => .returned (result.1, closure.after call result.2)

/-- The regions the guest passed, in the order they are decoded. -/
def regions : Import → List Region
  | hostCall bdPtr bdLen nsPtr nsLen opPtr opLen ptr len =>
    [⟨ptr, len, false⟩, ⟨bdPtr, bdLen, true⟩, ⟨nsPtr, nsLen, true⟩, ⟨opPtr, opLen, true⟩]
  | consoleLog ptr len => [⟨ptr, len, true⟩]
  | guestResponse ptr len => [⟨ptr, len, false⟩]
  | guestError ptr len => [⟨ptr, len, true⟩]
  | _ => []

/-- What the host has to deliver, and where, in order. -/
def deliveries (call : OneCall World) : Import → List (I32 × Bytes)
  | guestRequest opPtr ptr =>
    match call.store.module.getGuestRequest call.invocation with
    | some inv => [(ptr, inv.msg), (opPtr, asBytes inv.operation)]
    | none => []
  | hostResponse ptr =>
    match call.store.module.getHostResponse call.hostCall with
    | some response => [(ptr, response)]
    | none => []
  | hostError ptr =>
    match call.store.module.getHostError call.hostCall with
    | some error => [(ptr, asBytes error)]
    | none => []
  | _ => []

/-- The import call as it is served with a way to read guest memory. -/
def readWith (read : I32 → I32 → Outcome Bytes) (call : OneCall World) :
    Import → Outcome (List I32 × OneCall World)
  | hostCall bdPtr bdLen nsPtr nsLen opPtr opLen ptr len =>
    (read ptr len).bind fun vec =>
    (read bdPtr bdLen).bind fun bdVec =>
    (Outcome.unwrap (fromUtf8 bdVec)).bind fun bd =>
    (read nsPtr nsLen).bind fun nsVec =>
    (Outcome.unwrap (fromUtf8 nsVec)).bind fun ns =>
    (read opPtr opLen).bind fun opVec =>
    (Outcome.unwrap (fromUtf8 opVec)).bind fun op =>
    .returned ((call.doHostCall callback ⟨bd, ns, op, vec⟩).map (fun code => [code]) id)
  | consoleLog ptr len =>
    (read ptr len).bind fun vec =>
    (Outcome.unwrap (fromUtf8 vec)).bind fun msg =>
    .returned ([], call.doConsoleLog msg)
  | guestResponse ptr len =>
    (read ptr len).bind fun vec =>
    .returned ([], call.setGuestResponse vec)
  | guestError ptr len =>
    (read ptr len).bind fun vec =>
    (Outcome.unwrap (fromUtf8 vec)).bind fun error =>
    .returned ([], call.setGuestError error)
  | closure => closure.onWasmtime overflowChecks callback call

variable {overflowChecks callback}

/-- The import call as the wasm3 provider serves it. -/
def onWasm3 (host : CallHost State callback) (guest : Instance State) (closure : Import) :
    Outcome (List I32 × OneCall World) :=
  (closure.call host.toModuleHost guest).bind fun result =>
    .returned (result.1, host.oneCall result.2)

variable {host : CallHost State callback}

theorem onWasmtime_eq (call : OneCall World) (closure : Import) :
    closure.onWasmtime overflowChecks callback call =
      closure.readWith overflowChecks callback
        (Provider.getVecFromMemory overflowChecks call.store.memory) call := by
  cases closure with
  | hostCall =>
    simp only [onWasmtime, hostExport, params, HostExports.call, linkerHostCall,
      Provider.decodeRequest, Outcome.bind_assoc, Outcome.returned_bind, readWith]
    rfl
  | consoleLog | guestResponse | guestError =>
    simp only [onWasmtime, hostExport, params, HostExports.call, linkerConsoleLog,
      linkerGuestResponse, linkerGuestError, Outcome.bind_assoc, Outcome.returned_bind, readWith]
    rfl
  | _ => rfl

theorem onWasm3_eq (overflowChecks : Bool) (guest : Instance State) (closure : Import)
    (decodes : closure.regions ≠ []) : closure.onWasm3 host guest =
      closure.readWith overflowChecks callback (getVecFromMemory guest.memory)
        (host.oneCall guest) := by
  cases closure with
  | hostCall =>
    simp only [onWasm3, call, Wasm3.hostCall, decodeRequest, Outcome.bind_assoc,
      Outcome.returned_bind, readWith, ← host.makeHostCall_map]
    rfl
  | consoleLog =>
    simp only [onWasm3, call, Wasm3.consoleLog, Outcome.bind_assoc, Outcome.returned_bind,
      readWith, host.oneCall_doConsoleLog]
  | guestResponse =>
    simp only [onWasm3, call, Wasm3.guestResponse, Outcome.bind_assoc, Outcome.returned_bind,
      readWith, host.oneCall_setGuestResponse]
  | guestError =>
    simp only [onWasm3, call, Wasm3.guestError, Outcome.bind_assoc, Outcome.returned_bind,
      readWith, host.oneCall_setGuestError]
  | _ => exact absurd rfl decodes

section Reader

variable {memory : Memory} {accepts : I32 → I32 → Prop} [DecidableRel accepts]

/-- A call is served if the regions it passes are read and are text where they must be. -/
theorem readWith_ne_panicked_iff (call : OneCall World) (closure : Import) :
    closure.readWith overflowChecks callback (reader memory accepts) call ≠ .panicked ↔
      ∀ region ∈ closure.regions, accepts region.ptr region.len ∧
        (region.text → (fromUtf8 (region.bytes memory)).isSome) := by
  cases closure with
  | hostCall | consoleLog | guestResponse | guestError =>
    simp only [readWith, reader_bind_ne_panicked, Outcome.unwrap_bind_ne_panicked, regions,
      Region.bytes, List.forall_mem_cons, List.not_mem_nil, false_imp_iff, implies_true, and_true,
      true_imp_iff, Bool.false_eq_true, Option.isSome_iff_exists, ne_eq, reduceCtorEq,
      not_false_eq_true, exists_and_right, and_assoc]
  | guestRequest | hostResponse | hostError =>
    simp only [readWith, onWasmtime, hostExport, params, HostExports.call, linkerGuestRequest,
      linkerHostResponse, linkerHostError, regions]
    split <;> simp
  | hostResponseLen | hostErrorLen =>
    simp [readWith, onWasmtime, hostExport, params, HostExports.call, linkerHostResponseLen,
      linkerHostErrorLen, regions]

end Reader

theorem readWith_congr {read read' : I32 → I32 → Outcome Bytes} (call : OneCall World)
    (closure : Import) (same : ∀ region ∈ closure.regions,
      read region.ptr region.len = read' region.ptr region.len) :
    closure.readWith overflowChecks callback read call =
      closure.readWith overflowChecks callback read' call := by
  cases closure with
  | hostCall | consoleLog | guestResponse | guestError =>
    simp only [regions, List.forall_mem_cons, List.not_mem_nil, false_imp_iff, implies_true,
      and_true] at same
    simp only [readWith, same]
  | _ => rfl

/-- A call that decodes nothing is served if what it delivers fits. -/
theorem onWasm3_ne_panicked_iff (guest : Instance State) (closure : Import)
    (plain : closure.regions = []) : closure.onWasm3 host guest ≠ .panicked ↔
      ∀ delivery ∈ closure.deliveries (host.oneCall guest), Fits guest.memory delivery := by
  cases closure with
  | hostCall | consoleLog | guestResponse | guestError => cases plain
  | hostResponseLen | hostErrorLen =>
    simp [onWasm3, call, hostResponseLength, hostErrorLength, deliveries]
  | guestRequest opPtr ptr =>
    simp only [onWasm3, call, Wasm3.guestRequest, host.request_eq guest, deliveries]
    cases (host.oneCall guest).store.module.getGuestRequest (host.oneCall guest).invocation with
    | none => simp
    | some inv =>
      simp only [Outcome.bind_assoc, write_bind_ne_panicked, Outcome.returned_bind, ne_eq,
        reduceCtorEq, not_false_eq_true, and_true, List.forall_mem_cons, List.not_mem_nil,
        false_imp_iff, implies_true]
      rfl
  | hostResponse ptr =>
    simp only [onWasm3, call, Wasm3.hostResponse, host.response_eq guest, deliveries]
    cases (host.oneCall guest).store.module.getHostResponse (host.oneCall guest).hostCall with
    | none => simp
    | some response => simp [Outcome.bind_assoc, write_bind_ne_panicked]
  | hostError ptr =>
    simp only [onWasm3, call, Wasm3.hostError, host.error_eq guest, deliveries]
    cases (host.oneCall guest).store.module.getHostError (host.oneCall guest).hostCall with
    | none => simp
    | some error => simp [Outcome.bind_assoc, write_bind_ne_panicked]

/-- A call that decodes nothing delivers what fits. -/
theorem onWasm3_delivers (guest : Instance State) (closure : Import)
    (plain : closure.regions = [])
    (fits : ∀ delivery ∈ closure.deliveries (host.oneCall guest), Fits guest.memory delivery) :
    closure.onWasmtime overflowChecks callback (host.oneCall guest) =
      closure.onWasm3 host guest := by
  cases closure with
  | hostCall | consoleLog | guestResponse | guestError => cases plain
  | hostResponseLen =>
    simp only [onWasm3, call, hostResponseLength, onWasmtime, hostExport, params,
      HostExports.call, linkerHostResponseLen, host.response_eq guest]
    cases (host.oneCall guest).store.module.getHostResponse (host.oneCall guest).hostCall <;> rfl
  | hostErrorLen =>
    simp only [onWasm3, call, hostErrorLength, onWasmtime, hostExport, params,
      HostExports.call, linkerHostErrorLen, host.error_eq guest]
    cases (host.oneCall guest).store.module.getHostError (host.oneCall guest).hostCall <;> rfl
  | guestRequest opPtr ptr =>
    simp only [onWasm3, call, Wasm3.guestRequest, onWasmtime, hostExport, params,
      HostExports.call, linkerGuestRequest, host.request_eq guest, deliveries] at fits ⊢
    cases found : (host.oneCall guest).store.module.getGuestRequest
        (host.oneCall guest).invocation with
    | none => rfl
    | some inv =>
      simp only [found, List.forall_mem_cons, List.not_mem_nil, false_imp_iff, implies_true,
        and_true] at fits
      have later : Fits (Provider.writeBytesToMemory guest.memory ptr inv.msg)
        (opPtr, asBytes inv.operation) := fits.2
      simp only [host.oneCall_memory, write_of_fits fits.1, write_of_fits later,
        Outcome.returned_bind, after]
      rfl
  | hostResponse ptr =>
    simp only [onWasm3, call, Wasm3.hostResponse, onWasmtime, hostExport, params,
      HostExports.call, linkerHostResponse, host.response_eq guest, deliveries] at fits ⊢
    cases found : (host.oneCall guest).store.module.getHostResponse
        (host.oneCall guest).hostCall with
    | none => rfl
    | some response =>
      simp only [found, List.forall_mem_singleton] at fits
      simp only [host.oneCall_memory, write_of_fits fits, Outcome.returned_bind, after]
      rfl
  | hostError ptr =>
    simp only [onWasm3, call, Wasm3.hostError, onWasmtime, hostExport, params,
      HostExports.call, linkerHostError, host.error_eq guest, deliveries] at fits ⊢
    cases found : (host.oneCall guest).store.module.getHostError
        (host.oneCall guest).hostCall with
    | none => rfl
    | some error =>
      simp only [found, List.forall_mem_singleton] at fits
      simp only [host.oneCall_memory, write_of_fits fits, Outcome.returned_bind, after]
      rfl

theorem onWasmtime_ne_panicked_iff (call : OneCall World) (closure : Import) :
    closure.onWasmtime overflowChecks callback call ≠ .panicked ↔
      ∀ region ∈ closure.regions, Provider.Readable call.store.memory region.ptr region.len ∧
        (region.text → (fromUtf8 (region.bytes call.store.memory)).isSome) := by
  have reads : Provider.getVecFromMemory overflowChecks call.store.memory =
      reader call.store.memory (Provider.Readable call.store.memory) :=
    funext₂ (Provider.getVecFromMemory_eq overflowChecks call.store.memory)
  rw [onWasmtime_eq, reads, readWith_ne_panicked_iff]

theorem onWasm3_accepted_iff (guest : Instance State) (closure : Import)
    (decodes : closure.regions ≠ []) : closure.onWasm3 host guest ≠ .panicked ↔
      ∀ region ∈ closure.regions, Accepted guest.memory region := by
  have reads : getVecFromMemory guest.memory = reader guest.memory (Readable guest.memory) :=
    funext₂ (getVecFromMemory_eq guest.memory)
  rw [onWasm3_eq true guest closure decodes, reads, readWith_ne_panicked_iff]
  rfl

/-- Both providers serve a call in the same way where what they deliver fits, and no region
that the wasm3 provider would read ends past `2 ^ 31`. -/
theorem agree_iff (guest : Instance State) (closure : Import) :
    closure.onWasmtime overflowChecks callback (host.oneCall guest) =
        closure.onWasm3 host guest ↔
      (∀ delivery ∈ closure.deliveries (host.oneCall guest), Fits guest.memory delivery) ∧
        ((∀ region ∈ closure.regions, Accepted guest.memory region) →
          ∀ region ∈ closure.regions, region.Low) := by
  by_cases plain : closure.regions = []
  · have trivially : ∀ region ∈ closure.regions, region.Low := by simp [plain]
    rw [and_iff_left fun _ => trivially, ← onWasm3_ne_panicked_iff guest closure plain]
    constructor
    · intro same
      rw [← same, onWasmtime_ne_panicked_iff]
      simp [plain]
    · intro served
      exact onWasm3_delivers guest closure plain
        ((onWasm3_ne_panicked_iff guest closure plain).mp served)
  · have nothing : closure.deliveries (host.oneCall guest) = [] := by
      cases closure <;> first | rfl | exact absurd rfl plain
    rw [nothing, and_iff_right (by simp)]
    constructor
    · intro same accepted region member
      rw [← onWasm3_accepted_iff guest closure plain, ← same, onWasmtime_ne_panicked_iff]
        at accepted
      exact ((readable_iff_low ..).mp (accepted region member).1).2
    · intro low
      by_cases accepted : ∀ region ∈ closure.regions, Accepted guest.memory region
      · rw [onWasmtime_eq, onWasm3_eq overflowChecks guest closure plain]
        refine readWith_congr (host.oneCall guest) closure fun region member => ?_
        have readable := (accepted region member).1
        rw [getVecFromMemory_eq, if_pos readable]
        exact getVecFromMemory_readable overflowChecks
          ((readable_iff_low ..).mpr ⟨readable, low accepted region member⟩)
      · have refused := accepted
        rw [← onWasm3_accepted_iff guest closure plain, ne_eq, not_not] at refused
        rw [refused]
        by_contra served
        refine accepted fun region member => ?_
        obtain ⟨readable, text⟩ := (onWasmtime_ne_panicked_iff ..).mp served region member
        exact ⟨((readable_iff_low ..).mp readable).1, text⟩

end Import
end Agreement

/-! ### Runs -/

/-- The results that a guest gets from an import. -/
def resultsOf {α : Type} : Outcome (List I32 × α) → List (List I32)
  | .returned result => [result.1]
  | _ => []

/-- What the wasm3 provider gives a guest back. -/
def results {State : Type} (host : ModuleHost State) (guest : Instance State) :
    Event → List (List I32)
  | .call closure => resultsOf (closure.call host guest)
  | _ => []

section Simulation

variable {World : Type} (overflowChecks : Bool) (callback : Option (HostCallback World))

/-- The same guest on the wasmtime provider. -/
def wasmtimeMachine : Machine (OneCall World) Event where
  step call
    | .call closure =>
      match closure.onWasmtime overflowChecks callback call with
      | .returned result => some result.2
      | _ => none
    | .write ptr bytes => (ownWrite call.store.memory ptr bytes).map fun memory =>
      { call with store := { call.store with memory := memory } }
    | .grow size => (grow call.store.memory size).map fun memory =>
      { call with store := { call.store with memory := memory } }

/-- What the wasmtime provider gives a guest back. -/
def wasmtimeResults (call : OneCall World) : Event → List (List I32)
  | .call closure => resultsOf (closure.onWasmtime overflowChecks callback call)
  | _ => []

variable {overflowChecks callback} {State : Type} {host : CallHost State callback}
  {guest next : Instance State}

/-- What the wasm3 provider serves in a small memory, the wasmtime provider serves too. -/
theorem Import.onWasmtime_of_call {closure : Import} {result : List I32 × Instance State}
    (small : guest.memory.size < 2 ^ 31)
    (called : closure.call host.toModuleHost guest = .returned result) :
    closure.onWasmtime overflowChecks callback (host.oneCall guest) =
      .returned (result.1, host.oneCall result.2) := by
  have served : closure.onWasm3 host guest = .returned (result.1, host.oneCall result.2) := by
    rw [onWasm3, called]
    rfl
  rw [← served, agree_iff]
  constructor
  · by_cases plain : closure.regions = []
    · rw [← onWasm3_ne_panicked_iff guest closure plain, served]
      simp
    · cases closure <;> first | exact absurd rfl plain | simp [deliveries]
  · intro accepted region member
    obtain ⟨-, -, inside⟩ := (accepted region member).1
    unfold Memory.Inside at inside
    unfold Region.Low
    omega

theorem step_simulates (overflowChecks : Bool) {event : Event} (small : guest.memory.size < 2 ^ 31)
    (moved : (machine host.toModuleHost).step guest event = some next) :
    (wasmtimeMachine overflowChecks callback).step (host.oneCall guest) event =
        some (host.oneCall next) ∧
      wasmtimeResults overflowChecks callback (host.oneCall guest) event =
        results host.toModuleHost guest event := by
  cases event with
  | call closure =>
    simp only [machine] at moved
    split at moved
    · rename_i result called
      cases moved
      simp only [wasmtimeMachine, wasmtimeResults, results, called,
        Import.onWasmtime_of_call small called, resultsOf, and_self]
    · cases moved
  | write ptr bytes =>
    obtain ⟨memory, written, rfl⟩ := Option.map_eq_some_iff.mp moved
    refine ⟨?_, rfl⟩
    change (ownWrite guest.memory ptr bytes).map _ = _
    rw [written]
    rfl
  | grow size =>
    obtain ⟨memory, grown, rfl⟩ := Option.map_eq_some_iff.mp moved
    refine ⟨?_, rfl⟩
    change (grow guest.memory size).map _ = _
    rw [grown]
    rfl

theorem run_simulates {events : List Event}
    (executed : (machine host.toModuleHost).run guest events = some next)
    (small : next.memory.size < 2 ^ 31) :
    (wasmtimeMachine overflowChecks callback).run (host.oneCall guest) events =
        some (host.oneCall next) ∧
      (wasmtimeMachine overflowChecks callback).trace
          (wasmtimeResults overflowChecks callback) (host.oneCall guest) events =
        (machine host.toModuleHost).trace (results host.toModuleHost) guest events := by
  induction events generalizing guest with
  | nil =>
    cases executed
    exact ⟨rfl, rfl⟩
  | cons event events ih =>
    obtain ⟨middle, moved, rest⟩ := Option.bind_eq_some_iff.mp executed
    have whole := (run_confines executed).size
    obtain ⟨stepped, same⟩ := step_simulates overflowChecks (by omega) moved
    obtain ⟨later, traces⟩ := ih rest
    constructor
    · rw [Machine.run_cons, stepped]
      exact later
    · rw [Machine.trace, Machine.trace, stepped, moved, same, Option.elim_some, Option.elim_some,
        traces]

end Simulation

/-- The two providers serve an import call in the same way, once the ids are supplied, if and
only if everything that is delivered fits into the memory below `2 ^ 31` and, where the wasm3
provider reads all regions of the call, these end below `2 ^ 31`. -/
theorem providers_agree_iff {State World : Type} (overflowChecks : Bool)
    {callback : Option (HostCallback World)} (host : CallHost State callback)
    (guest : Instance State) (closure : Import) :
    closure.onWasmtime overflowChecks callback (host.oneCall guest) =
        closure.onWasm3 host guest ↔
      (∀ delivery ∈ closure.deliveries (host.oneCall guest), Fits guest.memory delivery) ∧
        ((∀ region ∈ closure.regions, Accepted guest.memory region) →
          ∀ region ∈ closure.regions, region.Low) :=
  Import.agree_iff guest closure

/-- A guest that runs on the wasm3 provider in less than half of the address space runs on the
wasmtime provider once its imports are supplied with ids, with the same results from them, to
the same state. -/
theorem wasm3_run_on_wasmtime {State World : Type} (overflowChecks : Bool)
    {callback : Option (HostCallback World)} (host : CallHost State callback)
    (guest finish : Instance State) (events : List Event)
    (executed : (machine host.toModuleHost).run guest events = some finish)
    (small : finish.memory.size < 2 ^ 31) :
    (wasmtimeMachine overflowChecks callback).run (host.oneCall guest) events =
        some (host.oneCall finish) ∧
      (wasmtimeMachine overflowChecks callback).trace
          (wasmtimeResults overflowChecks callback) (host.oneCall guest) events =
        (machine host.toModuleHost).trace (results host.toModuleHost) guest events :=
  run_simulates executed small

/-- A module that was asked for the operation `hi`. -/
def asked : OneCall Unit where
  store :=
    { module := ((ModuleState.new 0).newInvocation ⟨"hi", [1, 2]⟩).2.2
      memory := emptyPage
      console := []
      spawned := []
      world := () }
  invocation := 1
  hostCall := 0

/-- The guest takes its request, makes a host call, takes the error and answers with it. -/
def askedEvents : List Event :=
  [.call (.guestRequest 0 8), .call (.hostCall 0 0 0 0 0 2 8 2), .call .hostErrorLen,
    .call (.hostError 16), .call (.guestResponse 16 4)]

theorem asked_run_on_wasmtime : ∃ finish,
    (machine (callHost none).toModuleHost).run ⟨emptyPage, asked⟩ askedEvents = some finish ∧
      (wasmtimeMachine true none).run asked askedEvents = some ((callHost none).oneCall finish) :=
  ⟨_, rfl, (wasm3_run_on_wasmtime true (callHost none) ⟨emptyPage, asked⟩ _ askedEvents rfl
    (by decide)).1⟩

end Wapc.Provider.Wasm3
