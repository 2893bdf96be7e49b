import Wapc.Guest.Externs

/-!
# Synchronous host calls

`host_call` of the SDK numbers its calls with a counter of its own, passes the
number in front of the four regions, takes 1 for success, and reads the response
or the error under that number. The provider's `__host_call` has no parameter for
it, so a guest that can make host calls has an import that does not resolve.
-/

namespace Wapc.Guest

open Semantics Host Provider

/-- The kinds of errors the SDK returns. -/
inductive ErrorKind where
  | hostError (e : Bytes)
  | async (index : I32) (e : String)
deriving DecidableEq, Repr

/-- A `&str` or `&[u8]`. -/
structure Slice where
  ptr : I32
  len : I32

section Sdk

variable {World : Type} (linkage : Linkage World) (alloc : Nat → I32)

/-- `CALL_NUM.fetch_add(1)`. -/
def fetchAddCallNum : GuestCode World I32 := fun guest =>
  (.returned guest.callNum, { guest with callNum := guest.callNum + 1 })

/-- `host_call`; `alloc` places the vector it returns. -/
def hostCall (binding ns op msg : Slice) : GuestCode World (Except ErrorKind Bytes) := do
  let index ← fetchAddCallNum
  let callresult ← invokeI32 linkage .hostCall
    [index, binding.ptr, binding.len, ns.ptr, ns.len, op.ptr, op.len, msg.ptr, msg.len]
  if callresult ≠ 1 then
    let errlen ← invokeI32 linkage .hostErrorLen [index]
    let _ ← invoke linkage .hostError [index, alloc errlen.toNat]
    let buf ← load (alloc errlen.toNat) errlen.toNat
    return .error (.hostError buf)
  else
    let len ← invokeI32 linkage .hostResponseLen [index]
    let _ ← invoke linkage .hostResponse [index, alloc len.toNat]
    let buf ← load (alloc len.toNat) len.toNat
    return .ok buf

/-- A host call of a guest: what it asks for, where it keeps the arguments, and
where the result goes. -/
structure CallSite where
  request : HostRequest
  binding : I32
  ns : I32
  op : I32
  msg : I32
  alloc : Nat → I32

/-- Place the arguments and make the call. -/
def CallSite.perform (site : CallSite) : GuestCode World (Except ErrorKind Bytes) := do
  let binding := asBytes site.request.binding
  let ns := asBytes site.request.namespace_
  let op := asBytes site.request.operation
  let msg := site.request.payload
  put site.binding binding
  put site.ns ns
  put site.op op
  put site.msg msg
  hostCall linkage site.alloc ⟨site.binding, BitVec.ofNat 32 binding.length⟩
    ⟨site.ns, BitVec.ofNat 32 ns.length⟩ ⟨site.op, BitVec.ofNat 32 op.length⟩
    ⟨site.msg, BitVec.ofNat 32 msg.length⟩

/-- Make host calls one after the other. -/
def performAll : List CallSite → GuestCode World (List (Except ErrorKind Bytes))
  | [] => return []
  | site :: sites => do
    let result ← site.perform linkage
    let results ← performAll sites
    return result :: results

end Sdk

/-- The imports `host_call` uses. -/
def hostCallImports : List Extern :=
  [.hostCall, .hostErrorLen, .hostError, .hostResponseLen, .hostResponse]

/-- A guest and the host calls it makes; one that makes any has their imports. -/
structure HostCallGuest where
  imports : List Extern
  calls : List CallSite
  declared : calls ≠ [] → ∀ callee ∈ hostCallImports, callee ∈ imports

section Contract

variable {World : Type} (overflowChecks : Bool) (callback : HostCallback World)

/-- The callback, with a record of what it was asked and what it returned. -/
def recording : HostCallback (World × List (HostRequest × HostResult)) :=
  fun state id request =>
    let (result, world) := callback state.1 id request
    (result, (world, state.2 ++ [(request, result)]))

/-- What `host_call` has to return for a result of the callback. -/
def sdkResult : HostResult → Except ErrorKind Bytes
  | .ok v => .ok v
  | .error text => .error (.hostError (asBytes text))

/-- Instantiate the guest and let it make its calls. -/
def HostCallGuest.run (guest : HostCallGuest)
    (start : Instance (World × List (HostRequest × HostResult))) :
    Option (Outcome (List (Except ErrorKind Bytes)) ×
      Instance (World × List (HostRequest × HostResult))) :=
  if Instantiates guest.imports then
    some (performAll (linked overflowChecks (some (recording callback))) guest.calls start)
  else none

/-- Each call invokes the callback once, with its own request, and returns what
that invocation returned. -/
def HostCallGuest.Contract (guest : HostCallGuest)
    (start : Instance (World × List (HostRequest × HostResult))) : Prop :=
  ∀ (n : Nat) (site : CallSite), guest.calls[n]? = some site →
    ∃ results final invocations, ∃ result : HostResult,
      guest.run overflowChecks callback start = some (.returned results, final) ∧
      final.store.world.2 = start.store.world.2 ++ invocations ∧
      invocations.length = guest.calls.length ∧
      invocations[n]? = some (site.request, result) ∧
      results[n]? = some (sdkResult result)

variable {overflowChecks callback}

/-- A guest that makes host calls is never instantiated. -/
theorem HostCallGuest.not_instantiates {guest : HostCallGuest} (calls : guest.calls ≠ []) :
    ¬ Instantiates guest.imports := by
  intro resolves
  have import' : Extern.hostCall ∈ guest.imports :=
    guest.declared calls .hostCall (List.mem_cons_self ..)
  exact ((Extern.resolve_isSome_iff .hostCall).mp (resolves .hostCall import')).1 rfl

/-- Host calls meet their contract exactly in guests that make none. -/
theorem host_calls_meet_contract_iff (overflowChecks : Bool) (callback : HostCallback World)
    (guest : HostCallGuest) (start : Instance (World × List (HostRequest × HostResult))) :
    guest.Contract overflowChecks callback start ↔ guest.calls = [] := by
  constructor
  · intro contract
    by_contra calls
    obtain ⟨site, sites, split⟩ := List.exists_cons_of_ne_nil calls
    obtain ⟨_, _, _, _, ran, _⟩ := contract 0 site (by rw [split]; rfl)
    rw [HostCallGuest.run, if_neg (HostCallGuest.not_instantiates calls)] at ran
    cases ran
  · intro idle n site call
    rw [idle] at call
    cases call

end Contract

/-- A guest that makes one host call has an import that does not resolve. -/
theorem host_call_does_not_link :
    ¬ ∀ (guest : HostCallGuest) (start : Instance (Unit × List (HostRequest × HostResult))),
      guest.Contract true (fun world _ _ => (.ok [], world)) start := by
  intro contracts
  let site : CallSite := ⟨⟨"", "", "", []⟩, 1024, 1024, 1024, 1024, fun _ => 1024⟩
  let guest : HostCallGuest := ⟨hostCallImports, [site], fun _ _ member => member⟩
  let start : Instance (Unit × List (HostRequest × HostResult)) :=
    ⟨⟨.new 0, ⟨65536, by decide, fun _ => 0⟩, [], [], ((), [])⟩, 0, []⟩
  obtain ⟨_, _, _, _, ran, _⟩ := contracts guest start 0 site rfl
  have unlinked : ¬ Instantiates guest.imports := by decide
  rw [HostCallGuest.run, if_neg unlinked] at ran
  cases ran

section Reconciled

variable {World : Type} (overflowChecks : Bool) (callback : Option (HostCallback World))

/-- What the imports would do if `__host_call` took the guest's number as well and
ignored it. -/
def reconciled : Linkage World := fun callee params store =>
  match callee with
  | .hostCall => linkerHostCall overflowChecks callback store params.tail
  | _ => linked overflowChecks callback callee params store

variable {linkage : Linkage World} {guest : Instance World}

/-- A code other than 1 is an error, whatever the host meant by it. -/
theorem hostCall_error_of_code {alloc : Nat → I32} {binding ns op msg : Slice} {code : I32}
    {next : Store World}
    (called : linkage .hostCall [guest.callNum, binding.ptr, binding.len, ns.ptr, ns.len, op.ptr,
      op.len, msg.ptr, msg.len] guest.store = .returned ([code], next))
    (other : code ≠ 1) {result : Except ErrorKind Bytes} {final : Instance World}
    (returned : hostCall linkage alloc binding ns op msg guest = (.returned result, final)) :
    ∃ e, result = .error (.hostError e) := by
  have numbered : fetchAddCallNum guest =
    (.returned guest.callNum, { guest with callNum := guest.callNum + 1 }) := rfl
  have coded : invokeI32 linkage .hostCall [guest.callNum, binding.ptr, binding.len, ns.ptr,
      ns.len, op.ptr, op.len, msg.ptr, msg.len] { guest with callNum := guest.callNum + 1 } =
      (.returned code, { guest with callNum := guest.callNum + 1, store := next }) :=
    invokeI32_returned called
  unfold hostCall at returned
  rw [Sandbox.bind_returned numbered, Sandbox.bind_returned coded, if_pos other] at returned
  obtain ⟨errlen, _, _, returned⟩ := Sandbox.returned_of_bind returned
  obtain ⟨_, _, _, returned⟩ := Sandbox.returned_of_bind returned
  obtain ⟨buf, _, _, returned⟩ := Sandbox.returned_of_bind returned
  cases returned
  exact ⟨buf, rfl⟩

/-- Even then a successful callback would be reported as an error: the host
returns its own number of the call, which is 1 only if no other call came first. -/
theorem reconciled_success_is_error {alloc : Nat → I32} {binding ns op msg : Slice}
    {request : HostRequest} {v : Bytes}
    (decoded : decodeRequest overflowChecks guest.store.memory binding.ptr binding.len ns.ptr
      ns.len op.ptr op.len msg.ptr msg.len = .returned request)
    (succeeded : (runCallback callback guest.store.world guest.store.module.callIndex request).1 =
      .ok v)
    (later : guest.store.module.callIndex ≠ 1) {result : Except ErrorKind Bytes}
    {final : Instance World}
    (returned : hostCall (reconciled overflowChecks callback) alloc binding ns op msg guest =
      (.returned result, final)) :
    ∃ e, result = .error (.hostError e) := by
  have code : (makeHostCall callback guest.store request).1 = [guest.store.module.callIndex] := by
    change [(ModuleState.recordHostResult _ guest.store.module.callIndex
      (runCallback callback guest.store.world guest.store.module.callIndex request).1).1] = _
    rw [succeeded]
    rfl
  have called : reconciled overflowChecks callback .hostCall [guest.callNum, binding.ptr,
      binding.len, ns.ptr, ns.len, op.ptr, op.len, msg.ptr, msg.len] guest.store =
      .returned ([guest.store.module.callIndex],
        (makeHostCall callback guest.store request).2) := by
    change (decodeRequest _ _ _ _ _ _ _ _ _ _).bind _ = _
    rw [decoded, ← code]
    rfl
  exact hostCall_error_of_code called later returned

end Reconciled

end Wapc.Guest
