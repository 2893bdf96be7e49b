import Wapc.Provider.Linker

/-!
# Where the host writes

Three imports write into the guest's memory, at pointers the guest chose and
with lengths it did not. The raw write checks nothing, so it stays inside the
linear memory, and agrees with the checked write of the wasm3 provider, only on
the regions a check would let through. Guests run in a host that does not survive
a write outside.
-/

namespace Wapc.Provider

open Semantics Host

/-- A call of an import that writes to guest memory. -/
inductive DeliveringCall where
  | guestRequest (id opPtr ptr : I32)
  | hostResponse (id ptr : I32)
  | hostError (id ptr : I32)

namespace DeliveringCall

def hostExport : DeliveringCall → HostExports
  | .guestRequest _ _ _ => .guestRequest
  | .hostResponse _ _ => .hostResponse
  | .hostError _ _ => .hostError

def params : DeliveringCall → List I32
  | .guestRequest id opPtr ptr => [id, opPtr, ptr]
  | .hostResponse id ptr => [id, ptr]
  | .hostError id ptr => [id, ptr]

/-- What the host has to deliver, and where, in order. -/
def deliveries (module : ModuleState) : DeliveringCall → List (I32 × Bytes)
  | .guestRequest id opPtr ptr =>
    match module.getGuestRequest id with
    | some inv => [(ptr, inv.msg), (opPtr, asBytes inv.operation)]
    | none => []
  | .hostResponse id ptr =>
    match module.getHostResponse id with
    | some response => [(ptr, response)]
    | none => []
  | .hostError id ptr =>
    match module.getHostError id with
    | some error => [(ptr, asBytes error)]
    | none => []

/-- Every delivery stays inside the linear memory. -/
def Stays {World : Type} (store : Store World) (call : DeliveringCall) : Prop :=
  ∀ delivery ∈ call.deliveries store.module, store.memory.Holds delivery.1 delivery.2

instance {World : Type} (store : Store World) (call : DeliveringCall) :
    Decidable (call.Stays store) :=
  inferInstanceAs (Decidable (∀ _ ∈ _, _))

end DeliveringCall

/-- The call that delivers, if an import with these parameters is one. -/
def HostExports.delivering : HostExports → List I32 → Option DeliveringCall
  | .guestRequest, [id, opPtr, ptr] => some (.guestRequest id opPtr ptr)
  | .hostResponse, [id, ptr] => some (.hostResponse id ptr)
  | .hostError, [id, ptr] => some (.hostError id ptr)
  | _, _ => none

/-- The memory after everything was delivered where unsigned pointers say. -/
def Memory.deliver (memory : Memory) (deliveries : List (I32 × Bytes)) : Memory :=
  deliveries.foldl (fun memory delivery => memory.write delivery.1.toNat delivery.2) memory

section Contract

variable {World : Type} (overflowChecks : Bool) (callback : Option (HostCallback World))
  (store : Store World) (call : DeliveringCall)

/-- The import replaces exactly the bytes it has to deliver, all of them inside
the linear memory, and changes nothing else; or it fails. -/
def Contained : Prop :=
  (∀ delivery ∈ call.deliveries store.module, store.memory.Inside delivery.1 delivery.2.length) ∧
    call.hostExport.call overflowChecks callback store call.params =
      .returned ([], { store with
        memory := store.memory.deliver (call.deliveries store.module) }) ∨
  (call.hostExport.call overflowChecks callback store call.params).Fails

/-- Every write the import makes has the effect of the checked one. -/
def AgreesWithWasm3 : Prop :=
  ∀ delivery ∈ call.deliveries store.module,
    Outcome.returned (writeBytesToMemory store.memory delivery.1 delivery.2) =
      Wasm3.writeBytesToMemory store.memory delivery.1 delivery.2

/-- A write agrees with the checked one exactly when the check lets it through. -/
theorem writeBytesToMemory_checked_iff (memory : Memory) (ptr : I32) (slice : Bytes) :
    Outcome.returned (writeBytesToMemory memory ptr slice) =
        Wasm3.writeBytesToMemory memory ptr slice ↔
      ptr.toNat < 2 ^ 31 ∧ memory.Inside ptr slice.length := by
  rw [Wasm3.writeBytesToMemory_eq]
  constructor
  · intro same
    by_contra outside
    rw [if_neg outside] at same
    cases same
  · intro inside
    rw [if_pos inside, writeBytesToMemory_of_lt inside.1]

/-- Deliveries the sign extension does not move arrive where they should. -/
theorem DeliveringCall.delivers
    (arrive : ∀ delivery ∈ call.deliveries store.module,
      delivery.2 = [] ∨ delivery.1.toNat < 2 ^ 31) :
    call.hostExport.call overflowChecks callback store call.params =
      .returned ([], { store with
        memory := store.memory.deliver (call.deliveries store.module) }) := by
  cases call with
  | guestRequest id opPtr ptr =>
    simp only [hostExport, params, HostExports.call, linkerGuestRequest, deliveries] at arrive ⊢
    cases found : store.module.getGuestRequest id with
    | none => rfl
    | some inv =>
      simp only [found, List.mem_cons, List.not_mem_nil, or_false, forall_eq_or_imp,
        forall_eq] at arrive
      simp only [writeBytesToMemory_of_arrives arrive.1, writeBytesToMemory_of_arrives arrive.2]
      rfl
  | hostResponse id ptr =>
    simp only [hostExport, params, HostExports.call, linkerHostResponse, deliveries] at arrive ⊢
    cases found : store.module.getHostResponse id with
    | none => rfl
    | some response =>
      simp only [found, List.mem_singleton, forall_eq] at arrive
      simp only [writeBytesToMemory_of_arrives arrive]
      rfl
  | hostError id ptr =>
    simp only [hostExport, params, HostExports.call, linkerHostError, deliveries] at arrive ⊢
    cases found : store.module.getHostError id with
    | none => rfl
    | some error =>
      simp only [found, List.mem_singleton, forall_eq] at arrive
      simp only [writeBytesToMemory_of_arrives arrive]
      rfl

/-- The writes of an import stay inside the linear memory and agree with the
checked ones exactly when every region it delivers to lies inside the memory and
starts below `2 ^ 31`. -/
theorem host_writes_contained_iff :
    Contained overflowChecks callback store call ∧ AgreesWithWasm3 store call ↔
      ∀ delivery ∈ call.deliveries store.module, delivery.1.toNat < 2 ^ 31 ∧
        store.memory.Inside delivery.1 delivery.2.length := by
  have agrees : AgreesWithWasm3 store call ↔
      ∀ delivery ∈ call.deliveries store.module, delivery.1.toNat < 2 ^ 31 ∧
        store.memory.Inside delivery.1 delivery.2.length :=
    forall₂_congr fun delivery _ =>
      writeBytesToMemory_checked_iff store.memory delivery.1 delivery.2
  constructor
  · rintro ⟨_, same⟩
    exact agrees.mp same
  · intro inside
    refine ⟨.inl ⟨fun delivery member => (inside delivery member).2, ?_⟩, agrees.mpr inside⟩
    exact call.delivers overflowChecks callback store
      fun delivery member => .inr (inside delivery member).1

end Contract

/-- A host response delivered at pointer -1 overwrites the byte before the
linear memory, and the import does not fail. -/
theorem host_write_escapes_memory :
    ¬ ∀ (store : Store Unit) (call : DeliveringCall),
      Contained true none store call ∧ AgreesWithWasm3 store call := by
  intro contained
  let module : ModuleState :=
    ((ModuleState.new 0).beginHostCall.2.recordHostResult 1 (.ok [7])).2
  let store : Store Unit := ⟨module, ⟨65536, by decide, fun _ => 0⟩, [], [], ()⟩
  obtain ⟨inside | fails, _⟩ := contained store (.hostResponse 1 (-1))
  · have outside := inside.1 (-1, [7]) (by decide)
    exact absurd outside (by decide)
  · exact fails _ rfl

section Guarded

variable {World : Type} (overflowChecks : Bool) (callback : Option (HostCallback World))
  (store : Store World)

/-- An import as a guest meets it: the memory next to a linear memory is guarded
or another's, so a write that leaves the linear memory is the end of the host. -/
def HostExports.guarded (params : List I32) (export' : HostExports) : ImportResult World :=
  match export'.delivering params with
  | some call =>
    if call.Stays store then export'.call overflowChecks callback store params else .panicked
  | none => export'.call overflowChecks callback store params

/-- A guarded import delivers everything or takes the host down. -/
theorem DeliveringCall.guarded_eq (call : DeliveringCall) :
    call.hostExport.guarded overflowChecks callback store call.params =
      if call.Stays store then
        .returned ([], { store with
          memory := store.memory.deliver (call.deliveries store.module) })
      else .panicked := by
  have delivering : call.hostExport.delivering call.params = some call := by cases call <;> rfl
  unfold HostExports.guarded
  rw [delivering]
  by_cases stays : call.Stays store
  · simp only [if_pos stays]
    exact call.delivers overflowChecks callback store
      fun delivery member => (stays delivery member).arrives
  · simp only [if_neg stays]

end Guarded

end Wapc.Provider
