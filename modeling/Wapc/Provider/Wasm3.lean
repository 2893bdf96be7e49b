import Wapc.Provider.Memory
import Wapc.Semantics.Machine

/-!
# The imports of the wasm3 provider

The wasm3 provider answers its guest from a `ModuleHost`, which has one call at a time and no
ids, and takes every region of guest memory as a slice. Nothing it does reaches past the
guest's memory.
-/

namespace Wapc.Provider

open Semantics Host

/-- What an engine provider asks of the module host. -/
structure ModuleHost (State : Type) where
  getGuestRequest : State → Option Invocation
  getHostResponse : State → Option Bytes
  setGuestError : State → String → State
  setGuestResponse : State → Bytes → State
  getHostError : State → Option String
  doHostCall : State → HostRequest → Except String I32 × State
  doConsoleLog : State → String → State

namespace Wasm3

/-! ### The callbacks -/

/-- A guest's memory and the state of its host. -/
structure Instance (State : Type) where
  memory : Memory
  host : State

/-- `get_vec_from_memory`: the slice from the pointer on, and of it the first bytes. -/
def getVecFromMemory (memory : Memory) (ptr len : I32) : Outcome Bytes :=
  let start := asUsize ptr
  if start ≤ memory.size ∧ asUsize len ≤ memory.size - start then
    .returned (memory.cells.read start (asUsize len))
  else .panicked

/-- The results of a callback and the instance after it. -/
abbrev Called (State : Type) := Outcome (List I32 × Instance State)

section Callbacks

variable {State : Type} (host : ModuleHost State) (guest : Instance State)

/-- The regions of a host call: the payload first, then the three texts. -/
def decodeRequest (memory : Memory) (bdPtr bdLen nsPtr nsLen opPtr opLen ptr len : I32) :
    Outcome HostRequest :=
  (getVecFromMemory memory ptr len).bind fun vec =>
  (getVecFromMemory memory bdPtr bdLen).bind fun bdVec =>
  (Outcome.unwrap (fromUtf8 bdVec)).bind fun bd =>
  (getVecFromMemory memory nsPtr nsLen).bind fun nsVec =>
  (Outcome.unwrap (fromUtf8 nsVec)).bind fun ns =>
  (getVecFromMemory memory opPtr opLen).bind fun opVec =>
  (Outcome.unwrap (fromUtf8 opVec)).bind fun op =>
  .returned { binding := bd, namespace_ := ns, operation := op, payload := vec }

/-- Make the host call; a call that the host could not make has the code 0. -/
def makeHostCall (request : HostRequest) : List I32 × Instance State :=
  match host.doHostCall guest.host request with
  | (.ok code, state) => ([code], { guest with host := state })
  | (.error _, state) => ([0], { guest with host := state })

def hostCall (bdPtr bdLen nsPtr nsLen opPtr opLen ptr len : I32) : Called State :=
  (decodeRequest guest.memory bdPtr bdLen nsPtr nsLen opPtr opLen ptr len).bind fun request =>
    .returned (makeHostCall host guest request)

def guestRequest (opPtr ptr : I32) : Called State :=
  match host.getGuestRequest guest.host with
  | some inv =>
    (writeBytesToMemory guest.memory ptr inv.msg).bind fun memory =>
    (writeBytesToMemory memory opPtr (asBytes inv.operation)).bind fun memory =>
    .returned ([], { guest with memory := memory })
  | none => .returned ([], guest)

def hostResponse (ptr : I32) : Called State :=
  match host.getHostResponse guest.host with
  | some r => (writeBytesToMemory guest.memory ptr r).bind fun memory =>
    .returned ([], { guest with memory := memory })
  | none => .returned ([], guest)

def hostResponseLength : Called State :=
  .returned ([BitVec.ofNat 32 ((host.getHostResponse guest.host).getD []).length], guest)

def consoleLog (ptr len : I32) : Called State :=
  (getVecFromMemory guest.memory ptr len).bind fun vec =>
  (Outcome.unwrap (fromUtf8 vec)).bind fun msg =>
  .returned ([], { guest with host := host.doConsoleLog guest.host msg })

def guestResponse (ptr len : I32) : Called State :=
  (getVecFromMemory guest.memory ptr len).bind fun vec =>
  .returned ([], { guest with host := host.setGuestResponse guest.host vec })

def guestError (ptr len : I32) : Called State :=
  (getVecFromMemory guest.memory ptr len).bind fun vec =>
  (Outcome.unwrap (fromUtf8 vec)).bind fun error =>
  .returned ([], { guest with host := host.setGuestError guest.host error })

def hostError (ptr : I32) : Called State :=
  match host.getHostError guest.host with
  | some e => (writeBytesToMemory guest.memory ptr (asBytes e)).bind fun memory =>
    .returned ([], { guest with memory := memory })
  | none => .returned ([], guest)

def hostErrorLength : Called State :=
  .returned ([BitVec.ofNat 32 (asBytes ((host.getHostError guest.host).getD "")).length], guest)

/-- A call of one of the closures that `init` links. -/
inductive Import where
  | hostCall (bdPtr bdLen nsPtr nsLen opPtr opLen ptr len : I32)
  | guestRequest (opPtr ptr : I32)
  | consoleLog (ptr len : I32)
  | hostResponse (ptr : I32)
  | hostResponseLen
  | guestResponse (ptr len : I32)
  | guestError (ptr len : I32)
  | hostError (ptr : I32)
  | hostErrorLen
deriving DecidableEq, Repr

def Import.call : Import → Called State
  | .hostCall bdPtr bdLen nsPtr nsLen opPtr opLen ptr len =>
    Wasm3.hostCall host guest bdPtr bdLen nsPtr nsLen opPtr opLen ptr len
  | .guestRequest opPtr ptr => Wasm3.guestRequest host guest opPtr ptr
  | .consoleLog ptr len => Wasm3.consoleLog host guest ptr len
  | .hostResponse ptr => Wasm3.hostResponse host guest ptr
  | .hostResponseLen => hostResponseLength host guest
  | .guestResponse ptr len => Wasm3.guestResponse host guest ptr len
  | .guestError ptr len => Wasm3.guestError host guest ptr len
  | .hostError ptr => Wasm3.hostError host guest ptr
  | .hostErrorLen => hostErrorLength host guest

end Callbacks

/-! ### What a slice is -/

/-- A region that the wasm3 provider can read: neither number has the sign bit. -/
def Readable (memory : Memory) (ptr len : I32) : Prop :=
  ptr.toNat < 2 ^ 31 ∧ len.toNat < 2 ^ 31 ∧ memory.Inside ptr len.toNat

instance (memory : Memory) (ptr len : I32) : Decidable (Readable memory ptr len) :=
  inferInstanceAs (Decidable (_ ∧ _))

theorem readable_iff (memory : Memory) (ptr len : I32) : Readable memory ptr len ↔
    asUsize ptr ≤ memory.size ∧ asUsize len ≤ memory.size - asUsize ptr := by
  unfold Readable Memory.Inside
  constructor
  · rintro ⟨start, length, inside⟩
    rw [asUsize_of_lt start, asUsize_of_lt length]
    omega
  · rintro ⟨start, stop⟩
    have low : ptr.toNat < 2 ^ 31 := lt_of_asUsize_le start
    have short : len.toNat < 2 ^ 31 := lt_of_asUsize_le (Nat.le_trans stop (Nat.sub_le _ _))
    rw [asUsize_of_lt low] at start stop
    rw [asUsize_of_lt short] at stop
    exact ⟨low, short, by omega⟩

/-- The slices that exist are the regions they look like. -/
theorem getVecFromMemory_eq (memory : Memory) (ptr len : I32) :
    getVecFromMemory memory ptr len =
      if Readable memory ptr len then .returned (memory.region ptr len.toNat) else .panicked := by
  by_cases readable : Readable memory ptr len
  · rw [if_pos readable, getVecFromMemory, if_pos ((readable_iff memory ptr len).mp readable),
      asUsize_of_lt readable.1, asUsize_of_lt readable.2.1]
    rfl
  · rw [if_neg readable, getVecFromMemory]
    exact if_neg (mt (readable_iff memory ptr len).mpr readable)

/-! ### Runs -/

/-- What a guest does: it calls an import, writes to its memory, or grows it. -/
inductive Event where
  | call (closure : Import)
  | write (ptr : I32) (bytes : Bytes)
  | grow (size : Nat)

/-- A write of the guest, which the engine keeps inside the memory. -/
def ownWrite (memory : Memory) (ptr : I32) (bytes : Bytes) : Option Memory :=
  if memory.Inside ptr bytes.length then some (memory.write ptr.toNat bytes) else none

/-- `memory.grow`: the new bytes are zeros. -/
def grow (memory : Memory) (size : Nat) : Option Memory :=
  if bounded : memory.size ≤ size ∧ size ≤ 2 ^ 32 then
    some ⟨size, bounded.2, memory.cells.write memory.size (.replicate (size - memory.size) 0)⟩
  else none

/-- A guest that runs on the wasm3 provider. -/
def machine {State : Type} (host : ModuleHost State) : Machine (Instance State) Event where
  step guest
    | .call closure =>
      match closure.call host guest with
      | .returned result => some result.2
      | _ => none
    | .write ptr bytes =>
      (ownWrite guest.memory ptr bytes).map fun memory => { guest with memory := memory }
    | .grow size => (grow guest.memory size).map fun memory => { guest with memory := memory }

/-- The memory may have grown, and everything outside of it is as before. -/
structure Confines (before after : Memory) : Prop where
  size : before.size ≤ after.size
  outside : ∀ address : Int, address < 0 ∨ after.size ≤ address →
    after.cells address = before.cells address

namespace Confines

variable {memory middle final : Memory}

theorem refl (memory : Memory) : Confines memory memory := ⟨Nat.le_refl _, fun _ _ => rfl⟩

theorem trans (first : Confines memory middle) (second : Confines middle final) :
    Confines memory final where
  size := Nat.le_trans first.size second.size
  outside address apart := by
    have size := second.size
    rw [second.outside address apart]
    exact first.outside address (by omega)

/-- A write to a region inside the memory. -/
theorem write {ptr : I32} {bytes : Bytes} (inside : memory.Inside ptr bytes.length) :
    Confines memory (memory.write ptr.toNat bytes) where
  size := Nat.le_refl _
  outside address apart := by
    refine memory.cells.write_outside ?_
    change address < 0 ∨ (memory.size : Int) ≤ address at apart
    unfold Memory.Inside at inside
    omega

theorem checkedWrite {ptr : I32} {slice : Bytes}
    (written : Wasm3.writeBytesToMemory memory ptr slice = .returned middle) :
    Confines memory middle := by
  rw [writeBytesToMemory_eq] at written
  split at written
  · rename_i fits
    cases written
    exact .write fits.2
  · cases written

theorem ownWrite {ptr : I32} {bytes : Bytes} (written : ownWrite memory ptr bytes = some middle) :
    Confines memory middle := by
  unfold Wasm3.ownWrite at written
  split at written
  · rename_i inside
    cases written
    exact .write inside
  · cases written

theorem grow {size : Nat} (grown : grow memory size = some middle) : Confines memory middle := by
  unfold Wasm3.grow at grown
  split at grown
  · rename_i bounded
    cases grown
    refine ⟨bounded.1, fun address apart => memory.cells.write_outside ?_⟩
    rw [List.length_replicate]
    change address < 0 ∨ (size : Int) ≤ address at apart
    omega
  · cases grown

end Confines

section Runs

variable {State : Type} {host : ModuleHost State} {guest next : Instance State}

/-- No import reaches past the guest's memory. -/
theorem Import.call_confines {closure : Import} {results : List I32}
    (called : closure.call host guest = .returned (results, next)) :
    Confines guest.memory next.memory := by
  cases closure with
  | hostCall =>
    obtain ⟨request, -, returned⟩ := Outcome.bind_eq_returned.mp called
    unfold makeHostCall at returned
    split at returned <;> cases returned <;> exact .refl _
  | consoleLog | guestError =>
    obtain ⟨vec, -, rest⟩ := Outcome.bind_eq_returned.mp called
    obtain ⟨text, -, returned⟩ := Outcome.bind_eq_returned.mp rest
    cases returned
    exact .refl _
  | guestResponse =>
    obtain ⟨vec, -, returned⟩ := Outcome.bind_eq_returned.mp called
    cases returned
    exact .refl _
  | hostResponseLen | hostErrorLen =>
    cases called
    exact .refl _
  | guestRequest =>
    simp only [call, Wasm3.guestRequest] at called
    split at called
    · obtain ⟨middle, msg, rest⟩ := Outcome.bind_eq_returned.mp called
      obtain ⟨final, operation, returned⟩ := Outcome.bind_eq_returned.mp rest
      cases returned
      exact (Confines.checkedWrite msg).trans (.checkedWrite operation)
    · cases called
      exact .refl _
  | hostResponse =>
    simp only [call, Wasm3.hostResponse] at called
    split at called
    · obtain ⟨middle, response, returned⟩ := Outcome.bind_eq_returned.mp called
      cases returned
      exact .checkedWrite response
    · cases called
      exact .refl _
  | hostError =>
    simp only [call, Wasm3.hostError] at called
    split at called
    · obtain ⟨middle, error, returned⟩ := Outcome.bind_eq_returned.mp called
      cases returned
      exact .checkedWrite error
    · cases called
      exact .refl _

theorem step_confines {event : Event} (moved : (machine host).step guest event = some next) :
    Confines guest.memory next.memory := by
  cases event with
  | call closure =>
    simp only [machine] at moved
    split at moved
    · rename_i result called
      cases moved
      exact Import.call_confines called
    · cases moved
  | write ptr bytes =>
    obtain ⟨memory, written, rfl⟩ := Option.map_eq_some_iff.mp moved
    exact .ownWrite written
  | grow size =>
    obtain ⟨memory, grown, rfl⟩ := Option.map_eq_some_iff.mp moved
    exact .grow grown

theorem run_confines {events : List Event}
    (executed : (machine host).run guest events = some next) :
    Confines guest.memory next.memory := by
  have steps := Machine.Steps.ofRun (fun _ _ _ => trivial) executed
  refine steps.invariant (motive := fun state => Confines guest.memory state.memory) (.refl _) ?_
  intro state event after before _ moved
  exact before.trans (step_confines moved)

end Runs

/-- Whatever a guest does, and whatever host answers it, nothing outside of its memory changes. -/
theorem guest_runs_contained {State : Type} (host : ModuleHost State)
    (guest finish : Instance State) (events : List Event)
    (executed : (machine host).run guest events = some finish) :
    Confines guest.memory finish.memory :=
  run_confines executed

/-- A host that has one response and nothing else. -/
def answering (response : Bytes) : ModuleHost Unit where
  getGuestRequest _ := none
  getHostResponse _ := some response
  setGuestError _ _ := ()
  setGuestResponse _ _ := ()
  getHostError _ := none
  doHostCall _ _ := (.ok 1, ())
  doConsoleLog _ _ := ()

def emptyPage : Memory := ⟨65536, by decide, fun _ => 0⟩

/-- A guest that takes the response at the end of its memory, grows, and writes again. -/
def takingEvents : List Event := [.call (.hostResponse 65535), .grow 131072, .write 65536 [1]]

theorem response_at_end_contained : ∃ finish,
    (machine (answering [7])).run ⟨emptyPage, ()⟩ takingEvents = some finish ∧
      Confines emptyPage finish.memory :=
  ⟨_, rfl, guest_runs_contained (answering [7]) ⟨emptyPage, ()⟩ _ takingEvents rfl⟩

end Wasm3
end Wapc.Provider
