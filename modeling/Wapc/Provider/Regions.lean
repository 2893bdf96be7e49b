import Wapc.Provider.Linker

/-!
# What the host reads

Five imports decode regions of guest memory the guest describes by a pointer and
a length. Decoding is exact on the regions that can be read and whose text is
UTF-8, and it never ends in a trap: on all others the host panics.
-/

namespace Wapc.Provider

open Semantics Host

/-- A region an import decodes, and whether its bytes must be text. -/
structure Region where
  ptr : I32
  len : I32
  text : Bool

namespace Region

variable (memory : Memory) (region : Region)

/-- The bytes of the region, read as unsigned. -/
def bytes : Bytes := memory.region region.ptr region.len.toNat

/-- The region lies inside the memory, and its bytes are text where they must be. -/
def Valid : Prop :=
  memory.Inside region.ptr region.len.toNat ∧
    (region.text → (fromUtf8 (region.bytes memory)).isSome)

/-- The region ends below `2 ^ 31`. -/
def Low : Prop := region.ptr.toNat + region.len.toNat < 2 ^ 31

end Region

/-- A call of an import that decodes guest memory. -/
inductive DecodingCall where
  | hostCall (bdPtr bdLen nsPtr nsLen opPtr opLen ptr len : I32)
  | asyncHostCall (bdPtr bdLen nsPtr nsLen opPtr opLen ptr len : I32)
  | consoleLog (ptr len : I32)
  | guestResponse (id ptr len : I32)
  | guestError (id ptr len : I32)

namespace DecodingCall

def hostExport : DecodingCall → HostExports
  | .hostCall _ _ _ _ _ _ _ _ => .hostCall
  | .asyncHostCall _ _ _ _ _ _ _ _ => .asyncHostCall
  | .consoleLog _ _ => .consoleLog
  | .guestResponse _ _ _ => .guestResponse
  | .guestError _ _ _ => .guestError

def params : DecodingCall → List I32
  | .hostCall bdPtr bdLen nsPtr nsLen opPtr opLen ptr len =>
    [bdPtr, bdLen, nsPtr, nsLen, opPtr, opLen, ptr, len]
  | .asyncHostCall bdPtr bdLen nsPtr nsLen opPtr opLen ptr len =>
    [bdPtr, bdLen, nsPtr, nsLen, opPtr, opLen, ptr, len]
  | .consoleLog ptr len => [ptr, len]
  | .guestResponse id ptr len => [id, ptr, len]
  | .guestError id ptr len => [id, ptr, len]

/-- The regions the guest passed, in the order they are decoded. -/
def regions : DecodingCall → List Region
  | .hostCall bdPtr bdLen nsPtr nsLen opPtr opLen ptr len
  | .asyncHostCall bdPtr bdLen nsPtr nsLen opPtr opLen ptr len =>
    [⟨ptr, len, false⟩, ⟨bdPtr, bdLen, true⟩, ⟨nsPtr, nsLen, true⟩, ⟨opPtr, opLen, true⟩]
  | .consoleLog ptr len => [⟨ptr, len, true⟩]
  | .guestResponse _ ptr len => [⟨ptr, len, false⟩]
  | .guestError _ ptr len => [⟨ptr, len, true⟩]

section Contract

variable {World : Type} (overflowChecks : Bool) (callback : Option (HostCallback World))
  (store : Store World)

/-- What the host does once it has obtained these bytes; `none` when some of them
are no text. -/
def receive (data : List Bytes) : DecodingCall → Option (List I32 × Store World)
  | .hostCall _ _ _ _ _ _ _ _ =>
    match data with
    | [payload, bd, ns, op] => do
      let request : HostRequest := ⟨← fromUtf8 bd, ← fromUtf8 ns, ← fromUtf8 op, payload⟩
      some (makeHostCall callback store request)
    | _ => none
  | .asyncHostCall _ _ _ _ _ _ _ _ =>
    match data with
    | [payload, bd, ns, op] => do
      let request : HostRequest := ⟨← fromUtf8 bd, ← fromUtf8 ns, ← fromUtf8 op, payload⟩
      some (spawnHostCall store request)
    | _ => none
  | .consoleLog _ _ =>
    match data with
    | [msg] => do some ([], { store with console := store.console ++ [← fromUtf8 msg] })
    | _ => none
  | .guestResponse id _ _ =>
    match data with
    | [response] => some ([], { store with module := store.module.setGuestResponse id response })
    | _ => none
  | .guestError id _ _ =>
    match data with
    | [error] => do
      some ([], { store with module := store.module.setGuestError id (← fromUtf8 error) })
    | _ => none

/-- The host obtains exactly the bytes of regions that are inside the memory and
text where they must be; on all others the import fails as a guest error. -/
def DecodedExactly (call : DecodingCall) : Prop :=
  ((∀ region ∈ call.regions, region.Valid store.memory) →
    ∃ result, call.receive callback store (call.regions.map (·.bytes store.memory)) =
        some result ∧
      call.hostExport.call overflowChecks callback store call.params = .returned result) ∧
  ((¬ ∀ region ∈ call.regions, region.Valid store.memory) →
    ∃ message, call.hostExport.call overflowChecks callback store call.params = .trapped message)

variable {overflowChecks callback store}

theorem decodeRequest_neverTraps (memory : Memory)
    (bdPtr bdLen nsPtr nsLen opPtr opLen ptr len : I32) :
    (decodeRequest overflowChecks memory bdPtr bdLen nsPtr nsLen opPtr opLen ptr len).NeverTraps :=
  (getVecFromMemory_neverTraps _ _ _ _).bind fun _ =>
  (getVecFromMemory_neverTraps _ _ _ _).bind fun _ =>
  (Outcome.neverTraps_unwrap _).bind fun _ =>
  (getVecFromMemory_neverTraps _ _ _ _).bind fun _ =>
  (Outcome.neverTraps_unwrap _).bind fun _ =>
  (getVecFromMemory_neverTraps _ _ _ _).bind fun _ =>
  (Outcome.neverTraps_unwrap _).bind fun _ => Outcome.neverTraps_returned _

/-- No decoding import fails as a guest error. -/
theorem call_neverTraps (call : DecodingCall) :
    (call.hostExport.call overflowChecks callback store call.params).NeverTraps := by
  cases call with
  | hostCall | asyncHostCall =>
    exact (decodeRequest_neverTraps _ _ _ _ _ _ _ _ _).bind fun _ => Outcome.neverTraps_returned _
  | consoleLog | guestError =>
    exact (getVecFromMemory_neverTraps _ _ _ _).bind fun _ =>
      (Outcome.neverTraps_unwrap _).bind fun _ => Outcome.neverTraps_returned _
  | guestResponse =>
    exact (getVecFromMemory_neverTraps _ _ _ _).bind fun _ => Outcome.neverTraps_returned _

/-- A decoded request came from readable regions. -/
theorem readable_of_decodeRequest {memory : Memory}
    {bdPtr bdLen nsPtr nsLen opPtr opLen ptr len : I32} {request : HostRequest}
    (decoded : decodeRequest overflowChecks memory bdPtr bdLen nsPtr nsLen opPtr opLen ptr len =
      .returned request) :
    Readable memory ptr len ∧ Readable memory bdPtr bdLen ∧ Readable memory nsPtr nsLen ∧
      Readable memory opPtr opLen := by
  obtain ⟨_, payload, rest⟩ := Outcome.bind_eq_returned.mp decoded
  obtain ⟨_, bd, rest⟩ := Outcome.bind_eq_returned.mp rest
  obtain ⟨_, _, rest⟩ := Outcome.bind_eq_returned.mp rest
  obtain ⟨_, ns, rest⟩ := Outcome.bind_eq_returned.mp rest
  obtain ⟨_, _, rest⟩ := Outcome.bind_eq_returned.mp rest
  obtain ⟨_, op, _⟩ := Outcome.bind_eq_returned.mp rest
  exact ⟨readable_of_returned payload, readable_of_returned bd, readable_of_returned ns,
    readable_of_returned op⟩

/-- An import that returned has read all of its regions. -/
theorem readable_of_call {call : DecodingCall} {result : List I32 × Store World}
    (returned : call.hostExport.call overflowChecks callback store call.params =
      .returned result) :
    ∀ region ∈ call.regions, Readable store.memory region.ptr region.len := by
  cases call with
  | hostCall | asyncHostCall =>
    obtain ⟨request, decoded, _⟩ := Outcome.bind_eq_returned.mp returned
    simpa [regions] using readable_of_decodeRequest decoded
  | consoleLog | guestResponse | guestError =>
    obtain ⟨vec, read, _⟩ := Outcome.bind_eq_returned.mp returned
    simpa [regions] using readable_of_returned read

/-- Readable regions with valid text are decoded exactly. -/
theorem decodeRequest_eq {memory : Memory} {bdPtr bdLen nsPtr nsLen opPtr opLen ptr len : I32}
    {bd ns op : String} (payload : Readable memory ptr len)
    (bdRead : Readable memory bdPtr bdLen) (nsRead : Readable memory nsPtr nsLen)
    (opRead : Readable memory opPtr opLen)
    (bdText : fromUtf8 (memory.region bdPtr bdLen.toNat) = some bd)
    (nsText : fromUtf8 (memory.region nsPtr nsLen.toNat) = some ns)
    (opText : fromUtf8 (memory.region opPtr opLen.toNat) = some op) :
    decodeRequest overflowChecks memory bdPtr bdLen nsPtr nsLen opPtr opLen ptr len =
      .returned ⟨bd, ns, op, memory.region ptr len.toNat⟩ := by
  unfold decodeRequest
  rw [getVecFromMemory_readable _ payload, getVecFromMemory_readable _ bdRead,
    getVecFromMemory_readable _ nsRead, getVecFromMemory_readable _ opRead]
  simp only [Outcome.returned_bind, bdText, nsText, opText, Outcome.unwrap_some]

/-- The import hands exactly the bytes of valid, low regions to the host. -/
theorem call_of_valid {call : DecodingCall}
    (valid : ∀ region ∈ call.regions, region.Valid store.memory ∧ region.Low) :
    ∃ result, call.receive callback store (call.regions.map (·.bytes store.memory)) =
        some result ∧
      call.hostExport.call overflowChecks callback store call.params = .returned result := by
  have readable : ∀ region ∈ call.regions, Readable store.memory region.ptr region.len :=
    fun region member => ⟨(valid region member).1.1, (valid region member).2⟩
  have decodes : ∀ region ∈ call.regions, region.text →
      ∃ text, fromUtf8 (region.bytes store.memory) = some text :=
    fun region member text => Option.isSome_iff_exists.mp ((valid region member).1.2 text)
  cases call with
  | hostCall bdPtr bdLen nsPtr nsLen opPtr opLen ptr len =>
    simp only [regions, Region.bytes, List.mem_cons, List.not_mem_nil, or_false,
      forall_eq_or_imp, forall_eq] at readable decodes
    obtain ⟨payload, bdRead, nsRead, opRead⟩ := readable
    obtain ⟨_, bdText, nsText, opText⟩ := decodes
    obtain ⟨bd, bdText⟩ := bdText trivial
    obtain ⟨ns, nsText⟩ := nsText trivial
    obtain ⟨op, opText⟩ := opText trivial
    refine ⟨makeHostCall callback store ⟨bd, ns, op, store.memory.region ptr len.toNat⟩, ?_, ?_⟩
    · simp [receive, regions, Region.bytes, bdText, nsText, opText]
    · simp only [hostExport, params, HostExports.call, linkerHostCall]
      rw [decodeRequest_eq payload bdRead nsRead opRead bdText nsText opText]
      rfl
  | asyncHostCall bdPtr bdLen nsPtr nsLen opPtr opLen ptr len =>
    simp only [regions, Region.bytes, List.mem_cons, List.not_mem_nil, or_false,
      forall_eq_or_imp, forall_eq] at readable decodes
    obtain ⟨payload, bdRead, nsRead, opRead⟩ := readable
    obtain ⟨_, bdText, nsText, opText⟩ := decodes
    obtain ⟨bd, bdText⟩ := bdText trivial
    obtain ⟨ns, nsText⟩ := nsText trivial
    obtain ⟨op, opText⟩ := opText trivial
    refine ⟨spawnHostCall store ⟨bd, ns, op, store.memory.region ptr len.toNat⟩, ?_, ?_⟩
    · simp [receive, regions, Region.bytes, bdText, nsText, opText]
    · simp only [hostExport, params, HostExports.call, linkerAsyncHostCall]
      rw [decodeRequest_eq payload bdRead nsRead opRead bdText nsText opText]
      rfl
  | consoleLog ptr len =>
    simp only [regions, Region.bytes, List.mem_singleton, forall_eq] at readable decodes
    obtain ⟨msg, text⟩ := decodes trivial
    refine ⟨([], { store with console := store.console ++ [msg] }), ?_, ?_⟩
    · simp [receive, regions, Region.bytes, text]
    · simp only [hostExport, params, HostExports.call, linkerConsoleLog]
      rw [getVecFromMemory_readable _ readable]
      simp only [Outcome.returned_bind, text, Outcome.unwrap_some]
  | guestResponse id ptr len =>
    simp only [regions, List.mem_singleton, forall_eq] at readable
    refine ⟨([], { store with module := store.module.setGuestResponse id _ }), rfl, ?_⟩
    simp only [hostExport, params, HostExports.call, linkerGuestResponse]
    rw [getVecFromMemory_readable _ readable]
    rfl
  | guestError id ptr len =>
    simp only [regions, Region.bytes, List.mem_singleton, forall_eq] at readable decodes
    obtain ⟨error, text⟩ := decodes trivial
    refine ⟨([], { store with module := store.module.setGuestError id error }), ?_, ?_⟩
    · simp [receive, regions, Region.bytes, text]
    · simp only [hostExport, params, HostExports.call, linkerGuestError]
      rw [getVecFromMemory_readable _ readable]
      simp only [Outcome.returned_bind, text, Outcome.unwrap_some]

/-- An import decodes its regions exactly when they are all valid and end below
`2 ^ 31`: it panics on invalid ones, and on valid ones that lie higher. -/
theorem regions_decoded_exactly_iff (overflowChecks : Bool)
    (callback : Option (HostCallback World)) (store : Store World) (call : DecodingCall) :
    call.DecodedExactly overflowChecks callback store ↔
      ∀ region ∈ call.regions, region.Valid store.memory ∧ region.Low := by
  constructor
  · rintro ⟨obtained, failed⟩
    by_cases valid : ∀ region ∈ call.regions, region.Valid store.memory
    · obtain ⟨result, _, returned⟩ := obtained valid
      exact fun region member =>
        ⟨valid region member, (readable_of_call returned region member).2⟩
    · obtain ⟨message, trapped⟩ := failed valid
      exact absurd trapped (call_neverTraps call message)
  · intro valid
    exact ⟨fun _ => call_of_valid valid,
      fun invalid => absurd (fun region member => (valid region member).1) invalid⟩

end Contract

end DecodingCall

/-- A guest error whose only byte is no text panics the host. -/
theorem guest_error_not_utf8_panics :
    ¬ ∀ (overflowChecks : Bool) (store : Store Unit) (call : DecodingCall),
      call.DecodedExactly overflowChecks none store := by
  intro decoded
  let store : Store Unit := ⟨ModuleState.new 0, ⟨65536, by decide, fun _ => 0xFF⟩, [], [], ()⟩
  have noText : fromUtf8 (store.memory.region 0 1) = none := by decide
  obtain ⟨_, failed⟩ := decoded true store (.guestError 1 0 1)
  have invalid : ¬ ∀ region ∈ (DecodingCall.guestError 1 0 1).regions,
      region.Valid store.memory := by
    intro valid
    have text : (fromUtf8 (store.memory.region 0 1)).isSome :=
      (valid ⟨0, 1, true⟩ (List.mem_singleton.mpr rfl)).2 rfl
    rw [noText] at text
    cases text
  obtain ⟨message, trapped⟩ := failed invalid
  have readable : Readable store.memory 0 1 := by decide
  simp only [DecodingCall.hostExport, DecodingCall.params, HostExports.call,
    linkerGuestError] at trapped
  rw [getVecFromMemory_readable _ readable] at trapped
  change (Outcome.unwrap (fromUtf8 (store.memory.region 0 1))).bind _ = _ at trapped
  rw [noText] at trapped
  cases trapped

end Wapc.Provider
