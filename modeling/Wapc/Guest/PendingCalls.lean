import Wapc.Guest.AsyncHostCall
import Wapc.Semantics.Histories

/-!
# The table of pending host calls

`async_host_call` puts a sender into `ASYNC_HOST_CALLS` before the host has answered, and
only `__host_call_response_ready` takes one out. Here the host keeps to the guest's own
number: it refuses a call, or accepts it and answers it once. The table is exact as long
as the host refuses nothing and no number is used again while its call is pending.
-/

namespace Wapc.Guest

open Semantics Host

namespace AsyncSdk

/-- Poll a future, for which the host has these bytes under its number. -/
def pollFuture (error response : Bytes) (future : Future) : Option (Except ErrorKind Bytes) :=
  if future.callresult = 0 then some (.ok error)
  else
    match future.recv with
    | .pending => none
    | .code _ => some (.ok response)
    | .closed => some (.error (.async future.index "channel closed"))

/-- Inside a host the bytes are those of its module state. -/
theorem pollResult_eq (module : ModuleState) (future : Future) :
    pollResult module future = pollFuture ((module.getHostError future.index).elim [] asBytes)
      ((module.getHostResponse future.index).getD []) future := rfl

/-- The calls made so far: their numbers, and what the import returned. -/
def calls (sdk : AsyncSdk) : List (I32 × I32) :=
  sdk.futures.map fun future => (future.index, future.callresult)

end AsyncSdk

/-- The SDK of a guest, and what was done with its calls. A call is named by its position. -/
structure HostedSdk where
  sdk : AsyncSdk
  answered : List Nat
  dropped : List Nat
  trapped : Bool

/-- The guest calls, polls or drops, and the host answers. -/
inductive HostedEvent where
  | hostCall
  | asyncHostCall (callresult : I32)
  | answer (n : Nat) (code : I32)
  | poll (n : Nat) (error response : Bytes)
  | dropFuture (n : Nat)

namespace HostedSdk

def new : HostedSdk := ⟨⟨0, fun _ => none, []⟩, [], [], false⟩

variable (system : HostedSdk)

/-- A synchronous `host_call` takes a number from the same counter. -/
def hostCall : Option HostedSdk :=
  if system.trapped then none
  else some { system with sdk := { system.sdk with callNum := system.sdk.callNum + 1 } }

/-- The guest makes a call, and its import returns `callresult`. -/
def asyncHostCall (callresult : I32) : Option HostedSdk :=
  if system.trapped then none
  else some { system with sdk := system.sdk.asyncHostCall callresult }

/-- The host answers a call that it accepted and did not answer, under the guest's number;
the entry traps when it does not find the call. -/
def answer (n : Nat) (code : I32) : Option HostedSdk :=
  match system.sdk.calls[n]? with
  | some (index, callresult) =>
    if system.trapped = false ∧ callresult ≠ 0 ∧ n ∉ system.answered then
      match system.sdk.hostCallResponseReady index code with
      | some sdk => some { system with sdk := sdk, answered := n :: system.answered }
      | none => some { system with answered := n :: system.answered, trapped := true }
    else none
  | none => none

/-- A future that was not dropped is polled until it resolves. -/
def poll (n : Nat) (error response : Bytes) : Option HostedSdk :=
  match system.sdk.futures[n]? with
  | some future =>
    if system.trapped = false ∧ n ∉ system.dropped ∧ future.result = none then
      (AsyncSdk.pollFuture error response future).map fun result =>
        { system with sdk := { system.sdk with
          futures := system.sdk.futures.set n { future with result := some result } } }
    else none
  | none => none

def dropFuture (n : Nat) : Option HostedSdk :=
  if system.trapped = false ∧ n < system.sdk.futures.length ∧ n ∉ system.dropped then
    some { system with dropped := n :: system.dropped }
  else none

def step : HostedEvent → Option HostedSdk
  | .hostCall => system.hostCall
  | .asyncHostCall callresult => system.asyncHostCall callresult
  | .answer n code => system.answer n code
  | .poll n error response => system.poll n error response
  | .dropFuture n => system.dropFuture n

/-- The guest and its host as a machine. -/
def machine : Machine HostedSdk HostedEvent := ⟨step⟩

/-- Call `n` has this number, was accepted and is not answered. -/
def PendingCall (index : I32) (n : Nat) : Prop :=
  (∃ callresult, system.sdk.calls[n]? = some (index, callresult) ∧ callresult ≠ 0) ∧
    n ∉ system.answered

/-- The table has the sender of each pending call under its number, and nothing else. -/
def Exact : Prop :=
  ∀ index n, system.sdk.asyncHostCalls index = some n ↔ system.PendingCall index n

/-- A refused call leaves the table as it was, and its future resolves to the error. -/
def Refuses (system : HostedSdk) (event : HostedEvent) (next : HostedSdk) : Prop :=
  match event with
  | .asyncHostCall callresult =>
    callresult = 0 → next.sdk.asyncHostCalls = system.sdk.asyncHostCalls
  | .poll n error _ => ∀ future, system.sdk.futures[n]? = some future → future.callresult = 0 →
    ∃ after, next.sdk.futures[n]? = some after ∧ after.result = some (.error (.hostError error))
  | _ => True

/-- In a run the table is always exact, and refused calls are reported. -/
def KeepsTable (events : List HostedEvent) : Prop :=
  machine.Throughout Exact .new events ∧ machine.Along Refuses .new events

/-- A call is accepted, and no pending call has its number. -/
def Accepts (system : HostedSdk) (event : HostedEvent) (_ : HostedSdk) : Prop :=
  match event with
  | .asyncHostCall callresult => callresult ≠ 0 ∧ ∀ n, ¬ system.PendingCall system.sdk.callNum n
  | _ => True

end HostedSdk

namespace AsyncSdk

variable (sdk : AsyncSdk)

/-- Sending changes receivers, never a call. -/
theorem send_calls (tx : Nat) (recv : Receiver) : (sdk.send tx recv).calls = sdk.calls := by
  unfold calls send
  apply List.ext_getElem?
  intro n
  rw [List.getElem?_map, List.getElem?_map, List.getElem?_modify]
  split <;> simp [Function.comp_def]

theorem insertCall_calls (index : I32) (tx : Nat) :
    (sdk.insertCall index tx).calls = sdk.calls := by
  unfold insertCall
  cases sdk.asyncHostCalls index with
  | some old => exact send_calls sdk old .closed
  | none => rfl

theorem asyncHostCall_calls (callresult : I32) :
    (sdk.asyncHostCall callresult).calls = sdk.calls ++ [(sdk.callNum, callresult)] := by
  have kept := insertCall_calls { sdk with callNum := sdk.callNum + 1 } sdk.callNum
    sdk.futures.length
  unfold asyncHostCall calls
  rw [List.map_append]
  exact congrArg (· ++ [(sdk.callNum, callresult)]) kept

/-- The entry is there before the host's answer is known. -/
theorem asyncHostCall_asyncHostCalls (callresult : I32) :
    (sdk.asyncHostCall callresult).asyncHostCalls =
      Function.update sdk.asyncHostCalls sdk.callNum (some sdk.calls.length) := by
  have count : sdk.calls.length = sdk.futures.length := List.length_map ..
  rw [count]
  rfl

/-- The host's answer takes the call out of the table. -/
theorem hostCallResponseReady_found {id : I32} (code : I32) {tx : Nat}
    (found : sdk.asyncHostCalls id = some tx) :
    ∃ next, sdk.hostCallResponseReady id code = some next ∧ next.calls = sdk.calls ∧
      next.asyncHostCalls = Function.update sdk.asyncHostCalls id none := by
  refine ⟨_, by rw [hostCallResponseReady, found], ?_, rfl⟩
  exact send_calls { sdk with asyncHostCalls := Function.update sdk.asyncHostCalls id none } tx
    (.code code)

/-- Resolving a future makes no call. -/
theorem resolve_calls {n : Nat} {future : Future} (present : sdk.futures[n]? = some future)
    (result : Option (Except ErrorKind Bytes)) :
    calls { sdk with futures := sdk.futures.set n { future with result := result } } =
      sdk.calls := by
  unfold calls
  apply List.ext_getElem?
  intro m
  by_cases same : n = m
  · subst same
    obtain ⟨within, rfl⟩ := List.getElem?_eq_some_iff.mp present
    simp [within]
  · simp [List.getElem?_set_ne same]

end AsyncSdk

namespace HostedSdk

variable {system next : HostedSdk} {events : List HostedEvent}

theorem step_asyncHostCall {callresult : I32}
    (transition : machine.step system (.asyncHostCall callresult) = some next) :
    next = { system with sdk := system.sdk.asyncHostCall callresult } := by
  change system.asyncHostCall callresult = some next at transition
  unfold asyncHostCall at transition
  split at transition
  · cases transition
  · exact (Option.some.inj transition).symm

/-- All that an answer can do: the entry finds the call, or it traps. -/
theorem step_answer {n : Nat} {code : I32}
    (transition : machine.step system (.answer n code) = some next) :
    ∃ index callresult, system.sdk.calls[n]? = some (index, callresult) ∧ callresult ≠ 0 ∧
      n ∉ system.answered ∧
      ((∃ sdk, system.sdk.hostCallResponseReady index code = some sdk ∧
          next = { system with sdk := sdk, answered := n :: system.answered }) ∨
        system.sdk.hostCallResponseReady index code = none) := by
  change system.answer n code = some next at transition
  unfold answer at transition
  split at transition
  · rename_i index callresult made
    split at transition
    · rename_i admitted
      refine ⟨index, callresult, made, admitted.2.1, admitted.2.2, ?_⟩
      split at transition
      · rename_i sdk entered
        exact .inl ⟨sdk, entered, (Option.some.inj transition).symm⟩
      · rename_i missing
        exact .inr missing
    · cases transition
  · cases transition

/-- A poll resolves one future, with the result that polling it gives. -/
theorem step_poll {n : Nat} {error response : Bytes}
    (transition : machine.step system (.poll n error response) = some next) :
    ∃ future result, system.sdk.futures[n]? = some future ∧
      next = { system with sdk := { system.sdk with
        futures := system.sdk.futures.set n { future with result := result } } } := by
  change system.poll n error response = some next at transition
  unfold poll at transition
  split at transition
  · rename_i future present
    split at transition
    · obtain ⟨result, _, moved⟩ := Option.map_eq_some_iff.mp transition
      exact ⟨future, some result, present, moved.symm⟩
    · cases transition
  · cases transition

/-- The host has accepted every call, and what it answered are calls of the exact table. -/
structure Kept (system : HostedSdk) : Prop where
  exact : system.Exact
  accepted : ∀ call ∈ system.sdk.calls, call.2 ≠ 0
  answered : ∀ n ∈ system.answered, n < system.sdk.calls.length

theorem new_kept : new.Kept where
  exact index n := by simp [new, PendingCall, AsyncSdk.calls]
  accepted := by simp [new, AsyncSdk.calls]
  answered := by simp [new]

/-- Only the table, the calls and the answers matter. -/
theorem Kept.congr (kept : system.Kept)
    (table : next.sdk.asyncHostCalls = system.sdk.asyncHostCalls)
    (calls : next.sdk.calls = system.sdk.calls) (answered : next.answered = system.answered) :
    next.Kept where
  exact := by
    intro index n
    unfold PendingCall
    rw [table, calls, answered]
    exact kept.exact index n
  accepted := by rw [calls]; exact kept.accepted
  answered := by rw [calls, answered]; exact kept.answered

/-- An accepted call under a free number enters the table. -/
theorem Kept.asyncHostCall (kept : system.Kept) {callresult : I32} (accepted : callresult ≠ 0)
    (free : ∀ n, ¬ system.PendingCall system.sdk.callNum n) :
    Kept { system with sdk := system.sdk.asyncHostCall callresult } where
  exact := by
    intro index n
    have fresh : system.sdk.calls.length ∉ system.answered :=
      fun member => absurd (kept.answered _ member) (Nat.lt_irrefl _)
    unfold PendingCall
    rw [AsyncSdk.asyncHostCall_asyncHostCalls, AsyncSdk.asyncHostCall_calls]
    rcases Nat.lt_trichotomy n system.sdk.calls.length with earlier | last | beyond
    · -- an earlier call is pending as before, and its number is not the new one
      rw [List.getElem?_append_left earlier]
      by_cases same : index = system.sdk.callNum
      · subst same
        rw [Function.update_self]
        refine ⟨fun found => ?_, fun pending => absurd pending (free n)⟩
        exact absurd (Option.some.inj found) (Nat.ne_of_gt earlier)
      · rw [Function.update_of_ne same]
        exact kept.exact index n
    · subst last
      rw [List.getElem?_concat_length]
      by_cases same : index = system.sdk.callNum
      · subst same
        rw [Function.update_self]
        exact ⟨fun _ => ⟨⟨callresult, rfl, accepted⟩, fresh⟩, fun _ => rfl⟩
      · rw [Function.update_of_ne same, kept.exact]
        constructor
        · rintro ⟨⟨_, made, _⟩, _⟩
          simp at made
        · rintro ⟨⟨_, made, _⟩, _⟩
          exact absurd (congrArg Prod.fst (Option.some.inj made)).symm same
    · rw [List.getElem?_eq_none (by simp; omega)]
      constructor
      · intro found
        by_cases same : index = system.sdk.callNum
        · subst same
          rw [Function.update_self] at found
          exact absurd (Option.some.inj found) (Nat.ne_of_lt beyond)
        · rw [Function.update_of_ne same, kept.exact] at found
          obtain ⟨⟨_, made, _⟩, _⟩ := found
          rw [List.getElem?_eq_none (Nat.le_of_lt beyond)] at made
          cases made
      · rintro ⟨⟨_, made, _⟩, _⟩
        cases made
  accepted := by
    intro call member
    rw [AsyncSdk.asyncHostCall_calls, List.mem_append, List.mem_singleton] at member
    rcases member with earlier | rfl
    · exact kept.accepted call earlier
    · exact accepted
  answered := by
    intro n member
    rw [AsyncSdk.asyncHostCall_calls, List.length_append]
    exact Nat.lt_add_right _ (kept.answered n member)

/-- The answer of a pending call takes it out of the table and never traps. -/
theorem Kept.answer (kept : system.Kept) {n : Nat} {index callresult : I32} (code : I32)
    (made : system.sdk.calls[n]? = some (index, callresult)) (accepted : callresult ≠ 0)
    (waiting : n ∉ system.answered) :
    ∃ sdk, system.sdk.hostCallResponseReady index code = some sdk ∧
      Kept { system with sdk := sdk, answered := n :: system.answered } := by
  have found : system.sdk.asyncHostCalls index = some n :=
    (kept.exact index n).mpr ⟨⟨callresult, made, accepted⟩, waiting⟩
  obtain ⟨sdk, entered, calls, table⟩ := system.sdk.hostCallResponseReady_found code found
  refine ⟨sdk, entered, ?_, ?_, ?_⟩
  · intro other m
    have before := kept.exact other m
    unfold PendingCall at before ⊢
    rw [calls, table, List.mem_cons, not_or]
    by_cases same : other = index
    · subst same
      rw [Function.update_self]
      rw [found] at before
      refine ⟨fun absent => absurd absent (by simp), fun ⟨pending, distinct, rest⟩ => ?_⟩
      exact absurd (Option.some.inj (before.mpr ⟨pending, rest⟩)).symm distinct
    · rw [Function.update_of_ne same, before]
      refine ⟨fun ⟨pending, rest⟩ => ⟨pending, ?_, rest⟩, fun ⟨pending, _, rest⟩ => ⟨pending, rest⟩⟩
      rintro rfl
      obtain ⟨_, other_made, _⟩ := pending
      rw [made] at other_made
      exact same (congrArg Prod.fst (Option.some.inj other_made)).symm
  · rw [calls]
    exact kept.accepted
  · intro m member
    rw [calls]
    rcases List.mem_cons.mp member with rfl | earlier
    · exact (List.getElem?_eq_some_iff.mp made).1
    · exact kept.answered m earlier

/-- An admitted transition keeps the table exact. -/
theorem Kept.step {event : HostedEvent} (kept : system.Kept) (admitted : Accepts system event next)
    (transition : machine.step system event = some next) : next.Kept := by
  cases event with
  | hostCall =>
    change system.hostCall = some next at transition
    unfold hostCall at transition
    split at transition
    · cases transition
    · cases transition
      exact kept.congr rfl rfl rfl
  | asyncHostCall callresult =>
    rw [step_asyncHostCall transition]
    exact kept.asyncHostCall admitted.1 admitted.2
  | answer n code =>
    obtain ⟨index, callresult, made, accepted, waiting, outcome⟩ := step_answer transition
    obtain ⟨sdk, entered, after⟩ := kept.answer code made accepted waiting
    rcases outcome with ⟨sdk', entered', moved⟩ | missing
    · cases entered.symm.trans entered'
      rw [moved]
      exact after
    · cases entered.symm.trans missing
  | poll n error response =>
    obtain ⟨future, result, present, moved⟩ := step_poll transition
    rw [moved]
    exact kept.congr rfl (system.sdk.resolve_calls present result) rfl
  | dropFuture n =>
    change system.dropFuture n = some next at transition
    unfold dropFuture at transition
    split at transition
    · cases transition
      exact kept.congr rfl rfl rfl
    · cases transition

/-- With no refused call there is nothing to report. -/
theorem Kept.refuses {event : HostedEvent} (kept : system.Kept)
    (admitted : Accepts system event next) : Refuses system event next := by
  cases event with
  | asyncHostCall callresult => exact fun refused => absurd refused admitted.1
  | poll n error response =>
    intro future present refused
    have member : (future.index, future.callresult) ∈ system.sdk.calls :=
      List.mem_map_of_mem (List.mem_of_getElem? present)
    exact absurd refused (kept.accepted _ member)
  | hostCall => trivial
  | answer n code => trivial
  | dropFuture n => trivial

/-- A call that leaves an exact table was accepted, and its number was free. -/
theorem accepts_of_exact {callresult : I32} (before : system.Exact) (after : next.Exact)
    (refuses : Refuses system (.asyncHostCall callresult) next)
    (transition : machine.step system (.asyncHostCall callresult) = some next) :
    Accepts system (.asyncHostCall callresult) next := by
  have moved := step_asyncHostCall transition
  have entered : next.sdk.asyncHostCalls system.sdk.callNum = some system.sdk.calls.length := by
    rw [moved, AsyncSdk.asyncHostCall_asyncHostCalls, Function.update_self]
  refine ⟨fun refused => ?_, fun n pending => ?_⟩
  · rw [refuses refused, before] at entered
    obtain ⟨⟨_, made, _⟩, _⟩ := entered
    simp at made
  · obtain ⟨⟨earlier, made, accepted⟩, waiting⟩ := pending
    have within : n < system.sdk.calls.length := (List.getElem?_eq_some_iff.mp made).1
    have still : next.PendingCall system.sdk.callNum n := by
      rw [moved]
      refine ⟨⟨earlier, ?_, accepted⟩, waiting⟩
      rw [AsyncSdk.asyncHostCall_calls, List.getElem?_append_left within]
      exact made
    have found := (after _ n).mpr still
    rw [entered] at found
    exact absurd (Option.some.inj found) (Nat.ne_of_gt within)

/-- The table is kept exactly in the runs in which the host accepts every call and no number
is used again while its call is pending. -/
theorem keeps_table_iff (events : List HostedEvent) :
    KeepsTable events ↔ machine.Along Accepts new events := by
  constructor
  · rintro ⟨exact, refuses⟩ before event state next within executed transition
    cases event with
    | asyncHostCall callresult =>
      obtain ⟨earlier, later⟩ := exact.along within executed transition
      exact accepts_of_exact earlier later (refuses _ _ _ _ within executed transition) transition
    | hostCall => trivial
    | answer n code => trivial
    | poll n error response => trivial
    | dropFuture n => trivial
  · intro accepts
    have kept : machine.Throughout Kept new events :=
      accepts.throughout new_kept fun kept admitted transition => kept.step admitted transition
    refine ⟨fun before state within executed => (kept before state within executed).exact, ?_⟩
    intro before event state next within executed transition
    have earlier := (kept.along within executed transition).1
    exact earlier.refuses (accepts before event state next within executed transition)

/-- A refused call stays in the table. -/
theorem refused_call_not_kept : ¬ ∀ events, KeepsTable events := by
  intro kept
  have accepts := (kept [.asyncHostCall 0]).2 [] (.asyncHostCall 0) new
    { new with sdk := new.sdk.asyncHostCall 0 } (List.prefix_refl _) rfl rfl
  have stays := congrFun (accepts rfl) 0
  exact absurd stays (by decide)

end HostedSdk
end Wapc.Guest
