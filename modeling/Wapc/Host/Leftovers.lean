import Wapc.Host.Context
import Wapc.Host.Ids

/-!
# What a finished call leaves in the map

`WapcCallContext` on top of any engine: the engine's guest and the tasks of its host
calls run some operations on the module state, and the engine returns a code or an
error. A call that ends with its status takes its own entry out of the map. Nothing
takes out the entries of the host calls made meanwhile; they go with the context.
-/

namespace Wapc.Host

open Semantics

/-- An operation of the guest or of a task. Only the call context itself starts
invocations and takes their states. -/
def Op.byGuest : Op → Bool
  | .newInvocation _ | .takeState _ => false
  | _ => true

/-- `WapcCallContext::call`: the engine runs the operations and returns. -/
def WapcCallContext.call (state : ModuleState) (inv : Invocation) (ops : List Op)
    (engine : Except String I32) : Outcome (CallResult × ModuleState) :=
  let (index, _, state) := state.newInvocation inv
  (state.run ops).bind fun state =>
    match engine with
    | .error e => .returned (.error (.guestCallFailure e), state)
    | .ok callresult =>
      let (taken, state) := state.takeState index
      (Outcome.unwrap taken).bind fun taken => .returned (syncResult callresult taken, state)

/-- The future of `WapcCallContext::call_async`, once it is polled. -/
def resolveAsync (engine : Except String I32) (state : ModuleState) (rx : Oneshot) :
    Option CallResult :=
  match engine with
  | .error e => some (.error (.guestCallFailure e))
  | .ok callresult =>
    if 0 < callresult.toInt then
      some (.error (.guestCallFailure
        "Call did not produce an error but returned an error status code."))
    else
      match state.oneshots.delivered rx with
      | status :: _ => some (asyncResult status)
      | [] =>
        if state.oneshots.dropped rx then some (.error (.guestCallFailure "Async wait failed"))
        else none

/-- `WapcCallContext::call_async` and the operations until its future is polled;
`none` is a future that still waits. -/
def WapcCallContext.callAsync (state : ModuleState) (inv : Invocation) (ops : List Op)
    (engine : Except String I32) : Outcome (Option CallResult × ModuleState) :=
  let (_, rx, state) := state.newInvocation inv
  (state.run ops).bind fun state => .returned (resolveAsync engine state rx, state)

/-- The ids of the host calls made during a call that starts in this state. -/
def hostCallsDuring (state : ModuleState) (ops : List Op) : List I32 :=
  hostCallIds (state.callIndex + 1) ops

/-- The map has neither an entry of the call nor of the host calls made for it. -/
def LeavesNothing (state : ModuleState) (ops : List Op) (final : ModuleState) : Prop :=
  ∀ key, key = state.callIndex ∨ key ∈ hostCallsDuring state ops → final.calls key = none

/-- The call has no entry of its own any more, unless its id was given away again. The
host calls made for it have theirs, and no other entry is new. -/
structure LeavesHostCalls (state : ModuleState) (ops : List Op) (final : ModuleState) : Prop where
  own : final.calls state.callIndex = none ∨ state.callIndex ∈ hostCallsDuring state ops
  kept : ∀ key ∈ hostCallsDuring state ops, key ≠ state.callIndex → final.calls key ≠ none
  old : ∀ key, key ∉ hostCallsDuring state ops → key ≠ state.callIndex →
    final.calls key ≠ none → state.calls key ≠ none

/-- What the guest and its tasks do keeps the entries of host calls. -/
theorem ModuleState.HasHostCall.apply {state next : ModuleState} {id : I32} {op : Op}
    (has : state.HasHostCall id) (guest : op.byGuest)
    (applied : op.apply state = .returned next) : next.HasHostCall id := by
  cases op with
  | newInvocation | takeState => cases guest
  | beginHostCall =>
    cases applied
    exact beginHostCall (.inr has)
  | recordHostResult other result =>
    cases applied
    rw [recordHostResult_eq]
    exact has.modifyCall other fun call => by cases result <;> rfl
  | setGuestResponse other response =>
    cases applied
    exact has.modifyCall other fun _ => rfl
  | setGuestError other error =>
    cases applied
    exact has.modifyCall other fun _ => rfl
  | setGuestCallComplete other code response =>
    have stored : (state.setGuestResponse other response).HasHostCall id :=
      has.modifyCall other fun _ => rfl
    exact stored.finish applied
  | finishGuestInvocation other code => exact has.finish applied

/-- A guest's operation that takes an id is a host call. -/
theorem Op.beginHostCall_of_allocates {op : Op} (guest : op.byGuest) (allocates : op.allocates) :
    op = .beginHostCall := by
  cases op with
  | beginHostCall => rfl
  | newInvocation => cases guest
  | _ => cases allocates

section Run

variable {state final : ModuleState} {ops : List Op}

/-- The host calls of a run have entries at its end. -/
theorem run_keeps (executed : state.run ops = .returned final)
    (guest : ∀ op ∈ ops, op.byGuest) {key : I32}
    (has : state.HasHostCall key ∨ key ∈ hostCallIds state.callIndex ops) :
    final.HasHostCall key := by
  induction ops generalizing state with
  | nil =>
    cases executed
    exact has.resolve_right (List.not_mem_nil)
  | cons op ops ih =>
    obtain ⟨middle, applied, rest⟩ := Outcome.bind_eq_returned.mp executed
    refine ih rest (fun op' member => guest op' (List.mem_cons_of_mem _ member)) ?_
    rcases has with before | member
    · exact .inl (before.apply (guest op (by simp)) applied)
    rw [hostCallIds_cons ops applied] at member
    rcases List.mem_append.mp member with new | later
    · left
      cases op with
      | beginHostCall =>
        cases applied
        cases List.mem_singleton.mp new
        exact ⟨{}, by simp [ModuleState.beginHostCall, ModuleState.initHostCall,
          ModuleState.fetchAdd], rfl⟩
      | _ => cases new
    · exact .inr later

/-- All new entries of a run are those of its host calls. -/
theorem run_old (executed : state.run ops = .returned final) (guest : ∀ op ∈ ops, op.byGuest)
    {key : I32} (present : final.calls key ≠ none) :
    state.calls key ≠ none ∨ key ∈ hostCallIds state.callIndex ops := by
  induction ops generalizing state with
  | nil =>
    cases executed
    exact .inl present
  | cons op ops ih =>
    obtain ⟨middle, applied, rest⟩ := Outcome.bind_eq_returned.mp executed
    rw [hostCallIds_cons ops applied, List.mem_append]
    rcases ih rest fun op' member => guest op' (List.mem_cons_of_mem _ member) with before | later
    · rcases Op.apply_keys applied before with before | ⟨allocates, rfl⟩
      · exact .inl before
      · rw [Op.beginHostCall_of_allocates (guest op (by simp)) allocates]
        exact .inr (.inl (by simp [hostCallIds]))
    · exact .inr (.inr later)

end Run

/-- No entry holds a channel that is yet to be opened. -/
theorem ModuleState.WellFormed.holds_opened {state : ModuleState} (wellFormed : state.WellFormed)
    (id : I32) {tx : Oneshot} (unopened : state.oneshots.opened ≤ tx) :
    (state.calls id).bind (·.channel) ≠ some tx := by
  intro held
  obtain ⟨call, present, holds⟩ := Option.bind_eq_some_iff.mp held
  exact absurd (wellFormed.channels id call tx present holds) (Nat.not_lt.mpr unopened)

/-- No sender was dropped of a channel that is yet to be opened. -/
def ModuleState.Undropped (state : ModuleState) : Prop :=
  ∀ tx, state.oneshots.opened ≤ tx → state.oneshots.dropped tx = false

namespace ModuleState.Undropped

variable {state next : ModuleState}

theorem insert (undropped : state.Undropped) (wellFormed : state.WellFormed) (id : I32)
    (call : CallState) : (state.insertCall id call).Undropped := by
  intro tx unopened
  rw [insertCall_oneshots, Oneshots.dropSender_opened] at unopened
  rw [insertCall_oneshots,
    Oneshots.dropSender_dropped_other _ (wellFormed.holds_opened id unopened)]
  exact undropped tx unopened

theorem finish (undropped : state.Undropped) {id code : I32}
    (finish : state.finishGuestInvocation id code = .returned next) : next.Undropped := by
  rcases finish_cases finish with ⟨_, rfl⟩ | ⟨_, _, _, _, rfl⟩ <;> exact undropped

theorem modify (undropped : state.Undropped) (id : I32) (change : CallState → CallState) :
    (state.modifyCall id change).Undropped := by
  unfold ModuleState.Undropped
  rw [modifyCall_oneshots]
  exact undropped

theorem newInvocation (undropped : state.Undropped) (wellFormed : state.WellFormed)
    (inv : Invocation) : (state.newInvocation inv).2.2.Undropped := by
  have opened : ({ state with
      callIndex := state.callIndex + 1
      oneshots := state.oneshots.channel.2 } : ModuleState).Undropped :=
    fun tx later => undropped tx (Nat.le_of_succ_le later)
  refine opened.insert ⟨?_, fun tx later => ?_, wellFormed.kinds⟩ _ _
  · exact fun id call tx present holds =>
      Nat.lt_succ_of_lt (wellFormed.channels id call tx present holds)
  · exact wellFormed.unsent tx (Nat.le_of_succ_le later)

theorem apply {op : Op} (undropped : state.Undropped) (wellFormed : state.WellFormed)
    (applied : op.apply state = .returned next) : next.Undropped := by
  cases op with
  | newInvocation inv => cases applied; exact undropped.newInvocation wellFormed inv
  | beginHostCall =>
    cases applied
    have advanced : ({ state with callIndex := state.callIndex + 1 } : ModuleState).Undropped :=
      undropped
    exact advanced.insert ⟨wellFormed.channels, wellFormed.unsent, wellFormed.kinds⟩ _ _
  | recordHostResult id result =>
    cases applied
    rw [recordHostResult_eq]
    exact undropped.modify id _
  | setGuestResponse id response => cases applied; exact undropped.modify id _
  | setGuestError id error => cases applied; exact undropped.modify id _
  | setGuestCallComplete id code response =>
    have stored : (state.setGuestResponse id response).Undropped := undropped.modify id _
    exact stored.finish applied
  | finishGuestInvocation id code => exact undropped.finish applied
  | takeState id => cases applied; exact undropped

theorem run {ops : List Op} (undropped : state.Undropped) (wellFormed : state.WellFormed)
    (executed : state.run ops = .returned next) : next.WellFormed ∧ next.Undropped :=
  run_invariant (motive := fun reached => reached.WellFormed ∧ reached.Undropped) executed
    ⟨wellFormed, undropped⟩ fun op _ _ _ before applied =>
      ⟨before.1.apply op applied, before.2.apply before.1 applied⟩

end ModuleState.Undropped

/-- An operation that does not give an outstanding invocation's id away again does not
drop its sender. -/
theorem Follows.keeps_sender {state next : ModuleState} {id : I32} {rx : Oneshot}
    {inv : Invocation} {life : Life} {op : Op} (follows : Follows state id rx inv life)
    (guest : op.byGuest) (applied : op.apply state = .returned next)
    (fresh : op.allocates → state.callIndex ≠ id) :
    next.oneshots.dropped rx = state.oneshots.dropped rx := by
  have finished {before : ModuleState} {other code : I32}
      (finish : before.finishGuestInvocation other code = .returned next) :
      next.oneshots.dropped = before.oneshots.dropped := by
    rcases ModuleState.finish_cases finish with ⟨_, rfl⟩ | ⟨_, _, _, _, rfl⟩ <;> rfl
  cases op with
  | newInvocation | takeState => cases guest
  | beginHostCall =>
    cases applied
    refine Oneshots.dropSender_dropped_other state.oneshots fun held => ?_
    obtain ⟨call, present, holds⟩ := Option.bind_eq_some_iff.mp held
    exact fresh rfl (follows.exclusive _ call present holds).1
  | recordHostResult other result =>
    cases applied
    rw [ModuleState.recordHostResult_eq, ModuleState.modifyCall_oneshots]
  | setGuestResponse other response =>
    cases applied
    exact congrArg (·.dropped rx) (ModuleState.modifyCall_oneshots ..)
  | setGuestError other error =>
    cases applied
    exact congrArg (·.dropped rx) (ModuleState.modifyCall_oneshots ..)
  | setGuestCallComplete other code response =>
    rw [finished applied]
    exact congrArg (·.dropped rx) (ModuleState.modifyCall_oneshots ..)
  | finishGuestInvocation other code => rw [finished applied]

/-- An invocation whose id is not given away again: its sender is not dropped, and it
has no entry once it has ended. -/
structure Apart (state : ModuleState) (id : I32) (rx : Oneshot) (inv : Invocation) (life : Life) :
    Prop where
  follows : Follows state id rx inv life
  sender : state.oneshots.dropped rx = false
  gone : (∀ response error, life ≠ .outstanding response error) → state.calls id = none

namespace Apart

variable {state next final : ModuleState} {id : I32} {rx : Oneshot} {inv : Invocation} {life : Life}

theorem step {op : Op} (apart : Apart state id rx inv life) (guest : op.byGuest)
    (applied : op.apply state = .returned next) (fresh : op.allocates → state.callIndex ≠ id) :
    Apart next id rx inv (life.step id op) where
  follows := apart.follows.step applied fun _ => fresh
  sender := (apart.follows.keeps_sender guest applied fresh).trans apart.sender
  gone := by
    intro finished
    by_cases ended : op.ends id
    · exact Op.ends_clears ended applied
    · rw [Op.apply_calls applied ended fresh, apart.gone, Option.map_none]
      rintro response error rfl
      exact finished _ _ (Life.step_outstanding ended response error)

theorem run {ops : List Op} (apart : Apart state id rx inv life)
    (executed : state.run ops = .returned final) (guest : ∀ op ∈ ops, op.byGuest)
    (kept : id ∉ hostCallIds state.callIndex ops) : ∃ later, Apart final id rx inv later := by
  induction ops generalizing state life with
  | nil =>
    cases executed
    exact ⟨life, apart⟩
  | cons op ops ih =>
    obtain ⟨middle, applied, rest⟩ := Outcome.bind_eq_returned.mp executed
    rw [hostCallIds_cons ops applied, List.mem_append, not_or] at kept
    have fresh : op.allocates → state.callIndex ≠ id := by
      rintro allocates rfl
      rw [Op.beginHostCall_of_allocates (guest op (by simp)) allocates] at kept
      exact kept.1 (by simp [hostCallIds])
    exact ih (apart.step (guest op (by simp)) applied fresh) rest
      (fun op' member => guest op' (List.mem_cons_of_mem _ member)) kept.2

/-- The invocation a call starts with. -/
theorem newInvocation (wellFormed : state.WellFormed) (undropped : state.Undropped)
    (inv : Invocation) :
    Apart (state.newInvocation inv).2.2 state.callIndex state.oneshots.opened inv
      (.outstanding none none) where
  follows := .newInvocation state inv wellFormed.channels (wellFormed.unsent _ (Nat.le_refl _))
  sender := by
    have held := wellFormed.holds_opened state.callIndex (Nat.le_refl state.oneshots.opened)
    have kept := Oneshots.dropSender_dropped_other state.oneshots.channel.2 held
    exact kept.trans (undropped _ (Nat.le_refl _))
  gone := fun finished => absurd rfl (finished none none)

end Apart

section Calls

variable {state final : ModuleState} {inv : Invocation} {ops : List Op}

/-- The entries of the host calls, and no other new ones, are there when the
operations of a call are over. -/
theorem leaves_of_run {middle : ModuleState} (executed : (state.newInvocation inv).2.2.run ops =
      .returned middle) (guest : ∀ op ∈ ops, op.byGuest)
    (same : ∀ key, key ≠ state.callIndex → final.calls key = middle.calls key)
    (own : final.calls state.callIndex = none ∨ state.callIndex ∈ hostCallsDuring state ops) :
    LeavesHostCalls state ops final where
  own := own
  kept := by
    intro key member different
    obtain ⟨call, present, _⟩ := run_keeps executed guest (.inr member)
    rw [same key different, present]
    exact Option.some_ne_none call
  old := by
    intro key absent different present
    rw [same key different] at present
    have before := (run_old executed guest present).resolve_right absent
    simpa [ModuleState.newInvocation, ModuleState.fetchAdd, different] using before

theorem call_leaves (guest : ∀ op ∈ ops, op.byGuest) {callresult : I32} {result : CallResult}
    (returned : WapcCallContext.call state inv ops (.ok callresult) = .returned (result, final)) :
    LeavesHostCalls state ops final := by
  obtain ⟨middle, executed, rest⟩ := Outcome.bind_eq_returned.mp returned
  obtain ⟨taken, _, ended⟩ := Outcome.bind_eq_returned.mp rest
  cases ended
  refine leaves_of_run executed guest (fun key different => ?_) (.inl ?_)
  · simp [different]
  · simp

theorem callAsync_leaves (wellFormed : state.WellFormed) (undropped : state.Undropped)
    (guest : ∀ op ∈ ops, op.byGuest) {callresult : I32} (proper : ¬ 0 < callresult.toInt)
    {result : CallResult} (resolved : WapcCallContext.callAsync state inv ops (.ok callresult) =
      .returned (some result, final)) : LeavesHostCalls state ops final := by
  obtain ⟨middle, executed, rest⟩ := Outcome.bind_eq_returned.mp resolved
  obtain ⟨ready, rfl⟩ := Prod.mk.inj (Outcome.returned.inj rest)
  change resolveAsync (.ok callresult) middle state.oneshots.opened = some result at ready
  refine leaves_of_run executed guest (fun _ _ => rfl) ?_
  by_cases again : state.callIndex ∈ hostCallsDuring state ops
  · exact .inr again
  left
  obtain ⟨life, apart⟩ :=
    (Apart.newInvocation wellFormed undropped inv).run executed guest again
  -- A receiver that is ready got a status, since its sender was not dropped.
  refine apart.gone fun response error outstanding => ?_
  have silent := apart.follows.silent fun code response' error' finished => by
    rw [outstanding] at finished
    cases finished
  simp [resolveAsync, proper, silent, apart.sender] at ready

end Calls

/-- A call that ends with a code of its engine, or an async one that ends after its
engine accepted it, leaves no entry of its own. The host calls made for it keep theirs,
and nothing else is new in the map. -/
theorem finished_call_leaves_host_calls (moduleId : Nat) (prior : List Op) (state : ModuleState)
    (reached : (ModuleState.new moduleId).run prior = .returned state) (inv : Invocation)
    (ops : List Op) (guest : ∀ op ∈ ops, op.byGuest) (callresult : I32) (result : CallResult)
    (final : ModuleState) :
    (WapcCallContext.call state inv ops (.ok callresult) = .returned (result, final) →
      LeavesHostCalls state ops final) ∧
    (¬ 0 < callresult.toInt →
      WapcCallContext.callAsync state inv ops (.ok callresult) = .returned (some result, final) →
      LeavesHostCalls state ops final) := by
  have fresh : (ModuleState.new moduleId).Undropped := fun _ _ => rfl
  obtain ⟨wellFormed, undropped⟩ := fresh.run (.new moduleId) reached
  exact ⟨call_leaves guest, fun proper resolved =>
    callAsync_leaves wellFormed undropped guest proper resolved⟩

/-- A guest that makes one host call and answers. -/
def hostCallingGuest : List Op :=
  [.beginHostCall, .recordHostResult 2 (.ok [7]), .setGuestResponse 1 [7]]

theorem host_calling_guest_leaves_host_call :
    ∃ result final, WapcCallContext.call (.new 0) ⟨"ping", []⟩ hostCallingGuest (.ok 1) =
      .returned (result, final) ∧ LeavesHostCalls (.new 0) hostCallingGuest final :=
  ⟨_, _, rfl, (finished_call_leaves_host_calls 0 [] (.new 0) rfl ⟨"ping", []⟩ hostCallingGuest
    (by simp [hostCallingGuest, Op.byGuest]) 1 _ _).1 rfl⟩

/-- The entry of the host call is still there when the call has returned. -/
theorem finished_call_leaves_something :
    ¬ ∀ (state : ModuleState) (inv : Invocation) (ops : List Op) (engine : Except String I32)
      (result : CallResult) (final : ModuleState), (∀ op ∈ ops, op.byGuest) →
      WapcCallContext.call state inv ops engine = .returned (result, final) →
      LeavesNothing state ops final := by
  intro nothing
  have absent := nothing (.new 0) ⟨"ping", []⟩ hostCallingGuest (.ok 1) _ _
    (by simp [hostCallingGuest, Op.byGuest]) rfl 2 (.inr (by decide))
  exact absurd absent nofun

end Wapc.Host
