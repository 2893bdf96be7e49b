import Wapc.Host.Step

/-!
# The same guest called synchronously and asynchronously

`call` reads the result from the engine's return code and the state it takes
back; `call_async` reads it from the status its receiver gets. `performed` is
what the guest did in a run, so that the two can be compared on guests that do
the same. They agree as long as the wrapping counter does not give the id of the
call away to one of the guest's own host calls.
-/

namespace Wapc.Host

open Semantics

/-- The result of a call from a code, the last response and the last error. -/
def callResult (code : I32) (response : Option Bytes) (error : Option String) : CallResult :=
  syncResult code { guestResponse := response, guestError := error }

theorem syncResult_eq {inv : Invocation} {rx : Oneshot} {response : Option Bytes}
    {error : Option String} {call : CallState} (code : I32)
    (holds : call.Holds inv rx response error) :
    syncResult code call = callResult code response error := by
  unfold callResult syncResult
  rw [holds.response, holds.error]

/-- `Complete` is what `call` does with code 0, and `Error` is what it does with
any other code. -/
theorem asyncResult_eq {inv : Invocation} {response : Option Bytes} {error : Option String}
    {status : CallStatus} {code : I32} (reports : status.Reports code inv response error) :
    asyncResult status = callResult code response error := by
  obtain ⟨call, kind, _, rfl, rfl⟩ := reports
  unfold callResult syncResult
  rcases kind with ⟨zero, rfl⟩ | ⟨nonzero, rfl⟩
  · rw [if_pos zero]
    rfl
  · rw [if_neg nonzero]
    rfl

/-- What the guest does in one event: an import call other than a read, the
return of a synchronous host call, or a trap of its initial entry. -/
inductive Act where
  | calls (call : ImportCall)
  | returns (result : HostResult)
  | traps (message : String)

/-- The act the guest performs when an event happens. -/
def Context.act? (ctx : Context) : Event → Option Act
  | .guest (.read _) => none
  | .guest call => some (.calls call)
  | .hostCallReturns result => some (.returns result)
  | .exit (.trapped message) =>
    match ctx.frame with
    | some { holder := .caller, hostCall := none } => some (.traps message)
    | _ => none
  | _ => none

/-- What the guest does in a run. -/
def Context.performed (ctx : Context) : List Event → List Act
  | [] => []
  | event :: events => (ctx.act? event).toList ++
    match ctx.step event with
    | some next => next.performed events
    | none => []

/-- The events between the start of a call and its result. -/
def Event.duringCall : Event → Bool
  | .start _ _ | .exportMissing | .finish | .resolve | .dropFuture => false
  | _ => true

/-- The caller's thread is busy with this call. -/
inductive Caller.On (mode : Mode) (index : I32) (rx : Oneshot) : Caller → Prop where
  | starting : On mode index rx (.starting mode index rx)
  | inside : On mode index rx (.inside mode index rx)
  | returned (code : I32) (sync : mode = .sync) : On mode index rx (.returned index code)
  | waiting (async : mode = .async) : On mode index rx (.waiting index rx)

/-- Until its result, the caller stays on one call. -/
theorem Step.on {ctx next : Context} {event : Event} (moved : Step ctx event next)
    (during : event.duringCall) {mode : Mode} {index : I32} {rx : Oneshot}
    (on : ctx.caller.On mode index rx) : next.caller.On mode index rx := by
  cases moved with
  | start | exportMissing | finish | finishPanics | resolve | resolveDropped | dropFuture =>
    cases during
  | enter caller =>
    rw [caller] at on
    cases on
    exact .inside
  | syncReturned frame caller =>
    rw [caller] at on
    cases on
    exact .returned _ rfl
  | syncTrapped frame caller =>
    rw [caller] at on
    cases on
    exact .returned _ rfl
  | asyncReturned frame caller =>
    rw [caller] at on
    cases on
    exact .waiting rfl
  | asyncTrapped frame caller =>
    rw [caller] at on
    cases on
    exact .waiting rfl
  | _ => exact on

namespace Act

/-- The guest's acts that neither end a guest invocation nor its own entry. -/
def plain : Act → Bool
  | .calls (.guestResponseReady _ _) | .traps _ => false
  | _ => true

/-- The operations of a plain act that matter to guest invocations. -/
def ops : Act → List Op
  | .calls (.guestResponse id response) => [.setGuestResponse id response]
  | .calls (.guestError id error) => [.setGuestError id error]
  | .calls (.hostCall _) | .calls (.asyncHostCall _) => [.beginHostCall]
  | _ => []

end Act

/-- Recording the result of a host call is nothing to an invocation. -/
theorem Life.step_recordHostResult (id other : I32) (life : Life) (result : HostResult) :
    life.step id (.recordHostResult other result) = life := by
  cases life <;> rfl

/-- A plain step runs its operations, and they do to an invocation what the
guest's act does. -/
theorem Step.plain {ctx next : Context} {event : Event} (moved : Step ctx event next)
    (running : ctx.crashed = false) (during : event.duringCall)
    (plain : ∀ act ∈ ctx.act? event, act.plain) :
    next.crashed = false ∧ ctx.module.run (ctx.ops event) = .returned next.module ∧
      allocations (ctx.ops event) = allocations ((ctx.act? event).toList.flatMap Act.ops) ∧
      ∀ id life, (ctx.ops event).foldl (Life.step id) life =
        ((ctx.act? event).toList.flatMap Act.ops).foldl (Life.step id) life := by
  have executed (still : next.crashed = false) :
      ctx.module.run (ctx.ops event) = .returned next.module :=
    moved.run_ops.resolve_right (by simp [still])
  cases moved with
  | start | exportMissing | finish | finishPanics | resolve | resolveDropped | dropFuture =>
    cases during
  | ready | readyPanics => exact absurd (plain _ rfl) (by simp [Act.plain])
  | syncTrapped frame | asyncTrapped frame | asyncTrapPanics frame =>
    simp [Context.act?, frame, Act.plain] at plain
  | hostCallReturns frame =>
    refine ⟨running, executed running, ?_, ?_⟩ <;>
      simp [Context.ops, frame, Context.act?, Act.ops, allocations, Op.allocates,
        Life.step_recordHostResult]
  | taskRecord task =>
    refine ⟨running, executed running, ?_, ?_⟩ <;>
      simp [Context.ops, task, Context.act?, allocations, Op.allocates,
        Life.step_recordHostResult]
  | @handlerExit exit frame =>
    refine ⟨running, executed running, ?_, ?_⟩ <;> cases exit <;>
      simp [Context.ops, frame, Context.act?]
  | _ => exact ⟨running, executed running, rfl, fun _ _ => rfl⟩

section Runs

variable {ctx next : Context} {events : List Event}

theorem Context.performed_cons {event : Event}
    (moved : Context.machine.step ctx event = some next) (events : List Event) :
    ctx.performed (event :: events) = (ctx.act? event).toList ++ next.performed events := by
  have step : ctx.step event = some next := moved
  rw [performed, step]

theorem Context.performed_singleton (ctx : Context) (event : Event) :
    ctx.performed [event] = (ctx.act? event).toList := by
  unfold performed
  split <;> simp [performed]

theorem Context.performed_append (executed : Context.machine.run ctx events = some next)
    (later : List Event) :
    ctx.performed (events ++ later) = ctx.performed events ++ next.performed later := by
  induction events generalizing ctx with
  | nil =>
    cases executed
    rfl
  | cons event events ih =>
    obtain ⟨middle, moved, rest⟩ := Option.bind_eq_some_iff.mp executed
    rw [List.cons_append, performed_cons moved, performed_cons moved, ih rest,
      List.append_assoc]

/-- An invocation followed through a run in which the guest's acts are plain. -/
theorem run_plain {index : I32} {rx : Oneshot} {inv : Invocation} {life : Life} {mode : Mode}
    (executed : Context.machine.run ctx events = some next)
    (during : ∀ event ∈ events, event.duringCall)
    (plain : ∀ act ∈ ctx.performed events, act.plain) (running : ctx.crashed = false)
    (on : ctx.caller.On mode index rx) (follows : Follows ctx.module index rx inv life)
    (room : ctx.module.Room index (allocations ((ctx.performed events).flatMap Act.ops))) :
    next.crashed = false ∧ next.caller.On mode index rx ∧
      Follows next.module index rx inv
        (((ctx.performed events).flatMap Act.ops).foldl (Life.step index) life) := by
  induction events generalizing ctx life with
  | nil =>
    cases executed
    exact ⟨running, on, follows⟩
  | cons event events ih =>
    obtain ⟨middle, transition, rest⟩ := Option.bind_eq_some_iff.mp executed
    have moved := (Step.of_step transition).2
    have duringFirst := during event (by simp)
    rw [Context.performed_cons transition] at plain room ⊢
    obtain ⟨still, ran, same, lives⟩ := moved.plain running duringFirst
      fun act member => plain act (List.mem_append_left _ (by simpa using member))
    rw [List.flatMap_append] at room ⊢
    have split : allocations ((ctx.act? event).toList.flatMap Act.ops ++
        (middle.performed events).flatMap Act.ops) =
        allocations ((middle.performed events).flatMap Act.ops) +
          allocations (ctx.ops event) := by
      rw [same, Nat.add_comm]
      exact List.countP_append
    rw [split] at room
    have here : ctx.module.Room index (allocations (ctx.ops event)) := room.mono (by omega)
    have later := follows.run ran here
    rw [lives] at later
    rw [List.foldl_append]
    exact ih rest (fun event' member => during event' (List.mem_cons_of_mem _ member))
      (fun act member => plain act (List.mem_append_right _ member)) still
      (moved.on duringFirst on) later (room.run ran)

/-- In a run between two contexts the guest does these acts and then a last one. -/
def Context.DoesLast (ctx next : Context) (events : List Event) (acts : List Act)
    (last : Act) : Prop :=
  ∃ before event after middle moved, events = before ++ event :: after ∧
    Context.machine.run ctx before = some middle ∧ ctx.performed before = acts ∧
    middle.step event = some moved ∧ middle.act? event = some last ∧
    Context.machine.run moved after = some next ∧ moved.performed after = []

/-- An event before such a run puts its act in front. -/
theorem Context.DoesLast.cons {middle : Context} {event : Event} {acts : List Act} {last : Act}
    (does : middle.DoesLast next events acts last)
    (transition : Context.machine.step ctx event = some middle) :
    ctx.DoesLast next (event :: events) ((ctx.act? event).toList ++ acts) last := by
  obtain ⟨before, event', after, reached, moved, rfl, ran, same, found⟩ := does
  refine ⟨event :: before, event', after, reached, moved, rfl, ?_, ?_, found⟩
  · exact Option.bind_eq_some_iff.mpr ⟨middle, transition, ran⟩
  · rw [performed_cons transition, same]

/-- A run in which the guest does one more thing splits where it does it. -/
theorem Context.performed_split {acts : List Act} {last : Act}
    (executed : Context.machine.run ctx events = some next)
    (performed : ctx.performed events = acts ++ [last]) :
    ctx.DoesLast next events acts last := by
  induction events generalizing ctx acts with
  | nil => simp [Context.performed] at performed
  | cons event events ih =>
    obtain ⟨middle, transition, rest⟩ := Option.bind_eq_some_iff.mp executed
    rw [performed_cons transition] at performed
    cases act : ctx.act? event with
    | none =>
      rw [act] at performed
      have split := (ih rest performed).cons transition
      rwa [act] at split
    | some first =>
      rw [act] at performed
      cases acts with
      | nil =>
        obtain ⟨rfl, silent⟩ : first = last ∧ middle.performed events = [] := by
          simpa using performed
        exact ⟨[], event, events, ctx, middle, rfl, rfl, rfl, transition, act, rest, silent⟩
      | cons head acts =>
        obtain ⟨rfl, remaining⟩ : first = head ∧ middle.performed events = acts ++ [last] := by
          simpa using performed
        have split := (ih rest remaining).cons transition
        rwa [act] at split

end Runs

/-- An outstanding invocation can be finished, and its life says so. -/
theorem Follows.finishes {state : ModuleState} {index : I32} {rx : Oneshot} {inv : Invocation}
    {response : Option Bytes} {error : Option String}
    (follows : Follows state index rx inv (.outstanding response error)) (code : I32) :
    ∃ next, state.finishGuestInvocation index code = .returned next ∧
      Follows next index rx inv (.finished code response error) := by
  obtain ⟨call, present, holds⟩ := follows.entry response error rfl
  have finish := ModuleState.finish_with_channel code present holds.channel
  exact ⟨_, finish, by simpa [Life.step] using follows.finishGuestInvocation finish⟩

section Closing

variable {ctx next : Context} {event : Event} {index : I32} {rx : Oneshot} {inv : Invocation}
  {response : Option Bytes} {error : Option String} {mode : Mode}

/-- Signalling the invocation's own id finishes it. -/
theorem Step.signals (moved : Step ctx event next) {code : I32}
    (act : ctx.act? event = some (.calls (.guestResponseReady index code)))
    (running : ctx.crashed = false)
    (follows : Follows ctx.module index rx inv (.outstanding response error)) :
    next.crashed = false ∧ Follows next.module index rx inv (.finished code response error) := by
  obtain ⟨module, finish, finished⟩ := follows.finishes code
  cases moved with
  | ready _ ran =>
    cases act
    cases finish.symm.trans ran
    exact ⟨running, finished⟩
  | readyPanics _ panics =>
    cases act
    cases finish.symm.trans panics
  | @handlerExit exit frame => cases exit <;> simp [Context.act?, frame] at act
  | syncTrapped frame | asyncTrapped frame | asyncTrapPanics frame =>
    simp [Context.act?, frame] at act
  | _ => cases act

/-- A trap of the initial entry is recorded as the call's error; an async
invocation is completed with it as well. -/
theorem Step.traps (moved : Step ctx event next) {message : String}
    (act : ctx.act? event = some (.traps message)) (running : ctx.crashed = false)
    (on : ctx.caller.On mode index rx)
    (follows : Follows ctx.module index rx inv (.outstanding response error)) :
    next.crashed = false ∧ Follows next.module index rx inv (match mode with
      | .sync => .outstanding response (some message)
      | .async => .finished 0 (some []) (some message)) := by
  have recorded : Follows (ctx.module.setGuestError index message) index rx inv
      (.outstanding response (some message)) := by
    simpa [Life.step] using follows.setGuestError index message
  have answered : Follows ((ctx.module.setGuestError index message).setGuestResponse index [])
      index rx inv (.outstanding (some []) (some message)) := by
    simpa [Life.step] using recorded.setGuestResponse index []
  obtain ⟨module, finish, finished⟩ := answered.finishes 0
  cases moved with
  | syncTrapped frame caller =>
    rw [caller] at on
    cases on
    obtain rfl : _ = message := by simpa [Context.act?, frame] using act
    exact ⟨running, recorded⟩
  | asyncTrapped frame caller completed =>
    rw [caller] at on
    cases on
    obtain rfl : _ = message := by simpa [Context.act?, frame] using act
    cases finish.symm.trans completed
    exact ⟨running, finished⟩
  | asyncTrapPanics frame caller panics =>
    rw [caller] at on
    cases on
    obtain rfl : _ = message := by simpa [Context.act?, frame] using act
    cases finish.symm.trans panics
  | @handlerExit exit frame => cases exit <;> simp [Context.act?, frame] at act
  | _ => cases act

end Closing

/-- An event ends the call with this result. -/
def Context.Yields (ctx : Context) (event : Event) (result : CallResult) : Prop :=
  ∃ next, ctx.step event = some next ∧ next.caller = .done result

section Results

variable {ctx : Context} {index : I32} {rx : Oneshot} {inv : Invocation} {code : I32}
  {response : Option Bytes} {error : Option String}

/-- `call` finds the state of its call and reads the result off it. -/
theorem Follows.call_yields
    (follows : Follows ctx.module index rx inv (.outstanding response error))
    (running : ctx.crashed = false) (caller : ctx.caller = .returned index code) :
    ctx.Yields .finish (callResult code response error) := by
  obtain ⟨call, present, holds⟩ := follows.entry response error rfl
  refine ⟨{ ctx with
    module := (ctx.module.takeState index).2
    caller := .done (syncResult code call) }, ?_, congrArg Caller.done (syncResult_eq code holds)⟩
  simp [Context.step, running, Context.finish, caller, ModuleState.takeState, present]

/-- The future of `call_async` is ready and reads the result off the status. -/
theorem Follows.call_async_yields
    (follows : Follows ctx.module index rx inv (.finished code response error))
    (running : ctx.crashed = false) (caller : ctx.caller = .waiting index rx) :
    ctx.Yields .resolve (callResult code response error) := by
  obtain ⟨status, sent, reports⟩ := follows.reported code response error rfl
  refine ⟨{ ctx with caller := .done (asyncResult status) }, ?_,
    congrArg Caller.done (asyncResult_eq reports)⟩
  simp [Context.step, running, Context.resolve, caller, sent]

end Results

/-- One import call of a guest, a synchronous host call with its outcome. -/
inductive GuestCall where
  | guestResponse (id : I32) (response : Bytes)
  | guestError (id : I32) (error : String)
  | hostCall (request : HostRequest) (result : HostResult)
  | asyncHostCall (request : HostRequest)

namespace GuestCall

def acts : GuestCall → List Act
  | .guestResponse id response => [.calls (.guestResponse id response)]
  | .guestError id error => [.calls (.guestError id error)]
  | .hostCall request result => [.calls (.hostCall request), .returns result]
  | .asyncHostCall request => [.calls (.asyncHostCall request)]

/-- The call takes an id from the counter. -/
def isHostCall : GuestCall → Bool
  | .hostCall _ _ | .asyncHostCall _ => true
  | _ => false

end GuestCall

/-- What a guest that makes these import calls does. -/
def actsOf (calls : List GuestCall) : List Act := calls.flatMap GuestCall.acts

/-- How many host calls of either kind there are. -/
def hostCallCount (calls : List GuestCall) : Nat := calls.countP (·.isHostCall)

theorem actsOf_plain (calls : List GuestCall) : ∀ act ∈ actsOf calls, act.plain := by
  intro act member
  obtain ⟨call, _, own⟩ := List.mem_flatMap.mp member
  cases call <;> simp only [GuestCall.acts, List.mem_cons, List.not_mem_nil, or_false] at own
  case hostCall => rcases own with rfl | rfl <;> rfl
  all_goals
    subst own
    rfl

theorem actsOf_allocations (calls : List GuestCall) :
    allocations ((actsOf calls).flatMap Act.ops) = hostCallCount calls := by
  induction calls with
  | nil => rfl
  | cons call calls ih =>
    have split : allocations ((actsOf (call :: calls)).flatMap Act.ops) =
        allocations (call.acts.flatMap Act.ops) +
          allocations ((actsOf calls).flatMap Act.ops) := by
      simp only [actsOf, List.flatMap_cons, List.flatMap_append, allocations,
        List.countP_append]
    have count : hostCallCount (call :: calls) =
        hostCallCount calls + if call.isHostCall then 1 else 0 := by
      simp [hostCallCount, List.countP_cons]
    rw [split, ih, count, Nat.add_comm]
    cases call <;> rfl

/-- Plain acts end no invocation. -/
theorem actsOf_goesOn (id : I32) (calls : List GuestCall) :
    ∀ op ∈ (actsOf calls).flatMap Act.ops, ¬ op.ends id := by
  intro op member
  obtain ⟨act, inActs, inOps⟩ := List.mem_flatMap.mp member
  have plain := actsOf_plain calls act inActs
  rcases act with ⟨_ | _ | _ | _ | _ | _⟩ | _ | _ <;>
    simp only [Act.ops, List.mem_singleton, List.not_mem_nil] at inOps <;>
    subst inOps <;> simp [Op.ends, Op.finish?]

/-- A context that can take a call: some run leads to it, and neither the
caller's thread nor the guest is busy. -/
structure Available where
  ctx : Context
  moduleId : Nat
  events : List Event
  reached : Context.machine.run (Context.new moduleId) events = some ctx
  running : ctx.crashed = false
  free : ctx.caller.free
  unlocked : ctx.frame = none

namespace Available

/-- `WapcHost` makes a new context for each of its calls. -/
def new (moduleId : Nat) : Available where
  ctx := .new moduleId
  moduleId := moduleId
  events := []
  reached := rfl
  running := rfl
  free := rfl
  unlocked := rfl

variable (start : Available)

/-- The id of the next call. -/
abbrev index : I32 := start.ctx.module.callIndex

/-- The receiver of the next call. -/
abbrev rx : Oneshot := start.ctx.module.oneshots.opened

theorem wellFormed : start.ctx.module.WellFormed := by
  have steps := Machine.Steps.ofRun (fun _ _ _ => trivial) start.reached
  exact steps.invariant (motive := fun ctx => ctx.module.WellFormed) (.new start.moduleId)
    fun wellFormed _ moved => (Step.of_step moved).2.wellFormed wellFormed

end Available

/-- A context reached by a run in which one call was started and has no result
yet, and in which the guest did exactly this. -/
def Performs (mode : Mode) (start : Available) (inv : Invocation) (acts : List Act)
    (ctx : Context) : Prop :=
  ∃ events, (∀ event ∈ events, event.duringCall) ∧
    Context.machine.run start.ctx (.start mode inv :: events) = some ctx ∧
    start.ctx.performed (.start mode inv :: events) = acts

/-- A synchronous call whose guest did one thing and whose engine returned this
code, and an async call whose guest did another: nothing crashed, and both yield
one result. -/
def SameResult (start : Available) (inv : Invocation) (syncActs asyncActs : List Act)
    (code : I32) : Prop :=
  ∀ sync async, Performs .sync start inv syncActs sync →
    sync.caller = .returned start.index code → Performs .async start inv asyncActs async →
    sync.crashed = false ∧ async.crashed = false ∧ ∃ result, sync.Yields .finish result ∧
      (async.caller = .waiting start.index start.rx → async.Yields .resolve result)

/-- The two ways of calling a guest that makes these import calls agree: where
it ends with this code, returned by the entry or signalled under the call's id,
and where its initial entry traps. -/
def Agree (start : Available) (inv : Invocation) (calls : List GuestCall) (code : I32) : Prop :=
  SameResult start inv (actsOf calls)
    (actsOf calls ++ [.calls (.guestResponseReady start.index code)]) code ∧
  ∀ message, SameResult start inv (actsOf calls ++ [.traps message])
    (actsOf calls ++ [.traps message]) 0

section Performs

variable {mode : Mode} {start : Available} {inv : Invocation} {calls : List GuestCall}
  {ctx : Context}

/-- The counter comes round to a new invocation after `2 ^ 32` more ids. -/
theorem new_room (state : ModuleState) (inv : Invocation) {count : Nat} (few : count < 2 ^ 32) :
    (state.newInvocation inv).2.2.Room state.callIndex count := by
  have one : ((state.newInvocation inv).2.2.callIndex - state.callIndex).toNat = 1 := by
    rw [ModuleState.newInvocation_callIndex]
    bv_omega
  exact .inr ⟨by omega, by omega⟩

/-- The state of the invocation after a run in which the guest's acts are plain
and few; the run may go on. -/
theorem started_run {events : List Event} (during : ∀ event ∈ events, event.duringCall)
    (executed : Context.machine.run start.ctx (.start mode inv :: events) = some ctx)
    (performed : start.ctx.performed (.start mode inv :: events) = actsOf calls)
    (few : hostCallCount calls < 2 ^ 32) :
    ctx.crashed = false ∧ ctx.caller.On mode start.index start.rx ∧
      Follows ctx.module start.index start.rx inv
        (.outstanding (lastResponse start.index ((actsOf calls).flatMap Act.ops))
          (lastError start.index ((actsOf calls).flatMap Act.ops))) := by
  obtain ⟨started, transition, rest⟩ := Option.bind_eq_some_iff.mp executed
  rw [Context.performed_cons transition] at performed
  have acts : started.performed events = actsOf calls := performed
  have moved : start.ctx.step (.start mode inv) = some started := transition
  cases (Step.of_step moved).2 with
  | start _ =>
    have fresh := Follows.newInvocation start.ctx.module inv start.wellFormed.channels
      (start.wellFormed.unsent _ (Nat.le_refl _))
    rw [← Life.after_outstanding (actsOf_goesOn start.index calls)]
    have followed := run_plain rest during (by rw [acts]; exact actsOf_plain calls)
      start.running .starting fresh
      (by rw [acts, actsOf_allocations]; exact new_room start.ctx.module inv few)
    rw [acts] at followed
    exact followed

/-- A call whose guest made its import calls and did one more thing: what the
step of that last act establishes of the invocation stays true. -/
theorem closed_run {last : Act} {life : Life}
    (performs : Performs mode start inv (actsOf calls ++ [last]) ctx)
    (few : hostCallCount calls < 2 ^ 32)
    (closes : ∀ middle moved event, Step middle event moved → middle.act? event = some last →
      middle.crashed = false → middle.caller.On mode start.index start.rx →
      Follows middle.module start.index start.rx inv
        (.outstanding (lastResponse start.index ((actsOf calls).flatMap Act.ops))
          (lastError start.index ((actsOf calls).flatMap Act.ops))) →
      moved.crashed = false ∧ Follows moved.module start.index start.rx inv life) :
    ctx.crashed = false ∧ Follows ctx.module start.index start.rx inv life := by
  obtain ⟨events, during, executed, performed⟩ := performs
  obtain ⟨before, event, after, middle, moved, split, reached, same, transition, act, rest,
    silent⟩ := Context.performed_split executed performed
  cases before with
  | nil =>
    -- The first event starts the call and is no act.
    obtain ⟨rfl, rfl⟩ := List.cons.inj split
    simp [Context.act?] at act
  | cons first before =>
    obtain ⟨rfl, rfl⟩ := List.cons.inj split
    have duringBefore : ∀ event ∈ before, event.duringCall :=
      fun event' member => during event' (List.mem_append_left _ member)
    have duringEvent : event.duringCall := during event (by simp)
    have duringAfter : ∀ event ∈ after, event.duringCall :=
      fun event' member => during event' (List.mem_append_right _ (List.mem_cons_of_mem _ member))
    obtain ⟨running, on, follows⟩ := started_run duringBefore reached same few
    have step := (Step.of_step transition).2
    obtain ⟨still, closed⟩ := closes middle moved event step act running on follows
    have ended := run_plain rest duringAfter (by simp [silent]) still
      (step.on duringEvent on) closed (by rw [silent]; exact .inl rfl)
    rw [silent] at ended
    exact ⟨ended.1, ended.2.2⟩

/-- With fewer than `2 ^ 32` host calls the two ways of calling agree. -/
theorem agree_of_few (code : I32) (few : hostCallCount calls < 2 ^ 32) :
    Agree start inv calls code := by
  constructor
  · intro sync async performsSync caller performsAsync
    obtain ⟨events, during, executed, performed⟩ := performsSync
    obtain ⟨runningSync, _, outstanding⟩ := started_run during executed performed few
    obtain ⟨runningAsync, finished⟩ := closed_run performsAsync few
      fun middle moved event step act running _ follows => step.signals act running follows
    exact ⟨runningSync, runningAsync, _, outstanding.call_yields runningSync caller,
      finished.call_async_yields runningAsync⟩
  · intro message sync async performsSync caller performsAsync
    obtain ⟨runningSync, outstanding⟩ := closed_run performsSync few
      fun middle moved event step act running on follows => step.traps act running on follows
    obtain ⟨runningAsync, finished⟩ := closed_run performsAsync few
      fun middle moved event step act running on follows => step.traps act running on follows
    refine ⟨runningSync, runningAsync, .error (.guestCallFailure message), ?_, ?_⟩
    · exact outstanding.call_yields runningSync caller
    · exact finished.call_async_yields runningAsync

end Performs

/-- The events of an import call made by a guest entry that runs on its own. -/
def GuestCall.events : GuestCall → List Event
  | .guestResponse id response => [.guest (.guestResponse id response)]
  | .guestError id error => [.guest (.guestError id error)]
  | .hostCall request result => [.guest (.hostCall request), .hostCallReturns result]
  | .asyncHostCall request => [.guest (.asyncHostCall request)]

theorem GuestCall.events_during (call : GuestCall) : ∀ event ∈ call.events, event.duringCall := by
  cases call <;> simp [GuestCall.events, Event.duringCall]

/-- The guest is in its initial entry. -/
structure Entered (ctx : Context) : Prop where
  running : ctx.crashed = false
  frame : ctx.frame = some { holder := .caller, hostCall := none }

/-- An import call of the initial entry runs; if it takes the id, or if the
entry had none before, the entry under `id` has no channel afterwards. -/
theorem Entered.call {ctx : Context} (entered : Entered ctx) (call : GuestCall) (id : I32) :
    ∃ next, Context.machine.run ctx call.events = some next ∧ Entered next ∧
      next.caller = ctx.caller ∧ ctx.performed call.events = call.acts ∧
      next.module.callIndex = ctx.module.callIndex + (if call.isHostCall then 1 else 0) ∧
      (call.isHostCall ∧ ctx.module.callIndex = id ∨ ctx.module.HasHostCall id →
        next.module.HasHostCall id) := by
  obtain ⟨running, frame⟩ := entered
  cases call with
  | guestResponse other response =>
    refine ⟨{ ctx with module := ctx.module.setGuestResponse other response }, ?_,
      ⟨running, frame⟩, rfl, ?_, ?_, ?_⟩
    · simp [GuestCall.events, Context.machine, Context.step, running, Context.guest, frame]
    · exact Context.performed_singleton ctx _
    · simp [ModuleState.setGuestResponse, GuestCall.isHostCall]
    · intro before
      exact (before.resolve_left (by simp [GuestCall.isHostCall])).modifyCall other fun _ => rfl
  | guestError other error =>
    refine ⟨{ ctx with module := ctx.module.setGuestError other error }, ?_,
      ⟨running, frame⟩, rfl, ?_, ?_, ?_⟩
    · simp [GuestCall.events, Context.machine, Context.step, running, Context.guest, frame]
    · exact Context.performed_singleton ctx _
    · simp [ModuleState.setGuestError, GuestCall.isHostCall]
    · intro before
      exact (before.resolve_left (by simp [GuestCall.isHostCall])).modifyCall other fun _ => rfl
  | hostCall request result =>
    refine ⟨{ ctx with
        module := (ctx.module.beginHostCall.2.recordHostResult ctx.module.callIndex result).2
        log := ctx.log ++ [.hostCall ctx.module.callIndex] }, ?_, ⟨running, frame⟩, rfl, ?_, ?_, ?_⟩
    · simp [GuestCall.events, Context.machine, Context.step, running, Context.guest,
        Context.hostCallReturns, frame, ModuleState.beginHostCall, ModuleState.fetchAdd]
    · simp [GuestCall.events, GuestCall.acts, Context.performed, Context.act?, Context.step,
        running, Context.guest, Context.hostCallReturns, frame]
    · simp [ModuleState.recordHostResult_eq, GuestCall.isHostCall]
    · intro before
      rw [ModuleState.recordHostResult_eq]
      exact (ModuleState.HasHostCall.beginHostCall (before.imp_left (·.2))).modifyCall _
        fun _ => by cases result <;> rfl
  | asyncHostCall request =>
    refine ⟨{ ctx with
        module := ctx.module.beginHostCall.2
        tasks := ctx.tasks ++ [⟨ctx.module.callIndex, request, .running⟩]
        log := ctx.log ++ [.accepted ctx.module.callIndex] }, ?_, ⟨running, frame⟩, rfl, ?_, ?_, ?_⟩
    · simp [GuestCall.events, Context.machine, Context.step, running, Context.guest, frame,
        ModuleState.beginHostCall, ModuleState.fetchAdd]
    · exact Context.performed_singleton ctx _
    · simp [GuestCall.isHostCall]
    · intro before
      exact ModuleState.HasHostCall.beginHostCall (before.imp_left (·.2))

/-- All import calls of an initial entry run; if the counter comes round to `id`
among them, the entry under `id` has no channel afterwards. -/
theorem Entered.calls {ctx : Context} (entered : Entered ctx) (calls : List GuestCall)
    (id : I32) :
    ∃ next, Context.machine.run ctx (calls.flatMap GuestCall.events) = some next ∧
      Entered next ∧ next.caller = ctx.caller ∧
      ctx.performed (calls.flatMap GuestCall.events) = actsOf calls ∧
      ((id - ctx.module.callIndex).toNat < hostCallCount calls ∨ ctx.module.HasHostCall id →
        next.module.HasHostCall id) := by
  induction calls generalizing ctx with
  | nil =>
    exact ⟨ctx, rfl, entered, rfl, rfl, fun before =>
      before.resolve_left (by simp [hostCallCount])⟩
  | cons call calls ih =>
    obtain ⟨middle, ran, entered', caller, performed, counter, first⟩ := entered.call call id
    obtain ⟨next, ran', entered'', caller', performed', later⟩ := ih entered'
    refine ⟨next, ?_, entered'', caller'.trans caller, ?_, ?_⟩
    · rw [List.flatMap_cons, Machine.run_append, ran]
      exact ran'
    · rw [List.flatMap_cons, Context.performed_append ran, performed, performed']
      rfl
    · intro before
      apply later
      have count : hostCallCount (call :: calls) =
          hostCallCount calls + if call.isHostCall then 1 else 0 := by
        simp [hostCallCount, List.countP_cons]
      rcases before with near | already
      · cases taken : call.isHostCall with
        | false =>
          have same : middle.module.callIndex = ctx.module.callIndex := by
            simpa [taken] using counter
          simp only [taken, Bool.false_eq_true, if_false] at count
          left
          rw [same]
          omega
        | true =>
          simp only [taken, if_true] at counter count
          by_cases same : ctx.module.callIndex = id
          · exact .inr (first (.inl ⟨taken, same⟩))
          · left
            rw [counter]
            bv_omega
      · exact .inr (first (.inr already))

/-- A call that has entered the guest. -/
def Context.entered (ctx : Context) (mode : Mode) (inv : Invocation) : Context :=
  { ctx with
    module := (ctx.module.newInvocation inv).2.2
    frame := some { holder := .caller, hostCall := none }
    caller := .inside mode ctx.module.callIndex ctx.module.oneshots.opened
    log := ctx.log ++ [.invocation ctx.module.callIndex ctx.module.oneshots.opened] }

/-- An available context takes the call and enters the guest. -/
theorem Available.run_entered (start : Available) (mode : Mode) (inv : Invocation) :
    Context.machine.run start.ctx [.start mode inv, .enter] = some (start.ctx.entered mode inv) ∧
      start.ctx.performed [.start mode inv, .enter] = [] := by
  obtain ⟨middle, started, entered⟩ : ∃ middle,
      Context.machine.step start.ctx (.start mode inv) = some middle ∧
      Context.machine.step middle .enter = some (start.ctx.entered mode inv) := by
    refine ⟨{ start.ctx with
      module := (start.ctx.module.newInvocation inv).2.2
      caller := .starting mode start.index start.rx
      log := start.ctx.log ++ [.invocation start.index start.rx] }, ?_, ?_⟩
    · simp only [Context.machine, Context.step, start.running, Context.start, start.free]
      rfl
    · simp [Context.machine, Context.step, start.running, Context.enter, start.unlocked,
        Context.entered]
  constructor
  · rw [Machine.run_cons, started]
    change (Context.machine.step middle .enter).bind _ = _
    rw [entered]
    rfl
  · rw [Context.performed_cons started, Context.performed_cons entered]
    rfl

/-- A guest that makes too many host calls takes the entry of its own invocation. -/
theorem Available.run_calls (start : Available) (inv : Invocation) {calls : List GuestCall}
    (many : ¬ hostCallCount calls < 2 ^ 32) (mode : Mode) :
    ∃ next, Context.machine.run start.ctx
      (.start mode inv :: .enter :: calls.flatMap GuestCall.events) = some next ∧
      Entered next ∧ next.caller = .inside mode start.index start.rx ∧
      start.ctx.performed
        (.start mode inv :: .enter :: calls.flatMap GuestCall.events) = actsOf calls ∧
      next.module.HasHostCall start.index := by
  obtain ⟨enters, silent⟩ := start.run_entered mode inv
  have entered : Entered (start.ctx.entered mode inv) := ⟨start.running, rfl⟩
  obtain ⟨next, ran, entered', caller, performed, wrapped⟩ := entered.calls calls start.index
  refine ⟨next, ?_, entered', caller, ?_, wrapped (.inl ?_)⟩
  · change Context.machine.run start.ctx
      ([.start mode inv, .enter] ++ calls.flatMap GuestCall.events) = _
    rw [Machine.run_append, enters]
    exact ran
  · change start.ctx.performed
      ([.start mode inv, .enter] ++ calls.flatMap GuestCall.events) = _
    rw [Context.performed_append enters, silent, performed]
    rfl
  · have last : (start.index - (start.ctx.entered mode inv).module.callIndex).toNat =
        2 ^ 32 - 1 := by
      change (start.index - (start.index + 1)).toNat = _
      bv_omega
    omega

/-- The events of a guest's entry with these calls and one more event. -/
theorem during_calls (calls : List GuestCall) {last : Event} (duringLast : last.duringCall) :
    ∀ event ∈ .enter :: calls.flatMap GuestCall.events ++ [last], event.duringCall := by
  intro event member
  rcases List.mem_append.mp member with within | ending
  · rcases List.mem_cons.mp within with rfl | made
    · rfl
    · obtain ⟨call, _, own⟩ := List.mem_flatMap.mp made
      exact call.events_during event own
  · obtain rfl := List.mem_singleton.mp ending
    exact duringLast

/-- Where the ways of calling agree, the guest makes fewer than `2 ^ 32` host calls. -/
theorem few_of_agree {start : Available} {inv : Invocation} {calls : List GuestCall}
    {code : I32} (agree : Agree start inv calls code) : hostCallCount calls < 2 ^ 32 := by
  by_contra many
  obtain ⟨sync, ranSync, enteredSync, callerSync, performedSync, _⟩ :=
    start.run_calls inv many .sync
  obtain ⟨async, ranAsync, enteredAsync, callerAsync, performedAsync, ⟨call, present,
    noChannel⟩⟩ := start.run_calls inv many .async
  have returned : Performs .sync start inv (actsOf calls)
      { sync with frame := none, caller := .returned start.index code } := by
    refine ⟨.enter :: calls.flatMap GuestCall.events ++ [.exit (.returned code)],
      during_calls calls rfl, ?_, ?_⟩
    · rw [← List.cons_append, Machine.run_append, ranSync]
      simp [Context.machine, Context.step, enteredSync.running, Context.exit, enteredSync.frame,
        callerSync]
    · rw [← List.cons_append, Context.performed_append ranSync, performedSync,
        Context.performed_singleton]
      simp [Context.act?]
  have crashed : Performs .async start inv
      (actsOf calls ++ [.calls (.guestResponseReady start.index code)]) async.crash := by
    refine ⟨.enter :: calls.flatMap GuestCall.events ++
      [.guest (.guestResponseReady start.index code)], during_calls calls rfl, ?_, ?_⟩
    · have panics : async.step (.guest (.guestResponseReady start.index code)) =
          some async.crash := by
        simp only [Context.step, enteredAsync.running, Context.guest, enteredAsync.frame,
          ModuleState.finish_without_channel code present noChannel, Context.afterOp]
        rfl
      rw [← List.cons_append, Machine.run_append, ranAsync]
      change (async.step (.guest (.guestResponseReady start.index code))).bind
        (Context.machine.run · []) = _
      rw [panics]
      rfl
    · rw [← List.cons_append, Context.performed_append ranAsync, performedAsync,
        Context.performed_singleton]
      simp [Context.act?]
  obtain ⟨_, safe, _⟩ := agree.1 _ _ returned rfl crashed
  cases safe

/-- Calling a guest synchronously and asynchronously gives the same result for
every guest that makes fewer than `2 ^ 32` host calls, and for no other, from
every context that can take a call. -/
theorem sync_and_async_agree_iff (start : Available) (inv : Invocation)
    (calls : List GuestCall) (code : I32) :
    Agree start inv calls code ↔ hostCallCount calls < 2 ^ 32 :=
  ⟨few_of_agree, agree_of_few code⟩

/-- After `2 ^ 32` host calls the id of the call has been given away. -/
theorem sync_and_async_can_disagree :
    ¬ ∀ (start : Available) (inv : Invocation) (calls : List GuestCall) (code : I32),
      Agree start inv calls code := by
  intro agree
  obtain ⟨many, exactly⟩ : ∃ many, many = 2 ^ 32 := ⟨_, rfl⟩
  have few := few_of_agree (agree (.new 0) ⟨"op", []⟩
    (List.replicate many (.hostCall ⟨"", "", "", []⟩ (.ok []))) 1)
  have count : hostCallCount (List.replicate many
      (.hostCall ⟨"", "", "", []⟩ (.ok []))) = many := by
    simp [hostCallCount, List.countP_replicate, GuestCall.isHostCall]
  omega

end Wapc.Host
