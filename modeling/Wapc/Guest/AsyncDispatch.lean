import Wapc.Host.Agreement
import Wapc.Semantics.Inevitable
import Wapc.Semantics.Resumption

/-!
# Async handlers of the SDK

`register_async_function` fills `ASYNC_REGISTRY`, and `register_dispatcher` sets
`DISPATCHER` once. `__async_guest_call` reads only the second: the registered handlers
run as far as the dispatcher runs them, and without one the entry traps. The futures of
handlers and dispatchers are resumptions; the executor gives them their replies.
-/

namespace Wapc.Guest

open Semantics Host

variable {Effect Reply : Type}

/-- A future of `CallResult`; an error is kept as its text. -/
abbrev BoxedFuture (Effect Reply : Type) := Resumption Effect Reply (Except String Bytes)

abbrev AsyncHandlerSignature (Effect Reply : Type) := Bytes → BoxedFuture Effect Reply

/-- The `Invocation` of the SDK. -/
structure GuestInvocation where
  id : I32
  operation : String
  payload : Bytes

/-- `Dispatcher::dispatch` of a dispatcher. -/
abbrev Dispatcher (Effect Reply : Type) := GuestInvocation → BoxedFuture Effect Reply

/-- The statics of the SDK that registrations change. -/
structure Statics (Effect Reply : Type) where
  asyncRegistry : Bytes → Option (AsyncHandlerSignature Effect Reply)
  dispatcher : Option (Dispatcher Effect Reply)

/-- A call of `register_async_function` or `register_dispatcher`. -/
inductive Registration (Effect Reply : Type) where
  | asyncFunction (name : String) (f : AsyncHandlerSignature Effect Reply)
  | dispatcher (dispatcher : Dispatcher Effect Reply)

namespace Statics

def new : Statics Effect Reply where
  asyncRegistry := fun _ => none
  dispatcher := none

def registerAsyncFunction (statics : Statics Effect Reply) (name : String)
    (f : AsyncHandlerSignature Effect Reply) : Statics Effect Reply :=
  { statics with asyncRegistry := Function.update statics.asyncRegistry (asBytes name) (some f) }

/-- `OnceCell::set` keeps the first value, and its error is ignored. -/
def registerDispatcher (statics : Statics Effect Reply) (dispatcher : Dispatcher Effect Reply) :
    Statics Effect Reply :=
  { statics with dispatcher := statics.dispatcher.or (some dispatcher) }

def register (statics : Statics Effect Reply) : Registration Effect Reply → Statics Effect Reply
  | .asyncFunction name f => statics.registerAsyncFunction name f
  | .dispatcher dispatcher => statics.registerDispatcher dispatcher

/-- The statics after these registrations, made in this order. -/
def after (registrations : List (Registration Effect Reply)) : Statics Effect Reply :=
  registrations.foldl register new

end Statics

/-- Where an async guest call is: it trapped before it had a task, or its task awaits a
reply, has answered, or panicked. -/
inductive AsyncCallState (Effect Reply : Type) where
  | trapped
  | awaiting (resume : Reply → BoxedFuture Effect Reply)
  | answered
  | panicked

/-- An async guest call: what the dispatched code did, and what the SDK sent for it. -/
structure AsyncCall (Effect Reply : Type) where
  id : I32
  state : AsyncCallState Effect Reply
  performed : List Effect
  sent : List ImportCall

namespace AsyncCall

/-- The end of the task: the imports that are called with the result. -/
def answer (id : I32) : Except String Bytes → List ImportCall
  | .ok result => [.guestResponse id result, .guestResponseReady id 1]
  | .error errmsg => [.guestError id errmsg, .guestResponseReady id 0]

/-- The executor polls the task, in which the dispatched future is here. -/
def poll (id : I32) (performed : List Effect) : BoxedFuture Effect Reply → AsyncCall Effect Reply
  | .ready result => ⟨id, .answered, performed, answer id result⟩
  | .perform effect resume => ⟨id, .awaiting resume, performed ++ [effect], []⟩
  | .panics => ⟨id, .panicked, performed, []⟩

/-- `__async_guest_call`, with the request that `__guest_request` put into the buffers.
The operation was text, so decoding it lossily gives it back. -/
def asyncGuestCall (statics : Statics Effect Reply) (id : I32) (inv : Invocation) :
    AsyncCall Effect Reply :=
  match statics.dispatcher with
  | some dispatcher => poll id [] (dispatcher ⟨id, inv.operation, inv.msg⟩)
  -- `DISPATCHER.get().unwrap()`
  | none => ⟨id, .trapped, [], []⟩

/-- The task gets a reply. -/
def step (call : AsyncCall Effect Reply) (reply : Reply) : Option (AsyncCall Effect Reply) :=
  match call.state with
  | .awaiting resume => some (poll call.id call.performed (resume reply))
  | _ => none

def machine : Machine (AsyncCall Effect Reply) Reply := ⟨step⟩

end AsyncCall

/-- How far an async guest call is. -/
inductive Progress where
  | trapped
  | awaiting
  | answered
  | panicked
deriving DecidableEq, Repr

def AsyncCallState.progress : AsyncCallState Effect Reply → Progress
  | .trapped => .trapped
  | .awaiting _ => .awaiting
  | .answered => .answered
  | .panicked => .panicked

/-- What can be seen of an async guest call. -/
def AsyncCall.seen (call : AsyncCall Effect Reply) : List Effect × List ImportCall × Progress :=
  (call.performed, call.sent, call.state.progress)

/-- What should be sent for a handler that is here: the response and code 1, or the text
of the error and code 0. -/
def completion (id : I32) : Ending (Except String Bytes) → List ImportCall × Progress
  | .waits => ([], .awaiting)
  | .ready (.ok response) => ([.guestResponse id response, .guestResponseReady id 1], .answered)
  | .ready (.error text) => ([.guestError id text, .guestResponseReady id 0], .answered)
  | .panics => ([], .panicked)

theorem completion_injective (id : I32) : Function.Injective (completion id) := by
  rintro (_ | ⟨_ | _⟩ | _) (_ | ⟨_ | _⟩ | _) same <;> simp_all [completion]

/-- The call does what the handler does on the payload, and is completed with its result. -/
def Runs (call : AsyncCall Effect Reply) (id : I32) (handled : BoxedFuture Effect Reply) : Prop :=
  ∀ replies, (AsyncCall.machine.run call replies).map AsyncCall.seen =
    (handled.drive replies).map fun driven => (driven.1, completion id driven.2)

/-- Whatever the replies are, the call gets completed with an error. -/
def FailsWithError (call : AsyncCall Effect Reply) (id : I32) : Prop :=
  AsyncCall.machine.Inevitable (fun _ _ => True)
    (fun reached => ∃ text, reached.sent = [.guestError id text, .guestResponseReady id 0]) call

/-- After these registrations, an async call of an operation runs the latest handler that
was registered under its name, or fails with an error if there is none. -/
def Serves (registrations : List (Registration Effect Reply)) (id : I32) (inv : Invocation) :
    Prop :=
  match (Statics.after registrations).asyncRegistry (asBytes inv.operation) with
  | some handler =>
    Runs (AsyncCall.asyncGuestCall (Statics.after registrations) id inv) id (handler inv.msg)
  | none => FailsWithError (AsyncCall.asyncGuestCall (Statics.after registrations) id inv) id

/-- The dispatcher that was registered first. -/
def firstDispatcher (registrations : List (Registration Effect Reply)) :
    Option (Dispatcher Effect Reply) :=
  registrations.findSome? fun
    | .dispatcher dispatcher => some dispatcher
    | .asyncFunction _ _ => none

/-- The dispatched future is the one of the latest handler registered under the name, or
ends in an error if there is none. -/
def Routes (registrations : List (Registration Effect Reply)) (inv : Invocation)
    (dispatched : BoxedFuture Effect Reply) : Prop :=
  match (Statics.after registrations).asyncRegistry (asBytes inv.operation) with
  | some handler => dispatched = handler inv.msg
  | none => dispatched.Always fun result => ∃ text, result = .error text

theorem Statics.after_dispatcher (registrations : List (Registration Effect Reply)) :
    (after registrations).dispatcher = firstDispatcher registrations := by
  have from_ (statics : Statics Effect Reply) :
      (registrations.foldl register statics).dispatcher =
        statics.dispatcher.or (firstDispatcher registrations) := by
    induction registrations generalizing statics with
    | nil => simp [firstDispatcher]
    | cons registration registrations ih =>
      rw [List.foldl_cons, ih]
      cases registration with
      | asyncFunction name f => rfl
      | dispatcher dispatcher =>
        cases found : statics.dispatcher <;>
          simp [register, registerDispatcher, firstDispatcher, found]
  exact from_ new

namespace AsyncCall

variable {id : I32} {future : BoxedFuture Effect Reply}

/-- A task does what its future does, and sends what belongs to its ending. -/
theorem run_poll (id : I32) (performed : List Effect) (future : BoxedFuture Effect Reply)
    (replies : List Reply) :
    (machine.run (poll id performed future) replies).map seen =
      (future.drive replies).map fun driven =>
        (performed ++ driven.1, completion id driven.2) := by
  induction replies generalizing performed future with
  | nil =>
    cases future with
    | ready result => cases result <;> simp [poll, Resumption.drive, seen, completion, answer,
        AsyncCallState.progress]
    | perform effect resume => rfl
    | panics => simp [poll, Resumption.drive, seen, completion, AsyncCallState.progress]
  | cons reply replies ih =>
    cases future with
    | ready result => rfl
    | perform effect resume =>
      have moved : machine.step (poll id performed (.perform effect resume)) reply =
          some (poll id (performed ++ [effect]) (resume reply)) := rfl
      rw [Machine.run_cons, moved, Option.bind_some, ih, Resumption.drive, Option.map_map]
      simp [Function.comp_def]
    | panics => rfl

/-- A task runs a handler exactly when its future is the handler's. -/
theorem runs_poll_iff {handled : BoxedFuture Effect Reply} :
    Runs (poll id [] future) id handled ↔ future = handled := by
  constructor
  · intro runs
    refine Resumption.eq_of_drive fun replies => ?_
    have same := runs replies
    rw [run_poll] at same
    refine Option.map_injective ?_ same
    rintro ⟨effects, ending⟩ ⟨effects', ending'⟩ equal
    obtain ⟨rfl, endings⟩ : effects = effects' ∧ completion id ending = completion id ending' := by
      simpa using equal
    rw [completion_injective id endings]
  · rintro rfl replies
    rw [run_poll]
    rfl

/-- A task fails with an error exactly when its future always ends in one. -/
theorem fails_poll_iff [Inhabited Reply] {performed : List Effect} :
    FailsWithError (poll id performed future) id ↔
      future.Always fun result => ∃ text, result = .error text := by
  induction future generalizing performed with
  | ready result =>
    constructor
    · intro fails
      obtain ⟨text, sent⟩ := fails.reached_of_rest (by simp [Machine.Enabled, machine, step, poll])
      cases result with
      | ok response => cases sent
      | error errmsg => exact ⟨errmsg, rfl⟩
    · rintro ⟨text, rfl⟩
      exact .now ⟨text, rfl⟩
  | perform effect resume ih =>
    constructor
    · intro fails reply
      cases fails with
      | now reached =>
        obtain ⟨text, sent⟩ := reached
        cases sent
      | later enabled afterwards => exact (ih reply).mp (afterwards reply _ trivial rfl)
    · intro always
      refine .later ⟨default, _, trivial, rfl⟩ ?_
      intro reply next _ moved
      cases moved
      exact (ih reply).mpr (always reply)
  | panics =>
    constructor
    · intro fails
      obtain ⟨text, sent⟩ := fails.reached_of_rest (by simp [Machine.Enabled, machine, step, poll])
      cases sent
    · exact False.elim

/-- Without a dispatcher the entry traps. -/
theorem not_serves {statics : Statics Effect Reply} (inv : Invocation)
    (none : statics.dispatcher = none) :
    ¬ FailsWithError (asyncGuestCall statics id inv) id ∧
      ∀ handled, ¬ Runs (asyncGuestCall statics id inv) id handled := by
  have trapped : asyncGuestCall statics id inv = ⟨id, .trapped, [], []⟩ := by
    rw [asyncGuestCall, none]
  rw [trapped]
  constructor
  · intro fails
    obtain ⟨text, sent⟩ := fails.reached_of_rest (by simp [Machine.Enabled, machine, step])
    cases sent
  · intro handled runs
    have same := runs []
    cases handled with
    | ready result => cases result <;> cases same
    | perform effect resume => cases same
    | panics => cases same

/-- How the host sees an invocation that was answered with a result. -/
def answeredLife : Except String Bytes → Life
  | .ok response => .finished 1 (some response) none
  | .error text => .finished 0 none (some text)

/-- The guest signals an invocation that can be finished. -/
theorem step_ready {ctx : Context} {holder : Holder} {code : I32} {module : ModuleState}
    (running : ctx.crashed = false)
    (frame : ctx.frame = some { holder := holder, hostCall := none })
    (finish : ctx.module.finishGuestInvocation id code = .returned module) :
    ctx.step (.guest (.guestResponseReady id code)) = some { ctx with module := module } := by
  simp [Context.step, running, Context.guest, frame, finish, Context.afterOp]

/-- On the host's side, the answer finishes an invocation that is outstanding. -/
theorem answer_finishes {ctx : Context} {holder : Holder} {rx : Oneshot} {inv : Invocation}
    (running : ctx.crashed = false)
    (frame : ctx.frame = some { holder := holder, hostCall := none })
    (follows : Follows ctx.module id rx inv (.outstanding none none))
    (result : Except String Bytes) :
    ∃ next, Context.machine.run ctx ((answer id result).map .guest) = some next ∧
      next.crashed = false ∧ Follows next.module id rx inv (answeredLife result) := by
  cases result with
  | ok response =>
    have sent : ctx.step (.guest (.guestResponse id response)) =
        some { ctx with module := ctx.module.setGuestResponse id response } := by
      simp [Context.step, running, Context.guest, frame]
    have recorded : Follows (ctx.module.setGuestResponse id response) id rx inv
        (.outstanding (some response) none) := by
      simpa [Life.step] using follows.setGuestResponse id response
    obtain ⟨module, finish, finished⟩ := recorded.finishes 1
    refine ⟨{ ctx with module := module }, ?_, running, finished⟩
    exact Option.bind_eq_some_iff.mpr ⟨_, sent, Option.bind_eq_some_iff.mpr
      ⟨_, step_ready running frame finish, rfl⟩⟩
  | error text =>
    have sent : ctx.step (.guest (.guestError id text)) =
        some { ctx with module := ctx.module.setGuestError id text } := by
      simp [Context.step, running, Context.guest, frame]
    have recorded : Follows (ctx.module.setGuestError id text) id rx inv
        (.outstanding none (some text)) := by
      simpa [Life.step] using follows.setGuestError id text
    obtain ⟨module, finish, finished⟩ := recorded.finishes 0
    refine ⟨{ ctx with module := module }, ?_, running, finished⟩
    exact Option.bind_eq_some_iff.mpr ⟨_, sent, Option.bind_eq_some_iff.mpr
      ⟨_, step_ready running frame finish, rfl⟩⟩

end AsyncCall

/-- Registered async handlers run exactly where the first dispatcher that was registered
runs them; under names without one it has to give errors. -/
theorem serves_iff [Inhabited Reply] (registrations : List (Registration Effect Reply)) (id : I32)
    (inv : Invocation) :
    Serves registrations id inv ↔ ∃ dispatcher, firstDispatcher registrations = some dispatcher ∧
      Routes registrations inv (dispatcher ⟨id, inv.operation, inv.msg⟩) := by
  unfold Serves Routes
  cases installed : firstDispatcher registrations with
  | none =>
    have absent : (Statics.after registrations).dispatcher = none :=
      (Statics.after_dispatcher registrations).trans installed
    split
    · exact ⟨fun runs => absurd runs ((AsyncCall.not_serves inv absent).2 _), by simp⟩
    · exact ⟨fun fails => absurd fails (AsyncCall.not_serves inv absent).1, by simp⟩
  | some dispatcher =>
    have call : AsyncCall.asyncGuestCall (Statics.after registrations) id inv =
        .poll id [] (dispatcher ⟨id, inv.operation, inv.msg⟩) := by
      rw [AsyncCall.asyncGuestCall, Statics.after_dispatcher, installed]
    simp only [call, Option.some.injEq, exists_eq_left']
    split
    · exact AsyncCall.runs_poll_iff
    · exact AsyncCall.fails_poll_iff

/-- Registering handlers changes nothing in the calls. -/
theorem async_functions_ignored (registrations : List (Registration Effect Reply)) (name : String)
    (f : AsyncHandlerSignature Effect Reply) (id : I32) (inv : Invocation) :
    AsyncCall.asyncGuestCall (Statics.after (registrations ++ [.asyncFunction name f])) id inv =
      AsyncCall.asyncGuestCall (Statics.after registrations) id inv := by
  simp [AsyncCall.asyncGuestCall, Statics.after_dispatcher, firstDispatcher]

/-- A guest that registers a handler and no dispatcher traps when the handler is called. -/
theorem registered_handler_does_not_run :
    ¬ ∀ (registrations : List (Registration Unit Unit)) (id : I32) (inv : Invocation),
      Serves registrations id inv := by
  intro always
  have runs := always [.asyncFunction "echo" fun payload => .ready (.ok payload)] 1 ⟨"echo", []⟩
  exact (AsyncCall.not_serves ⟨"echo", []⟩ rfl).2 _ runs

end Wapc.Guest
