import Wapc.Host.Invocation

/-!
# One wasmtime call context

A call context is the caller's thread inside `WapcCallContext`, the store lock
and the guest entry that holds it, the tasks spawned for async host calls, the
message channel, and the handler loop. `step` runs one event of one of these
parties; the guest's choices are the arguments of the events. A failing `unwrap`
leaves the context `crashed`, and nothing happens afterwards. `log` only records
what happened, for statements about runs; no step reads it.
-/

namespace Wapc.Host

open Semantics

/-- The errors of a call. -/
inductive Error where
  | context (message : String)
  | initFailed (message : String)
  | guestCallFailure (message : String)
deriving DecidableEq, Repr

/-- The `Display` text of an error. -/
def Error.display : Error → String
  | .context message => "Context creation failed: " ++ message
  | .initFailed message => "Initialization failed: " ++ message
  | .guestCallFailure message => "Guest call failure: " ++ message

abbrev CallResult := Except Error Bytes

/-- The end of `WapcCallContext::call`, once the engine has returned a code and
the state was taken back. -/
def syncResult (callresult : I32) (state : CallState) : CallResult :=
  if callresult = 0 then
    match state.guestError with
    | some s => .error (.guestCallFailure s)
    | none => .error (.guestCallFailure "No error message set for call failure")
  else
    match state.guestResponse with
    | some e => .ok e
    | none =>
      match state.guestError with
      | some s => .error (.guestCallFailure s)
      | none =>
        .error (.guestCallFailure "No error message OR response set for call success")

/-- The end of the future of `WapcCallContext::call_async`, once a status came. -/
def asyncResult : CallStatus → CallResult
  | .complete state =>
    match state.guestError with
    | some s => .error (.guestCallFailure s)
    | none => .error (.guestCallFailure "No error message set for call failure")
  | .error state =>
    match state.guestResponse with
    | some e => .ok e
    | none =>
      match state.guestError with
      | some s => .error (.guestCallFailure s)
      | none =>
        .error (.guestCallFailure "No error message OR response set for call success")

/-- `call` or `call_async`. -/
inductive Mode where
  | sync
  | async
deriving DecidableEq, Repr

/-- The caller's thread. After `new_invocation` it waits for the store lock, is
inside the guest, and then takes the state back or awaits the receiver. -/
inductive Caller where
  | idle
  | starting (mode : Mode) (index : I32) (rx : Oneshot)
  | inside (mode : Mode) (index : I32) (rx : Oneshot)
  | returned (index : I32) (callresult : I32)
  | waiting (index : I32) (rx : Oneshot)
  | done (result : CallResult)

/-- A new call may begin: the last future was resolved or dropped. -/
def Caller.free : Caller → Bool
  | .idle | .done _ => true
  | _ => false

/-- A task of `do_async_host_call`: its callback is running, or the result was
recorded and only the message is left to send. -/
inductive TaskPhase where
  | running
  | recorded (code : I32)
deriving DecidableEq

structure Task where
  id : I32
  request : HostRequest
  phase : TaskPhase
deriving DecidableEq

/-- A message of the provider's channel; `Close` is only sent when the context
is dropped. -/
inductive AsyncChannel where
  | message (result : Except (I32 × I32) (I32 × I32))
deriving DecidableEq

/-- The closure `linker_async_host_call` passes to `do_async_host_call`. -/
def AsyncChannel.ofCode (id code : I32) : AsyncChannel :=
  if code = 1 then .message (.ok (id, code)) else .message (.error (id, code))

/-- The handler loop reads both kinds of messages alike. -/
def AsyncChannel.payload : AsyncChannel → I32 × I32
  | .message (.ok v) => v
  | .message (.error v) => v

@[simp] theorem AsyncChannel.payload_ofCode (id code : I32) :
    (AsyncChannel.ofCode id code).payload = (id, code) := by
  unfold AsyncChannel.ofCode
  split <;> rfl

/-- The handler loop: in `recv`, with a message waiting for the store lock, or
inside the guest. -/
inductive Handler where
  | idle
  | received (id code : I32)
  | busy
deriving DecidableEq

/-- Who entered the guest. -/
inductive Holder where
  | caller
  | handler
deriving DecidableEq

/-- The guest entry that holds the store lock, and the host call whose
synchronous callback it is blocked in. -/
structure Frame where
  holder : Holder
  hostCall : Option I32
deriving DecidableEq

/-- What a run is observed by. -/
inductive Observation where
  | invocation (id : I32) (rx : Oneshot)
  | hostCall (id : I32)
  | accepted (id : I32)
  | callback (id : I32) (result : HostResult)
  | sent (id code : I32)
  | notified (id code : I32) (response : Option Bytes) (error : Option String)
  | trapped (message : String)

structure Context where
  module : ModuleState
  frame : Option Frame
  tasks : List Task
  channel : List AsyncChannel
  handler : Handler
  caller : Caller
  crashed : Bool
  log : List Observation

/-- The waPC imports with their arguments decoded. The ones that only read the
module state or print are one constructor. -/
inductive ImportCall where
  | read (id : I32)
  | guestResponse (id : I32) (response : Bytes)
  | guestError (id : I32) (error : String)
  | hostCall (request : HostRequest)
  | asyncHostCall (request : HostRequest)
  | guestResponseReady (id code : I32)

/-- How a guest entry ends. -/
inductive Exit where
  | returned (code : I32)
  | trapped (message : String)

/-- The log after a guest entry ended. -/
def Exit.log (log : List Observation) : Exit → List Observation
  | .returned _ => log
  | .trapped message => log ++ [.trapped message]

inductive Event where
  | start (mode : Mode) (inv : Invocation)
  | enter
  | exportMissing
  | guest (call : ImportCall)
  | hostCallReturns (result : HostResult)
  | exit (exit : Exit)
  | finish
  | resolve
  | dropFuture
  | taskRecord (n : Nat) (result : HostResult)
  | taskSend (n : Nat)
  | receive
  | notify

namespace Context

/-- A context over a fresh module state. -/
def new (id : Nat) : Context where
  module := .new id
  frame := none
  tasks := []
  channel := []
  handler := .idle
  caller := .idle
  crashed := false
  log := []

def crash (ctx : Context) : Context := { ctx with crashed := true }

/-- Continue with the state an operation returned, or crash where it panicked. -/
def afterOp (ctx : Context) (result : Outcome ModuleState) (next : ModuleState → Context) :
    Context :=
  match result with
  | .returned module => next module
  | _ => ctx.crash

/-- The first lines of `call` and `call_async`. -/
def start (ctx : Context) (mode : Mode) (inv : Invocation) : Option Context :=
  if ctx.caller.free then
    let (id, rx, module) := ctx.module.newInvocation inv
    some { ctx with
      module := module
      caller := .starting mode id rx
      log := ctx.log ++ [.invocation id rx] }
  else none

/-- The caller takes the store lock and enters the guest. -/
def enter (ctx : Context) : Option Context :=
  match ctx.caller, ctx.frame with
  | .starting mode index rx, none => some { ctx with
      caller := .inside mode index rx
      frame := some { holder := .caller, hostCall := none } }
  | _, _ => none

/-- The provider finds no guest export to call, and the call fails early. -/
def exportMissing (ctx : Context) : Option Context :=
  match ctx.caller, ctx.frame with
  | .starting mode _ _, none => some { ctx with
      caller := .done (.error (.guestCallFailure (match mode with
        | .sync => "Guest call function (__guest_call) not exported by wasm module."
        | .async =>
          "Async guest call function (__async_guest_call) not exported by wasm module."))) }
  | _, _ => none

/-- One import call of the running guest. -/
def guest (ctx : Context) (call : ImportCall) : Option Context :=
  match ctx.frame with
  | some { holder, hostCall := none } =>
    match call with
    | .read _ => some ctx
    | .guestResponse id response =>
      some { ctx with module := ctx.module.setGuestResponse id response }
    | .guestError id error => some { ctx with module := ctx.module.setGuestError id error }
    | .hostCall _ =>
      let (id, module) := ctx.module.beginHostCall
      some { ctx with
        module := module
        frame := some { holder := holder, hostCall := some id }
        log := ctx.log ++ [.hostCall id] }
    | .asyncHostCall request =>
      let (id, module) := ctx.module.beginHostCall
      some { ctx with
        module := module
        tasks := ctx.tasks ++ [⟨id, request, .running⟩]
        log := ctx.log ++ [.accepted id] }
    | .guestResponseReady id code =>
      some (ctx.afterOp (ctx.module.finishGuestInvocation id code)
        fun module => { ctx with module := module })
  | _ => none

/-- The synchronous callback returns to the guest. -/
def hostCallReturns (ctx : Context) (result : HostResult) : Option Context :=
  match ctx.frame with
  | some { holder, hostCall := some id } => some { ctx with
      module := (ctx.module.recordHostResult id result).2
      frame := some { holder := holder, hostCall := none } }
  | _ => none

/-- The guest entry returns or traps. The handler loop ignores how; `call` turns
a trap into a guest error and code 0, and `call_async` completes the invocation. -/
def exit (ctx : Context) (exit : Exit) : Option Context :=
  match ctx.frame with
  | some { holder := .handler, hostCall := none } => some { ctx with
      frame := none, handler := .idle, log := exit.log ctx.log }
  | some { holder := .caller, hostCall := none } =>
    match ctx.caller, exit with
    | .inside .sync index _, .returned result => some { ctx with
        frame := none, caller := .returned index result }
    | .inside .sync index _, .trapped message => some { ctx with
        module := ctx.module.setGuestError index message
        frame := none
        caller := .returned index 0
        log := ctx.log ++ [.trapped message] }
    | .inside .async index rx, .returned _ => some { ctx with
        frame := none, caller := .waiting index rx }
    | .inside .async index rx, .trapped message =>
      let ctx := { ctx with frame := none, log := ctx.log ++ [Observation.trapped message] }
      some (ctx.afterOp
        ((ctx.module.setGuestError index message).setGuestCallComplete index 0 [])
        fun module => { ctx with module := module, caller := .waiting index rx })
    | _, _ => none
  | _ => none

/-- `self.state.take_state(index).unwrap()` and the result of `call`. -/
def finish (ctx : Context) : Option Context :=
  match ctx.caller with
  | .returned index callresult =>
    let (taken, module) := ctx.module.takeState index
    match taken with
    | some state => some { ctx with
        module := module, caller := .done (syncResult callresult state) }
    | none => some ctx.crash
  | _ => none

/-- `rx.await` is ready: a status came, or the sender was dropped. -/
def resolve (ctx : Context) : Option Context :=
  match ctx.caller with
  | .waiting _ rx =>
    match ctx.module.oneshots.delivered rx with
    | status :: _ => some { ctx with caller := .done (asyncResult status) }
    | [] =>
      if ctx.module.oneshots.dropped rx then
        some { ctx with caller := .done (.error (.guestCallFailure "Async wait failed")) }
      else none
  | _ => none

/-- The caller drops the future of `call_async`. -/
def dropFuture (ctx : Context) : Option Context :=
  match ctx.caller with
  | .waiting _ _ => some { ctx with caller := .idle }
  | _ => none

/-- The callback of task `n` returns and its result is recorded. -/
def taskRecord (ctx : Context) (n : Nat) (result : HostResult) : Option Context :=
  match ctx.tasks[n]? with
  | some ⟨id, request, .running⟩ =>
    let (code, module) := ctx.module.recordHostResult id result
    some { ctx with
      module := module
      tasks := ctx.tasks.set n ⟨id, request, .recorded code⟩
      log := ctx.log ++ [.callback id result] }
  | _ => none

/-- Task `n` calls its closure, which sends the message, and ends. -/
def taskSend (ctx : Context) (n : Nat) : Option Context :=
  match ctx.tasks[n]? with
  | some ⟨id, _, .recorded code⟩ => some { ctx with
      tasks := ctx.tasks.eraseIdx n
      channel := ctx.channel ++ [.ofCode id code]
      log := ctx.log ++ [.sent id code] }
  | _ => none

/-- The handler loop receives the next message. -/
def receive (ctx : Context) : Option Context :=
  match ctx.handler, ctx.channel with
  | .idle, message :: channel => some { ctx with
      handler := .received message.payload.1 message.payload.2
      channel := channel }
  | _, _ => none

/-- The handler loop takes the store lock and calls `__host_call_response_ready`. -/
def notify (ctx : Context) : Option Context :=
  match ctx.handler, ctx.frame with
  | .received id code, none => some { ctx with
      handler := .busy
      frame := some { holder := .handler, hostCall := none }
      log := ctx.log ++
        [.notified id code (ctx.module.getHostResponse id) (ctx.module.getHostError id)] }
  | _, _ => none

def step (ctx : Context) (event : Event) : Option Context :=
  if ctx.crashed then none
  else match event with
    | .start mode inv => ctx.start mode inv
    | .enter => ctx.enter
    | .exportMissing => ctx.exportMissing
    | .guest call => ctx.guest call
    | .hostCallReturns result => ctx.hostCallReturns result
    | .exit exit => ctx.exit exit
    | .finish => ctx.finish
    | .resolve => ctx.resolve
    | .dropFuture => ctx.dropFuture
    | .taskRecord n result => ctx.taskRecord n result
    | .taskSend n => ctx.taskSend n
    | .receive => ctx.receive
    | .notify => ctx.notify

/-- The context as a machine over its events. -/
def machine : Machine Context Event := ⟨step⟩

end Context
end Wapc.Host
