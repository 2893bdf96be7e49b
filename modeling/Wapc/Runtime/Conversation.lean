import Wapc.Host.Step

/-!
# The conversation of one call

`WapcHost::call` and `call_async` make a module state and a call context for one
invocation, run the guest's start functions, call the guest once and drop the
context. A `Conversation` is everything this takes: the call context with the
memory of its instance, and how far the caller has come. The guest is an arbitrary
machine over the memory of its instance.
-/

namespace Wapc.Runtime

open Semantics Host

/-- How the host enters a guest. -/
inductive Entry where
  | starter (name : String)
  | guestCall (id opLen msgLen : I32)
  | asyncGuestCall (id opLen msgLen : I32)
  | hostCallResponseReady (id code : I32)

/-- What a running guest does next. -/
inductive Action where
  | call (call : ImportCall)
  | exit (exit : Exit)

/-- What an import call gives the guest. A read gives all that the entry of its id
has for the guest. -/
inductive Reply where
  | nothing
  | code (code : I32)
  | entry (request : Option Invocation) (response : Option Bytes) (error : Option String)

/-- A guest module. `instantiate` makes the memory of a new instance, in which the
start function of the module is about to run. -/
structure Guest (Memory : Type) where
  exports : String → Bool
  instantiate : Except String Memory
  enter : Memory → Entry → Memory
  next : Memory → Action
  resume : Memory → Reply → Memory

/-- A host: its guest, its callbacks, which have no state of their own, and its id. -/
structure WapcHost (Memory : Type) where
  id : Nat
  guest : Guest Memory
  syncHostcall : Option (HostCallback Unit)
  asyncHostcall : Option (HostCallback Unit)

/-- `REQUIRED_STARTS`, in the order they are called. -/
def requiredStarts : List String := ["_start", "wapc_init"]

/-- The export that is called for the invocation. -/
def guestExport : Mode → String
  | .sync => "__guest_call"
  | .async => "__async_guest_call"

/-- How far the caller is. The start functions in `initializing` are still to be
called, those in `starting` come after the running one. -/
inductive Phase where
  | instantiating
  | created
  | initializing (starters : List String)
  | starting (starters : List String)
  | ready
  | called
  | concluded
  | failed (error : Error)

/-- One call. `pending` is the request of the synchronous callback that the guest
waits for; the handler loop runs while `looping`, and from `closed` on nothing is
queued for it. -/
structure Conversation (Memory : Type) where
  mode : Mode
  inv : Invocation
  phase : Phase
  ctx : Context
  memory : Option Memory
  pending : Option HostRequest
  looping : Bool
  closed : Bool

/-- The events of one call. -/
inductive Move where
  | create
  | init
  | start
  | enter
  | run
  | callbackReturns
  | finish
  | resolve
  | taskRecord (n : Nat)
  | taskSend (n : Nat)
  | receive
  | notify
  | drop
  | stop

namespace Conversation

variable {Memory : Type}

/-- The guest runs in an entry of the caller. -/
def callerFrame : Frame := { holder := .caller, hostCall := none }

/-- `ModuleState::new` and `new_context` up to the start function of the module. -/
def new (host : WapcHost Memory) (mode : Mode) (inv : Invocation) : Conversation Memory :=
  match host.guest.instantiate with
  | .ok memory => {
      mode := mode
      inv := inv
      phase := .instantiating
      ctx := { Context.new host.id with frame := some callerFrame }
      memory := some memory
      pending := none
      looping := false
      closed := false }
  | .error message => {
      mode := mode
      inv := inv
      phase := .failed (.context message)
      ctx := Context.new host.id
      memory := none
      pending := none
      looping := false
      closed := true }

variable (host : WapcHost Memory) (conv : Conversation Memory)

/-- The context is dropped: `Close` is sent, and the handler loop is aborted where
it waits for messages. -/
def dropContext : Conversation Memory :=
  { conv with
    looping := conv.looping && conv.ctx.handler ≠ .idle
    closed := true }

/-- The call fails early and takes the context with it. -/
def fail (error : Error) : Conversation Memory :=
  { conv with phase := .failed error }.dropContext

/-- The caller's entry ends before the context is called. -/
def leave (exit : Exit) : Conversation Memory :=
  { conv with ctx := { conv.ctx with frame := none, log := exit.log conv.ctx.log } }

/-- The end of `WasmtimeCallContext::new`: the handler loop needs its export. -/
def instantiated : Exit → Conversation Memory
  | .returned _ =>
    if host.guest.exports "__host_call_response_ready" then
      { conv with phase := .created, looping := true }
    else conv.fail (.context
      "Host response ready function (__host_response_ready) not exported by wasm module.")
  | .trapped message => conv.fail (.context message)

/-- A start function ended. -/
def started (starters : List String) : Exit → Conversation Memory
  | .returned _ => { conv with phase := .initializing starters }
  | .trapped message => conv.fail (.initFailed ("Initialization failed: " ++ message))

/-- `WapcCallContext::new`; its counter belongs to the process. -/
def create : Option (Conversation Memory) :=
  match conv.phase with
  | .created => some { conv with phase := .initializing requiredStarts }
  | _ => none

/-- The guest continues from a new entry. -/
def entered (ctx : Context) (entry : Entry) : Conversation Memory :=
  { conv with ctx := ctx, memory := conv.memory.map (host.guest.enter · entry) }

/-- One round of the loop of `init`; a start function that is not exported is skipped. -/
def init : Option (Conversation Memory) :=
  match conv.phase, conv.ctx.frame with
  | .initializing [], _ => some { conv with phase := .ready }
  | .initializing (starter :: starters), none =>
    if host.guest.exports starter then
      some ({ conv with phase := .starting starters }.entered host
        { conv.ctx with frame := some callerFrame } (.starter starter))
    else some { conv with phase := .initializing starters }
  | _, _ => none

/-- The first lines of `call` and `call_async` of the context. -/
def start : Option (Conversation Memory) :=
  match conv.phase with
  | .ready => (conv.ctx.step (.start conv.mode conv.inv)).map fun ctx =>
      { conv with phase := .called, ctx := ctx }
  | _ => none

/-- The entry for an invocation; the lengths are those of `op` and `payload`. -/
def guestEntry (index : I32) : Entry :=
  let opLen := BitVec.ofNat 32 (asBytes conv.inv.operation).length
  let msgLen := BitVec.ofNat 32 conv.inv.msg.length
  match conv.mode with
  | .sync => .guestCall index opLen msgLen
  | .async => .asyncGuestCall index opLen msgLen

/-- The caller has the store lock and looks for the export to call. -/
def enter : Option (Conversation Memory) :=
  match conv.phase, conv.ctx.caller with
  | .called, .starting _ index _ =>
    if host.guest.exports (guestExport conv.mode) then
      (conv.ctx.step .enter).map fun ctx => conv.entered host ctx (conv.guestEntry index)
    else (conv.ctx.step .exportMissing).map fun ctx => { conv with ctx := ctx }
  | _, _ => none

/-- What the guest gets from an import call that is no synchronous host call. -/
def reply : ImportCall → Reply
  | .read id => .entry (conv.ctx.module.getGuestRequest id) (conv.ctx.module.getHostResponse id)
      (conv.ctx.module.getHostError id)
  | .asyncHostCall _ => .code conv.ctx.module.beginHostCall.1
  | _ => .nothing

/-- The guest calls an import. In a synchronous host call it waits for the callback. -/
def call (memory : Memory) (call : ImportCall) : Option (Conversation Memory) :=
  (conv.ctx.step (.guest call)).map fun ctx =>
    match call with
    | .hostCall request => { conv with ctx := ctx, pending := some request }
    | _ => { conv with ctx := ctx, memory := some (host.guest.resume memory (conv.reply call)) }

/-- The guest's entry ends. -/
def exit (exit : Exit) : Option (Conversation Memory) :=
  match conv.phase with
  | .instantiating => some ((conv.leave exit).instantiated host exit)
  | .starting starters => some ((conv.leave exit).started starters exit)
  | _ => (conv.ctx.step (.exit exit)).map fun ctx => { conv with ctx := ctx }

/-- The running guest does what it does next. -/
def run : Option (Conversation Memory) :=
  match conv.ctx.frame, conv.memory with
  | some { holder := _, hostCall := none }, some memory =>
    match host.guest.next memory with
    | .call call => conv.call host memory call
    | .exit exit => conv.exit host exit
  | _, _ => none

/-- The synchronous callback returns, and the guest gets the code. -/
def callbackReturns : Option (Conversation Memory) :=
  match conv.ctx.frame, conv.pending, conv.memory with
  | some { holder := _, hostCall := some id }, some request, some memory =>
    let result := (runCallback host.syncHostcall () id request).1
    (conv.ctx.step (.hostCallReturns result)).map fun ctx => { conv with
      ctx := ctx
      memory := some (host.guest.resume memory (.code (ModuleState.returnCode id result)))
      pending := none }
  | _, _, _ => none

/-- The state is taken back in `call`, or `rx.await` is ready in `call_async`. -/
def conclude (event : Event) : Option (Conversation Memory) :=
  match conv.phase with
  | .called => (conv.ctx.step event).map fun ctx => { conv with ctx := ctx }
  | _ => none

/-- The callback of task `n` returns. -/
def taskRecord (n : Nat) : Option (Conversation Memory) :=
  match conv.ctx.tasks[n]? with
  | some task =>
    let result := (runCallback host.asyncHostcall () task.id task.request).1
    (conv.ctx.step (.taskRecord n result)).map fun ctx => { conv with ctx := ctx }
  | none => none

/-- Task `n` sends its message, which is lost once the channel is closed. -/
def taskSend (n : Nat) : Option (Conversation Memory) :=
  (conv.ctx.step (.taskSend n)).map fun ctx => { conv with
    ctx := if conv.closed then { ctx with channel := conv.ctx.channel } else ctx }

def receive : Option (Conversation Memory) :=
  if conv.looping then (conv.ctx.step .receive).map fun ctx => { conv with ctx := ctx }
  else none

def notify : Option (Conversation Memory) :=
  match conv.ctx.handler with
  | .received id code =>
    if conv.looping then
      (conv.ctx.step .notify).map fun ctx => conv.entered host ctx (.hostCallResponseReady id code)
    else none
  | _ => none

/-- The context may be dropped: `call` has its result, or the future of `call_async`
is at one of its await points or at its end. -/
def droppable : Bool :=
  match conv.phase with
  | .created | .ready => conv.mode = .async
  | .called =>
    match conv.ctx.caller with
    | .waiting _ _ | .done _ => true
    | _ => false
  | _ => false

def drop : Option (Conversation Memory) :=
  if conv.droppable then some { conv with phase := .concluded }.dropContext else none

/-- The aborted handler loop ends where it waits for messages. -/
def stop : Option (Conversation Memory) :=
  if conv.closed && conv.looping && conv.ctx.handler = .idle then
    some { conv with looping := false }
  else none

/-- One step of the call; a panic in it ends it. -/
def step (move : Move) : Option (Conversation Memory) :=
  if conv.ctx.crashed then none
  else match move with
    | .create => conv.create
    | .init => conv.init host
    | .start => conv.start
    | .enter => conv.enter host
    | .run => conv.run host
    | .callbackReturns => conv.callbackReturns host
    | .finish => conv.conclude .finish
    | .resolve => conv.conclude .resolve
    | .taskRecord n => conv.taskRecord host n
    | .taskSend n => conv.taskSend n
    | .receive => conv.receive
    | .notify => conv.notify host
    | .drop => conv.drop
    | .stop => conv.stop

/-- The call by itself as a machine. -/
def machine : Machine (Conversation Memory) Move := ⟨step host⟩

/-- What `call` returns, or `call_async` once it is awaited. -/
def result : Option CallResult :=
  match conv.phase with
  | .failed error => some (.error error)
  | _ =>
    match conv.ctx.caller with
    | .done (.ok response) => some (.ok response)
    | .done (.error error) => some (.error (.guestCallFailure error.display))
    | _ => none

end Conversation
end Wapc.Runtime
