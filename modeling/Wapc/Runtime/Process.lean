import Wapc.Runtime.Conversation
import Wapc.Semantics.Projection

/-!
# All calls of a process

The calls of all hosts of a process share its heap: the module states, the stores
with their instances, and the channels are cells that are reached through handles.
The call context, the imports in the linker's copy, and the handler loop hold handles
of their own. A step of a call reads and writes the cells its party has handles of,
and nothing else but what the call has for itself.
-/

namespace Wapc.Runtime

open Semantics Host

/-- `Arc`s of one module state, one store and one channel. -/
structure Handles where
  state : Nat
  store : Nat
  channel : Nat
deriving DecidableEq

/-- A store: the memory of its instance, the entry that holds its lock, and the
request that entry waits for. -/
structure Store (Memory : Type) where
  memory : Option Memory
  frame : Option Frame
  pending : Option HostRequest

/-- Who takes a step of a call. The tasks of async host calls have the handles of
the import that spawned them. -/
inductive Party where
  | context
  | imports
  | handler
deriving DecidableEq

/-- The party that takes a step. -/
def Move.party : Move → Party
  | .run | .callbackReturns | .taskRecord _ | .taskSend _ => .imports
  | .receive | .notify | .stop => .handler
  | _ => .context

/-- One call: the host it was made on, the handles of its parties, the id of its
context, and what no other code has a handle of. -/
structure Call where
  host : Nat
  mode : Mode
  inv : Invocation
  handles : Party → Handles
  contextId : Option Nat
  phase : Phase
  tasks : List Task
  handler : Handler
  caller : Caller
  crashed : Bool
  log : List Observation
  looping : Bool
  closed : Bool

structure Process (Memory : Type) where
  moduleCount : Nat
  contextCount : Nat
  hosts : List (WapcHost Memory)
  states : List ModuleState
  stores : List (Store Memory)
  channels : List (List AsyncChannel)
  calls : List Call

/-- The events of a process. A call is named by its position. -/
inductive Event (Memory : Type) where
  | nextId
  | newHost (guest : Guest Memory) (syncHostcall asyncHostcall : Option (HostCallback Unit))
  | call (n host : Nat) (mode : Mode) (inv : Invocation)
  | step (n : Nat) (move : Move)

namespace Conversation

variable {Memory : Type}

/-- The part of a conversation that lies in its store. -/
def store (conv : Conversation Memory) : Store Memory where
  memory := conv.memory
  frame := conv.ctx.frame
  pending := conv.pending

/-- The part of a conversation that lies in no cell. -/
def record (conv : Conversation Memory) (host : Nat) (handles : Party → Handles)
    (contextId : Option Nat) : Call where
  host := host
  mode := conv.mode
  inv := conv.inv
  handles := handles
  contextId := contextId
  phase := conv.phase
  tasks := conv.ctx.tasks
  handler := conv.ctx.handler
  caller := conv.ctx.caller
  crashed := conv.ctx.crashed
  log := conv.ctx.log
  looping := conv.looping
  closed := conv.closed

end Conversation

/-- A conversation put together from its cells and its record. -/
def Call.conversation {Memory : Type} (call : Call) (module : ModuleState)
    (store : Store Memory) (channel : List AsyncChannel) : Conversation Memory where
  mode := call.mode
  inv := call.inv
  phase := call.phase
  ctx := {
    module := module
    frame := store.frame
    tasks := call.tasks
    channel := channel
    handler := call.handler
    caller := call.caller
    crashed := call.crashed
    log := call.log }
  memory := store.memory
  pending := store.pending
  looping := call.looping
  closed := call.closed

@[simp] theorem Call.record_conversation {Memory : Type} (conv : Conversation Memory)
    (host : Nat) (handles : Party → Handles) (contextId : Option Nat) :
    (conv.record host handles contextId).conversation conv.ctx.module conv.store
      conv.ctx.channel = conv := rfl

namespace Process

variable {Memory : Type}

/-- No host yet; both counters start from 1. -/
def new : Process Memory where
  moduleCount := 1
  contextCount := 1
  hosts := []
  states := []
  stores := []
  channels := []
  calls := []

/-- `fetch_add(1)` on a global counter. -/
def fetchAdd (counter : Nat) : Nat := (counter + 1) % 2 ^ 64

variable (process : Process Memory)

/-- `WapcHost::new`, which takes the next id. -/
def newHost (guest : Guest Memory) (syncHostcall asyncHostcall : Option (HostCallback Unit)) :
    Process Memory :=
  { process with
    moduleCount := fetchAdd process.moduleCount
    hosts := process.hosts ++ [{
      id := process.moduleCount
      guest := guest
      syncHostcall := syncHostcall
      asyncHostcall := asyncHostcall }] }

/-- The handles of the cells that are allocated next. -/
def fresh : Handles where
  state := process.states.length
  store := process.stores.length
  channel := process.channels.length

/-- `call` and `call_async` of a host: allocate a module state, a store and a channel,
and give their handles to the context, to the imports in a copy of the linker, and to
the handler loop. -/
def call (host : Nat) (mode : Mode) (inv : Invocation) : Option (Process Memory) :=
  process.hosts[host]?.map fun wapcHost =>
    let conv := Conversation.new wapcHost mode inv
    { process with
      states := process.states ++ [conv.ctx.module]
      stores := process.stores ++ [conv.store]
      channels := process.channels ++ [conv.ctx.channel]
      calls := process.calls ++ [conv.record host (fun _ => process.fresh) none] }

/-- The conversation of a call as one of its parties sees it. -/
def gather (call : Call) (party : Party) : Option (Conversation Memory) :=
  match process.states[(call.handles party).state]?, process.stores[(call.handles party).store]?,
      process.channels[(call.handles party).channel]? with
  | some module, some store, some channel => some (call.conversation module store channel)
  | _, _, _ => none

/-- Write a conversation back through the handles of a party. -/
def scatter (n : Nat) (call : Call) (party : Party) (conv : Conversation Memory) :
    Process Memory :=
  { process with
    states := process.states.set (call.handles party).state conv.ctx.module
    stores := process.stores.set (call.handles party).store conv.store
    channels := process.channels.set (call.handles party).channel conv.ctx.channel
    calls := process.calls.set n (conv.record call.host call.handles call.contextId) }

/-- `WapcCallContext::new` takes the next id of a context. -/
def countContext : Move → Process Memory
  | .create => { process with contextCount := fetchAdd process.contextCount }
  | _ => process

/-- The context of a call gets the id that was next. -/
def nameContext (call : Call) : Move → Call
  | .create => { call with contextId := some process.contextCount }
  | _ => call

/-- A party of call `n` takes a step. -/
def move (n : Nat) (move : Move) : Option (Process Memory) :=
  match process.calls[n]? with
  | some call =>
    match process.hosts[call.host]?, process.gather call move.party with
    | some host, some conv => (conv.step host move).map
        ((process.countContext move).scatter n (process.nameContext call move) move.party)
    | _, _ => none
  | none => none

def step : Event Memory → Option (Process Memory)
  | .nextId => some { process with moduleCount := fetchAdd process.moduleCount }
  | .newHost guest syncHostcall asyncHostcall =>
    some (process.newHost guest syncHostcall asyncHostcall)
  | .call n host mode inv => if n = process.calls.length then process.call host mode inv else none
  | .step n move => process.move n move

/-- The process as a machine over its events. -/
def machine : Machine (Process Memory) (Event Memory) := ⟨step⟩

/-- Call `n`: its host, and its conversation as its context sees it. -/
def made (n : Nat) : Option (Nat × Conversation Memory) :=
  process.calls[n]?.bind fun call => (process.gather call .context).map (call.host, ·)

def conversation (n : Nat) : Option (Conversation Memory) := (process.made n).map (·.2)

/-- What call `n` returned. -/
def result (n : Nat) : Option CallResult := (process.conversation n).bind (·.result)

end Process
end Wapc.Runtime
