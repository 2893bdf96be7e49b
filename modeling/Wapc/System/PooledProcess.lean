import Wapc.Pool.Requests
import Wapc.Pool.Progress
import Wapc.Runtime.Rest
import Wapc.Runtime.Isolation

/-!
# A pool in its process

The factory of a pool makes a host for each worker. A worker calls its host for the request
it received, and the future of this call is its own until it has the result or panics. A
`PooledProcess` is the pool together with the process that the calls run in, among the hosts
and calls of all other code.
-/

namespace Wapc.System

open Semantics
open Wapc.Pool (HostPool ThreadPool WorkerMessage)
open Wapc.Runtime (Process Guest)

/-- `hosts` are the hosts of the workers. `futures` are the calls that were made for requests,
which are named by their senders, in the order in which they were made. -/
structure PooledProcess (api : ThreadPool) (Memory : Type) where
  pool : HostPool api
  process : Process Memory
  hosts : Nat → Option Nat
  futures : List (Host.Oneshot × Nat)

/-- What a factory returns: a host that it makes, or one that was made before. -/
inductive Product (Memory : Type) where
  | new (guest : Guest Memory) (syncHostcall asyncHostcall : Option (Host.HostCallback Unit))
  | made (host : Nat)

/-- The events of the pool and of the process. A worker is with its host when the factory
makes it, and from the call for a request to its end. -/
inductive Event (Memory : Type) where
  | pool (event : Pool.Event)
  | process (event : Runtime.Event Memory)
  | build (w : Nat) (product : Product Memory)
  | invoke (w : Nat)
  | complete (w : Nat)
  | panic (w : Nat)

/-- The events of a worker that is with its host. -/
def withHost : Pool.Event → Bool
  | .worker _ .build | .worker _ .invoke | .worker _ (.complete _) | .worker _ .panic => true
  | _ => false

namespace PooledProcess

variable {api : ThreadPool} {Memory : Type} (config : Pool.Config)
  (state : PooledProcess api Memory)

def new : PooledProcess api Memory where
  pool := .new config api
  process := .new
  hosts := fun _ => none
  futures := []

/-- The message that worker `w` has. -/
def message (w : Nat) : Option WorkerMessage :=
  (state.pool.workers[w]?).bind (·.phase.message)

theorem message_eq {w : Nat} {worker : Pool.Worker}
    (submitted : state.pool.workers[w]? = some worker) :
    state.message w = worker.phase.message := by
  rw [message, submitted, Option.bind_some]

/-- The call whose future worker `w` awaits. -/
def awaited (w : Nat) : Option Nat :=
  (state.message w).bind fun message => state.futures.lookup message.tx

/-- The future of a call is dropped, and the context with it, if the call still has one. -/
def letGo (n : Nat) : Process Memory :=
  (state.process.step (.step n .drop)).getD state.process

/-- Only workers drop their futures. -/
def drops : Runtime.Event Memory → Bool
  | .step n .drop => state.futures.any (·.2 = n)
  | _ => false

/-- The host that the factory returns, and the process with it. -/
def factory : Product Memory → Option (Nat × Process Memory)
  | .new guest syncHostcall asyncHostcall =>
    some (state.process.hosts.length, state.process.newHost guest syncHostcall asyncHostcall)
  | .made host => state.process.hosts[host]?.map fun _ => (host, state.process)

/-- A worker gets its host and waits for requests. -/
def build (w : Nat) (product : Product Memory) : Option (PooledProcess api Memory) := do
  let pool ← state.pool.step config (.worker w .build)
  let (host, process) ← state.factory product
  return { state with
    pool := pool
    process := process
    hosts := Function.update state.hosts w (some host) }

/-- `host.call_async(&op, payload)` for the message that was received. -/
def invoke (w : Nat) : Option (PooledProcess api Memory) := do
  let pool ← state.pool.step config (.worker w .invoke)
  let message ← state.message w
  let host ← state.hosts w
  let process ← state.process.call host .async ⟨message.op, message.payload⟩
  return { state with
    pool := pool
    process := process
    futures := state.futures ++ [(message.tx, state.process.calls.length)] }

/-- The future is ready. -/
def complete (w : Nat) : Option (PooledProcess api Memory) := do
  let n ← state.awaited w
  let result ← state.process.result n
  let pool ← state.pool.step config (.worker w (.complete result))
  return { state with pool := pool, process := state.letGo n }

/-- The factory panics, or the call does and the future is dropped. -/
def panic (w : Nat) : Option (PooledProcess api Memory) := do
  let pool ← state.pool.step config (.worker w .panic)
  return { state with
    pool := pool
    process := (state.awaited w).elim state.process state.letGo }

def step : Event Memory → Option (PooledProcess api Memory)
  | .pool event =>
    if withHost event then none
    else (state.pool.step config event).map ({ state with pool := · })
  | .process event =>
    if state.drops event then none
    else (state.process.step event).map ({ state with process := · })
  | .build w product => state.build config w product
  | .invoke w => state.invoke config w
  | .complete w => state.complete config w
  | .panic w => state.panic config w

/-- The system as a machine over its events. -/
def machine (api : ThreadPool) : Machine (PooledProcess api Memory) (Event Memory) :=
  ⟨step config⟩

end PooledProcess

/-! ### What a step can do -/

/-- The transitions of the system, over those of the pool. -/
inductive Step {api : ThreadPool} {Memory : Type} (config : Pool.Config)
    (state : PooledProcess api Memory) : Event Memory → PooledProcess api Memory → Prop where
  | pool {event pool} (apart : withHost event = false)
      (moved : Pool.Step config state.pool event pool) :
      Step config state (.pool event) { state with pool := pool }
  | process {event process} (kept : state.drops event = false)
      (moved : state.process.step event = some process) :
      Step config state (.process event) { state with process := process }
  | build {w product pool host process}
      (moved : Pool.Step config state.pool (.worker w .build) pool)
      (made : state.factory product = some (host, process)) :
      Step config state (.build w product) { state with
        pool := pool
        process := process
        hosts := Function.update state.hosts w (some host) }
  | invoke {w message pool host process}
      (moved : Pool.Step config state.pool (.worker w .invoke) pool)
      (received : state.message w = some message) (built : state.hosts w = some host)
      (called : state.process.call host .async ⟨message.op, message.payload⟩ = some process) :
      Step config state (.invoke w) { state with
        pool := pool
        process := process
        futures := state.futures ++ [(message.tx, state.process.calls.length)] }
  | complete {w n result pool} (awaited : state.awaited w = some n)
      (ready : state.process.result n = some result)
      (moved : Pool.Step config state.pool (.worker w (.complete result)) pool) :
      Step config state (.complete w) { state with pool := pool, process := state.letGo n }
  | panic {w pool} (moved : Pool.Step config state.pool (.worker w .panic) pool) :
      Step config state (.panic w) { state with
        pool := pool
        process := (state.awaited w).elim state.process state.letGo }

namespace Step

variable {api : ThreadPool} {Memory : Type} {config : Pool.Config}
  {state next : PooledProcess api Memory} {event : Event Memory}

/-- `PooledProcess.step` takes no other transition. -/
theorem of_step (stepped : state.step config event = some next) :
    Step config state event next := by
  cases event with
  | pool event =>
    obtain ⟨apart, stepped⟩ := Option.ite_none_left_eq_some.mp stepped
    obtain ⟨pool, moved, rfl⟩ := Option.map_eq_some_iff.mp stepped
    exact .pool (Bool.eq_false_iff.mpr apart) (.of_step moved)
  | process event =>
    obtain ⟨kept, stepped⟩ := Option.ite_none_left_eq_some.mp stepped
    obtain ⟨process, moved, rfl⟩ := Option.map_eq_some_iff.mp stepped
    exact .process (Bool.eq_false_iff.mpr kept) moved
  | build w product =>
    obtain ⟨pool, moved, rest⟩ := Option.bind_eq_some_iff.mp stepped
    obtain ⟨⟨host, process⟩, made, rest⟩ := Option.bind_eq_some_iff.mp rest
    cases rest
    exact .build (.of_step moved) made
  | invoke w =>
    obtain ⟨pool, moved, rest⟩ := Option.bind_eq_some_iff.mp stepped
    obtain ⟨message, received, rest⟩ := Option.bind_eq_some_iff.mp rest
    obtain ⟨host, built, rest⟩ := Option.bind_eq_some_iff.mp rest
    obtain ⟨process, called, rest⟩ := Option.bind_eq_some_iff.mp rest
    cases rest
    exact .invoke (.of_step moved) received built called
  | complete w =>
    obtain ⟨n, awaited, rest⟩ := Option.bind_eq_some_iff.mp stepped
    obtain ⟨result, ready, rest⟩ := Option.bind_eq_some_iff.mp rest
    obtain ⟨pool, moved, rest⟩ := Option.bind_eq_some_iff.mp rest
    cases rest
    exact .complete awaited ready (.of_step moved)
  | panic w =>
    obtain ⟨pool, moved, rest⟩ := Option.bind_eq_some_iff.mp stepped
    cases rest
    exact .panic (.of_step moved)

theorem to_step (moved : Step config state event next) : state.step config event = some next := by
  cases moved with
  | pool apart moved => simp [PooledProcess.step, apart, moved.to_step]
  | process kept moved => simp [PooledProcess.step, kept, moved]
  | build moved made => simp [PooledProcess.step, PooledProcess.build, moved.to_step, made]
  | invoke moved received built called =>
    simp [PooledProcess.step, PooledProcess.invoke, moved.to_step, received, built, called]
  | complete awaited ready moved =>
    simp [PooledProcess.step, PooledProcess.complete, awaited, ready, moved.to_step]
  | panic moved => simp [PooledProcess.step, PooledProcess.panic, moved.to_step]

end Step
end Wapc.System
