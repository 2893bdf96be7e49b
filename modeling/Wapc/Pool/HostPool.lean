import Wapc.Host.Context
import Wapc.Semantics.Machine

/-!
# A pool of hosts

`HostPool` hands calls to worker loops through a channel with one slot. A caller
that cannot send in time grows the pool by a worker that leaves when it is idle,
and then sends without a timeout. `step` runs one event of a caller, a worker
loop, the thread pool below them or `shutdown`; time is only present as timeouts,
each of which may come whenever its operation has to wait. `log` records what
happened, for statements about runs; no step reads it.
-/

namespace Wapc.Pool

open Semantics Host

/-- The thread pool library: how many threads it counts as workers is its own
affair. A panicking job ends only itself, and no job is run again. -/
structure ThreadPool where
  Threads : Type
  build (coreSize maxSize : Nat) : Threads
  execute : Threads → Threads
  jobStarted : Threads → Threads
  jobReturned : Threads → Threads
  jobPanicked : Threads → Threads
  currentWorkerCount : Threads → Nat

/-- How many threads there are, and how many of them have no job. -/
structure ThreadCount where
  coreSize : Nat
  maxSize : Nat
  total : Nat
  idle : Nat

/-- A thread pool that starts a thread for a job below the core size, and beyond it
while none is idle; threads beyond the core size leave with their job, and the
thread of a job that panicked is replaced. -/
def countedThreads : ThreadPool where
  Threads := ThreadCount
  build coreSize maxSize := ⟨coreSize, maxSize, 0, 0⟩
  execute threads :=
    if threads.total < threads.coreSize ∨ (threads.idle = 0 ∧ threads.total < threads.maxSize) then
      { threads with total := threads.total + 1 }
    else { threads with idle := threads.idle - 1 }
  jobStarted threads := threads
  jobReturned threads :=
    if threads.coreSize < threads.total then { threads with total := threads.total - 1 }
    else { threads with idle := threads.idle + 1 }
  jobPanicked threads := { threads with idle := threads.idle + 1 }
  currentWorkerCount threads := threads.total

/-- What the builder was given, durations in milliseconds; the thread pool takes no
other sizes. -/
structure Config where
  minThreads : Nat
  maxThreads : Nat
  maxWait : Nat
  maxIdle : Nat
  ordered : minThreads ≤ maxThreads
  positive : 1 ≤ maxThreads

/-- The defaults of `HostPoolBuilder`, in milliseconds. -/
def Config.default : Config where
  minThreads := 1
  maxThreads := 2
  maxWait := 100
  maxIdle := 5 * 60 * 1000
  ordered := by decide
  positive := by decide

/-- `WorkerMessage`: the sender of the caller's oneshot channel, which is named by
the position of the call, the operation and the payload. -/
structure WorkerMessage where
  tx : Oneshot
  op : String
  payload : Bytes
deriving DecidableEq

/-- What the receiver of a call's oneshot channel finds. -/
inductive Answer where
  | pending
  | sent (result : CallResult)
  | closed

/-- The result of `HostPool::call`: a host's own, or an error of the pool. -/
inductive PoolResult where
  | fromHost (result : CallResult)
  | general (message : String)

/-- Where a call stands: in `send_timeout`, with its arguments handed back, about
to spawn a worker, in the blocking `send`, or at its receiver. -/
inductive CallPhase where
  | sending
  | timedOut
  | growing
  | resending
  | awaiting
  | returned (result : PoolResult)
  | dropped

namespace CallPhase

/-- The caller holds the arguments of its request. -/
def holds : CallPhase → Bool
  | .sending | .timedOut | .growing | .resending => true
  | _ => false

/-- The call borrows the pool. -/
def outstanding : CallPhase → Bool
  | .returned _ | .dropped => false
  | _ => true

end CallPhase

structure Call where
  op : String
  payload : Bytes
  phase : CallPhase
  answer : Answer

/-- The arguments of call `n`. -/
def Call.message (call : Call) (n : Nat) : WorkerMessage := ⟨n, call.op, call.payload⟩

/-- Where a job of `spawn` stands. -/
inductive WorkerPhase where
  | queued
  | starting
  | waiting
  | received (message : WorkerMessage)
  | serving (message : WorkerMessage)
  | replying (message : WorkerMessage) (result : CallResult)
  | ended
  | panicked

namespace WorkerPhase

/-- The job is over; its receiver was dropped. -/
def gone : WorkerPhase → Bool
  | .ended | .panicked => true
  | _ => false

/-- A thread runs the job. -/
def running : WorkerPhase → Bool
  | .queued | .ended | .panicked => false
  | _ => true

end WorkerPhase

structure Worker where
  maxIdle : Option Nat
  phase : WorkerPhase

/-- What a run is observed by. -/
inductive Observation where
  | handed (worker : Nat) (message : WorkerMessage)
  | invoked (worker : Nat) (message : WorkerMessage)
  | produced (worker : Nat) (message : WorkerMessage) (result : CallResult)
  | panicked (worker : Nat) (serving : Option Oneshot)

/-- The pool with its callers and workers. `joining` says that `shutdown` waits
for the threads, and `held` that the pool was not dropped; it owns the only sender
of the channel. -/
structure HostPool (api : ThreadPool) where
  pool : Option api.Threads
  joining : Bool
  held : Bool
  slot : Option WorkerMessage
  workers : List Worker
  calls : List Call
  log : List Observation

/-- The steps of an issued call. -/
inductive CallEvent where
  | send
  | sendTimeout
  | sendDisconnected
  | checkSize
  | spawn
  | resend
  | resendDisconnected
  | answer
  | dropFuture

/-- The steps of a job. -/
inductive WorkerEvent where
  | start
  | build
  | receive
  | recvTimeout
  | recvDisconnected
  | invoke
  | complete (result : CallResult)
  | reply
  | panic

inductive Event where
  | call (op : String) (payload : Bytes)
  | caller (n : Nat) (event : CallEvent)
  | worker (w : Nat) (event : WorkerEvent)
  | shutdown
  | joined
  | drop

namespace HostPool

variable {api : ThreadPool} (config : Config) (state : HostPool api)

/-- How many jobs run. -/
def runningJobs : Nat := state.workers.countP (·.phase.running)

/-- A receiver of the channel is left. -/
def connected : Bool := state.held || state.workers.any (!·.phase.gone)

/-- Some caller borrows the pool. -/
def borrowed : Bool := state.calls.any (·.phase.outstanding)

def numActiveWorkers : Nat :=
  match state.pool with
  | some pool => api.currentWorkerCount pool
  | none => 0

/-- Submit a worker loop; `none` is the error `NoPool`. The thread pool runs the
job at once while fewer than its maximum run. -/
def spawn (maxIdle : Option Nat) : Option (HostPool api) :=
  match state.pool with
  | some pool => some { state with
      pool := some (api.execute pool)
      workers := state.workers ++
        [⟨maxIdle, if state.runningJobs < config.maxThreads then .starting else .queued⟩] }
  | none => none

/-- Spawn this many workers that never leave. -/
def spawnCore (state : HostPool api) : Nat → HostPool api
  | 0 => state
  | k + 1 => ((spawnCore state k).spawn config none).getD state

/-- `HostPool::new`. -/
def new (api : ThreadPool) : HostPool api :=
  spawnCore config {
    pool := some (api.build config.minThreads config.maxThreads)
    joining := false
    held := true
    slot := none
    workers := []
    calls := []
    log := [] } config.minThreads

/-- Move call `n` to another phase. -/
def setCall (n : Nat) (phase : CallPhase) : HostPool api :=
  { state with calls := state.calls.modify n ({ · with phase := phase }) }

/-- Answer the call the sender belongs to, unless its receiver was dropped. -/
def setAnswer (tx : Oneshot) (answer : Answer) : HostPool api :=
  { state with calls := state.calls.modify tx fun call =>
      match call.phase with
      | .dropped => call
      | _ => { call with answer := answer } }

/-- Move worker `w` to another phase. -/
def setWorker (w : Nat) (phase : WorkerPhase) : HostPool api :=
  { state with workers := state.workers.modify w ({ · with phase := phase }) }

/-- `HostPool::call` up to its first wait. -/
def call (op : String) (payload : Bytes) : Option (HostPool api) :=
  if state.held && !state.joining then
    some { state with calls := state.calls ++ [⟨op, payload, .sending, .pending⟩] }
  else none

/-- One event of call `n` once it was issued. -/
def callStep (n : Nat) (call : Call) : CallEvent → Option (HostPool api)
  | .send =>
    match call.phase, state.slot with
    | .sending, none => some { state.setCall n .awaiting with slot := some (call.message n) }
    | _, _ => none
  | .sendTimeout =>
    match call.phase, state.slot with
    | .sending, some _ => some (state.setCall n .timedOut)
    | _, _ => none
  | .sendDisconnected =>
    match call.phase with
    | .sending => if state.connected then none else some (state.setCall n .timedOut)
    | _ => none
  | .checkSize =>
    match call.phase with
    | .timedOut =>
      if state.numActiveWorkers < config.maxThreads then some (state.setCall n .growing)
      else some (state.setCall n .resending)
    | _ => none
  | .spawn =>
    match call.phase with
    -- An error of `spawn` is only logged.
    | .growing =>
      some (((state.spawn config (some config.maxIdle)).getD state).setCall n .resending)
    | _ => none
  | .resend =>
    match call.phase, state.slot with
    | .resending, none => some { state.setCall n .awaiting with slot := some (call.message n) }
    | _, _ => none
  | .resendDisconnected =>
    match call.phase with
    | .resending =>
      if state.connected then none
      else some (state.setCall n (.returned (.general "sending on a disconnected channel")))
    | _ => none
  | .answer =>
    match call.phase, call.answer with
    | .awaiting, .sent result => some (state.setCall n (.returned (.fromHost result)))
    | .awaiting, .closed => some (state.setCall n (.returned (.general "channel closed")))
    | _, _ => none
  | .dropFuture =>
    match call.phase with
    | .awaiting => some (state.setCall n .dropped)
    | _ => none

/-- Tell the thread pool about a job. -/
def tellPool (change : api.Threads → api.Threads) : HostPool api :=
  { state with pool := state.pool.map change }

/-- Record an observation. -/
def note (observation : Observation) : HostPool api :=
  { state with log := state.log ++ [observation] }

/-- One event of the job `w`. A worker that serves can always take `complete` or
`panic`, that is, a `host.call_async` that was started is taken to return or to panic. -/
def workerStep (w : Nat) (worker : Worker) : WorkerEvent → Option (HostPool api)
  | .start =>
    match worker.phase with
    | .queued =>
      if state.runningJobs < config.maxThreads then
        some ((state.setWorker w .starting).tellPool api.jobStarted)
      else none
    | _ => none
  | .build =>
    match worker.phase with
    | .starting => some (state.setWorker w .waiting)
    | _ => none
  | .receive =>
    match worker.phase, state.slot with
    | .waiting, some message =>
      some ({ state.setWorker w (.received message) with slot := none }.note (.handed w message))
    | _, _ => none
  | .recvTimeout =>
    match worker.phase, worker.maxIdle, state.slot with
    | .waiting, some _, none => some ((state.setWorker w .ended).tellPool api.jobReturned)
    | _, _, _ => none
  | .recvDisconnected =>
    match worker.phase, state.slot with
    -- The pool owns the only sender.
    | .waiting, none =>
      if state.held then none else some ((state.setWorker w .ended).tellPool api.jobReturned)
    | _, _ => none
  | .invoke =>
    match worker.phase with
    | .received message => some ((state.setWorker w (.serving message)).note (.invoked w message))
    | _ => none
  | .complete result =>
    match worker.phase with
    | .serving message =>
      some ((state.setWorker w (.replying message result)).note (.produced w message result))
    | _ => none
  | .reply =>
    match worker.phase with
    | .replying message result =>
      some ((state.setWorker w .waiting).setAnswer message.tx (.sent result))
    | _ => none
  | .panic =>
    match worker.phase with
    | .starting =>
      some (((state.setWorker w .panicked).tellPool api.jobPanicked).note (.panicked w none))
    -- The sender in the message is dropped unused.
    | .serving message =>
      some ((((state.setWorker w .panicked).setAnswer message.tx .closed).tellPool
        api.jobPanicked).note (.panicked w (some message.tx)))
    | _ => none

/-- `shutdown` up to the join; a second one is the error `NoPool`. It has the pool
to itself, so no caller waits; what a worker does for one that was dropped goes on. -/
def shutdown : Option (HostPool api) :=
  if state.held && !state.joining && !state.borrowed then
    match state.pool with
    | some _ => some { state with pool := none, joining := true }
    | none => some state
  else none

/-- `shutdown_join` returns once every job has ended. -/
def joined : Option (HostPool api) :=
  if state.joining && state.workers.all (·.phase.gone) then some { state with joining := false }
  else none

/-- The pool is dropped. -/
def drop : Option (HostPool api) :=
  if state.held && !state.joining && !state.borrowed then
    some { state with held := false, pool := none }
  else none

def step (event : Event) : Option (HostPool api) :=
  match event with
  | .call op payload => state.call op payload
  | .caller n event => (state.calls[n]?).bind fun call => state.callStep config n call event
  | .worker w event => (state.workers[w]?).bind fun worker => state.workerStep config w worker event
  | .shutdown => state.shutdown
  | .joined => state.joined
  | .drop => state.drop

/-- The pool as a machine over its events. -/
def machine (api : ThreadPool) : Machine (HostPool api) Event := ⟨step config⟩

end HostPool
end Wapc.Pool
