import Wapc.Semantics.Records
import Wapc.Runtime.Lasting
import Wapc.System.PooledProcess

/-!
# What a pool answers

A request that a pool takes is called on one host, once, in a call of its own among all the
calls of the process. What `HostPool::call` returns from a host is what this call returned,
and it returned what the conversation for the operation and the payload comes to by itself.
-/

namespace Wapc.Pool

open Semantics Host HostPool

/-! ### Workers apart from their hosts -/

namespace WorkerPhase

/-- The factory has not returned yet. -/
def fresh : WorkerPhase → Bool
  | .queued | .starting => true
  | _ => false

/-- The job has its host. -/
def hosted : WorkerPhase → Bool
  | .waiting | .received _ | .serving _ | .replying _ _ => true
  | _ => false

/-- What a job does without its host: it gets no host and begins no call. -/
structure Ages (before after : WorkerPhase) : Prop where
  fresh : after.fresh = before.fresh
  hosted : after.hosted → before.hosted
  serving : ∀ message, after = .serving message → before = .serving message

theorem Ages.refl (phase : WorkerPhase) : phase.Ages phase := ⟨rfl, id, fun _ => id⟩

end WorkerPhase

variable {api : ThreadPool} {config : Config} {state next : HostPool api}

/-- What a step does to a pool without the hosts of its workers. -/
structure Apart (state next : HostPool api) : Prop where
  invocations : invocations next.log = invocations state.log
  products : products next.log = products state.log
  old : ∀ (w : Nat) (before : Worker), state.workers[w]? = some before →
    ∃ after, next.workers[w]? = some after ∧ before.phase.Ages after.phase
  new : ∀ (w : Nat) (after : Worker), state.workers[w]? = none → next.workers[w]? = some after →
    after.phase.fresh

namespace Apart

theorem frame (invoked : Pool.invocations next.log = Pool.invocations state.log)
    (produced : Pool.products next.log = Pool.products state.log)
    (workers : next.workers = state.workers) : Apart state next where
  invocations := invoked
  products := produced
  old := fun w before submitted => ⟨before, workers ▸ submitted, .refl _⟩
  new := by
    intro w after none present
    rw [workers, none] at present
    cases present

theorem move {w : Nat} {worker : Worker} (phase : WorkerPhase)
    (submitted : state.workers[w]? = some worker) (ages : worker.phase.Ages phase)
    (invoked : Pool.invocations next.log = Pool.invocations state.log)
    (produced : Pool.products next.log = Pool.products state.log)
    (workers : next.workers = (state.setWorker w phase).workers) : Apart state next where
  invocations := invoked
  products := produced
  old := by
    intro v before present
    rw [workers]
    by_cases same : w = v
    · subst same
      cases submitted.symm.trans present
      exact ⟨_, state.setWorker_self phase submitted, ages⟩
    · exact ⟨before, (state.setWorker_other phase same).trans present, .refl _⟩
  new := by
    intro v after none present
    rw [workers] at present
    rcases state.setWorker_cases present with ⟨rfl, before, there, -⟩ | ⟨-, there⟩
    · rw [none] at there
      cases there
    · rw [none] at there
      cases there

theorem spawn : Apart state ((state.spawn config (some config.maxIdle)).getD state) := by
  rcases state.spawn_cases config (some config.maxIdle) with failed | ⟨pool, phase, fresh, spawned⟩
  · rw [failed]
    exact frame rfl rfl rfl
  · rw [spawned]
    refine ⟨rfl, rfl, fun w before submitted => ⟨before, ?_, .refl _⟩, ?_⟩
    · exact (List.getElem?_append_left (List.getElem?_eq_some_iff.mp submitted).1).trans submitted
    · intro w after none present
      rcases getElem?_snoc present with there | ⟨-, rfl⟩
      · rw [none] at there
        cases there
      · rcases fresh with rfl | rfl <;> rfl

end Apart

/-- The steps in which a worker is not with its host. -/
theorem Step.apart {event : Event} (moved : Step config state event next)
    (apart : System.withHost event = false) : Apart state next := by
  cases moved with
  | build | invoke | complete | factoryPanics | callPanics => cases apart
  | spawn =>
    have spawned : Apart state ((state.spawn config (some config.maxIdle)).getD state) := .spawn
    exact ⟨spawned.invocations, spawned.products, spawned.old, spawned.new⟩
  | start submitted phase =>
    exact .move .starting submitted (by rw [phase]; exact ⟨rfl, nofun, nofun⟩) rfl rfl rfl
  | receive submitted phase =>
    exact .move (.received _) submitted (by rw [phase]; exact ⟨rfl, fun _ => rfl, nofun⟩) (by simp)
      (by simp) rfl
  | recvTimeout submitted phase | recvDisconnected submitted phase =>
    exact .move .ended submitted (by rw [phase]; exact ⟨rfl, nofun, nofun⟩) rfl rfl rfl
  | reply submitted phase =>
    exact .move .waiting submitted (by rw [phase]; exact ⟨rfl, fun _ => rfl, nofun⟩)
      rfl rfl rfl
  | _ => exact .frame rfl rfl rfl

end Wapc.Pool

namespace Wapc.System

open Semantics
open Wapc.Pool (ThreadPool Apart Accounted invocations products callers)
open Wapc.Runtime (Process Asks Returns)

variable {api : ThreadPool} {Memory : Type} {config : Pool.Config}
  {state next : PooledProcess api Memory} {event : Event Memory}

/-! ### The process -/

theorem letGo_advances (state : PooledProcess api Memory) (n : Nat) :
    state.process.Advances (state.letGo n) := by
  unfold PooledProcess.letGo
  cases stepped : state.process.step (.step n .drop) with
  | none => exact .inl rfl
  | some process => exact .inr ⟨_, stepped⟩

/-- The factory makes a host at most. -/
theorem factory_cases {product : Product Memory} {host : Nat} {process : Process Memory}
    (made : state.factory product = some (host, process)) :
    process = state.process ∨ ∃ guest syncHostcall asyncHostcall,
      state.process.step (.newHost guest syncHostcall asyncHostcall) = some process := by
  cases product with
  | new =>
    cases made
    exact .inr ⟨_, _, _, rfl⟩
  | made =>
    obtain ⟨_, -, same⟩ := Option.map_eq_some_iff.mp made
    cases same
    exact .inl rfl

/-- The factory returns a host that is in the process. -/
theorem factory_host {product : Product Memory} {host : Nat} {process : Process Memory}
    (made : state.factory product = some (host, process)) :
    ∃ wapcHost, process.hosts[host]? = some wapcHost := by
  cases product with
  | new =>
    cases made
    exact ⟨_, List.getElem?_concat_length⟩
  | made =>
    obtain ⟨wapcHost, there, same⟩ := Option.map_eq_some_iff.mp made
    cases same
    exact ⟨wapcHost, there⟩

theorem Step.advances (moved : Step config state event next) :
    state.process.Advances next.process := by
  cases moved with
  | pool => exact .inl rfl
  | process _ stepped => exact .inr ⟨_, stepped⟩
  | build _ made =>
    exact (factory_cases made).imp_right fun ⟨_, _, _, stepped⟩ => ⟨_, stepped⟩
  | @invoke _ message _ host _ _ _ _ called =>
    refine .inr ⟨.call state.process.calls.length host .async ⟨message.op, message.payload⟩, ?_⟩
    exact (if_pos rfl).trans called
  | complete => exact letGo_advances state _
  | @panic w =>
    cases awaited : state.awaited w with
    | none => exact .inl rfl
    | some n => exact letGo_advances state n

theorem Step.pool_moves (moved : Step config state event next) :
    next.pool = state.pool ∨ ∃ event, Pool.Step config state.pool event next.pool := by
  cases moved with
  | process => exact .inl rfl
  | pool _ moved | build moved | invoke moved | complete _ _ moved | panic moved =>
    exact .inr ⟨_, moved⟩

/-! ### Workers and their hosts -/

/-- A worker has a host of the process from the return of the factory on. -/
structure Staffed (state : PooledProcess api Memory) : Prop where
  begun : ∀ w host, state.hosts w = some host →
    ∃ worker, state.pool.workers[w]? = some worker ∧ worker.phase.fresh = false
  built : ∀ (w : Nat) (worker : Pool.Worker), state.pool.workers[w]? = some worker →
    worker.phase.hosted →
    ∃ host wapcHost, state.hosts w = some host ∧ state.process.hosts[host]? = some wapcHost

namespace Staffed

theorem new (config : Pool.Config) : Staffed (.new config : PooledProcess api Memory) where
  begun := by
    intro w host built
    cases built
  built := by
    intro w worker submitted hosted
    obtain ⟨threads, fresh⟩ := Pool.HostPool.new_eq config api
    change (Pool.HostPool.new config api).workers[w]? = some worker at submitted
    rw [fresh, List.getElem?_replicate] at submitted
    split at submitted <;> cases submitted
    cases hosted

/-- Workers that are not with their hosts keep them. -/
theorem frame (staffed : Staffed state) (apart : Apart state.pool next.pool)
    (reached : state.process.Reached) (advances : state.process.Advances next.process)
    (hosts : next.hosts = state.hosts) : Staffed next where
  begun := by
    intro w host built
    rw [hosts] at built
    obtain ⟨before, submitted, begun⟩ := staffed.begun w host built
    obtain ⟨after, present, ages⟩ := apart.old w before submitted
    exact ⟨after, present, ages.fresh.trans begun⟩
  built := by
    intro w after present hosted
    rw [hosts]
    cases submitted : state.pool.workers[w]? with
    | none =>
      have fresh := apart.new w after submitted present
      cases phase : after.phase <;> simp_all [Pool.WorkerPhase.fresh, Pool.WorkerPhase.hosted]
    | some before =>
      obtain ⟨after', present', ages⟩ := apart.old w before submitted
      cases present'.symm.trans present
      obtain ⟨host, wapcHost, built, there⟩ := staffed.built w before submitted (ages.hosted hosted)
      exact ⟨host, wapcHost, built, advances.hosts reached there⟩

/-- A worker that has its host moves on. -/
theorem move {w : Nat} {worker : Pool.Worker} {phase : Pool.WorkerPhase} (staffed : Staffed state)
    (submitted : state.pool.workers[w]? = some worker) (begun : phase.fresh = false)
    (hosted : phase.hosted → ∃ host wapcHost, next.hosts w = some host ∧
      next.process.hosts[host]? = some wapcHost)
    (reached : state.process.Reached) (advances : state.process.Advances next.process)
    (workers : next.pool.workers = (state.pool.setWorker w phase).workers)
    (hosts : ∀ v, v ≠ w → next.hosts v = state.hosts v) : Staffed next where
  begun := by
    intro v host built
    rw [workers]
    by_cases same : v = w
    · subst same
      exact ⟨_, state.pool.setWorker_self phase submitted, begun⟩
    · rw [hosts v same] at built
      obtain ⟨other, present, begun⟩ := staffed.begun v host built
      exact ⟨other, (state.pool.setWorker_other phase (Ne.symm same)).trans present, begun⟩
  built := by
    intro v after present isHosted
    rw [workers] at present
    rcases state.pool.setWorker_cases present with ⟨rfl, before, -, rfl⟩ | ⟨other, before⟩
    · exact hosted isHosted
    · obtain ⟨host, wapcHost, built, there⟩ := staffed.built v after before isHosted
      exact ⟨host, wapcHost, (hosts v other).trans built, advances.hosts reached there⟩

/-- A worker that goes on with its host keeps it. -/
theorem keep {w : Nat} {worker : Pool.Worker} {phase : Pool.WorkerPhase} (staffed : Staffed state)
    (submitted : state.pool.workers[w]? = some worker) (hosted : worker.phase.hosted)
    (begun : phase.fresh = false) (reached : state.process.Reached)
    (advances : state.process.Advances next.process)
    (workers : next.pool.workers = (state.pool.setWorker w phase).workers)
    (hosts : next.hosts = state.hosts) : Staffed next := by
  have same : ∀ v, v ≠ w → next.hosts v = state.hosts v := by
    rw [hosts]
    exact fun _ _ => rfl
  refine staffed.move submitted begun (fun _ => ?_) reached advances workers same
  obtain ⟨host, wapcHost, built, there⟩ := staffed.built w worker submitted hosted
  exact ⟨host, wapcHost, hosts ▸ built, advances.hosts reached there⟩

theorem step (staffed : Staffed state) (reached : state.process.Reached)
    (moved : Step config state event next) : Staffed next := by
  have advances := moved.advances
  cases moved with
  | pool apart moved => exact staffed.frame (moved.apart apart) reached advances rfl
  | process => exact staffed.frame (.frame rfl rfl rfl) reached advances rfl
  | build moved made =>
    cases moved with
    | build submitted phase =>
      obtain ⟨wapcHost, there⟩ := factory_host made
      exact staffed.move submitted rfl
        (fun _ => ⟨_, wapcHost, Function.update_self .., there⟩) reached advances rfl
        fun v other => Function.update_of_ne other ..
  | invoke moved =>
    cases moved with
    | invoke submitted phase =>
      exact staffed.keep submitted (by rw [phase]; rfl) rfl reached advances rfl rfl
  | complete _ _ moved =>
    cases moved with
    | complete submitted phase =>
      exact staffed.keep submitted (by rw [phase]; rfl) rfl reached advances rfl rfl
  | panic moved =>
    cases moved with
    | factoryPanics submitted | callPanics submitted =>
      exact staffed.move submitted rfl (fun hosted => by cases hosted) reached advances rfl
        fun _ _ => rfl

end Staffed

/-! ### Requests and their calls -/

/-- Each request that was invoked has a call of its own, which asks for it on the host of a
worker. What a worker produced is what the call returned. -/
structure Called (state : PooledProcess api Memory) : Prop where
  requests : state.futures.map Prod.fst = callers (invocations state.pool.log)
  calls : (state.futures.map Prod.snd).Nodup
  asked : ∀ tx n, (tx, n) ∈ state.futures → ∃ w message host,
    (w, message) ∈ invocations state.pool.log ∧ message.tx = tx ∧ state.hosts w = some host ∧
      state.process.Holds n host (Asks .async ⟨message.op, message.payload⟩)
  returned : ∀ w message result, (w, message, result) ∈ products state.pool.log →
    ∃ n host, (message.tx, n) ∈ state.futures ∧ state.process.Holds n host (Returns result)

namespace Called

theorem new (config : Pool.Config) : Called (.new config : PooledProcess api Memory) := by
  obtain ⟨threads, fresh⟩ := Pool.HostPool.new_eq config api
  constructor <;>
    simp [PooledProcess.new, fresh, invocations, products, callers]

/-- A call that was made for a request goes on asking for it. -/
theorem still_asked {tx n : Nat} (called : Called state) (reached : state.process.Reached)
    (advances : state.process.Advances next.process)
    (hosts : ∀ w host, state.hosts w = some host → next.hosts w = some host)
    (invoked : invocations state.pool.log ⊆ invocations next.pool.log)
    (member : (tx, n) ∈ state.futures) : ∃ w message host,
      (w, message) ∈ invocations next.pool.log ∧ message.tx = tx ∧ next.hosts w = some host ∧
        next.process.Holds n host (Asks .async ⟨message.op, message.payload⟩) := by
  obtain ⟨w, message, host, logged, named, built, asks⟩ := called.asked tx n member
  exact ⟨w, message, host, invoked logged, named, hosts w host built,
    asks.advance (Asks.lasting _ _) reached advances⟩

/-- A call that returned what a worker produced keeps its result. -/
theorem still_returned {w : Nat} {message : Pool.WorkerMessage} {result : Host.CallResult}
    (called : Called state) (reached : state.process.Reached)
    (advances : state.process.Advances next.process) (futures : state.futures ⊆ next.futures)
    (member : (w, message, result) ∈ products state.pool.log) :
    ∃ n host, (message.tx, n) ∈ next.futures ∧ next.process.Holds n host (Returns result) := by
  obtain ⟨n, host, made, returns⟩ := called.returned w message result member
  exact ⟨n, host, futures made, returns.advance (Returns.lasting _) reached advances⟩

/-- Hosts and calls stay; the requests that were invoked, and what was produced, do too. -/
theorem frame (called : Called state) (reached : state.process.Reached)
    (advances : state.process.Advances next.process)
    (hosts : ∀ w host, state.hosts w = some host → next.hosts w = some host)
    (futures : next.futures = state.futures)
    (invoked : invocations next.pool.log = invocations state.pool.log)
    (produced : products next.pool.log = products state.pool.log) : Called next where
  requests := by rw [futures, invoked, called.requests]
  calls := futures ▸ called.calls
  asked := by
    intro tx n member
    rw [futures] at member
    exact called.still_asked reached advances hosts (invoked ▸ List.Subset.refl _) member
  returned := by
    intro w message result member
    rw [produced] at member
    exact called.still_returned reached advances (futures ▸ List.Subset.refl _) member

theorem lt_length (called : Called state) {n : Nat} (member : n ∈ state.futures.map Prod.snd) :
    n < state.process.calls.length := by
  obtain ⟨⟨tx, n⟩, asked, rfl⟩ := List.mem_map.mp member
  obtain ⟨_, _, _, -, -, -, conv, made, -⟩ := called.asked tx n asked
  exact Process.small_of_made made

/-- A call is made for a request. -/
theorem invoke {w host : Nat} {message : Pool.WorkerMessage} {process : Process Memory}
    (called : Called state) (reached : state.process.Reached)
    (advances : state.process.Advances next.process) (built : state.hosts w = some host)
    (made : state.process.call host .async ⟨message.op, message.payload⟩ = some process)
    (log : next.pool.log = state.pool.log ++ [.invoked w message])
    (hosts : next.hosts = state.hosts)
    (futures : next.futures = state.futures ++ [(message.tx, state.process.calls.length)])
    (same : next.process = process) : Called next where
  requests := by
    rw [futures, log, Pool.invocations_invoked, Pool.callers_append, List.map_append,
      called.requests]
    rfl
  calls := by
    rw [futures, List.map_append, List.nodup_append]
    refine ⟨called.calls, List.nodup_singleton _, ?_⟩
    intro n member m new
    rw [List.map_singleton, List.mem_singleton] at new
    exact new ▸ Nat.ne_of_lt (called.lt_length member)
  asked := by
    intro tx n member
    rw [futures, List.mem_append, List.mem_singleton] at member
    rcases member with before | new
    · refine called.still_asked reached advances (by rw [hosts]; exact fun _ _ => id) ?_ before
      rw [log, Pool.invocations_invoked]
      exact List.subset_append_left _ _
    · cases new
      obtain ⟨wapcHost, -, effect⟩ := reached.wired.of_call made
      refine ⟨w, message, host, ?_, rfl, hosts ▸ built, _, same ▸ effect.own, Asks.new ..⟩
      rw [log, Pool.invocations_invoked]
      exact List.mem_append_right _ (List.mem_singleton_self _)
  returned := by
    intro v other result member
    rw [log, Pool.products_invoked] at member
    refine called.still_returned reached advances ?_ member
    rw [futures]
    exact List.subset_append_left _ _

/-- The call that a worker awaits is the one that was made for its message. -/
theorem of_awaited {w n : Nat} (awaited : state.awaited w = some n) :
    ∃ message, state.message w = some message ∧ (message.tx, n) ∈ state.futures := by
  obtain ⟨message, there, found⟩ := Option.bind_eq_some_iff.mp awaited
  exact ⟨message, there, mem_of_lookup found⟩

/-- A worker produces what its call returned. -/
theorem complete {w n : Nat} {message : Pool.WorkerMessage} {result : Host.CallResult}
    (called : Called state) (reached : state.process.Reached)
    (advances : state.process.Advances next.process) (made : (message.tx, n) ∈ state.futures)
    (ready : state.process.result n = some result)
    (log : next.pool.log = state.pool.log ++ [.produced w message result])
    (hosts : next.hosts = state.hosts) (futures : next.futures = state.futures) :
    Called next where
  requests := by rw [futures, log, Pool.invocations_produced, called.requests]
  calls := futures ▸ called.calls
  asked := by
    intro tx m member
    rw [futures] at member
    refine called.still_asked reached advances (by rw [hosts]; exact fun _ _ => id) ?_ member
    rw [log, Pool.invocations_produced]
    exact List.Subset.refl _
  returned := by
    intro v other result' member
    rw [log, Pool.products_produced, List.mem_append, List.mem_singleton] at member
    rcases member with before | new
    · exact called.still_returned reached advances (futures ▸ List.Subset.refl _) before
    · cases new
      obtain ⟨conv, there, returned⟩ := Option.bind_eq_some_iff.mp ready
      obtain ⟨⟨host, conv⟩, own, rfl⟩ := Option.map_eq_some_iff.mp there
      have returns : state.process.Holds n host (Returns result) :=
        ⟨conv, own, reached.consistent own, returned⟩
      exact ⟨n, host, futures ▸ made, returns.advance (Returns.lasting _) reached advances⟩

end Called

/-! ### Every run -/

/-- What holds in every state of a pool in its process. -/
structure Served (state : PooledProcess api Memory) : Prop where
  accounted : Accounted state.pool
  reached : state.process.Reached
  staffed : Staffed state
  called : Called state

namespace Served

theorem new (config : Pool.Config) : Served (.new config : PooledProcess api Memory) where
  accounted := .new config api
  reached := ⟨[], rfl⟩
  staffed := .new config
  called := .new config

theorem accounted_step (accounted : Accounted state.pool) (moved : Step config state event next) :
    Accounted next.pool := by
  rcases moved.pool_moves with same | ⟨event, moved⟩
  · rwa [same]
  · exact accounted.step moved

theorem called_step (served : Served state) (moved : Step config state event next) :
    Called next := by
  have advances := moved.advances
  obtain ⟨accounted, reached, staffed, called⟩ := served
  cases moved with
  | pool apart moved =>
    have aside := moved.apart apart
    exact called.frame reached advances (fun _ _ => id) rfl aside.invocations aside.products
  | process => exact called.frame reached advances (fun _ _ => id) rfl rfl rfl
  | @build w _ _ _ _ moved made =>
    cases moved with
    | build submitted phase =>
      refine called.frame reached advances (fun v host built => ?_) rfl rfl rfl
      have other : v ≠ w := by
        rintro rfl
        obtain ⟨worker, present, begun⟩ := staffed.begun v host built
        cases submitted.symm.trans present
        rw [phase] at begun
        cases begun
      exact (Function.update_of_ne other ..).trans built
  | invoke moved received built made =>
    cases moved with
    | invoke submitted phase =>
      rw [state.message_eq submitted, phase] at received
      cases received
      exact called.invoke reached advances built made rfl rfl rfl rfl
  | complete awaited ready moved =>
    cases moved with
    | complete submitted phase =>
      obtain ⟨message, there, member⟩ := Called.of_awaited awaited
      rw [state.message_eq submitted, phase] at there
      cases there
      exact called.complete reached advances member ready rfl rfl rfl
  | panic moved =>
    cases moved with
    | factoryPanics | callPanics =>
      exact called.frame reached advances (fun _ _ => id) rfl (by simp) (by simp)

theorem step (served : Served state) (moved : Step config state event next) : Served next where
  accounted := accounted_step served.accounted moved
  reached := served.reached.advance moved.advances
  staffed := served.staffed.step served.reached moved
  called := served.called_step moved

theorem run {events : List (Event Memory)}
    (executed : (PooledProcess.machine config api).run (.new config) events = some state) :
    Served state :=
  (Machine.Steps.ofRun (fun _ _ _ => trivial) executed).invariant (.new config)
    fun served _ moved => served.step (.of_step moved)

end Served

/-- In every run of a pool in its process, whatever else the process does, each request is
called once at most and on the host of a worker, and what a call of the pool returns from a
host is what this one call of the host returned: it is the result of a conversation for the
operation and the payload alone. -/
theorem pooled_call_is_call_async (api : ThreadPool) (config : Pool.Config)
    (events : List (Event Memory)) (state : PooledProcess api Memory)
    (executed : (PooledProcess.machine config api).run (.new config) events = some state) :
    (state.futures.map Prod.fst).Nodup ∧ (state.futures.map Prod.snd).Nodup ∧
      ∀ (tx : Nat) (call : Pool.Call) (result : Host.CallResult),
        state.pool.calls[tx]? = some call → call.phase = .returned (.fromHost result) →
        ∃ n w host wapcHost moves conv, (tx, n) ∈ state.futures ∧ state.hosts w = some host ∧
          state.process.hosts[host]? = some wapcHost ∧ state.process.made n = some (host, conv) ∧
          (Runtime.Conversation.machine wapcHost).run
            (.new wapcHost .async ⟨call.op, call.payload⟩) moves = some conv ∧
          conv.result = some result := by
  obtain ⟨accounted, reached, -, called⟩ := Served.run executed
  refine ⟨called.requests ▸ accounted.invoked.once, called.calls, ?_⟩
  intro tx call result issued returned
  obtain ⟨w, produced⟩ := accounted.own.returned tx call result issued returned
  obtain ⟨n, host, member, conv, made, -, result⟩ := called.returned w _ _ produced
  obtain ⟨v, message, host', invoked, rfl, built, conv', made', mode, inv⟩ :=
    called.asked _ n member
  cases made.symm.trans made'
  obtain ⟨wapcHost, moves, there, ran⟩ := reached.conversation made
  obtain ⟨call', issued', own, -⟩ :=
    accounted.handed.sent v message (accounted.invoked.handed _ invoked)
  cases issued.symm.trans issued'
  rw [mode, inv, own] at ran
  exact ⟨n, v, host, wapcHost, moves, conv, member, built, there, made, ran, result⟩

/-- A guest that answers each invocation with one byte. -/
def answeringGuest : Runtime.Guest (List Runtime.Action) where
  exports name := name = "__async_guest_call" || name = "__host_call_response_ready"
  instantiate := .ok []
  enter _ entry :=
    match entry with
    | .asyncGuestCall id _ _ =>
      [.call (.guestResponse id [7]), .call (.guestResponseReady id 1), .exit (.returned 0)]
    | _ => []
  next actions := actions.headD (.exit (.returned 0))
  resume actions _ := actions.tail

/-- One request of a pool, from the host that is made for it to its answer. -/
def pooledRun : List (Event (List Runtime.Action)) :=
  [.build 0 (.new answeringGuest none none), .pool (.call "ping" []), .pool (.caller 0 .send),
    .pool (.worker 0 .receive), .invoke 0] ++
  [Runtime.Move.run, .create, .init, .init, .init, .start, .enter, .run, .run, .run,
    .resolve].map (.process <| .step 0 ·) ++
  [.complete 0, .pool (.worker 0 .reply), .pool (.caller 0 .answer)]

theorem request_is_called : ∃ state,
    (PooledProcess.machine .default Pool.countedThreads).run (.new .default) pooledRun =
      some state ∧
    ∃ n host conv result, state.process.made n = some (host, conv) ∧
      conv.result = some result := by
  have answered : (((PooledProcess.machine .default Pool.countedThreads).run (.new .default)
      pooledRun).bind (·.pool.calls[0]?)).any (fun call =>
        match call.phase with
        | .returned (.fromHost _) => true
        | _ => false) := by
    decide +kernel
  obtain ⟨call, there, returned⟩ := (Option.any_eq_true _ _).mp answered
  obtain ⟨state, executed, issued⟩ := Option.bind_eq_some_iff.mp there
  obtain ⟨-, -, called⟩ :=
    pooled_call_is_call_async Pool.countedThreads .default pooledRun state executed
  split at returned
  · obtain ⟨n, _, host, _, _, conv, -, -, -, made, -, result⟩ := called 0 call _ issued ‹_›
    exact ⟨state, executed, n, host, conv, _, made, result⟩
  · cases returned

end Wapc.System
