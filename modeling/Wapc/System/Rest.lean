import Wapc.System.Served

/-!
# A pool at rest

The callers of a pool, its workers and the calls that the workers await take their steps in
any order. They come to a stop exactly where all that is left is for guests to answer: what
an outstanding request waits for is, at the end of the chain, a guest that was told everything.
-/

namespace Wapc.Runtime

open Semantics Host

variable {Memory : Type} {conv next : Conversation Memory} {move : Move}

/-- A call has no result and none of its parties moves: it panicked, or its guest was told
everything and has not answered. -/
def Conversation.Silent (conv : Conversation Memory) : Prop :=
  conv.result = none ∧ (conv.ctx.crashed ∨ conv.AtRest ∧ conv.AwaitsGuest)

/-- Only dropping its future ends a call without a result. -/
theorem Turn.concluded {host : WapcHost Memory} (turn : Turn host conv move next)
    (kept : move ≠ .drop) :
    next.phase = .concluded → conv.phase = .concluded := by
  cases turn with
  | drop => exact absurd rfl kept
  | create | initialized | starter | skipped | start | instantiated | notInstantiated | started
    | notStarted => exact nofun
  | _ => exact id

/-- Where the future was not dropped, a call is silent if it is stuck without a result. -/
theorem Conversation.silent_iff (host : WapcHost Memory)
    (consistent : conv.ctx.crashed = false → Consistent conv)
    (unfinished : conv.phase ≠ .concluded) :
    conv.Silent ↔ conv.result = none ∧ ¬ (machine host).Enabled goesOn conv := by
  refine and_congr_right fun unanswered => ⟨?_, fun stuck => ?_⟩
  · rintro (crashed | ⟨rest, -⟩)
    · rintro ⟨move, next, -, moved⟩
      rw [(Turn.of_step moved).1] at crashed
      cases crashed
    · exact rest.stuck
  · cases alive : conv.ctx.crashed with
    | true => exact .inl rfl
    | false =>
      have rest := atRest_of_stuck (consistent alive) alive stuck
      refine .inr ⟨rest, rest.settled.resolve_left ?_⟩
      have noResult (result : CallResult) : conv.result ≠ some result := by
        rw [unanswered]
        exact nofun
      rintro (dropped | ⟨called, result, done⟩)
      · cases phase : conv.phase with
        | concluded => exact unfinished phase
        | failed error => exact noResult _ (result_eq_some_iff.mpr (.inl ⟨error, phase, rfl⟩))
        | _ =>
          rw [phase] at dropped
          cases dropped
      · refine noResult _ (result_eq_some_iff.mpr (.inr ⟨?_, result, done, rfl⟩))
        intro error failed
        rw [called] at failed
        cases failed

end Wapc.Runtime

namespace Wapc.System

open Semantics
open Wapc.Pool (ThreadPool WorkerMessage)
open Wapc.Runtime (Process Conversation)

variable {api : ThreadPool} {Memory : Type} {config : Pool.Config}
  {state next : PooledProcess api Memory} {event : Event Memory}

/-! ### Calls that are awaited -/

/-- Worker `w` awaits call `n` for a request. -/
def Serves (state : PooledProcess api Memory) (w tx n : Nat) : Prop :=
  ∃ worker message, state.pool.workers[w]? = some worker ∧ worker.phase = .serving message ∧
    message.tx = tx ∧ (tx, n) ∈ state.futures

/-- The call for a request is silent, and the worker awaits it for good. -/
def Forgotten (state : PooledProcess api Memory) (w tx : Nat) : Prop :=
  ∃ n host conv, Serves state w tx n ∧ state.process.made n = some (host, conv) ∧ conv.Silent

namespace Served

variable {w v tx n m : Nat} {worker : Pool.Worker} {message : WorkerMessage}

theorem invoked (served : Served state) (submitted : state.pool.workers[w]? = some worker)
    (phase : worker.phase = .serving message) :
    (w, message) ∈ Pool.invocations state.pool.log := by
  have logged := served.accounted.invoked.workers w worker submitted
  rwa [phase] at logged

/-- A call that is served was made. -/
theorem serves (served : Served state) (submitted : state.pool.workers[w]? = some worker)
    (phase : worker.phase = .serving message) : ∃ n, Serves state w message.tx n := by
  have request : message.tx ∈ state.futures.map Prod.fst :=
    served.called.requests ▸ Pool.mem_callers (served.invoked submitted phase)
  obtain ⟨⟨tx, n⟩, member, same⟩ := List.mem_map.mp request
  exact ⟨n, worker, message, submitted, phase, rfl, same ▸ member⟩

/-- Different workers await different calls. -/
theorem worker_unique (served : Served state) (one : Serves state w tx n)
    {other : Nat} (two : Serves state v other n) : v = w := by
  obtain ⟨worker, message, submitted, phase, rfl, member⟩ := one
  obtain ⟨worker', message', submitted', phase', rfl, member'⟩ := two
  have same := List.inj_on_of_nodup_map served.called.calls member member' rfl
  have once := Pool.eq_of_callers_nodup served.accounted.invoked.once
    (served.invoked submitted phase) (served.invoked submitted' phase') (Prod.mk.inj same).1
  exact (Prod.mk.inj once).1.symm

theorem awaited (served : Served state) (serves : Serves state w tx n) :
    state.awaited w = some n := by
  obtain ⟨worker, message, submitted, phase, rfl, member⟩ := serves
  have once : (state.futures.map Prod.fst).Nodup :=
    served.called.requests ▸ served.accounted.invoked.once
  rw [PooledProcess.awaited, state.message_eq submitted, phase]
  exact lookup_of_mem once member

end Served

/-- No future that a worker awaits was dropped. -/
def Unfinished (state : PooledProcess api Memory) : Prop :=
  ∀ w tx n host conv, Serves state w tx n → state.process.made n = some (host, conv) →
    conv.phase ≠ .concluded

theorem Serves.member {w tx n : Nat} (serves : Serves state w tx n) :
    (tx, n) ∈ state.futures := by
  obtain ⟨_, _, _, _, _, member⟩ := serves
  exact member

theorem serves_of_awaited {w n : Nat} {worker : Pool.Worker} {message : WorkerMessage}
    (submitted : state.pool.workers[w]? = some worker) (phase : worker.phase = .serving message)
    (awaited : state.awaited w = some n) : Serves state w message.tx n := by
  obtain ⟨other, there, member⟩ := Called.of_awaited awaited
  rw [state.message_eq submitted, phase] at there
  cases there
  exact ⟨worker, message, submitted, phase, rfl, member⟩

/-- A worker that is not with its host begins no call. -/
theorem Serves.of_apart {w tx n : Nat} (serves : Serves next w tx n)
    (futures : next.futures = state.futures) (apart : Pool.Apart state.pool next.pool) :
    Serves state w tx n := by
  obtain ⟨after, message, present, phase, named, member⟩ := serves
  rw [futures] at member
  cases submitted : state.pool.workers[w]? with
  | none =>
    have fresh := apart.new w after submitted present
    rw [phase] at fresh
    cases fresh
  | some before =>
    obtain ⟨after', present', ages⟩ := apart.old w before submitted
    cases present'.symm.trans present
    exact ⟨before, message, submitted, ages.serving message phase, named, member⟩

/-- Nor does one that moves on to something else, and it awaits no call. -/
theorem Serves.of_setWorker {w v tx n : Nat} {phase : Pool.WorkerPhase}
    (serves : Serves next v tx n)
    (workers : next.pool.workers = (state.pool.setWorker w phase).workers)
    (other : ∀ message, phase ≠ .serving message) (futures : next.futures = state.futures) :
    v ≠ w ∧ Serves state v tx n := by
  obtain ⟨after, message, present, serving, named, member⟩ := serves
  rw [workers] at present
  rcases state.pool.setWorker_cases present with ⟨rfl, _, _, rfl⟩ | ⟨different, before⟩
  · exact absurd serving (other message)
  · exact ⟨different, after, message, before, serving, named, futures ▸ member⟩

namespace Unfinished

variable {w tx n m host : Nat} {conv : Conversation Memory}

/-- A call that is still awaited was not dropped by another step. -/
theorem kept {process : Process Memory} (unfinished : Unfinished state) (served : Served state)
    (serves : Serves state w tx n) (moved : process = state.process ∨
      ∃ event, state.process.step event = some process ∧ event ≠ .step n .drop)
    (made : process.made n = some (host, conv)) : conv.phase ≠ .concluded := by
  intro concluded
  obtain ⟨_, _, _, -, -, -, before, there, -⟩ := served.called.asked _ n serves.member
  have unfinished := unfinished w _ n _ before serves there
  rcases moved with rfl | ⟨event, stepped, kept⟩
  · cases made.symm.trans there
    exact unfinished concluded
  · obtain ⟨after, own, moved⟩ := Process.made_step served.reached.wired there stepped
    cases made.symm.trans own
    rcases moved with rfl | ⟨wapcHost, move, rfl, turned⟩
    · exact unfinished concluded
    · refine unfinished ((Runtime.Turn.of_step turned).2.concluded ?_ concluded)
      rintro rfl
      exact kept rfl

/-- Nor was it by a worker that lets go of the call it awaits. -/
theorem letGo {v : Nat} {worker : Pool.Worker} {message : WorkerMessage}
    (unfinished : Unfinished state) (served : Served state)
    (submitted : state.pool.workers[v]? = some worker) (phase : worker.phase = .serving message)
    (awaited : state.awaited v = some m) (serves : Serves state w tx n) (different : w ≠ v)
    (made : (state.letGo m).made n = some (host, conv)) : conv.phase ≠ .concluded := by
  have other : m ≠ n := by
    rintro rfl
    exact different (served.worker_unique (serves_of_awaited submitted phase awaited) serves)
  refine unfinished.kept served serves ?_ made
  unfold PooledProcess.letGo
  cases stepped : state.process.step (.step m .drop) with
  | none => exact .inl rfl
  | some process => exact .inr ⟨_, stepped, by simpa using other⟩

/-- A call that begins is not at its end, and the others go on being awaited. -/
theorem invoke {v : Nat} {worker : Pool.Worker} {message : WorkerMessage} {process : Process Memory}
    {host' : Nat} {inv : Host.Invocation} (unfinished : Unfinished state) (served : Served state)
    (submitted : state.pool.workers[w]? = some worker) (phase : worker.phase = .received message)
    (called : state.process.call host' .async inv = some process)
    (serving : Serves ({ state with
      pool := (state.pool.setWorker w (.serving message)).note (.invoked w message)
      process := process
      futures := state.futures ++ [(message.tx, state.process.calls.length)] } :
        PooledProcess api Memory) v tx n)
    (made : process.made n = some (host, conv)) : conv.phase ≠ .concluded := by
  obtain ⟨wapcHost, -, effect⟩ := served.reached.wired.of_call called
  by_cases new : n = state.process.calls.length
  · rw [new] at made
    cases effect.own.symm.trans made
    unfold Conversation.new
    split <;> exact nofun
  · obtain ⟨after, other, present, phase', rfl, member⟩ := serving
    rw [List.mem_append, List.mem_singleton] at member
    have before := member.resolve_right fun same => new (Prod.mk.inj same).2
    rw [effect.others n new] at made
    rcases state.pool.setWorker_cases present with ⟨rfl, _, _, rfl⟩ | ⟨-, there⟩
    · cases phase'
      have logged := served.accounted.invoked.workers _ worker submitted
      rw [phase] at logged
      refine absurd ?_ logged.2
      rw [← served.called.requests]
      exact List.mem_map_of_mem (f := Prod.fst) before
    · exact unfinished v _ n host conv ⟨after, other, there, phase', rfl, before⟩ made

theorem step (unfinished : Unfinished state) (served : Served state)
    (moved : Step config state event next) : Unfinished next := by
  intro v tx n host conv serving made
  cases moved with
  | pool apart moved =>
    have before : Serves state v tx n := serving.of_apart rfl (moved.apart apart)
    exact unfinished v tx n host conv before made
  | @process event process kept moved =>
    have before : Serves state v tx n := serving
    refine unfinished.kept served before (.inr ⟨event, moved, ?_⟩) made
    rintro rfl
    have dropped : state.drops (.step n .drop : Runtime.Event Memory) = true :=
      List.any_eq_true.mpr ⟨_, before.member, by simp⟩
    rw [kept] at dropped
    cases dropped
  | build moved built =>
    cases moved with
    | build =>
      have before : Serves state v tx n := (serving.of_setWorker rfl (by simp) rfl).2
      refine unfinished.kept served before ?_ made
      exact (factory_cases built).imp_right fun ⟨_, _, _, stepped⟩ => ⟨_, stepped, nofun⟩
  | @invoke w message pool host' process moved received built called =>
    cases moved with
    | invoke submitted phase =>
      rw [state.message_eq submitted, phase] at received
      cases received
      exact unfinished.invoke served submitted phase called serving made
  | complete awaited ready moved =>
    cases moved with
    | complete submitted phase =>
      have before : v ≠ _ ∧ Serves state v tx n := serving.of_setWorker rfl (by simp) rfl
      exact unfinished.letGo served submitted phase awaited before.2 before.1 made
  | @panic w pool moved =>
    cases awaited : state.awaited w with
    | none =>
      rw [awaited] at made
      cases moved with
      | factoryPanics | callPanics =>
        have before : v ≠ w ∧ Serves state v tx n := serving.of_setWorker rfl (by simp) rfl
        exact unfinished v tx n host conv before.2 made
    | some m =>
      rw [awaited] at made
      cases moved with
      | factoryPanics submitted phase =>
        rw [PooledProcess.awaited, state.message_eq submitted, phase] at awaited
        cases awaited
      | callPanics submitted phase =>
        have before : v ≠ w ∧ Serves state v tx n := serving.of_setWorker rfl (by simp) rfl
        exact unfinished.letGo served submitted phase awaited before.2 before.1 made

theorem new (config : Pool.Config) : Unfinished (.new config : PooledProcess api Memory) := by
  intro w tx n host conv serves
  cases serves.member

end Unfinished

/-! ### What is left to do -/

/-- The invariants of a pool in its process that its progress rests on. -/
structure Tended (config : Pool.Config) (state : PooledProcess api Memory) : Prop where
  served : Served state
  orderly : Pool.Orderly config state.pool
  unfinished : Unfinished state

theorem Tended.run {events : List (Event Memory)}
    (executed : (PooledProcess.machine config api).run (.new config) events = some state) :
    Tended config state := by
  refine (Machine.Steps.ofRun (fun _ _ _ => trivial) executed).invariant
    ⟨.new config, .new config api, .new config⟩ ?_
  rintro state event next ⟨served, orderly, unfinished⟩ - stepped
  have moved := Step.of_step stepped
  refine ⟨served.step moved, ?_, unfinished.step served moved⟩
  rcases moved.pool_moves with same | ⟨event, moved⟩
  · rwa [same]
  · exact orderly.step moved

/-- The steps of a pool, of its factory and of the calls that its workers await, but for
panics and for futures that are dropped. -/
def goesOn (state : PooledProcess api Memory) : Event Memory → Prop
  | .pool event => event.own
  | .process (.step n move) => move ≠ .drop ∧ ∃ w tx, Serves state w tx n
  | .process _ | .panic _ => False
  | .build _ _ | .invoke _ | .complete _ => True

/-- The job of a worker is over, waits for a thread, or waits without end: for a request, or
for the guest that has its request. -/
inductive Resting (config : Pool.Config) (state : PooledProcess api Memory) (w : Nat)
    (worker : Pool.Worker) : Prop where
  | gone (done : worker.phase.gone)
  | queued (phase : worker.phase = .queued) (many : ¬ state.pool.runningJobs < config.maxThreads)
  | idle (phase : worker.phase = .waiting) (endless : worker.maxIdle = none)
      (empty : state.pool.slot = none) (held : state.pool.held)
  | forgotten {tx : Nat} (forgotten : Forgotten state w tx)

/-- Nothing is left to do but for guests: each outstanding call waits for its answer or for a
free slot, and `shutdown` for workers that rest. -/
structure AtRest (config : Pool.Config) (state : PooledProcess api Memory) : Prop where
  calls : ∀ (n : Nat) (call : Pool.Call), state.pool.calls[n]? = some call →
    call.phase.outstanding → call.phase = .awaiting ∧ call.answer = .pending ∨
      call.phase = .resending ∧ state.pool.slot ≠ none
  workers : ∀ (w : Nat) (worker : Pool.Worker), state.pool.workers[w]? = some worker →
    Resting config state w worker
  joining : state.pool.joining → ∃ worker ∈ state.pool.workers, worker.phase.gone = false

theorem Step.enabled (moved : Step config state event next) (goes : goesOn state event) :
    (PooledProcess.machine config api).Enabled goesOn state :=
  ⟨event, next, goes, moved.to_step⟩

theorem enabled_of_pool {event : Pool.Event} {pool : Pool.HostPool api}
    (moved : Pool.Step config state.pool event pool) (apart : withHost event = false)
    (own : event.own) :
    (PooledProcess.machine config api).Enabled goesOn state :=
  (Step.pool apart moved).enabled own

/-- A guest that is never instantiated, for a factory that returns just some host. -/
def missingGuest : Runtime.Guest Memory where
  exports _ := false
  instantiate := .error "missing"
  enter memory _ := memory
  next _ := .exit (.returned 0)
  resume memory _ := memory

section Stuck

variable {w n : Nat} {worker : Pool.Worker} {message : WorkerMessage} {call : Pool.Call}
  (stuck : ¬ (PooledProcess.machine config api).Enabled goesOn state)

include stuck

/-- A caller goes on unless it waits. -/
theorem call_rests (issued : state.pool.calls[n]? = some call)
    (outstanding : call.phase.outstanding) :
    call.phase = .awaiting ∧ call.answer = .pending ∨
      call.phase = .resending ∧ state.pool.slot ≠ none := by
  cases phase : call.phase with
  | returned | dropped =>
    rw [phase] at outstanding
    cases outstanding
  | sending =>
    cases slot : state.pool.slot with
    | none => exact absurd (enabled_of_pool (.send issued phase slot) rfl rfl) stuck
    | some => exact absurd (enabled_of_pool (.sendTimeout issued phase slot) rfl rfl) stuck
  | timedOut =>
    by_cases few : state.pool.numActiveWorkers < config.maxThreads
    · exact absurd (enabled_of_pool (.grow issued phase few) rfl rfl) stuck
    · exact absurd (enabled_of_pool (.stay issued phase few) rfl rfl) stuck
  | growing => exact absurd (enabled_of_pool (.spawn issued phase) rfl rfl) stuck
  | resending =>
    refine .inr ⟨rfl, fun empty => stuck ?_⟩
    exact enabled_of_pool (.resend issued phase empty) rfl rfl
  | awaiting =>
    cases answer : call.answer with
    | pending => exact .inl ⟨rfl, rfl⟩
    | sent => exact absurd (enabled_of_pool (.answered issued phase answer) rfl rfl) stuck
    | closed => exact absurd (enabled_of_pool (.closed issued phase answer) rfl rfl) stuck

/-- A call that is awaited goes on until it has a result, and the worker then has it. -/
theorem Tended.forgotten (tended : Tended config state)
    (submitted : state.pool.workers[w]? = some worker) (phase : worker.phase = .serving message) :
    Forgotten state w message.tx := by
  obtain ⟨served, -, unfinished⟩ := tended
  obtain ⟨n, serves⟩ := served.serves submitted phase
  obtain ⟨_, _, host, -, -, -, conv, made, -⟩ := served.called.asked _ n serves.member
  obtain ⟨wapcHost, _, there, -⟩ := served.reached.conversation made
  have silent := Conversation.silent_iff wapcHost (served.reached.consistent made)
    (unfinished w _ n host conv serves made)
  refine ⟨n, host, conv, serves, made, silent.mpr ⟨?_, ?_⟩⟩
  · cases returned : conv.result with
    | none => rfl
    | some result =>
      have ready : state.process.result n = some result := by
        simp [Process.result, Process.conversation, made, returned]
      exact absurd ((Step.complete (served.awaited serves) ready
        (.complete submitted phase)).enabled trivial) stuck
  · rintro ⟨move, conv', kept, turned⟩
    obtain ⟨process, stepped, -⟩ := served.reached.wired.exists_move made there turned
    have keeps : state.drops (.step n move : Runtime.Event Memory) = false := by
      cases move with
      | drop => exact absurd rfl kept
      | _ => rfl
    have moved : Step config state (.process (.step n move)) { state with process := process } :=
      .process keeps stepped
    exact stuck (moved.enabled ⟨kept, w, _, serves⟩)

/-- A worker goes on unless its job is over or waits. -/
theorem Tended.worker_rests (tended : Tended config state)
    (submitted : state.pool.workers[w]? = some worker) : Resting config state w worker := by
  cases phase : worker.phase with
  | ended | panicked => exact .gone (by rw [phase]; rfl)
  | queued =>
    refine .queued phase fun few => stuck ?_
    exact enabled_of_pool (.start submitted phase few) rfl rfl
  | starting =>
    have made : state.factory (.new missingGuest none none) = some (_, _) := rfl
    exact absurd ((Step.build (.build submitted phase) made).enabled trivial) stuck
  | waiting =>
    cases slot : state.pool.slot with
    | some => exact absurd (enabled_of_pool (.receive submitted phase slot) rfl rfl) stuck
    | none =>
      cases maxIdle : worker.maxIdle with
      | some =>
        exact absurd (enabled_of_pool (.recvTimeout submitted phase maxIdle slot) rfl rfl) stuck
      | none =>
        cases held : state.pool.held with
        | false =>
          exact absurd (enabled_of_pool (.recvDisconnected submitted phase slot held) rfl rfl) stuck
        | true => exact .idle phase maxIdle slot held
  | received message =>
    obtain ⟨host, wapcHost, built, there⟩ :=
      tended.served.staffed.built w worker submitted (by rw [phase]; rfl)
    have received : state.message w = some message := by
      rw [state.message_eq submitted, phase]
      rfl
    obtain ⟨process, called⟩ : ∃ process, state.process.call host .async
        ⟨message.op, message.payload⟩ = some process := by
      simp [Process.call, there]
    exact absurd ((Step.invoke (.invoke submitted phase) received built called).enabled trivial)
      stuck
  | serving message => exact .forgotten (tended.forgotten stuck submitted phase)
  | replying => exact absurd (enabled_of_pool (.reply submitted phase) rfl rfl) stuck

theorem Tended.atRest (tended : Tended config state) : AtRest config state where
  calls _ _ issued outstanding := call_rests stuck issued outstanding
  workers _ _ submitted := tended.worker_rests stuck submitted
  joining := by
    intro joining
    by_contra none
    push Not at none
    have gone : state.pool.workers.all (·.phase.gone) :=
      List.all_eq_true.mpr fun worker member => (Bool.not_eq_false _).mp (none worker member)
    exact stuck (enabled_of_pool (.joined joining gone) rfl rfl)

end Stuck

section Rest

variable {w : Nat} {worker : Pool.Worker} {message : WorkerMessage}

/-- A forgotten worker serves its request. -/
theorem Forgotten.phase {tx : Nat} (forgotten : Forgotten state w tx)
    (submitted : state.pool.workers[w]? = some worker) :
    ∃ message, worker.phase = .serving message ∧ message.tx = tx := by
  obtain ⟨_, _, _, ⟨other, message, there, phase, named, -⟩, -, -⟩ := forgotten
  cases submitted.symm.trans there
  exact ⟨message, phase, named⟩

/-- The call that a forgotten worker awaits takes no step and has no result. -/
theorem Forgotten.silent {tx tx' n host : Nat} {conv : Conversation Memory} (served : Served state)
    (forgotten : Forgotten state w tx) (serves : Serves state w tx' n)
    (made : state.process.made n = some (host, conv)) : conv.Silent := by
  obtain ⟨m, host', conv', serves', made', silent⟩ := forgotten
  have same := served.awaited serves
  cases (served.awaited serves').symm.trans same
  cases made.symm.trans made'
  exact silent

namespace AtRest

/-- What a worker at rest can be at. -/
theorem phase (rest : AtRest config state) (submitted : state.pool.workers[w]? = some worker) :
    worker.phase.gone ∨
      worker.phase = .queued ∧ ¬ state.pool.runningJobs < config.maxThreads ∨
      (worker.phase = .waiting ∧ worker.maxIdle = none ∧ state.pool.slot = none ∧
        state.pool.held) ∨
      (∃ message, worker.phase = .serving message) ∧ ∃ tx, Forgotten state w tx := by
  cases rest.workers w worker submitted with
  | gone done => exact .inl done
  | queued phase many => exact .inr (.inl ⟨phase, many⟩)
  | idle phase endless empty held => exact .inr (.inr (.inl ⟨phase, endless, empty, held⟩))
  | forgotten forgotten =>
    obtain ⟨message, phase, -⟩ := forgotten.phase submitted
    exact .inr (.inr (.inr ⟨⟨message, phase⟩, _, forgotten⟩))

/-- Where a message waits in the slot, the guests of all workers that run are silent. -/
theorem running (rest : AtRest config state) (full : state.pool.slot ≠ none)
    (submitted : state.pool.workers[w]? = some worker) (running : worker.phase.running) :
    ∃ tx, Forgotten state w tx := by
  rcases rest.phase submitted with
    done | ⟨phase, -⟩ | ⟨-, -, empty, -⟩ | ⟨-, forgotten⟩
  · cases phase : worker.phase <;> simp_all [Pool.WorkerPhase.gone, Pool.WorkerPhase.running]
  · rw [phase] at running
    cases running
  · exact absurd empty full
  · exact forgotten

/-- A worker at rest that has a message has called its host for it. -/
theorem holding (rest : AtRest config state) (submitted : state.pool.workers[w]? = some worker)
    (holds : worker.phase.message = some message) : Forgotten state w message.tx := by
  rcases rest.phase submitted with
    done | ⟨phase, -⟩ | ⟨phase, -⟩ | ⟨⟨served, phase⟩, tx, forgotten⟩
  · cases phase : worker.phase <;> simp_all [Pool.WorkerPhase.gone, Pool.WorkerPhase.message]
  · rw [phase] at holds
    cases holds
  · rw [phase] at holds
    cases holds
  · obtain ⟨other, phase', rfl⟩ := forgotten.phase submitted
    rw [phase'] at holds
    cases holds
    exact forgotten

theorem pool_stuck {event : Pool.Event} {pool : Pool.HostPool api} (rest : AtRest config state)
    (orderly : Pool.Orderly config state.pool) (moved : Pool.Step config state.pool event pool)
    (apart : withHost event = false) (own : event.own) : False := by
  cases moved with
  | call | shutdown | shutdownAgain | drop | dropFuture => cases own
  | build | invoke | complete | factoryPanics | callPanics => cases apart
  | send issued phase | sendTimeout issued phase | sendDisconnected issued phase
  | grow issued phase | stay issued phase | spawn issued phase =>
    have waits := rest.calls _ _ issued (by rw [phase]; rfl)
    simp [phase] at waits
  | resend issued phase empty =>
    have waits := rest.calls _ _ issued (by rw [phase]; rfl)
    simp [phase, empty] at waits
  | resendDisconnected issued phase alone =>
    have held := (orderly.attended (Pool.borrowed_of_outstanding issued (by rw [phase]; rfl))).1
    simp [Pool.HostPool.connected, held] at alone
  | answered issued phase answer | closed issued phase answer =>
    have waits := rest.calls _ _ issued (by rw [phase]; rfl)
    simp [phase, answer] at waits
  | start submitted phase few =>
    have standing := rest.phase submitted
    simp [phase, few, Pool.WorkerPhase.gone] at standing
  | receive submitted phase full =>
    have standing := rest.phase submitted
    simp [phase, full, Pool.WorkerPhase.gone] at standing
  | recvTimeout submitted phase elastic =>
    have standing := rest.phase submitted
    simp [phase, elastic, Pool.WorkerPhase.gone] at standing
  | recvDisconnected submitted phase _ gone =>
    have standing := rest.phase submitted
    simp [phase, gone, Pool.WorkerPhase.gone] at standing
  | reply submitted phase =>
    have standing := rest.phase submitted
    simp [phase, Pool.WorkerPhase.gone] at standing
  | joined joining gone =>
    obtain ⟨worker, member, alive⟩ := rest.joining joining
    rw [List.all_eq_true.mp gone worker member] at alive
    cases alive

theorem stuck (tended : Tended config state) (rest : AtRest config state) :
    ¬ (PooledProcess.machine config api).Enabled goesOn state := by
  rintro ⟨event, next, goes, stepped⟩
  obtain ⟨served, orderly, unfinished⟩ := tended
  cases Step.of_step stepped with
  | pool apart moved => exact rest.pool_stuck orderly moved apart goes
  | @process event process kept moved =>
    cases event with
    | nextId | newHost | call => cases goes
    | step n move =>
      obtain ⟨kept, w, tx, serves⟩ := goes
      obtain ⟨host, wapcHost, conv, conv', made, -, turned, -⟩ := served.reached.wired.of_move moved
      have unfinished := unfinished w tx n host conv serves made
      have ⟨worker, message, submitted, phase, _⟩ := serves
      have forgotten := rest.holding submitted (congrArg Pool.WorkerPhase.message phase)
      have silent := forgotten.silent served serves made
      have consistent := served.reached.consistent made
      exact ((Conversation.silent_iff wapcHost consistent unfinished).mp silent).2
        ⟨move, conv', kept, turned⟩
  | build moved =>
    cases moved with
    | build submitted phase =>
      have standing := rest.phase submitted
      simp [phase, Pool.WorkerPhase.gone] at standing
  | invoke moved =>
    cases moved with
    | invoke submitted phase =>
      have standing := rest.phase submitted
      simp [phase, Pool.WorkerPhase.gone] at standing
  | complete awaited ready moved =>
    cases moved with
    | complete submitted phase =>
      have forgotten := rest.holding submitted (congrArg Pool.WorkerPhase.message phase)
      have serves := serves_of_awaited submitted phase awaited
      obtain ⟨conv, there, returned⟩ := Option.bind_eq_some_iff.mp ready
      obtain ⟨⟨host, conv⟩, made, rfl⟩ := Option.map_eq_some_iff.mp there
      rw [(forgotten.silent served serves made).1] at returned
      cases returned
  | panic => exact goes

end AtRest
end Rest

/-! ### Every run -/

/-- In every run, a pool and the calls of its workers come to a stop exactly where all that is
left to do is for guests: each outstanding call waits, each worker is over, has no thread, has
no request to come, or awaits a call whose guest is silent, and `shutdown` waits for one. -/
theorem pool_rests_iff (api : ThreadPool) (config : Pool.Config) (events : List (Event Memory))
    (state : PooledProcess api Memory)
    (executed : (PooledProcess.machine config api).run (.new config) events = some state) :
    ¬ (PooledProcess.machine config api).Enabled goesOn state ↔ AtRest config state :=
  have tended := Tended.run executed
  ⟨fun stuck => tended.atRest stuck, fun rest => rest.stuck tended⟩

/-- A pool whose only worker has its host and waits for a request. -/
theorem idle_pool_rests : ∃ state : PooledProcess Pool.countedThreads Unit,
    (PooledProcess.machine .default Pool.countedThreads).run (.new .default)
      [.build 0 (.new missingGuest none none)] = some state ∧
    ¬ (PooledProcess.machine .default Pool.countedThreads).Enabled goesOn state := by
  refine ⟨_, rfl, (pool_rests_iff Pool.countedThreads .default
    [.build 0 (.new missingGuest none none)] _ rfl).mpr ⟨fun n call issued => ?_, ?_, nofun⟩⟩
  · cases issued
  · intro w worker submitted
    match w, submitted with
    | 0, submitted =>
      cases submitted
      exact .idle rfl rfl rfl rfl
    | w + 1, submitted => cases submitted

/-- While a worker of `new` has not panicked, an outstanding request is only ever held up by
guests: there is a step to take, or the call that was made for the request is silent, or this
worker and all others that run are with requests whose calls are silent. -/
theorem outstanding_call_goes_on (api : ThreadPool) (config : Pool.Config)
    (events : List (Event Memory)) (state : PooledProcess api Memory)
    (executed : (PooledProcess.machine config api).run (.new config) events = some state)
    (n w : Nat) (core : w < config.minThreads) (sound : ¬ Pool.Panicked state.pool w)
    (outstanding : Pool.Outstanding state.pool n) :
    (PooledProcess.machine config api).Enabled goesOn state ∨ (∃ v, Forgotten state v n) ∨
      (∃ tx, Forgotten state w tx) ∧
        ∀ (v : Nat) (worker : Pool.Worker), state.pool.workers[v]? = some worker →
          worker.phase.running → ∃ tx, Forgotten state v tx := by
  have tended := Tended.run executed
  refine or_iff_not_imp_left.mpr fun stuck => ?_
  have rest := tended.atRest stuck
  obtain ⟨-, ⟨manned, attended, pending⟩, -⟩ := tended
  obtain ⟨call, issued, outstanding⟩ := outstanding
  have held := (attended (Pool.borrowed_of_outstanding issued outstanding)).1
  obtain ⟨own, submitted, running⟩ := manned.runs held core sound
  have crowded (full : state.pool.slot ≠ none) : (∃ tx, Forgotten state w tx) ∧
      ∀ (v : Nat) (worker : Pool.Worker), state.pool.workers[v]? = some worker →
        worker.phase.running → ∃ tx, Forgotten state v tx :=
    ⟨rest.running full submitted running, fun v worker => rest.running full⟩
  rcases rest.calls n call issued outstanding with ⟨phase, answer⟩ | ⟨-, full⟩
  · obtain ⟨message, full | ⟨v, worker, present, holds⟩, rfl⟩ :=
      pending n ⟨call, issued, phase, answer⟩
    · exact .inr (crowded (by simp [full]))
    · exact .inl ⟨v, rest.holding present holds⟩
  · exact .inr (crowded full)

/-- A request that was just made. -/
def requestRun : List (Event Unit) := [.pool (.call "ping" [])]

theorem request_goes_on : ∃ state : PooledProcess Pool.countedThreads Unit,
    (PooledProcess.machine .default Pool.countedThreads).run (.new .default) requestRun =
      some state ∧
    (PooledProcess.machine .default Pool.countedThreads).Enabled goesOn state := by
  refine ⟨_, rfl, ?_⟩
  have goes := outstanding_call_goes_on Pool.countedThreads .default requestRun _ rfl 0 0
    (by decide)
  rcases goes (by rintro ⟨worker, submitted, panicked⟩; cases submitted; cases panicked)
    ⟨_, rfl, rfl⟩ with enabled | ⟨_, _, _, _, serves, _⟩ | ⟨⟨_, _, _, _, serves, _⟩, _⟩
  · exact enabled
  · cases serves.member
  · cases serves.member

end Wapc.System
