import Wapc.Pool.Progress

/-!
# Shutting a pool down

`shutdown` joins the threads, so it returns once every loop has left. A loop leaves
when it was idle for long enough or when the channel has no sender. The pool that
`shutdown` runs on owns the sender, and the workers of `new` have no idle time: as
soon as there is one, it waits for a message nobody can send.
-/

namespace Wapc.Pool

open Semantics Host HostPool

variable {api : ThreadPool} {config : Config} {state next : HostPool api}

/-- A step of a worker loop that does not panic, or the end of `shutdown`. The host call
of a caller that was dropped goes on, and its return is a step of the loop. -/
def Event.closing : Event → Bool
  | .worker _ .panic => false
  | .worker _ _ => true
  | .joined => true
  | _ => false

/-- The steps of the loops and of `shutdown`, as the steps a run may take. -/
def toClose (_ : HostPool api) (event : Event) : Prop := event.closing

/-- `shutdown` has returned, and every loop has ended. -/
def Closed (state : HostPool api) : Prop :=
  state.joining = false ∧ ∀ worker ∈ state.workers, worker.phase.gone

/-- In every reachable state in which `shutdown` waits, some loop or `shutdown` itself
has a step, and whatever steps they take, every loop ends and `shutdown` returns. -/
def ShutdownReturns (api : ThreadPool) (config : Config) : Prop :=
  ∀ (events : List Event) (state : HostPool api),
    (machine config api).run (new config api) events = some state → state.joining →
    (machine config api).Enabled toClose state ∧
      (machine config api).Inevitable toClose Closed state

theorem Event.own_of_closing {event : Event} (closing : event.closing) : event.own := by
  cases event with
  | worker w event => cases event with
    | panic => cases closing
    | _ => rfl
  | joined => rfl
  | call | caller | shutdown | drop => cases closing

/-- A pool without endless workers whose `shutdown` waits, or has returned. -/
structure Closing (state : HostPool api) : Prop where
  elastic : ∀ (w : Nat) (worker : Worker), state.workers[w]? = some worker → worker.maxIdle ≠ none
  joining : state.joining ∨ Closed state

namespace Closing

/-- A step of a loop. -/
theorem loop {w : Nat} {event : WorkerEvent} (closing : Closing state) (joining : state.joining)
    (moved : Step config state (.worker w event) next) : Closing next := by
  constructor
  · intro v worker present
    cases moved with
    | reply | callPanics | start | build | receive | recvTimeout | recvDisconnected | invoke
    | complete | factoryPanics =>
      rcases state.setWorker_cases present with ⟨rfl, before, submitted, rfl⟩ | ⟨_, before⟩
      · exact closing.elastic v before submitted
      · exact closing.elastic v worker before
  · left
    cases moved <;> exact joining

theorem step {event : Event} (closing : Closing state) (short : ¬ Closed state)
    (admitted : event.closing) (moved : Step config state event next) : Closing next := by
  have joining := closing.joining.resolve_right short
  cases event with
  | worker w event => exact closing.loop joining moved
  | joined =>
    cases moved with
    | joined _ gone => exact ⟨closing.elastic, .inr ⟨rfl, List.all_eq_true.mp gone⟩⟩
  | call | caller | shutdown | drop => cases admitted

/-- Something can be done as long as `shutdown` waits. -/
theorem enabled (closing : Closing state) (joining : state.joining) :
    (machine config api).Enabled toClose state := by
  by_cases running : ∃ (w : Nat) (worker : Worker),
      state.workers[w]? = some worker ∧ worker.phase.running
  · obtain ⟨w, worker, submitted, running⟩ := running
    by_cases idle : state.slot = none ∧ worker.phase = .waiting
    · obtain ⟨duration, elastic⟩ :=
        Option.ne_none_iff_exists'.mp (closing.elastic w worker submitted)
      exact ⟨.worker w .recvTimeout, _, rfl,
        (Step.recvTimeout submitted idle.2 elastic idle.1).to_step⟩
    · obtain ⟨event, next, calm, moved⟩ :=
        @running_moves api config _ _ _ submitted running (not_and_or.mp idle)
      refine ⟨.worker w event, next, ?_, moved.to_step⟩
      cases event with
      | panic => exact absurd rfl calm
      | _ => rfl
  by_cases gone : state.workers.all (·.phase.gone)
  · have returns : Step config state .joined _ := .joined joining gone
    exact ⟨.joined, _, rfl, returns.to_step⟩
  -- A job that neither runs nor is over is queued, and there is room for it.
  · obtain ⟨worker, member, alive⟩ : ∃ worker ∈ state.workers, ¬ worker.phase.gone := by
      simpa using gone
    obtain ⟨w, submitted⟩ := List.getElem?_of_mem member
    have resting : ¬ worker.phase.running := fun runs => running ⟨w, worker, submitted, runs⟩
    have queued : worker.phase = .queued := by
      cases phase : worker.phase <;>
        simp [phase, WorkerPhase.running, WorkerPhase.gone] at resting alive ⊢
    have few : state.runningJobs < config.maxThreads := by
      have none : state.runningJobs = 0 := by
        refine List.countP_eq_zero.mpr fun other present runs => ?_
        obtain ⟨v, submitted⟩ := List.getElem?_of_mem present
        exact running ⟨v, other, submitted, runs⟩
      have := config.positive
      omega
    exact ⟨.worker w .start, _, rfl, (Step.start submitted queued few).to_step⟩

theorem progress : (machine config api).Progress toClose Closed Closing remaining where
  preserved closing short admitted moved := closing.step short admitted (.of_step moved)
  decreasing _ admitted moved := (Step.of_step moved).remaining_lt (Event.own_of_closing admitted)
  enabled closing short := closing.enabled (closing.joining.resolve_right short)

end Closing

/-- A new pool in which the first `k` workers have built their hosts. -/
structure CoreBuilt (config : Config) (k : Nat) (state : HostPool api) : Prop where
  pool : state.pool ≠ none
  free : state.joining = false
  held : state.held
  empty : state.slot = none
  calls : state.calls = []
  count : state.workers.length = config.minThreads
  workers : ∀ (w : Nat) (worker : Worker), state.workers[w]? = some worker →
    worker.maxIdle = none ∧ worker.phase = if w < k then .waiting else .starting

namespace CoreBuilt

theorem new (config : Config) (api : ThreadPool) : CoreBuilt config 0 (new config api) := by
  obtain ⟨threads, fresh⟩ := new_eq config api
  rw [fresh]
  refine ⟨nofun, rfl, rfl, rfl, rfl, List.length_replicate, ?_⟩
  intro w worker present
  simp only [List.getElem?_replicate, Option.ite_none_right_eq_some, Option.some.injEq] at present
  rw [← present.2]
  exact ⟨rfl, rfl⟩

theorem build {k : Nat} (built : CoreBuilt config k state) (core : k < config.minThreads) :
    ∃ next, Step config state (.worker k .build) next ∧ CoreBuilt config (k + 1) next := by
  have inside : k < state.workers.length := built.count ▸ core
  have submitted : state.workers[k]? = some state.workers[k] := List.getElem?_eq_getElem inside
  have starting : state.workers[k].phase = .starting := by
    rw [(built.workers k _ submitted).2]
    exact if_neg (Nat.lt_irrefl k)
  refine ⟨_, .build submitted starting, built.pool, built.free, built.held, built.empty,
    built.calls, (List.length_modify ..).trans built.count, fun w other present => ?_⟩
  rcases state.setWorker_cases present with ⟨rfl, before, submitted, rfl⟩ | ⟨different, before⟩
  · exact ⟨(built.workers w before submitted).1, (if_pos (Nat.lt_succ_self w)).symm⟩
  · have small : w < k ↔ w < k + 1 := by omega
    simpa only [small] using built.workers w other before

/-- All workers of `new` can build their hosts before anything else happens. -/
theorem reach (config : Config) (api : ThreadPool) {k : Nat} (core : k ≤ config.minThreads) :
    ∃ events state, (machine config api).Steps (fun _ _ => True) (HostPool.new config api) events
      state ∧ CoreBuilt config k state := by
  induction k with
  | zero => exact ⟨[], _, .refl, .new config api⟩
  | succ k ih =>
    obtain ⟨events, state, steps, built⟩ := ih (by omega)
    obtain ⟨next, moved, built⟩ := built.build (by omega)
    exact ⟨_, next, steps.trans (moved.steps trivial), built⟩

end CoreBuilt

/-- `shutdown` never returns while the first worker waits for a message. -/
theorem shutdown_deadlocks (api : ThreadPool) (config : Config) (core : 1 ≤ config.minThreads) :
    ∃ events state, (machine config api).run (new config api) events = some state ∧
      state.joining ∧ ¬ (machine config api).Enabled byItself state := by
  obtain ⟨events, state, steps, built⟩ := CoreBuilt.reach config api (Nat.le_refl _)
  obtain ⟨threads, running⟩ := Option.ne_none_iff_exists'.mp built.pool
  have unborrowed : state.borrowed = false := by simp [borrowed, built.calls]
  have moved : Step config state .shutdown _ :=
    .shutdown built.held built.free unborrowed running
  have waiting (w : Nat) (worker : Worker) (submitted : state.workers[w]? = some worker) :
      worker.phase = .waiting ∧ worker.maxIdle = none := by
    obtain ⟨endless, phase⟩ := built.workers w worker submitted
    have inside := (List.getElem?_eq_some_iff.mp submitted).1
    exact ⟨phase.trans (if_pos (built.count ▸ inside)), endless⟩
  refine ⟨_, _, (steps.trans (moved.steps trivial)).run_eq, rfl, ?_⟩
  refine not_enabled (fun n call issued _ => ?_) (fun w worker submitted => .inr ?_) fun _ => ?_
  · simp [built.calls] at issued
  · obtain ⟨phase, endless⟩ := waiting w worker submitted
    exact ⟨phase, endless, built.empty, built.held⟩
  · have inside : 0 < state.workers.length := built.count ▸ core
    refine ⟨state.workers[0], List.getElem_mem inside, ?_⟩
    rw [(waiting 0 _ (List.getElem?_eq_getElem inside)).1]
    rfl

/-- `shutdown` returns exactly when the pool has no worker that waits without end. -/
theorem shutdown_returns_iff (api : ThreadPool) (config : Config) :
    ShutdownReturns api config ↔ config.minThreads = 0 := by
  constructor
  · intro returns
    by_contra core
    obtain ⟨events, state, executed, joining, rest⟩ :=
      shutdown_deadlocks api config (by omega)
    obtain ⟨event, next, closing, moved⟩ := (returns events state executed joining).1
    exact rest ⟨event, next, Event.own_of_closing closing, moved⟩
  · intro none events state executed joining
    have steps := Machine.Steps.ofRun (fun _ _ _ => trivial) executed
    have manned : Manned config state :=
      steps.invariant (.new config api) fun manned _ moved => manned.step (.of_step moved)
    have closing : Closing state := by
      refine ⟨fun w worker submitted endless => ?_, .inl joining⟩
      have small := (manned.endless w worker submitted).mp endless
      omega
    exact ⟨closing.enabled joining, Closing.progress.inevitable closing⟩

/-- The pool the builder makes by default does not survive its own `shutdown`. -/
theorem default_shutdown_deadlocks : ¬ ∀ api config, ShutdownReturns api config := by
  intro returns
  obtain ⟨events, state, executed, joining, rest⟩ :=
    shutdown_deadlocks countedThreads .default (by decide)
  obtain ⟨event, next, closing, moved⟩ := (returns _ _ events state executed joining).1
  exact rest ⟨event, next, Event.own_of_closing closing, moved⟩

end Wapc.Pool
