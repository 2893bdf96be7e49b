import Wapc.Pool.Requests
import Wapc.Pool.Progress
import Wapc.Semantics.Traces

/-!
# How a pool grows and shrinks

Workers that a timeout added leave when they are idle, and the workers of `new` stay as
long as the pool is held; once it is dropped they leave too. Both happen whatever the
threads do first, and meanwhile requests go to workers in the order in which their callers
got the slot.
-/

namespace Wapc.Pool

open Semantics Host HostPool

variable {api : ThreadPool} {config : Config} {state next : HostPool api}

/-! ### Shrinking -/

/-- The jobs that run are the workers of `new` that did not panic, and each waits for a
message. -/
def Shrunk (config : Config) (state : HostPool api) : Prop :=
  ∀ (w : Nat) (worker : Worker), state.workers[w]? = some worker →
    (worker.phase.running ↔ w < config.minThreads ∧ worker.phase ≠ .panicked) ∧
      (worker.phase.running → worker.phase = .waiting)

/-- The pool is held, and its first workers are where they belong. -/
structure Staffed (config : Config) (state : HostPool api) : Prop where
  manned : Manned config state
  held : state.held

/-- The steps of the pool do not drop it. -/
theorem Step.keeps_held {event : Event} (moved : Step config state event next) (own : event.own)
    (held : state.held) : next.held := by
  cases moved with
  | call | shutdown | shutdownAgain | drop | dropFuture | factoryPanics | callPanics => cases own
  | spawn =>
    rcases state.spawn_cases config (some config.maxIdle) with failed | ⟨pool, phase, _, spawned⟩
    · rw [failed]
      exact held
    · rw [spawned]
      exact held
  | _ => exact held

/-- A worker that runs at rest waits at an empty slot, and has no idle time. -/
theorem waiting_of_rest (rest : ¬ (machine config api).Enabled byItself state) {w : Nat}
    {worker : Worker} (submitted : state.workers[w]? = some worker)
    (running : worker.phase.running) : worker.phase = .waiting ∧ worker.maxIdle = none := by
  have idle : ¬ (state.slot ≠ none ∨ worker.phase ≠ .waiting) := by
    intro busy
    exact rest (running_enabled submitted running busy)
  push Not at idle
  refine ⟨idle.2, ?_⟩
  by_contra elastic
  obtain ⟨duration, elastic⟩ := Option.ne_none_iff_exists'.mp elastic
  exact rest ((Step.recvTimeout submitted idle.2 elastic idle.1).enabled rfl)

namespace Staffed

theorem shrunk_of_rest (staffed : Staffed config state)
    (rest : ¬ (machine config api).Enabled byItself state) : Shrunk config state := by
  intro w worker submitted
  have waiting := waiting_of_rest rest submitted
  refine ⟨⟨?_, ?_⟩, fun running => (waiting running).1⟩
  · intro running
    refine ⟨(staffed.manned.endless w worker submitted).mp (waiting running).2, ?_⟩
    intro panicked
    rw [panicked] at running
    cases running
  · rintro ⟨core, sound⟩
    obtain ⟨own, present, stays⟩ := staffed.manned.core w core
    obtain rfl : worker = own := Option.some.inj (submitted.symm.trans present)
    exact (stays staffed.held).resolve_right sound

theorem progress :
    (machine config api).Progress byItself (Shrunk config) (Staffed config) remaining where
  preserved staffed _ own moved :=
    ⟨staffed.manned.step (.of_step moved), (Step.of_step moved).keeps_held own staffed.held⟩
  decreasing _ own moved := (Step.of_step moved).remaining_lt own
  enabled staffed large := by
    by_contra rest
    exact large (staffed.shrunk_of_rest rest)

end Staffed

/-- Whatever goes on in a pool, it shrinks to the workers it was made with when no more calls
come: each of them waits for a message, and no other job runs. -/
theorem idle_pool_shrinks (api : ThreadPool) (config : Config) (events : List Event)
    (state : HostPool api)
    (executed : (machine config api).run (new config api) events = some state)
    (held : state.held) : (machine config api).Inevitable byItself (Shrunk config) state := by
  have steps := Machine.Steps.ofRun (fun _ _ _ => trivial) executed
  have manned : Manned config state :=
    steps.invariant (.new config api) fun manned _ moved => manned.step (.of_step moved)
  exact Staffed.progress.inevitable ⟨manned, held⟩

theorem grown_pool_shrinks :
    ∃ state, (machine .default countedThreads).run (new .default countedThreads) growingRun =
      some state ∧
        (machine .default countedThreads).Inevitable byItself (Shrunk .default) state :=
  ⟨_, rfl, idle_pool_shrinks countedThreads .default growingRun _ rfl rfl⟩

/-! ### The end of a dropped pool -/

/-- The steps of jobs, panics included. -/
def worksOn (_ : HostPool api) (event : Event) : Prop := ∃ w step, event = .worker w step

/-- Every job is over. -/
def Deserted (state : HostPool api) : Prop := ∀ worker ∈ state.workers, worker.phase.gone

/-- A job that panics has no steps left. -/
theorem Step.remaining_lt_of_worker {w : Nat} {event : WorkerEvent}
    (moved : Step config state (.worker w event) next) : next.remaining < state.remaining := by
  have lighter {worker : Worker} (submitted : state.workers[w]? = some worker)
      (heavy : 0 < worker.phase.weight) :
      (state.setWorker w .panicked).remaining < state.remaining := by
    have left : _ + worker.phase.weight = state.remaining + 0 :=
      remaining_setWorker .panicked submitted
    omega
  cases event with
  | panic =>
    cases moved with
    | factoryPanics submitted phase =>
      rw [remaining_note, remaining_tellPool]
      exact lighter submitted (by rw [phase]; decide)
    | callPanics submitted phase =>
      rw [remaining_note, remaining_tellPool, remaining_setAnswer]
      exact lighter submitted (by simp [phase, WorkerPhase.weight])
  | _ => exact moved.remaining_lt rfl

/-- A job does not take the pool back. -/
theorem Step.keeps_dropped {w : Nat} {event : WorkerEvent}
    (moved : Step config state (.worker w event) next) (dropped : state.held = false) :
    next.held = false := by
  cases moved <;> exact dropped

/-- A job that is not over runs or waits for a thread. -/
theorem queued_of_alive {phase : WorkerPhase} (alive : ¬ phase.gone) (resting : ¬ phase.running) :
    phase = .queued := by
  cases phase <;> simp [WorkerPhase.running, WorkerPhase.gone] at alive resting ⊢

/-- In a dropped pool a job that runs can go on: a loop that waits finds the channel closed. -/
theorem worksOn_of_running (dropped : state.held = false) {w : Nat} {worker : Worker}
    (submitted : state.workers[w]? = some worker) (running : worker.phase.running) :
    (machine config api).Enabled worksOn state := by
  by_cases idle : state.slot = none ∧ worker.phase = .waiting
  · exact ⟨_, _, ⟨w, _, rfl⟩,
      (Step.recvDisconnected submitted idle.2 idle.1 dropped).to_step⟩
  · obtain ⟨event, next, -, moved⟩ :=
      @running_moves api config _ _ _ submitted running (not_and_or.mp idle)
    exact ⟨_, _, ⟨w, event, rfl⟩, moved.to_step⟩

/-- As long as a job of a dropped pool is not over, some job can go on. -/
theorem worksOn_of_alive (dropped : state.held = false) (alive : ¬ Deserted state) :
    (machine config api).Enabled worksOn state := by
  obtain ⟨worker, member, alive⟩ : ∃ worker ∈ state.workers, ¬ worker.phase.gone := by
    simpa [Deserted] using alive
  obtain ⟨w, submitted⟩ := List.getElem?_of_mem member
  by_cases crowded : ∃ other ∈ state.workers, other.phase.running
  · obtain ⟨other, present, running⟩ := crowded
    obtain ⟨v, submitted⟩ := List.getElem?_of_mem present
    exact worksOn_of_running dropped submitted running
  · push Not at crowded
    have queued := queued_of_alive alive (crowded worker member)
    have few : state.runningJobs < config.maxThreads := by
      have none : state.runningJobs = 0 := List.countP_eq_zero.mpr crowded
      have := config.positive
      omega
    exact ⟨_, _, ⟨w, _, rfl⟩, (Step.start submitted queued few).to_step⟩

theorem desertion : (machine config api).Progress worksOn Deserted (·.held = false) remaining where
  preserved := by
    rintro state _ next dropped - ⟨w, event, rfl⟩ moved
    have moved : Step config state (.worker w event) next := .of_step moved
    exact moved.keeps_dropped dropped
  decreasing := by
    rintro state _ next - ⟨w, event, rfl⟩ moved
    have moved : Step config state (.worker w event) next := .of_step moved
    exact moved.remaining_lt_of_worker
  enabled dropped alive := worksOn_of_alive dropped alive

/-- Once the pool was dropped, its jobs come to an end by themselves, those of `new` and those
that wait for a thread included, in whatever order they run and even if they panic. -/
theorem dropped_pool_ends (api : ThreadPool) (config : Config) (state : HostPool api)
    (dropped : state.held = false) : (machine config api).Inevitable worksOn Deserted state :=
  desertion.inevitable dropped

theorem dropped_new_pool_ends :
    ∃ state, (machine .default countedThreads).run (new .default countedThreads) [.drop] =
        some state ∧ (machine .default countedThreads).Inevitable worksOn Deserted state :=
  ⟨_, rfl, dropped_pool_ends countedThreads .default _ rfl⟩

/-! ### The order of requests -/

/-- The call that gets the slot in a step. -/
def slotTaken (_ : HostPool api) : Event → List Oneshot
  | .caller n .send | .caller n .resend => [n]
  | _ => []

/-- The callers of the requests in the slot and of those handed out before. -/
def accepted (state : HostPool api) : List Oneshot :=
  callers (handings state.log) ++ state.slot.toList.map (·.tx)

/-- A step puts at most its own request behind the accepted ones. -/
theorem Step.accepted_eq {event : Event} (moved : Step config state event next) :
    accepted next = accepted state ++ slotTaken state event := by
  have frame (log : handings next.log = handings state.log) (slot : next.slot = state.slot)
      (quiet : slotTaken state event = []) :
      accepted next = accepted state ++ slotTaken state event := by
    rw [accepted, log, slot, quiet, List.append_nil]
    rfl
  cases moved with
  | send issued phase empty | resend issued phase empty =>
    simp [accepted, slotTaken, empty, Call.message]
  | receive submitted phase full => simp [accepted, slotTaken, full, callers]
  | spawn =>
    rcases state.spawn_cases config (some config.maxIdle) with failed | ⟨pool, phase, _, spawned⟩
    · rw [failed] at frame ⊢
      exact frame rfl rfl rfl
    · rw [spawned] at frame ⊢
      exact frame rfl rfl rfl
  | invoke | complete | factoryPanics | callPanics => exact frame (by simp) rfl rfl
  | _ => exact frame rfl rfl rfl

/-- Requests go to the workers in the order in which their callers got the slot, resent ones
included, and only the last one can still be in the slot. -/
theorem requests_handed_in_order (api : ThreadPool) (config : Config) (events : List Event)
    (state : HostPool api)
    (executed : (machine config api).run (new config api) events = some state) :
    (machine config api).trace slotTaken (new config api) events =
      callers (handings state.log) ++ state.slot.toList.map (·.tx) := by
  refine Machine.trace_invariant (motive := fun state taken => taken = accepted state) ?_ ?_
    executed
  · obtain ⟨threads, fresh⟩ := new_eq config api
    rw [fresh]
    rfl
  · rintro state event next taken rfl moved
    exact (Step.of_step moved).accepted_eq.symm

theorem resent_request_handed_second :
    ∃ state, (machine .default countedThreads).run (new .default countedThreads) growingRun =
        some state ∧
      (machine .default countedThreads).trace slotTaken (new .default countedThreads) growingRun =
        callers (handings state.log) ++ state.slot.toList.map (·.tx) :=
  ⟨_, rfl, requests_handed_in_order countedThreads .default growingRun _ rfl⟩

end Wapc.Pool
