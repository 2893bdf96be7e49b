import Wapc.Pool.HostPool
import Wapc.Semantics.Records

/-!
# What one event of the pool can do

`Step` lists every transition of the pool with its guard and its effect, and
`Step.of_step` shows that `HostPool.step` takes no other. The lemmas on `setCall`,
`setAnswer` and `setWorker` say what each leaves in the two lists.
-/

namespace Wapc.Pool

open Semantics Host

/-- The transitions of a pool. -/
inductive Step {api : ThreadPool} (config : Config) (state : HostPool api) :
    Event → HostPool api → Prop where
  | call {op payload} (held : state.held) (free : state.joining = false) :
      Step config state (.call op payload) { state with
        calls := state.calls ++ [⟨op, payload, .sending, .pending⟩] }
  | send {n call} (issued : state.calls[n]? = some call) (phase : call.phase = .sending)
      (empty : state.slot = none) :
      Step config state (.caller n .send)
        { state.setCall n .awaiting with slot := some (call.message n) }
  | sendTimeout {n call message} (issued : state.calls[n]? = some call)
      (phase : call.phase = .sending) (full : state.slot = some message) :
      Step config state (.caller n .sendTimeout) (state.setCall n .timedOut)
  | sendDisconnected {n call} (issued : state.calls[n]? = some call)
      (phase : call.phase = .sending) (alone : state.connected = false) :
      Step config state (.caller n .sendDisconnected) (state.setCall n .timedOut)
  | grow {n call} (issued : state.calls[n]? = some call) (phase : call.phase = .timedOut)
      (few : state.numActiveWorkers < config.maxThreads) :
      Step config state (.caller n .checkSize) (state.setCall n .growing)
  | stay {n call} (issued : state.calls[n]? = some call) (phase : call.phase = .timedOut)
      (many : ¬ state.numActiveWorkers < config.maxThreads) :
      Step config state (.caller n .checkSize) (state.setCall n .resending)
  | spawn {n call} (issued : state.calls[n]? = some call) (phase : call.phase = .growing) :
      Step config state (.caller n .spawn)
        (((state.spawn config (some config.maxIdle)).getD state).setCall n .resending)
  | resend {n call} (issued : state.calls[n]? = some call) (phase : call.phase = .resending)
      (empty : state.slot = none) :
      Step config state (.caller n .resend)
        { state.setCall n .awaiting with slot := some (call.message n) }
  | resendDisconnected {n call} (issued : state.calls[n]? = some call)
      (phase : call.phase = .resending) (alone : state.connected = false) :
      Step config state (.caller n .resendDisconnected)
        (state.setCall n (.returned (.general "sending on a disconnected channel")))
  | answered {n call result} (issued : state.calls[n]? = some call)
      (phase : call.phase = .awaiting) (answer : call.answer = .sent result) :
      Step config state (.caller n .answer) (state.setCall n (.returned (.fromHost result)))
  | closed {n call} (issued : state.calls[n]? = some call) (phase : call.phase = .awaiting)
      (answer : call.answer = .closed) :
      Step config state (.caller n .answer)
        (state.setCall n (.returned (.general "channel closed")))
  | dropFuture {n call} (issued : state.calls[n]? = some call) (phase : call.phase = .awaiting) :
      Step config state (.caller n .dropFuture) (state.setCall n .dropped)
  | start {w worker} (submitted : state.workers[w]? = some worker)
      (phase : worker.phase = .queued) (few : state.runningJobs < config.maxThreads) :
      Step config state (.worker w .start) ((state.setWorker w .starting).tellPool api.jobStarted)
  | build {w worker} (submitted : state.workers[w]? = some worker)
      (phase : worker.phase = .starting) :
      Step config state (.worker w .build) (state.setWorker w .waiting)
  | receive {w worker message} (submitted : state.workers[w]? = some worker)
      (phase : worker.phase = .waiting) (full : state.slot = some message) :
      Step config state (.worker w .receive)
        ({ state.setWorker w (.received message) with slot := none }.note (.handed w message))
  | recvTimeout {w worker duration} (submitted : state.workers[w]? = some worker)
      (phase : worker.phase = .waiting) (elastic : worker.maxIdle = some duration)
      (empty : state.slot = none) :
      Step config state (.worker w .recvTimeout)
        ((state.setWorker w .ended).tellPool api.jobReturned)
  | recvDisconnected {w worker} (submitted : state.workers[w]? = some worker)
      (phase : worker.phase = .waiting) (empty : state.slot = none) (gone : state.held = false) :
      Step config state (.worker w .recvDisconnected)
        ((state.setWorker w .ended).tellPool api.jobReturned)
  | invoke {w worker message} (submitted : state.workers[w]? = some worker)
      (phase : worker.phase = .received message) :
      Step config state (.worker w .invoke)
        ((state.setWorker w (.serving message)).note (.invoked w message))
  | complete {w worker message result} (submitted : state.workers[w]? = some worker)
      (phase : worker.phase = .serving message) :
      Step config state (.worker w (.complete result))
        ((state.setWorker w (.replying message result)).note (.produced w message result))
  | reply {w worker message result} (submitted : state.workers[w]? = some worker)
      (phase : worker.phase = .replying message result) :
      Step config state (.worker w .reply)
        ((state.setWorker w .waiting).setAnswer message.tx (.sent result))
  | factoryPanics {w worker} (submitted : state.workers[w]? = some worker)
      (phase : worker.phase = .starting) :
      Step config state (.worker w .panic)
        (((state.setWorker w .panicked).tellPool api.jobPanicked).note (.panicked w none))
  | callPanics {w worker message} (submitted : state.workers[w]? = some worker)
      (phase : worker.phase = .serving message) :
      Step config state (.worker w .panic)
        ((((state.setWorker w .panicked).setAnswer message.tx .closed).tellPool
          api.jobPanicked).note (.panicked w (some message.tx)))
  | shutdown {pool} (held : state.held) (free : state.joining = false)
      (unborrowed : state.borrowed = false) (running : state.pool = some pool) :
      Step config state .shutdown { state with pool := none, joining := true }
  | shutdownAgain (held : state.held) (free : state.joining = false)
      (unborrowed : state.borrowed = false) (stopped : state.pool = none) :
      Step config state .shutdown state
  | joined (joining : state.joining) (gone : state.workers.all (·.phase.gone)) :
      Step config state .joined { state with joining := false }
  | drop (held : state.held) (free : state.joining = false)
      (unborrowed : state.borrowed = false) :
      Step config state .drop { state with held := false, pool := none }

namespace Step

variable {api : ThreadPool} {config : Config} {state next : HostPool api}

private theorem of_caller {n : Nat} {call : Call} {event : CallEvent}
    (issued : state.calls[n]? = some call)
    (moved : state.callStep config n call event = some next) :
    Step config state (.caller n event) next := by
  cases event with
  | send =>
    simp only [HostPool.callStep] at moved
    split at moved <;> cases moved
    exact .send issued ‹_› ‹_›
  | sendTimeout =>
    simp only [HostPool.callStep] at moved
    split at moved <;> cases moved
    exact .sendTimeout issued ‹_› ‹_›
  | sendDisconnected =>
    simp only [HostPool.callStep] at moved
    split at moved
    · split at moved
      · cases moved
      · rename_i phase alone
        cases moved
        exact .sendDisconnected issued phase (by simpa using alone)
    · cases moved
  | checkSize =>
    simp only [HostPool.callStep] at moved
    split at moved
    · split at moved <;> cases moved
      · exact .grow issued ‹_› ‹_›
      · exact .stay issued ‹_› ‹_›
    · cases moved
  | spawn =>
    simp only [HostPool.callStep] at moved
    split at moved <;> cases moved
    exact .spawn issued ‹_›
  | resend =>
    simp only [HostPool.callStep] at moved
    split at moved <;> cases moved
    exact .resend issued ‹_› ‹_›
  | resendDisconnected =>
    simp only [HostPool.callStep] at moved
    split at moved
    · split at moved
      · cases moved
      · rename_i phase alone
        cases moved
        exact .resendDisconnected issued phase (by simpa using alone)
    · cases moved
  | answer =>
    simp only [HostPool.callStep] at moved
    split at moved <;> cases moved
    · exact .answered issued ‹_› ‹_›
    · exact .closed issued ‹_› ‹_›
  | dropFuture =>
    simp only [HostPool.callStep] at moved
    split at moved <;> cases moved
    exact .dropFuture issued ‹_›

private theorem of_worker {w : Nat} {worker : Worker} {event : WorkerEvent}
    (submitted : state.workers[w]? = some worker)
    (moved : state.workerStep config w worker event = some next) :
    Step config state (.worker w event) next := by
  cases event with
  | start =>
    simp only [HostPool.workerStep] at moved
    split at moved
    · split at moved <;> cases moved
      exact .start submitted ‹_› ‹_›
    · cases moved
  | build =>
    simp only [HostPool.workerStep] at moved
    split at moved <;> cases moved
    exact .build submitted ‹_›
  | receive =>
    simp only [HostPool.workerStep] at moved
    split at moved <;> cases moved
    exact .receive submitted ‹_› ‹_›
  | recvTimeout =>
    simp only [HostPool.workerStep] at moved
    split at moved <;> cases moved
    exact .recvTimeout submitted ‹_› ‹_› ‹_›
  | recvDisconnected =>
    simp only [HostPool.workerStep] at moved
    split at moved
    · split at moved
      · cases moved
      · rename_i phase empty gone
        cases moved
        exact .recvDisconnected submitted phase empty (by simpa using gone)
    · cases moved
  | invoke =>
    simp only [HostPool.workerStep] at moved
    split at moved <;> cases moved
    exact .invoke submitted ‹_›
  | complete result =>
    simp only [HostPool.workerStep] at moved
    split at moved <;> cases moved
    exact .complete submitted ‹_›
  | reply =>
    simp only [HostPool.workerStep] at moved
    split at moved <;> cases moved
    exact .reply submitted ‹_›
  | panic =>
    simp only [HostPool.workerStep] at moved
    split at moved <;> cases moved
    · exact .factoryPanics submitted ‹_›
    · exact .callPanics submitted ‹_›

/-- The executable step takes only the listed transitions. -/
theorem of_step {event : Event} (moved : state.step config event = some next) :
    Step config state event next := by
  cases event with
  | call op payload =>
    simp only [HostPool.step, HostPool.call] at moved
    split at moved <;> cases moved
    rename_i guard
    obtain ⟨held, free⟩ : state.held = true ∧ state.joining = false := by simpa using guard
    exact .call held free
  | caller n event =>
    obtain ⟨call, issued, moved⟩ := Option.bind_eq_some_iff.mp moved
    exact of_caller issued moved
  | worker w event =>
    obtain ⟨worker, submitted, moved⟩ := Option.bind_eq_some_iff.mp moved
    exact of_worker submitted moved
  | shutdown =>
    simp only [HostPool.step, HostPool.shutdown] at moved
    split at moved
    · rename_i guard
      obtain ⟨⟨held, free⟩, unborrowed⟩ :
          (state.held = true ∧ state.joining = false) ∧ state.borrowed = false := by
        simpa using guard
      split at moved <;> cases moved
      · exact .shutdown held free unborrowed ‹_›
      · exact .shutdownAgain held free unborrowed ‹_›
    · cases moved
  | joined =>
    simp only [HostPool.step, HostPool.joined] at moved
    split at moved <;> cases moved
    rename_i guard
    obtain ⟨joining, gone⟩ := Bool.and_eq_true_iff.mp guard
    exact .joined joining gone
  | drop =>
    simp only [HostPool.step, HostPool.drop] at moved
    split at moved <;> cases moved
    rename_i guard
    obtain ⟨⟨held, free⟩, unborrowed⟩ :
        (state.held = true ∧ state.joining = false) ∧ state.borrowed = false := by
      simpa using guard
    exact .drop held free unborrowed

/-- Every listed transition is taken. -/
theorem to_step {event : Event} (moved : Step config state event next) :
    state.step config event = some next := by
  cases moved with
  | stay issued phase many => simp [HostPool.step, HostPool.callStep, issued, phase, many]
  | _ =>
    simp_all [HostPool.step, HostPool.call, HostPool.callStep, HostPool.workerStep,
      HostPool.shutdown, HostPool.joined, HostPool.drop]

/-- A transition is a run of one event. -/
theorem steps {event : Event} {admits : HostPool api → Event → Prop}
    (moved : Step config state event next) (admitted : admits state event) :
    (HostPool.machine config api).Steps admits state [event] next :=
  .step .refl admitted moved.to_step

end Step

namespace HostPool

variable {api : ThreadPool} (state : HostPool api)

@[simp] theorem setCall_slot (n : Nat) (phase : CallPhase) :
    (state.setCall n phase).slot = state.slot := rfl

@[simp] theorem setCall_workers (n : Nat) (phase : CallPhase) :
    (state.setCall n phase).workers = state.workers := rfl

@[simp] theorem setCall_log (n : Nat) (phase : CallPhase) :
    (state.setCall n phase).log = state.log := rfl

@[simp] theorem setWorker_slot (w : Nat) (phase : WorkerPhase) :
    (state.setWorker w phase).slot = state.slot := rfl

@[simp] theorem setWorker_calls (w : Nat) (phase : WorkerPhase) :
    (state.setWorker w phase).calls = state.calls := rfl

@[simp] theorem setWorker_log (w : Nat) (phase : WorkerPhase) :
    (state.setWorker w phase).log = state.log := rfl

@[simp] theorem setAnswer_slot (tx : Oneshot) (answer : Answer) :
    (state.setAnswer tx answer).slot = state.slot := rfl

@[simp] theorem setAnswer_workers (tx : Oneshot) (answer : Answer) :
    (state.setAnswer tx answer).workers = state.workers := rfl

@[simp] theorem setAnswer_log (tx : Oneshot) (answer : Answer) :
    (state.setAnswer tx answer).log = state.log := rfl

@[simp] theorem tellPool_slot (change : api.Threads → api.Threads) :
    (state.tellPool change).slot = state.slot := rfl

@[simp] theorem tellPool_workers (change : api.Threads → api.Threads) :
    (state.tellPool change).workers = state.workers := rfl

@[simp] theorem tellPool_calls (change : api.Threads → api.Threads) :
    (state.tellPool change).calls = state.calls := rfl

@[simp] theorem tellPool_log (change : api.Threads → api.Threads) :
    (state.tellPool change).log = state.log := rfl

@[simp] theorem note_slot (observation : Observation) :
    (state.note observation).slot = state.slot := rfl

@[simp] theorem note_workers (observation : Observation) :
    (state.note observation).workers = state.workers := rfl

@[simp] theorem note_calls (observation : Observation) :
    (state.note observation).calls = state.calls := rfl

@[simp] theorem note_log (observation : Observation) :
    (state.note observation).log = state.log ++ [observation] := rfl

theorem setCall_self {n : Nat} {call : Call} (phase : CallPhase)
    (issued : state.calls[n]? = some call) :
    (state.setCall n phase).calls[n]? = some { call with phase := phase } := by
  simp [setCall, issued]

theorem setCall_other {n m : Nat} (phase : CallPhase) (different : n ≠ m) :
    (state.setCall n phase).calls[m]? = state.calls[m]? := by
  simp [setCall, different]

theorem setWorker_self {w : Nat} {worker : Worker} (phase : WorkerPhase)
    (submitted : state.workers[w]? = some worker) :
    (state.setWorker w phase).workers[w]? = some { worker with phase := phase } := by
  simp [setWorker, submitted]

theorem setWorker_other {w v : Nat} (phase : WorkerPhase) (different : w ≠ v) :
    (state.setWorker w phase).workers[v]? = state.workers[v]? := by
  simp [setWorker, different]

/-- The workers after one of them moved: that one, and the others as they were. -/
theorem setWorker_cases {w v : Nat} {phase : WorkerPhase} {worker : Worker}
    (present : (state.setWorker w phase).workers[v]? = some worker) :
    (v = w ∧ ∃ before, state.workers[w]? = some before ∧ worker = { before with phase := phase }) ∨
      (v ≠ w ∧ state.workers[v]? = some worker) := by
  by_cases same : w = v
  · subst same
    simp only [setWorker, List.getElem?_modify, if_true, Option.map_eq_map,
      Option.map_eq_some_iff] at present
    obtain ⟨before, submitted, rfl⟩ := present
    exact .inl ⟨rfl, before, submitted, rfl⟩
  · rw [state.setWorker_other phase same] at present
    exact .inr ⟨Ne.symm same, present⟩

/-- The calls after one of them moved. -/
theorem setCall_cases {n m : Nat} {phase : CallPhase} {call : Call}
    (present : (state.setCall n phase).calls[m]? = some call) :
    (m = n ∧ ∃ before, state.calls[n]? = some before ∧ call = { before with phase := phase }) ∨
      (m ≠ n ∧ state.calls[m]? = some call) := by
  by_cases same : n = m
  · subst same
    simp only [setCall, List.getElem?_modify, if_true, Option.map_eq_map,
      Option.map_eq_some_iff] at present
    obtain ⟨before, issued, rfl⟩ := present
    exact .inl ⟨rfl, before, issued, rfl⟩
  · rw [state.setCall_other phase same] at present
    exact .inr ⟨Ne.symm same, present⟩

/-- The calls after one of them was answered. -/
theorem setAnswer_cases {tx m : Nat} {answer : Answer} {call : Call}
    (present : (state.setAnswer tx answer).calls[m]? = some call) :
    state.calls[m]? = some call ∨
      (m = tx ∧ ∃ before, state.calls[tx]? = some before ∧ before.phase ≠ .dropped ∧
        call = { before with answer := answer }) := by
  by_cases same : tx = m
  · subst same
    simp only [setAnswer, List.getElem?_modify, if_true, Option.map_eq_map,
      Option.map_eq_some_iff] at present
    obtain ⟨before, issued, rfl⟩ := present
    split
    · exact .inl issued
    · rename_i alive
      exact .inr ⟨rfl, before, issued, alive, rfl⟩
  · left
    simpa [setAnswer, same] using present

/-- An answer moves no call. -/
theorem setAnswer_phases (tx : Oneshot) (answer : Answer) :
    (state.setAnswer tx answer).calls.map (·.phase) = state.calls.map (·.phase) := by
  refine List.ext_getElem? fun n => ?_
  simp only [setAnswer, List.getElem?_map, List.getElem?_modify]
  cases state.calls[n]? with
  | none => rfl
  | some call =>
    simp only [Option.map_eq_map, Option.map_some, Option.some.injEq]
    split
    · split <;> rfl
    · rfl

theorem setAnswer_phase {tx n : Nat} {answer : Answer} {call : Call}
    (issued : state.calls[n]? = some call) :
    ∃ after, (state.setAnswer tx answer).calls[n]? = some after ∧ after.phase = call.phase := by
  have phases := congrArg (·[n]?) (state.setAnswer_phases tx answer)
  simp only [List.getElem?_map, issued, Option.map_some, Option.map_eq_some_iff] at phases
  exact phases

/-- A caller's `spawn` adds a job that did not begin, or fails. -/
theorem spawn_cases (config : Config) (maxIdle : Option Nat) :
    (state.spawn config maxIdle).getD state = state ∨
      ∃ pool phase, (phase = .starting ∨ phase = .queued) ∧
        (state.spawn config maxIdle).getD state =
          { state with pool := some pool, workers := state.workers ++ [⟨maxIdle, phase⟩] } := by
  cases running : state.pool with
  | none => exact .inl (by simp [spawn, running])
  | some pool =>
    refine .inr ⟨api.execute pool, _, ?_, by simp only [spawn, running]; rfl⟩
    split
    · exact .inl rfl
    · exact .inr rfl

theorem spawn_calls (config : Config) (maxIdle : Option Nat) :
    ((state.spawn config maxIdle).getD state).calls = state.calls := by
  rcases state.spawn_cases config maxIdle with failed | ⟨pool, phase, _, spawned⟩
  · rw [failed]
  · rw [spawned]

/-- The first workers all run, because the pool takes no fewer threads than that. -/
theorem spawnCore_eq (config : Config) {threads : api.Threads} (running : state.pool = some threads)
    (alone : state.workers = []) {k : Nat} (fits : k ≤ config.maxThreads) :
    ∃ threads, spawnCore config state k =
      { state with pool := some threads, workers := List.replicate k ⟨none, .starting⟩ } := by
  induction k with
  | zero => exact ⟨threads, by rw [spawnCore, ← running, List.replicate_zero, ← alone]⟩
  | succ k ih =>
    obtain ⟨threads, spawned⟩ := ih (by omega)
    have few : (List.replicate k (⟨none, .starting⟩ : Worker)).countP (·.phase.running) <
        config.maxThreads := by
      rw [List.countP_replicate]
      exact Nat.lt_of_le_of_lt (by split <;> omega) (show k < config.maxThreads by omega)
    refine ⟨api.execute threads, ?_⟩
    rw [spawnCore, spawned]
    simp only [spawn, runningJobs, few, if_true, Option.getD_some, List.replicate_succ']

/-- A new pool: as many workers as were asked for, and nothing else. -/
theorem new_eq (config : Config) (api : ThreadPool) :
    ∃ threads, new config api = {
      pool := some threads
      joining := false
      held := true
      slot := none
      workers := List.replicate config.minThreads ⟨none, .starting⟩
      calls := []
      log := [] } :=
  spawnCore_eq _ config rfl rfl config.ordered

end HostPool

end Wapc.Pool
