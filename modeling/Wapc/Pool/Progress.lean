import Mathlib.Algebra.GroupWithZero.Nat
import Wapc.Pool.Step
import Wapc.Semantics.Inevitable

/-!
# What the pool does by itself

Once nobody calls, cancels or panics, the steps that are left run out: each of them
decreases `remaining`. A host call that was started is taken to return, so a worker
that runs always has a step, unless it waits at an empty slot; a caller has one unless
it waits for a worker. Which workers run, and where the messages of waiting calls are,
are invariants of every run.
-/

namespace Wapc.Pool

open Semantics Host HostPool

/-- A step that an issued call, a job or `shutdown` takes by itself. The return of a host
call is one: what is said of these steps is said of hosts whose calls return. -/
def Event.own : Event → Bool
  | .caller _ .dropFuture => false
  | .caller _ _ => true
  | .worker _ .panic => false
  | .worker _ _ => true
  | .joined => true
  | _ => false

/-- A factory or an invocation panics. -/
def Event.panics : Event → Bool
  | .worker _ .panic => true
  | _ => false

/-- How many steps a call has left at most, its message and a new worker included. -/
def CallPhase.weight : CallPhase → Nat
  | .sending => 12
  | .timedOut => 11
  | .growing => 10
  | .resending => 6
  | .awaiting => 1
  | .returned _ | .dropped => 0

/-- How many steps a job has left before it needs another message. -/
def WorkerPhase.weight : WorkerPhase → Nat
  | .queued => 3
  | .starting => 2
  | .waiting => 1
  | .received _ => 4
  | .serving _ => 3
  | .replying _ _ => 2
  | .ended | .panicked => 0

theorem sum_map_modify {α : Type} (weight : α → Nat) (change : α → α) {entries : List α} {n : Nat}
    {entry : α} (present : entries[n]? = some entry) :
    ((entries.modify n change).map weight).sum + weight entry =
      (entries.map weight).sum + weight (change entry) := by
  induction entries generalizing n with
  | nil => simp at present
  | cons first rest ih =>
    cases n with
    | zero =>
      cases present
      simp only [List.modify_zero_cons, List.map_cons, List.sum_cons]
      omega
    | succ n =>
      have moved := ih (n := n) (by simpa using present)
      simp only [List.modify_succ_cons, List.map_cons, List.sum_cons]
      omega

variable {api : ThreadPool} {config : Config} {state next : HostPool api}

namespace HostPool

/-- The steps of the calls. -/
def callsLeft (state : HostPool api) : Nat := (state.calls.map (·.phase.weight)).sum

/-- The steps of the jobs. -/
def jobsLeft (state : HostPool api) : Nat := (state.workers.map (·.phase.weight)).sum

/-- The steps a message in the slot is good for. -/
def slotLeft (state : HostPool api) : Nat := if state.slot.isSome then 4 else 0

/-- How many steps the pool can still take by itself at most. -/
def remaining (state : HostPool api) : Nat :=
  state.callsLeft + state.jobsLeft + state.slotLeft + if state.joining then 1 else 0

theorem remaining_setCall {n : Nat} {call : Call} (phase : CallPhase)
    (issued : state.calls[n]? = some call) :
    (state.setCall n phase).remaining + call.phase.weight = state.remaining + phase.weight := by
  have moved : (state.setCall n phase).callsLeft + call.phase.weight =
      state.callsLeft + phase.weight :=
    sum_map_modify (fun call : Call => call.phase.weight) _ issued
  have jobs : (state.setCall n phase).jobsLeft = state.jobsLeft := rfl
  have slot : (state.setCall n phase).slotLeft = state.slotLeft := rfl
  have joining : (state.setCall n phase).joining = state.joining := rfl
  unfold remaining
  rw [jobs, slot, joining]
  omega

theorem remaining_setWorker {w : Nat} {worker : Worker} (phase : WorkerPhase)
    (submitted : state.workers[w]? = some worker) :
    (state.setWorker w phase).remaining + worker.phase.weight = state.remaining + phase.weight := by
  have moved : (state.setWorker w phase).jobsLeft + worker.phase.weight =
      state.jobsLeft + phase.weight :=
    sum_map_modify (fun worker : Worker => worker.phase.weight) _ submitted
  have calls : (state.setWorker w phase).callsLeft = state.callsLeft := rfl
  have slot : (state.setWorker w phase).slotLeft = state.slotLeft := rfl
  have joining : (state.setWorker w phase).joining = state.joining := rfl
  unfold remaining
  rw [calls, slot, joining]
  omega

@[simp] theorem remaining_setAnswer (tx : Oneshot) (answer : Answer) :
    (state.setAnswer tx answer).remaining = state.remaining := by
  have weights (calls : List Call) :
      calls.map (·.phase.weight) = (calls.map (·.phase)).map (·.weight) := by
    rw [List.map_map]
    rfl
  have kept : (state.setAnswer tx answer).callsLeft = state.callsLeft := by
    rw [callsLeft, callsLeft, weights, weights, state.setAnswer_phases]
  unfold remaining
  rw [kept]
  rfl

@[simp] theorem remaining_tellPool (change : api.Threads → api.Threads) :
    (state.tellPool change).remaining = state.remaining := rfl

@[simp] theorem remaining_note (observation : Observation) :
    (state.note observation).remaining = state.remaining := rfl

theorem remaining_fill (state : HostPool api) (message : WorkerMessage)
    (empty : state.slot = none) :
    { state with slot := some message }.remaining = state.remaining + 4 := by
  simp only [remaining, callsLeft, jobsLeft, slotLeft, empty, Option.isSome_some,
    Option.isSome_none, Bool.false_eq_true, if_true, if_false]
  omega

theorem remaining_take (state : HostPool api) {message : WorkerMessage}
    (full : state.slot = some message) :
    { state with slot := none }.remaining + 4 = state.remaining := by
  simp only [remaining, callsLeft, jobsLeft, slotLeft, full, Option.isSome_some,
    Option.isSome_none, Bool.false_eq_true, if_true, if_false]
  omega

theorem remaining_spawn (maxIdle : Option Nat) :
    ((state.spawn config maxIdle).getD state).remaining ≤ state.remaining + 3 := by
  rcases state.spawn_cases config maxIdle with failed | ⟨pool, phase, idle, spawned⟩
  · rw [failed]
    omega
  · have light : phase.weight ≤ 3 := by rcases idle with rfl | rfl <;> decide
    rw [spawned]
    simp only [remaining, callsLeft, jobsLeft, slotLeft, List.map_append, List.sum_append,
      List.map_cons, List.map_nil, List.sum_singleton]
    omega

end HostPool

/-- What a call moves away from its phase. -/
private theorem lighter_call {n : Nat} {call : Call} {phase : CallPhase}
    (issued : state.calls[n]? = some call) (lighter : phase.weight < call.phase.weight) :
    (state.setCall n phase).remaining < state.remaining := by
  have moved := remaining_setCall phase issued
  omega

private theorem lighter_fill {n : Nat} {call : Call} (issued : state.calls[n]? = some call)
    (empty : state.slot = none) (lighter : 5 < call.phase.weight) :
    { state.setCall n .awaiting with slot := some (call.message n) }.remaining <
      state.remaining := by
  have moved := remaining_setCall .awaiting issued
  refine Nat.lt_of_le_of_lt (Nat.le_of_eq (remaining_fill (state.setCall n .awaiting) _ empty)) ?_
  change _ = _ + 1 at moved
  omega

private theorem lighter_worker {w : Nat} {worker : Worker} {phase : WorkerPhase}
    (submitted : state.workers[w]? = some worker) (lighter : phase.weight < worker.phase.weight) :
    (state.setWorker w phase).remaining < state.remaining := by
  have moved := remaining_setWorker phase submitted
  omega

/-- The pool runs out of steps of its own. -/
theorem Step.remaining_lt {event : Event} (moved : Step config state event next)
    (own : event.own) : next.remaining < state.remaining := by
  cases moved with
  | call | shutdown | shutdownAgain | drop | dropFuture | factoryPanics | callPanics => cases own
  | send issued phase empty => exact lighter_fill issued empty (by rw [phase]; decide)
  | resend issued phase empty => exact lighter_fill issued empty (by rw [phase]; decide)
  | sendTimeout issued phase | sendDisconnected issued phase | grow issued phase
  | stay issued phase | resendDisconnected issued phase | answered issued phase
  | closed issued phase => exact lighter_call issued (by simp [phase, CallPhase.weight])
  | @spawn n call issued phase =>
    have spawned : ((state.spawn config (some config.maxIdle)).getD state).remaining ≤ _ :=
      remaining_spawn _
    have kept : ((state.spawn config (some config.maxIdle)).getD state).calls = state.calls :=
      state.spawn_calls config _
    have moved := remaining_setCall .resending (kept.symm ▸ issued)
    simp only [phase, CallPhase.weight] at moved
    omega
  | build submitted phase => exact lighter_worker submitted (by simp [phase, WorkerPhase.weight])
  | start submitted phase | recvTimeout submitted phase | recvDisconnected submitted phase =>
    rw [remaining_tellPool]
    exact lighter_worker submitted (by simp [phase, WorkerPhase.weight])
  | invoke submitted phase | complete submitted phase =>
    rw [remaining_note]
    exact lighter_worker submitted (by simp [phase, WorkerPhase.weight])
  | @receive w worker message submitted phase full =>
    have moved := remaining_setWorker (.received message) submitted
    simp only [phase, WorkerPhase.weight] at moved
    rw [remaining_note]
    refine Nat.lt_of_add_lt_add_right (n := 4) ?_
    refine Nat.lt_of_le_of_lt
      (Nat.le_of_eq (remaining_take (state.setWorker w (.received message)) full)) ?_
    omega
  | reply submitted phase =>
    rw [remaining_setAnswer]
    exact lighter_worker submitted (by simp [phase, WorkerPhase.weight])
  | joined joining =>
    simp only [remaining, callsLeft, jobsLeft, slotLeft, joining, Bool.false_eq_true, if_true,
      if_false]
    omega

/-- The steps of the pool itself, as the steps a run may take. -/
def byItself (_ : HostPool api) (event : Event) : Prop := event.own

theorem Step.enabled {event : Event} (moved : Step config state event next) (own : event.own) :
    (machine config api).Enabled byItself state :=
  ⟨event, next, own, moved.to_step⟩

/-- A running worker can move on without a panic, unless it waits at an empty slot. -/
theorem running_moves {w : Nat} {worker : Worker} (submitted : state.workers[w]? = some worker)
    (running : worker.phase.running) (busy : state.slot ≠ none ∨ worker.phase ≠ .waiting) :
    ∃ event next, event ≠ .panic ∧ Step config state (.worker w event) next := by
  cases phase : worker.phase with
  | queued | ended | panicked =>
    rw [phase] at running
    cases running
  | starting => exact ⟨.build, _, nofun, .build submitted phase⟩
  | waiting =>
    obtain ⟨message, full⟩ : ∃ message, state.slot = some message :=
      Option.ne_none_iff_exists'.mp (busy.resolve_right fun other => other phase)
    exact ⟨.receive, _, nofun, .receive submitted phase full⟩
  | received message => exact ⟨.invoke, _, nofun, .invoke submitted phase⟩
  | serving message => exact ⟨.complete (.ok []), _, nofun, .complete submitted phase⟩
  | replying message result => exact ⟨.reply, _, nofun, .reply submitted phase⟩

theorem running_enabled {w : Nat} {worker : Worker} (submitted : state.workers[w]? = some worker)
    (running : worker.phase.running) (busy : state.slot ≠ none ∨ worker.phase ≠ .waiting) :
    (machine config api).Enabled byItself state := by
  obtain ⟨event, next, calm, moved⟩ := @running_moves api config _ _ _ submitted running busy
  refine moved.enabled ?_
  cases event with
  | panic => exact absurd rfl calm
  | _ => rfl

/-- The workers of `new` never leave while the pool is held; all others leave when
they are idle. -/
structure Manned (config : Config) (state : HostPool api) : Prop where
  core : ∀ w < config.minThreads, ∃ worker, state.workers[w]? = some worker ∧
    (state.held → worker.phase.running ∨ worker.phase = .panicked)
  endless : ∀ (w : Nat) (worker : Worker), state.workers[w]? = some worker →
    (worker.maxIdle = none ↔ w < config.minThreads)

namespace Manned

theorem frame (manned : Manned config state) (workers : next.workers = state.workers)
    (held : next.held → state.held) : Manned config next where
  core := by
    intro w small
    obtain ⟨worker, submitted, stays⟩ := manned.core w small
    exact ⟨worker, workers ▸ submitted, fun here => stays (held here)⟩
  endless := by
    rw [workers]
    exact manned.endless

/-- A job moves to a phase that no worker of `new` leaves the pool by. -/
theorem move {w : Nat} {worker : Worker} {phase : WorkerPhase} (manned : Manned config state)
    (submitted : state.workers[w]? = some worker)
    (stays : worker.maxIdle = none → state.held → phase.running ∨ phase = .panicked) :
    Manned config (state.setWorker w phase) where
  core := by
    intro v small
    obtain ⟨other, present, kept⟩ := manned.core v small
    by_cases same : w = v
    · subst same
      rw [submitted] at present
      cases present
      exact ⟨_, state.setWorker_self phase submitted,
        stays ((manned.endless w worker submitted).mpr small)⟩
    · exact ⟨other, (state.setWorker_other phase same).trans present, kept⟩
  endless := by
    intro v other present
    rcases state.setWorker_cases present with ⟨rfl, before, submitted', rfl⟩ | ⟨_, before⟩
    · exact manned.endless v before submitted'
    · exact manned.endless v other before

theorem spawn (manned : Manned config state) :
    Manned config ((state.spawn config (some config.maxIdle)).getD state) := by
  rcases state.spawn_cases config (some config.maxIdle) with failed | ⟨pool, phase, _, spawned⟩
  · rw [failed]
    exact manned
  rw [spawned]
  constructor
  · intro w small
    obtain ⟨worker, submitted, stays⟩ := manned.core w small
    have inside := (List.getElem?_eq_some_iff.mp submitted).1
    exact ⟨worker, (List.getElem?_append_left inside).trans submitted, stays⟩
  · intro w worker present
    rcases getElem?_snoc present with before | ⟨rfl, rfl⟩
    · exact manned.endless w worker before
    · refine ⟨nofun, fun small => ?_⟩
      -- All places below are taken by the workers of `new`.
      obtain ⟨worker, submitted, _⟩ := manned.core _ small
      exact absurd (List.getElem?_eq_some_iff.mp submitted).1 (Nat.lt_irrefl _)

theorem step {event : Event} (manned : Manned config state)
    (moved : Step config state event next) : Manned config next := by
  cases moved with
  | spawn => exact manned.spawn.frame rfl id
  | start submitted | build submitted | receive submitted | invoke submitted | complete submitted
  | reply submitted =>
    exact (manned.move submitted fun _ _ => .inl rfl).frame rfl id
  | recvTimeout submitted _ elastic =>
    refine (manned.move submitted fun endless => ?_).frame rfl id
    rw [elastic] at endless
    cases endless
  | recvDisconnected submitted _ _ gone =>
    refine (manned.move submitted fun _ held => ?_).frame rfl id
    rw [gone] at held
    cases held
  | factoryPanics submitted | callPanics submitted =>
    exact (manned.move submitted fun _ _ => .inr rfl).frame rfl id
  | drop => exact manned.frame rfl nofun
  | _ => exact manned.frame rfl id

theorem new (config : Config) (api : ThreadPool) : Manned config (new config api) := by
  obtain ⟨threads, fresh⟩ := new_eq config api
  rw [fresh]
  constructor
  · intro w small
    exact ⟨⟨none, .starting⟩, by simp [small], fun _ => .inl rfl⟩
  · intro w worker present
    simp only [List.getElem?_replicate, Option.ite_none_right_eq_some, Option.some.injEq] at present
    obtain ⟨small, rfl⟩ := present
    exact ⟨fun _ => small, fun _ => rfl⟩

end Manned

/-- While a call is outstanding, the pool is neither shut down nor dropped. -/
def Attended (state : HostPool api) : Prop :=
  state.borrowed → state.held ∧ state.joining = false

theorem borrowed_of_outstanding {n : Nat} {call : Call} (issued : state.calls[n]? = some call)
    (outstanding : call.phase.outstanding) : state.borrowed :=
  List.any_eq_true.mpr ⟨call, List.mem_of_getElem? issued, outstanding⟩

namespace Attended

/-- An event of an outstanding call leaves the pool as it is. -/
theorem serve {n : Nat} {call : Call} (attended : Attended state)
    (issued : state.calls[n]? = some call) (outstanding : call.phase.outstanding)
    (held : next.held = state.held) (joining : next.joining = state.joining) : Attended next := by
  intro _
  rw [held, joining]
  exact attended (borrowed_of_outstanding issued outstanding)

theorem frame (attended : Attended state)
    (phases : next.calls.map (·.phase) = state.calls.map (·.phase)) (held : next.held = state.held)
    (joining : next.joining = state.joining) : Attended next := by
  intro borrowed
  rw [held, joining]
  refine attended ?_
  have same (some : HostPool api) :
      some.borrowed = (some.calls.map (·.phase)).any (·.outstanding) := by
    rw [List.any_map]
    rfl
  rw [same, ← phases, ← same]
  exact borrowed

theorem step {event : Event} (attended : Attended state)
    (moved : Step config state event next) : Attended next := by
  cases moved with
  | call held free => exact fun _ => ⟨held, free⟩
  | send issued phase | sendTimeout issued phase | sendDisconnected issued phase
  | grow issued phase | stay issued phase | resend issued phase | resendDisconnected issued phase
  | answered issued phase | closed issued phase | dropFuture issued phase =>
    exact attended.serve issued (by rw [phase]; rfl) rfl rfl
  | spawn issued phase =>
    rcases state.spawn_cases config (some config.maxIdle) with failed | ⟨pool, _, _, spawned⟩
    · rw [failed]
      exact attended.serve issued (by rw [phase]; rfl) rfl rfl
    · rw [spawned]
      exact attended.serve issued (by rw [phase]; rfl) rfl rfl
  | reply | callPanics => exact attended.frame (state.setAnswer_phases _ _) rfl rfl
  | shutdown _ _ unborrowed | drop _ _ unborrowed =>
    intro (borrowed : state.borrowed = true)
    rw [unborrowed] at borrowed
    cases borrowed
  | joined joining =>
    intro borrowed
    exact ⟨(attended borrowed).1, rfl⟩
  | _ => exact attended.frame rfl rfl rfl

theorem new (config : Config) (api : ThreadPool) : Attended (new config api) := by
  obtain ⟨threads, fresh⟩ := new_eq config api
  rw [fresh]
  exact fun _ => ⟨rfl, rfl⟩

end Attended

/-- The message a job holds. -/
def WorkerPhase.message : WorkerPhase → Option WorkerMessage
  | .received message | .serving message | .replying message _ => some message
  | _ => none

/-- Call `n` waits at its receiver, and nothing came. -/
def Waits (state : HostPool api) (n : Nat) : Prop :=
  ∃ call, state.calls[n]? = some call ∧ call.phase = .awaiting ∧ call.answer = .pending

/-- A message is in the slot or with a worker. -/
def UnderWay (state : HostPool api) (message : WorkerMessage) : Prop :=
  state.slot = some message ∨
    ∃ (w : Nat) (worker : Worker), state.workers[w]? = some worker ∧
      worker.phase.message = some message

/-- The message of each call that waits is under way. -/
def Pending (state : HostPool api) : Prop :=
  ∀ n, Waits state n → ∃ message, UnderWay state message ∧ message.tx = n

namespace UnderWay

variable {message : WorkerMessage}

theorem frame (here : UnderWay state message) (slot : next.slot = state.slot)
    (workers : ∀ (w : Nat) (worker : Worker), state.workers[w]? = some worker →
      worker.phase.message ≠ none → next.workers[w]? = some worker) : UnderWay next message := by
  rcases here with full | ⟨w, worker, submitted, holds⟩
  · exact .inl (slot.trans full)
  · refine .inr ⟨w, worker, workers w worker submitted ?_, holds⟩
    rw [holds]
    exact Option.some_ne_none message

/-- A job moves on, and keeps the message if it is the one it held. -/
theorem move {w : Nat} {worker : Worker} {phase : WorkerPhase} (here : UnderWay state message)
    (submitted : state.workers[w]? = some worker)
    (keeps : worker.phase.message = some message → phase.message = some message)
    (slot : next.slot = state.slot) (workers : next.workers = (state.setWorker w phase).workers) :
    UnderWay next message := by
  rcases here with full | ⟨v, other, present, holds⟩
  · exact .inl (slot.trans full)
  right
  by_cases same : w = v
  · subst same
    rw [submitted] at present
    cases present
    exact ⟨w, _, workers ▸ state.setWorker_self phase submitted, keeps holds⟩
  · exact ⟨v, other, workers ▸ (state.setWorker_other phase same).trans present, holds⟩

/-- A job takes the message out of the slot. -/
theorem take {w : Nat} {worker : Worker} {taken : WorkerMessage} (here : UnderWay state message)
    (submitted : state.workers[w]? = some worker) (free : worker.phase.message = none)
    (full : state.slot = some taken)
    (workers : next.workers = (state.setWorker w (.received taken)).workers) :
    UnderWay next message := by
  right
  rcases here with full' | ⟨v, other, present, holds⟩
  · rw [full] at full'
    cases full'
    exact ⟨w, _, workers ▸ state.setWorker_self _ submitted, rfl⟩
  · have different : w ≠ v := by
      rintro rfl
      rw [submitted] at present
      cases present
      rw [free] at holds
      cases holds
    exact ⟨v, other, workers ▸ (state.setWorker_other _ different).trans present, holds⟩

end UnderWay

namespace Waits

variable {n : Nat}

theorem of_setCall {m : Nat} {phase : CallPhase} (waits : Waits (state.setCall m phase) n) :
    (n = m ∧ phase = .awaiting) ∨ Waits state n := by
  obtain ⟨call, present, awaiting, answer⟩ := waits
  rcases state.setCall_cases present with ⟨rfl, before, issued, rfl⟩ | ⟨_, issued⟩
  · exact .inl ⟨rfl, awaiting⟩
  · exact .inr ⟨call, issued, awaiting, answer⟩

/-- Whoever was answered does not wait. -/
theorem of_setAnswer {tx : Oneshot} {answer : Answer} (waits : Waits (state.setAnswer tx answer) n)
    (answered : answer ≠ .pending) : tx ≠ n ∧ Waits state n := by
  obtain ⟨call, present, awaiting, unanswered⟩ := waits
  by_cases same : tx = n
  · subst same
    simp only [setAnswer, List.getElem?_modify, if_true, Option.map_eq_map,
      Option.map_eq_some_iff] at present
    obtain ⟨before, issued, rfl⟩ := present
    split at awaiting
    · rename_i dropped
      rw [dropped] at awaiting
      cases awaiting
    · rename_i alive
      simp only at unanswered
      exact absurd unanswered answered
  · refine ⟨same, call, ?_, awaiting, unanswered⟩
    simpa [setAnswer, same] using present

end Waits

namespace Pending

/-- Whoever waits after a step waited before, and the messages stay under way. -/
theorem grow (pending : Pending state) (waited : ∀ n, Waits next n → Waits state n)
    (kept : ∀ message, UnderWay state message → UnderWay next message) : Pending next := by
  intro n waits
  obtain ⟨message, here, own⟩ := pending n (waited n waits)
  exact ⟨message, kept message here, own⟩

/-- A caller fills the slot. -/
theorem fill {m : Nat} (pending : Pending state) (empty : state.slot = none)
    (message : WorkerMessage) (own : message.tx = m) :
    Pending { state.setCall m .awaiting with slot := some message } := by
  intro n waits
  rcases (show Waits (state.setCall m .awaiting) n from waits).of_setCall with ⟨rfl, _⟩ | before
  · exact ⟨message, .inl rfl, own⟩
  · obtain ⟨other, full | busy, own⟩ := pending n before
    · rw [empty] at full
      cases full
    · exact ⟨other, .inr busy, own⟩

/-- A call leaves for a phase in which it does not wait. -/
theorem leave {m : Nat} {phase : CallPhase} (pending : Pending state)
    (gone : phase ≠ .awaiting) : Pending (state.setCall m phase) := by
  refine pending.grow (fun n waits => ?_) fun message here => here.frame rfl fun _ _ same _ => same
  exact waits.of_setCall.resolve_left fun same => gone same.2

/-- A worker is done with the message it answered. -/
theorem answer {w : Nat} {worker : Worker} {message : WorkerMessage} {phase : WorkerPhase}
    {answer : Answer} (pending : Pending state) (submitted : state.workers[w]? = some worker)
    (holds : worker.phase.message = some message) (answered : answer ≠ .pending) :
    Pending ((state.setWorker w phase).setAnswer message.tx answer) := by
  intro n waits
  obtain ⟨different, before⟩ := waits.of_setAnswer answered
  obtain ⟨other, here, own⟩ := pending n before
  refine ⟨other, here.move submitted (fun held => ?_) rfl rfl, own⟩
  rw [holds] at held
  cases held
  exact absurd own different

theorem step {event : Event} (pending : Pending state) (moved : Step config state event next) :
    Pending next := by
  cases moved with
  | call =>
    refine pending.grow (fun n waits => ?_) fun message here =>
      here.frame rfl fun _ _ same _ => same
    obtain ⟨call, present, awaiting, unanswered⟩ := waits
    rcases getElem?_snoc present with issued | ⟨_, rfl⟩
    · exact ⟨call, issued, awaiting, unanswered⟩
    · cases awaiting
  | send _ _ empty | resend _ _ empty => exact pending.fill empty _ rfl
  | sendTimeout | sendDisconnected | grow | stay | resendDisconnected | answered | closed
  | dropFuture => exact pending.leave nofun
  | spawn =>
    refine Pending.leave ?_ nofun
    rcases state.spawn_cases config (some config.maxIdle) with failed | ⟨pool, phase, _, spawned⟩
    · rw [failed]
      exact pending
    · rw [spawned]
      refine pending.grow (fun n waits => waits) fun message here => ?_
      refine here.frame rfl fun w worker submitted _ => ?_
      have inside := (List.getElem?_eq_some_iff.mp submitted).1
      exact (List.getElem?_append_left inside).trans submitted
  | receive submitted phase full =>
    exact pending.grow (fun n waits => waits) fun message here =>
      here.take submitted (by rw [phase]; rfl) full rfl
  | start submitted phase | build submitted phase | recvTimeout submitted phase
  | recvDisconnected submitted phase | factoryPanics submitted phase | invoke submitted phase
  | complete submitted phase =>
    exact pending.grow (fun n waits => waits) fun message here =>
      here.move submitted (by rw [phase]; exact id) rfl rfl
  | reply submitted phase => exact pending.answer submitted (by rw [phase]; rfl) nofun
  | @callPanics w worker message submitted phase =>
    have answered : Pending ((state.setWorker w .panicked).setAnswer message.tx .closed) :=
      pending.answer submitted (by rw [phase]; rfl) nofun
    exact answered.grow (fun n waits => waits) fun message here =>
      here.frame rfl fun _ _ same _ => same
  | shutdown | shutdownAgain | joined | drop =>
    exact pending.grow (fun n waits => waits) fun message here =>
      here.frame rfl fun _ _ same _ => same

theorem new (config : Config) (api : ThreadPool) : Pending (new config api) := by
  obtain ⟨threads, fresh⟩ := new_eq config api
  rw [fresh]
  rintro n ⟨call, issued, _⟩
  cases issued

end Pending

/-- The job `w` ended in a panic. -/
def Panicked (state : HostPool api) (w : Nat) : Prop :=
  ∃ worker, state.workers[w]? = some worker ∧ worker.phase = .panicked

theorem panicked_setWorker {v w : Nat} {worker : Worker} {phase : WorkerPhase}
    (submitted : state.workers[v]? = some worker) (alive : worker.phase ≠ .panicked) :
    Panicked (state.setWorker v phase) w ↔ Panicked state w ∨ (w = v ∧ phase = .panicked) := by
  constructor
  · rintro ⟨other, present, panicked⟩
    rcases state.setWorker_cases present with ⟨rfl, _, _, rfl⟩ | ⟨_, before⟩
    · exact .inr ⟨rfl, panicked⟩
    · exact .inl ⟨other, before, panicked⟩
  · rintro (⟨other, present, panicked⟩ | ⟨rfl, panicked⟩)
    · have different : v ≠ w := by
        rintro rfl
        rw [submitted] at present
        cases present
        exact alive panicked
      exact ⟨other, (state.setWorker_other phase different).trans present, panicked⟩
    · exact ⟨_, state.setWorker_self phase submitted, panicked⟩

/-- Only a panic makes a job panicked, and it stays so. -/
theorem Step.panicked_iff {event : Event} (moved : Step config state event next) (w : Nat) :
    Panicked next w ↔ Panicked state w ∨ event = .worker w .panic := by
  cases moved with
  | start submitted phase | build submitted phase | receive submitted phase
  | recvTimeout submitted phase | recvDisconnected submitted phase | invoke submitted phase
  | complete submitted phase | reply submitted phase | factoryPanics submitted phase
  | callPanics submitted phase =>
    refine (panicked_setWorker submitted (by simp [phase])).trans ?_
    simp [eq_comm]
  | spawn =>
    refine Iff.trans ?_ (or_iff_left nofun).symm
    rcases state.spawn_cases config (some config.maxIdle) with failed | ⟨pool, phase, idle, spawned⟩
    · rw [failed]
      exact Iff.rfl
    rw [spawned]
    constructor
    · rintro ⟨worker, present, panicked⟩
      rcases getElem?_snoc present with before | ⟨_, rfl⟩
      · exact ⟨worker, before, panicked⟩
      · rcases idle with rfl | rfl <;> cases panicked
    · rintro ⟨worker, submitted, panicked⟩
      have inside := (List.getElem?_eq_some_iff.mp submitted).1
      exact ⟨worker, (List.getElem?_append_left inside).trans submitted, panicked⟩
  | _ => exact (or_iff_left nofun).symm

/-- The jobs that panicked in a run of a new pool. -/
theorem panicked_iff {admits : HostPool api → Event → Prop} {events : List Event}
    (steps : (machine config api).Steps admits (new config api) events state) (w : Nat) :
    Panicked state w ↔ .worker w .panic ∈ events := by
  induction steps with
  | refl =>
    obtain ⟨threads, fresh⟩ := new_eq config api
    rw [fresh]
    refine ⟨?_, by simp⟩
    rintro ⟨worker, present, panicked⟩
    simp only [List.getElem?_replicate, Option.ite_none_right_eq_some, Option.some.injEq] at present
    rw [← present.2] at panicked
    cases panicked
  | step _ _ moved ih =>
    rw [(Step.of_step moved).panicked_iff w, ih]
    simp [eq_comm]

/-- A worker of `new` that did not panic runs while the pool is held. -/
theorem Manned.runs (manned : Manned config state) (held : state.held) {w : Nat}
    (core : w < config.minThreads) (sound : ¬ Panicked state w) :
    ∃ worker, state.workers[w]? = some worker ∧ worker.phase.running := by
  obtain ⟨worker, submitted, stays⟩ := manned.core w core
  refine ⟨worker, submitted, (stays held).resolve_right fun panicked => ?_⟩
  exact sound ⟨worker, submitted, panicked⟩

/-- What every reachable pool satisfies. -/
structure Orderly (config : Config) (state : HostPool api) : Prop where
  manned : Manned config state
  attended : Attended state
  pending : Pending state

theorem Orderly.step {event : Event} (orderly : Orderly config state)
    (moved : Step config state event next) : Orderly config next :=
  ⟨orderly.manned.step moved, orderly.attended.step moved, orderly.pending.step moved⟩

theorem Orderly.new (config : Config) (api : ThreadPool) : Orderly config (new config api) :=
  ⟨.new config api, .new config api, .new config api⟩

/-- While some worker runs, an outstanding call is never at rest. -/
theorem outstanding_enabled (pending : Pending state) {n : Nat} {call : Call}
    (issued : state.calls[n]? = some call) (outstanding : call.phase.outstanding) {w : Nat}
    {worker : Worker} (submitted : state.workers[w]? = some worker)
    (running : worker.phase.running) : (machine config api).Enabled byItself state := by
  cases phase : call.phase with
  | returned | dropped =>
    rw [phase] at outstanding
    cases outstanding
  | sending =>
    cases slot : state.slot with
    | none => exact (Step.send issued phase slot).enabled rfl
    | some message => exact (Step.sendTimeout issued phase slot).enabled rfl
  | timedOut =>
    by_cases few : state.numActiveWorkers < config.maxThreads
    · exact (Step.grow issued phase few).enabled rfl
    · exact (Step.stay issued phase few).enabled rfl
  | growing => exact (Step.spawn issued phase).enabled rfl
  | resending =>
    cases slot : state.slot with
    | none => exact (Step.resend issued phase slot).enabled rfl
    | some message => exact running_enabled submitted running (.inl (by simp [slot]))
  | awaiting =>
    cases answer : call.answer with
    | sent result => exact (Step.answered issued phase answer).enabled rfl
    | closed => exact (Step.closed issued phase answer).enabled rfl
    | pending =>
      obtain ⟨message, full | ⟨v, other, present, holds⟩, _⟩ :=
        pending n ⟨call, issued, phase, answer⟩
      · exact running_enabled submitted running (.inl (by simp [full]))
      · refine running_enabled present ?_ (.inr ?_)
        · revert holds
          cases other.phase <;> simp [WorkerPhase.message, WorkerPhase.running]
        · intro waiting
          rw [waiting] at holds
          cases holds

/-- The pool is at rest when every outstanding call waits, every job is over or waits
without end, and `shutdown` does not see all of them over. -/
theorem not_enabled
    (calls : ∀ (n : Nat) (call : Call), state.calls[n]? = some call → call.phase.outstanding →
      call.phase = .awaiting ∧ call.answer = .pending)
    (workers : ∀ (w : Nat) (worker : Worker), state.workers[w]? = some worker → worker.phase.gone ∨
      (worker.phase = .waiting ∧ worker.maxIdle = none ∧ state.slot = none ∧ state.held))
    (joining : state.joining → ∃ worker ∈ state.workers, worker.phase.gone = false) :
    ¬ (machine config api).Enabled byItself state := by
  rintro ⟨event, next, own, moved⟩
  have moved := Step.of_step moved
  cases moved with
  | call | shutdown | shutdownAgain | drop | dropFuture | factoryPanics | callPanics => cases own
  | send issued phase | sendTimeout issued phase | sendDisconnected issued phase
  | grow issued phase | stay issued phase | spawn issued phase | resend issued phase
  | resendDisconnected issued phase =>
    obtain ⟨awaiting, _⟩ := calls _ _ issued (by rw [phase]; rfl)
    rw [phase] at awaiting
    cases awaiting
  | answered issued phase answer | closed issued phase answer =>
    obtain ⟨_, pending⟩ := calls _ _ issued (by rw [phase]; rfl)
    rw [answer] at pending
    cases pending
  | start submitted phase | build submitted phase | invoke submitted phase
  | complete submitted phase | reply submitted phase =>
    have idle := workers _ _ submitted
    simp [phase, WorkerPhase.gone] at idle
  | receive submitted phase full =>
    have idle := workers _ _ submitted
    simp [phase, full, WorkerPhase.gone] at idle
  | recvTimeout submitted phase elastic =>
    have idle := workers _ _ submitted
    simp [phase, elastic, WorkerPhase.gone] at idle
  | recvDisconnected submitted phase _ gone =>
    have idle := workers _ _ submitted
    simp [phase, gone, WorkerPhase.gone] at idle
  | joined waits gone =>
    obtain ⟨worker, member, alive⟩ := joining waits
    rw [List.all_eq_true.mp gone worker member] at alive
    cases alive

/-- The call `n` was not finished yet. -/
def Outstanding (state : HostPool api) (n : Nat) : Prop :=
  ∃ call, state.calls[n]? = some call ∧ call.phase.outstanding

/-- The call `n` returned. -/
def Returned (state : HostPool api) (n : Nat) : Prop :=
  ∃ call result, state.calls[n]? = some call ∧ call.phase = .returned result

private theorem kept_setCall {n m : Nat} {phase : CallPhase} (outstanding : Outstanding state n)
    (proper : phase.outstanding ∨ ∃ result, phase = .returned result) :
    Outstanding (state.setCall m phase) n ∨ Returned (state.setCall m phase) n := by
  obtain ⟨call, issued, running⟩ := outstanding
  by_cases same : m = n
  · subst same
    rcases proper with running | ⟨result, rfl⟩
    · exact .inl ⟨_, state.setCall_self phase issued, running⟩
    · exact .inr ⟨_, result, state.setCall_self _ issued, rfl⟩
  · exact .inl ⟨call, (state.setCall_other phase same).trans issued, running⟩

/-- A call that is not dropped is outstanding until it returns. -/
theorem Step.outstanding {event : Event} (moved : Step config state event next)
    (own : event.own) {n : Nat} (outstanding : Outstanding state n) :
    Outstanding next n ∨ Returned next n := by
  cases moved with
  | call | shutdown | shutdownAgain | drop | dropFuture | factoryPanics | callPanics => cases own
  | send | sendTimeout | sendDisconnected | grow | stay | resend =>
    exact kept_setCall outstanding (.inl rfl)
  | resendDisconnected | answered | closed => exact kept_setCall outstanding (.inr ⟨_, rfl⟩)
  | spawn =>
    refine kept_setCall ?_ (.inl rfl)
    unfold Outstanding
    rw [state.spawn_calls config]
    exact outstanding
  | reply =>
    obtain ⟨call, issued, running⟩ := outstanding
    obtain ⟨after, present, kept⟩ := (state.setWorker _ .waiting).setAnswer_phase issued
    exact .inl ⟨after, present, kept ▸ running⟩
  | _ => exact .inl outstanding

end Wapc.Pool
