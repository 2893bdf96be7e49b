import Mathlib.Data.List.Count
import Wapc.Pool.Progress
import Wapc.Pool.Requests

/-!
# Panics in a pool

A job that panics is over. The message it served is dropped with the sender in it,
so its caller gets an error. Nobody restarts its loop: the pool grows only when a
send times out while the thread pool counts too few threads, and it goes on counting
the thread. So a pool keeps its loops as long as no worker of `new` panics.
-/

namespace Wapc.Pool

open Semantics Host HostPool

variable {api : ThreadPool} {config : Config} {state next : HostPool api}

/-- Call `tx` still waits for what a worker answers, or its future was dropped. -/
def Unanswered (state : HostPool api) (tx : Oneshot) : Prop :=
  ∃ call, state.calls[tx]? = some call ∧
    (call.phase = .dropped ∨ (call.phase = .awaiting ∧ call.answer = .pending))

/-- Call `tx` returned an error, or finds its channel closed, or its future was
dropped. -/
def Failed (state : HostPool api) (tx : Oneshot) : Prop :=
  ∃ call, state.calls[tx]? = some call ∧
    (call.phase = .dropped ∨ call.phase = .returned (.general "channel closed") ∨
      (call.phase = .awaiting ∧ call.answer = .closed))

section Calls

variable {n tx : Nat} {call : Call} {phase : CallPhase}

theorem Unanswered.other (unanswered : Unanswered state tx) (different : n ≠ tx) :
    Unanswered (state.setCall n phase) tx := by
  obtain ⟨call, issued, waits⟩ := unanswered
  exact ⟨call, (state.setCall_other phase different).trans issued, waits⟩

theorem Failed.other (failed : Failed state tx) (different : n ≠ tx) :
    Failed (state.setCall n phase) tx := by
  obtain ⟨call, issued, lost⟩ := failed
  exact ⟨call, (state.setCall_other phase different).trans issued, lost⟩

/-- A call that holds its arguments was not sent. -/
theorem not_unanswered (issued : state.calls[n]? = some call) (holds : call.phase.holds) :
    ¬ Unanswered state n := by
  rintro ⟨_, issued', dropped | ⟨awaiting, _⟩⟩ <;> rw [issued] at issued' <;> cases issued'
  · rw [dropped] at holds
    cases holds
  · rw [awaiting] at holds
    cases holds

theorem not_failed (issued : state.calls[n]? = some call) (holds : call.phase.holds) :
    ¬ Failed state n := by
  rintro ⟨_, issued', dropped | returned | ⟨awaiting, _⟩⟩ <;> rw [issued] at issued' <;>
    cases issued'
  · rw [dropped] at holds
    cases holds
  · rw [returned] at holds
    cases holds
  · rw [awaiting] at holds
    cases holds

/-- A call that awaits and has its answer is not waiting for one. -/
theorem answered_not_unanswered (issued : state.calls[n]? = some call)
    (awaiting : call.phase = .awaiting) (answered : call.answer ≠ .pending) :
    ¬ Unanswered state n := by
  rintro ⟨_, issued', dropped | ⟨_, pending⟩⟩ <;> rw [issued] at issued' <;> cases issued'
  · rw [awaiting] at dropped
    cases dropped
  · exact answered pending

/-- A call that awaits and whose sender is not dropped did not fail. -/
theorem open_not_failed (issued : state.calls[n]? = some call) (awaiting : call.phase = .awaiting)
    (opened : call.answer ≠ .closed) : ¬ Failed state n := by
  rintro ⟨_, issued', dropped | returned | ⟨_, closed⟩⟩ <;> rw [issued] at issued' <;> cases issued'
  · rw [awaiting] at dropped
    cases dropped
  · rw [awaiting] at returned
    cases returned
  · exact opened closed

theorem setAnswer_other {answer : Answer} (different : n ≠ tx) :
    (state.setAnswer n answer).calls[tx]? = state.calls[tx]? := by
  simp [setAnswer, different]

theorem Unanswered.answerOther {answer : Answer} (unanswered : Unanswered state tx)
    (different : n ≠ tx) : Unanswered (state.setAnswer n answer) tx := by
  obtain ⟨call, issued, waits⟩ := unanswered
  exact ⟨call, (setAnswer_other different).trans issued, waits⟩

/-- The sender of a request that is answered by nobody is dropped. -/
theorem Unanswered.fails (unanswered : Unanswered state tx) :
    Failed (state.setAnswer tx .closed) tx := by
  obtain ⟨call, issued, dropped | ⟨awaiting, _⟩⟩ := unanswered
  · exact ⟨call, by simp [setAnswer, issued, dropped], .inl dropped⟩
  · exact ⟨{ call with answer := .closed }, by simp [setAnswer, issued, awaiting],
      .inr (.inr ⟨awaiting, rfl⟩)⟩

/-- What failed is not answered any more. -/
theorem Failed.answer {answer : Answer} (failed : Failed state tx)
    (unanswered : Unanswered state n) : Failed (state.setAnswer n answer) tx := by
  by_cases same : n = tx
  · subst same
    obtain ⟨call, issued, lost⟩ := failed
    obtain ⟨_, issued', waits⟩ := unanswered
    rw [issued] at issued'
    cases issued'
    -- Of the ways to wait and to fail, only a dropped future is both.
    have dropped : call.phase = .dropped := by
      rcases waits with dropped | ⟨awaiting, pending⟩
      · exact dropped
      · rcases lost with dropped | returned | ⟨_, closed⟩
        · exact dropped
        · rw [awaiting] at returned
          cases returned
        · rw [pending] at closed
          cases closed
    exact ⟨call, by simp [setAnswer, issued, dropped], .inl dropped⟩
  · obtain ⟨call, issued, lost⟩ := failed
    exact ⟨call, (setAnswer_other same).trans issued, lost⟩

end Calls

/-- What is known of the callers: those that hold their arguments were not answered,
those whose message is under way wait for it, and those whose invocation panicked
have failed. -/
structure Tracked (state : HostPool api) : Prop where
  holding : ∀ (n : Nat) (call : Call), state.calls[n]? = some call → call.phase.holds →
    call.answer = .pending
  waiting : ∀ message, UnderWay state message → Unanswered state message.tx
  failed : ∀ w tx, .panicked w (some tx) ∈ state.log → Failed state tx

namespace Tracked

/-- Nothing new is under way, and no invocation panicked. -/
theorem frame (tracked : Tracked state) (calls : next.calls = state.calls)
    (carried : ∀ message, UnderWay next message → UnderWay state message)
    (log : ∀ w tx, .panicked w (some tx) ∈ next.log → .panicked w (some tx) ∈ state.log) :
    Tracked next := by
  have same (tx : Oneshot) (holds : Unanswered state tx) : Unanswered next tx := by
    unfold Unanswered
    rw [calls]
    exact holds
  refine ⟨?_, fun message here => same _ (tracked.waiting message (carried message here)), ?_⟩
  · rw [calls]
    exact tracked.holding
  · intro w tx member
    unfold Failed
    rw [calls]
    exact tracked.failed w tx (log w tx member)

/-- A call moves to a phase in which its message and its failure are still right. -/
theorem move {n : Nat} {call : Call} {phase : CallPhase} (tracked : Tracked state)
    (issued : state.calls[n]? = some call) (holding : phase.holds → call.answer = .pending)
    (unanswered : Unanswered state n → phase = .dropped)
    (failed : Failed state n → phase = .dropped ∨ phase = .returned (.general "channel closed")) :
    Tracked (state.setCall n phase) where
  holding := by
    intro m after present holds
    rcases state.setCall_cases present with ⟨rfl, before, issued', rfl⟩ | ⟨_, issued'⟩
    · rw [issued] at issued'
      cases issued'
      exact holding holds
    · exact tracked.holding m after issued' holds
  waiting := by
    intro message here
    have waits := tracked.waiting message here
    by_cases same : n = message.tx
    · rw [← same] at waits ⊢
      exact ⟨_, state.setCall_self phase issued, .inl (unanswered waits)⟩
    · exact waits.other same
  failed := by
    intro w tx member
    have lost := tracked.failed w tx member
    by_cases same : n = tx
    · subst same
      refine ⟨_, state.setCall_self phase issued, ?_⟩
      rcases failed lost with dropped | returned
      · exact .inl dropped
      · exact .inr (.inl returned)
    · exact lost.other same

/-- A call that holds its arguments moves. -/
theorem hold {n : Nat} {call : Call} {phase : CallPhase} (tracked : Tracked state)
    (issued : state.calls[n]? = some call) (holds : call.phase.holds) :
    Tracked (state.setCall n phase) :=
  tracked.move issued (fun _ => tracked.holding n call issued holds)
    (fun waits => absurd waits (not_unanswered issued holds))
    (fun lost => absurd lost (not_failed issued holds))

/-- A call that holds its arguments fills the slot. -/
theorem fill {n : Nat} {call : Call} (tracked : Tracked state)
    (issued : state.calls[n]? = some call) (holds : call.phase.holds) :
    Tracked { state.setCall n .awaiting with slot := some (call.message n) } := by
  have moved : Tracked (state.setCall n .awaiting) := tracked.hold issued holds
  refine ⟨moved.holding, ?_, moved.failed⟩
  rintro message (full | ⟨w, worker, submitted, here⟩)
  · cases full
    exact ⟨_, state.setCall_self .awaiting issued, .inr ⟨rfl, tracked.holding n call issued holds⟩⟩
  · exact moved.waiting message (.inr ⟨w, worker, submitted, here⟩)

/-- A worker has the message it was handed. -/
theorem handed_of_message {w : Nat} {worker : Worker} {message : WorkerMessage}
    (invoked : InvokedOnce state) (submitted : state.workers[w]? = some worker)
    (holds : worker.phase.message = some message) : (w, message) ∈ handings state.log := by
  have logged := invoked.workers w worker submitted
  cases phase : worker.phase <;> rw [phase] at holds logged <;> cases holds
  case received => exact logged.1
  case serving => exact invoked.handed _ logged
  case replying => exact invoked.handed _ (invoked.produced _ _ _ logged)

/-- Another message under way came from another call. -/
theorem different_caller {w : Nat} {worker : Worker} {message other : WorkerMessage}
    {phase : WorkerPhase} (handed : HandedOnce state) (invoked : InvokedOnce state)
    (submitted : state.workers[w]? = some worker) (holds : worker.phase.message = some message)
    (free : phase.message = none) (here : UnderWay (state.setWorker w phase) other) :
    message.tx ≠ other.tx := by
  have own := handed_of_message invoked submitted holds
  intro same
  rcases here with full | ⟨v, worker', present, holds'⟩
  · exact (handed.slot other full).2 (same ▸ mem_callers own)
  rcases state.setWorker_cases present with ⟨_, _, _, rfl⟩ | ⟨different, before⟩
  · rw [free] at holds'
    cases holds'
  · have theirs := handed_of_message invoked before holds'
    have one := eq_of_callers_nodup handed.once own theirs same
    exact different (Prod.mk.inj one).1.symm

/-- A worker is done with its message. -/
theorem answer {w : Nat} {worker : Worker} {message : WorkerMessage} {phase : WorkerPhase}
    {answer : Answer} (tracked : Tracked state) (handed : HandedOnce state)
    (invoked : InvokedOnce state) (submitted : state.workers[w]? = some worker)
    (holds : worker.phase.message = some message) (free : phase.message = none) :
    Tracked ((state.setWorker w phase).setAnswer message.tx answer) := by
  have waits : Unanswered (state.setWorker w phase) message.tx :=
    tracked.waiting message (.inr ⟨w, worker, submitted, holds⟩)
  refine ⟨fun n call present holding => ?_, fun other here => ?_, fun v tx member => ?_⟩
  · rcases (state.setWorker w phase).setAnswer_cases present with
      issued | ⟨rfl, before, issued, _, rfl⟩
    · exact tracked.holding n call issued holding
    · exact absurd waits (not_unanswered issued holding)
  · have different := different_caller handed invoked submitted holds free here
    refine Unanswered.answerOther ?_ different
    refine tracked.waiting other ?_
    rcases here with full | ⟨v, worker', present, holds'⟩
    · exact .inl full
    rcases state.setWorker_cases present with ⟨_, _, _, rfl⟩ | ⟨_, before⟩
    · rw [free] at holds'
      cases holds'
    · exact .inr ⟨v, worker', before, holds'⟩
  · have failed : Failed (state.setWorker w phase) tx := tracked.failed v tx member
    exact failed.answer waits

/-- A job moves without a new message. -/
theorem work {w : Nat} {worker : Worker} {phase : WorkerPhase} (tracked : Tracked state)
    (submitted : state.workers[w]? = some worker)
    (keeps : phase.message = none ∨ phase.message = worker.phase.message) :
    Tracked (state.setWorker w phase) := by
  refine tracked.frame rfl (fun message here => ?_) fun _ _ => id
  rcases here with full | ⟨v, other, present, holds⟩
  · exact .inl full
  right
  rcases state.setWorker_cases present with ⟨rfl, before, submitted', rfl⟩ | ⟨_, before⟩
  · rw [submitted] at submitted'
    cases submitted'
    refine ⟨v, worker, submitted, ?_⟩
    rcases keeps with free | same
    · rw [free] at holds
      cases holds
    · exact same.symm.trans holds
  · exact ⟨v, other, before, holds⟩

/-- A new call holds its arguments and has no answer. -/
theorem issue {call : Call} (tracked : Tracked state) (pending : call.answer = .pending) :
    Tracked { state with calls := state.calls ++ [call] } := by
  have earlier {tx : Oneshot} {old : Call} (issued : state.calls[tx]? = some old) :
      (state.calls ++ [call])[tx]? = some old :=
    (List.getElem?_append_left (List.getElem?_eq_some_iff.mp issued).1).trans issued
  refine ⟨fun n old present holds => ?_, fun message here => ?_, fun w tx member => ?_⟩
  · rcases getElem?_snoc present with issued | ⟨_, rfl⟩
    · exact tracked.holding n old issued holds
    · exact pending
  · obtain ⟨old, issued, waits⟩ := tracked.waiting message here
    exact ⟨old, earlier issued, waits⟩
  · obtain ⟨old, issued, lost⟩ := tracked.failed w tx member
    exact ⟨old, earlier issued, lost⟩

/-- A job that is spawned has no message yet. -/
theorem spawn (tracked : Tracked state) :
    Tracked ((state.spawn config (some config.maxIdle)).getD state) := by
  rcases state.spawn_cases config (some config.maxIdle) with failed | ⟨pool, idle, fresh, spawned⟩
  · rw [failed]
    exact tracked
  rw [spawned]
  refine tracked.frame rfl (fun message here => ?_) fun _ _ => id
  rcases here with full | ⟨v, other, present, holds⟩
  · exact .inl full
  rcases getElem?_snoc present with before | ⟨_, rfl⟩
  · exact .inr ⟨v, other, before, holds⟩
  · rcases fresh with rfl | rfl <;> cases holds

theorem step {event : Event} (tracked : Tracked state) (handed : HandedOnce state)
    (invoked : InvokedOnce state) (moved : Step config state event next) : Tracked next := by
  cases moved with
  | call => exact tracked.issue rfl
  | send issued phase | resend issued phase => exact tracked.fill issued (by rw [phase]; rfl)
  | sendTimeout issued phase | sendDisconnected issued phase | grow issued phase
  | stay issued phase | resendDisconnected issued phase =>
    exact tracked.hold issued (by rw [phase]; rfl)
  | spawn issued phase =>
    have spawned : Tracked ((state.spawn config (some config.maxIdle)).getD state) :=
      tracked.spawn
    exact spawned.hold ((state.spawn_calls config _).symm ▸ issued) (by rw [phase]; rfl)
  | answered issued phase answer =>
    have settled := answered_not_unanswered issued phase (by simp [answer])
    have returned := open_not_failed issued phase (by simp [answer])
    exact tracked.move issued nofun (absurd · settled) (absurd · returned)
  | closed issued phase answer =>
    have settled := answered_not_unanswered issued phase (by simp [answer])
    exact tracked.move issued nofun (absurd · settled) fun _ => .inr rfl
  | dropFuture issued => exact tracked.move issued nofun (fun _ => rfl) fun _ => .inl rfl
  | start submitted | build submitted | recvTimeout submitted | recvDisconnected submitted =>
    exact (tracked.work submitted (.inl rfl)).frame rfl (fun _ => id) fun _ _ => id
  | @receive w worker message submitted phase full =>
    refine tracked.frame rfl (fun other here => ?_) fun _ _ member => by simpa using member
    rcases here with none | ⟨v, worker', present, holds⟩
    · cases none
    rcases state.setWorker_cases present with ⟨_, _, _, rfl⟩ | ⟨_, before⟩
    · cases holds
      exact .inl full
    · exact .inr ⟨v, worker', before, holds⟩
  | invoke submitted phase | complete submitted phase =>
    refine (tracked.work submitted (.inr ?_)).frame rfl (fun _ => id) fun _ _ member => by
      simpa using member
    rw [phase]
    rfl
  | reply submitted phase => exact tracked.answer handed invoked submitted (by rw [phase]; rfl) rfl
  | factoryPanics submitted =>
    exact (tracked.work submitted (.inl rfl)).frame rfl (fun _ => id) fun _ _ member => by
      simpa using member
  | @callPanics w worker message submitted phase =>
    have holds : worker.phase.message = some message := by rw [phase]; rfl
    have answered : Tracked ((state.setWorker w .panicked).setAnswer message.tx .closed) :=
      tracked.answer handed invoked submitted holds rfl
    refine ⟨answered.holding, answered.waiting, fun v tx member => ?_⟩
    rcases List.mem_append.mp member with before | new
    · exact answered.failed v tx before
    · cases List.mem_singleton.mp new
      have waits : Unanswered (state.setWorker w .panicked) message.tx :=
        tracked.waiting message (.inr ⟨w, worker, submitted, holds⟩)
      exact waits.fails
  | _ => exact tracked.frame rfl (fun _ => id) fun _ _ => id

theorem new (config : Config) (api : ThreadPool) : Tracked (new config api) := by
  obtain ⟨threads, fresh⟩ := new_eq config api
  rw [fresh]
  refine ⟨fun n call issued => by simp at issued, ?_, by simp⟩
  rintro message (full | ⟨w, worker, present, holds⟩)
  · cases full
  · simp only [List.getElem?_replicate, Option.ite_none_right_eq_some, Option.some.injEq] at present
    rw [← present.2] at holds
    cases holds

end Tracked

/-- The pool takes threads only while it is neither shut down nor dropped. -/
def Open (state : HostPool api) : Prop := state.pool ≠ none → state.held ∧ state.joining = false

theorem Open.frame (opened : Open state) (pool : next.pool ≠ none → state.pool ≠ none)
    (held : next.held = state.held) (joining : next.joining = state.joining) : Open next := by
  intro running
  rw [held, joining]
  exact opened (pool running)

theorem Open.step {event : Event} (opened : Open state) (moved : Step config state event next) :
    Open next := by
  cases moved with
  | spawn =>
    rcases state.spawn_cases config (some config.maxIdle) with failed | ⟨pool, phase, _, spawned⟩
    · rw [failed]
      exact opened.frame id rfl rfl
    cases running : state.pool with
    | none =>
      simp only [HostPool.spawn, running, Option.getD_none]
      exact opened.frame id rfl rfl
    | some threads =>
      rw [spawned]
      exact opened.frame (fun _ => by simp [running]) rfl rfl
  | start | recvTimeout | recvDisconnected | factoryPanics | callPanics =>
    refine opened.frame (fun running => ?_) rfl rfl
    simpa [tellPool, note, setWorker, setAnswer] using running
  | shutdown | drop => exact fun running => absurd rfl running
  | joined joining =>
    intro running
    exact ⟨(opened running).1, rfl⟩
  | _ => exact opened.frame id rfl rfl

/-- Whatever happens to a pool in use but panics. -/
def Event.calm : Event → Bool
  | .worker _ .panic => false
  | .shutdown | .drop => false
  | _ => true

/-- Steps of a pool in use without panics, as the steps a run may take. -/
def calmly (_ : HostPool api) (event : Event) : Prop := event.calm

theorem Event.calm_of_own {event : Event} (own : event.own) : event.calm := by
  cases event with
  | worker w event => cases event with
    | panic => cases own
    | _ => rfl
  | shutdown | drop => cases own
  | call | caller | joined => rfl

/-- A calm step keeps the pool in use. -/
theorem Step.keeps_pool {event : Event} (moved : Step config state event next) (calm : event.calm)
    (running : state.pool ≠ none) : next.pool ≠ none := by
  cases moved with
  | shutdown | drop | shutdownAgain | factoryPanics | callPanics => cases calm
  | spawn =>
    rcases state.spawn_cases config (some config.maxIdle) with failed | ⟨pool, phase, _, spawned⟩
    · rw [failed]
      exact running
    · rw [spawned]
      exact nofun
  | start | recvTimeout | recvDisconnected =>
    simpa [tellPool, setWorker] using running
  | _ => exact running

/-- A request is with its caller, in the slot, or was handed to a worker. -/
def Placed (state : HostPool api) (n : Nat) : Prop :=
  n ∈ callers (handings state.log) ∨ (∃ message, state.slot = some message ∧ message.tx = n) ∨
    ∃ call, state.calls[n]? = some call ∧ call.phase.holds

namespace Placed

variable {n : Nat}

theorem frame (placed : Placed state n) (log : ∀ p ∈ handings state.log, p ∈ handings next.log)
    (slot : next.slot = state.slot)
    (holding : ∀ call, state.calls[n]? = some call → call.phase.holds →
      ∃ after, next.calls[n]? = some after ∧ after.phase.holds) : Placed next n := by
  rcases placed with member | ⟨message, full, own⟩ | ⟨call, issued, holds⟩
  · obtain ⟨p, member, same⟩ := List.mem_map.mp member
    exact .inl (List.mem_map.mpr ⟨p, log p member, same⟩)
  · exact .inr (.inl ⟨message, slot.trans full, own⟩)
  · exact .inr (.inr (holding call issued holds))

/-- A call moves that goes on holding its arguments, or had sent them. -/
theorem move {m : Nat} {call : Call} {phase : CallPhase} (placed : Placed state n)
    (issued : state.calls[m]? = some call) (holds : call.phase.holds → phase.holds) :
    Placed (state.setCall m phase) n := by
  refine placed.frame (fun _ => id) rfl fun call' issued' holds' => ?_
  by_cases same : m = n
  · subst same
    rw [issued] at issued'
    cases issued'
    exact ⟨_, state.setCall_self phase issued, holds holds'⟩
  · exact ⟨call', (state.setCall_other phase same).trans issued', holds'⟩

/-- A call fills the slot with its message. -/
theorem fill {m : Nat} {call : Call} (placed : Placed state n)
    (empty : state.slot = none) :
    Placed { state.setCall m .awaiting with slot := some (call.message m) } n := by
  by_cases same : m = n
  · exact .inr (.inl ⟨_, rfl, same⟩)
  rcases placed with member | ⟨message, full, _⟩ | ⟨call', issued, holds⟩
  · exact .inl member
  · rw [empty] at full
    cases full
  · exact .inr (.inr ⟨call', (state.setCall_other .awaiting same).trans issued, holds⟩)

/-- No step of a pool that is held loses a request. -/
theorem step {event : Event} (placed : Placed state n) (attended : Attended state)
    (moved : Step config state event next) : Placed next n := by
  cases moved with
  | call =>
    refine placed.frame (fun _ => id) rfl fun call issued holds => ⟨call, ?_, holds⟩
    exact (List.getElem?_append_left (List.getElem?_eq_some_iff.mp issued).1).trans issued
  | send _ _ empty | resend _ _ empty => exact placed.fill empty
  | sendTimeout issued | sendDisconnected issued | grow issued | stay issued =>
    exact placed.move issued fun _ => rfl
  | spawn issued =>
    have spawned : Placed ((state.spawn config (some config.maxIdle)).getD state) n := by
      rcases state.spawn_cases config (some config.maxIdle) with failed | ⟨pool, phase, _, spawned⟩
      · rw [failed]
        exact placed
      · rw [spawned]
        exact placed.frame (fun _ => id) rfl fun call issued holds => ⟨call, issued, holds⟩
    exact spawned.move ((state.spawn_calls config _).symm ▸ issued) fun _ => rfl
  | resendDisconnected issued phase alone =>
    -- The pool itself holds a receiver as long as a call borrows it.
    obtain ⟨held, _⟩ := attended (borrowed_of_outstanding issued (by rw [phase]; rfl))
    rw [connected, held] at alone
    cases alone
  | answered issued phase | closed issued phase | dropFuture issued phase =>
    refine placed.move issued fun holds => ?_
    rw [phase] at holds
    cases holds
  | @receive w worker message submitted phase full =>
    rcases placed with member | ⟨other, full', own⟩ | holding
    · refine .inl ?_
      simp only [note_log, setWorker_log, handings_handed, callers_append]
      exact List.mem_append_left _ member
    · rw [full] at full'
      cases full'
      refine .inl ?_
      simp only [note_log, setWorker_log, handings_handed, callers_append]
      exact List.mem_append_right _ (List.mem_singleton.mpr own.symm)
    · exact .inr (.inr holding)
  | invoke | complete | factoryPanics =>
    exact placed.frame (fun p member => by simpa using member) rfl
      fun call issued holds => ⟨call, issued, holds⟩
  | reply =>
    refine placed.frame (fun p member => by simpa using member) rfl fun call issued holds => ?_
    obtain ⟨after, present, kept⟩ := (state.setWorker _ .waiting).setAnswer_phase issued
    exact ⟨after, present, kept ▸ holds⟩
  | callPanics =>
    refine placed.frame (fun p member => by simpa using member) rfl fun call issued holds => ?_
    obtain ⟨after, present, kept⟩ := (state.setWorker _ .panicked).setAnswer_phase issued
    exact ⟨after, present, kept ▸ holds⟩
  | _ =>
    exact placed.frame (fun _ => id) rfl fun call issued holds => ⟨call, issued, holds⟩

/-- A step issues one call at most, which holds its arguments. -/
theorem issued_step {event : Event} (placed : ∀ n < state.calls.length, Placed state n)
    (attended : Attended state) (moved : Step config state event next) :
    ∀ n < next.calls.length, Placed next n := by
  intro n inside
  by_cases before : n < state.calls.length
  · exact (placed n before).step attended moved
  cases moved with
  | call =>
    have last : n = state.calls.length := by
      rw [List.length_append, List.length_singleton] at inside
      omega
    exact .inr (.inr ⟨_, by simp [last]; rfl, rfl⟩)
  | spawn =>
    refine absurd ?_ before
    rwa [setCall, List.length_modify, state.spawn_calls config] at inside
  | send | sendTimeout | sendDisconnected | grow | stay | resend | resendDisconnected | answered
  | closed | dropFuture | reply | callPanics =>
    exact absurd (List.length_modify .. ▸ inside) before
  | _ => exact absurd inside before

end Placed

namespace WorkerPhase

/-- The loop takes its messages from the channel. -/
def serves : WorkerPhase → Bool
  | .waiting | .received _ | .serving _ | .replying _ _ => true
  | _ => false

end WorkerPhase

/-- How many loops serve the channel. -/
def HostPool.servingLoops (state : HostPool api) : Nat :=
  state.workers.countP (·.phase.serves)

/-- A panic costs no more than its own request. The callers of the invocations that
panicked got an error; and however the pool goes on without panics, calls and dropped
futures included, at any point its steps lead to as many serving loops as it was made
with, and hand each request that was issued to some worker. -/
structure PanicsContained (config : Config) (state : HostPool api) : Prop where
  failed : ∀ w tx, .panicked w (some tx) ∈ state.log → Failed state tx
  loops : ∀ events next, (machine config api).Steps calmly state events next →
    (machine config api).Inevitable byItself (config.minThreads ≤ servingLoops ·) next
  served : ∀ events next, (machine config api).Steps calmly state events next →
    ∀ n < next.calls.length,
      (machine config api).Inevitable byItself
        (fun final => n ∈ callers (handings final.log)) next

/-- What holds of every reachable pool. -/
structure Reached (config : Config) (state : HostPool api) : Prop where
  orderly : Orderly config state
  accounted : Accounted state
  tracked : Tracked state
  opened : Open state
  placed : ∀ n < state.calls.length, Placed state n

theorem Reached.step {event : Event} (reached : Reached config state)
    (moved : Step config state event next) : Reached config next where
  orderly := reached.orderly.step moved
  accounted := reached.accounted.step moved
  tracked := reached.tracked.step reached.accounted.handed reached.accounted.invoked moved
  opened := reached.opened.step moved
  placed := Placed.issued_step reached.placed reached.orderly.attended moved

theorem Reached.new (config : Config) (api : ThreadPool) : Reached config (new config api) where
  orderly := .new config api
  accounted := .new config api
  tracked := .new config api
  opened := by
    obtain ⟨threads, fresh⟩ := new_eq config api
    rw [fresh]
    exact fun _ => ⟨rfl, rfl⟩
  placed := by
    obtain ⟨threads, fresh⟩ := new_eq config api
    rw [fresh]
    exact nofun

/-- A pool in use whose first workers are all alive. -/
structure Sound (config : Config) (state : HostPool api) : Prop where
  reached : Reached config state
  running : state.pool ≠ none
  alive : ∀ w < config.minThreads, ¬ Panicked state w

namespace Sound

theorem step {event : Event} (sound : Sound config state) (calm : event.calm)
    (moved : Step config state event next) : Sound config next where
  reached := sound.reached.step moved
  running := moved.keeps_pool calm sound.running
  alive := by
    intro w core panicked
    rcases (moved.panicked_iff w).mp panicked with before | rfl
    · exact sound.alive w core before
    · cases calm

theorem steps {events : List Event} (sound : Sound config state)
    (steps : (machine config api).Steps calmly state events next) : Sound config next :=
  steps.invariant sound fun sound calm moved => sound.step calm (.of_step moved)

theorem runs (sound : Sound config state) {w : Nat} (core : w < config.minThreads) :
    ∃ worker, state.workers[w]? = some worker ∧ worker.phase.running :=
  sound.reached.orderly.manned.runs (sound.reached.opened sound.running).1 core (sound.alive w core)

end Sound

/-- When the first `k` entries all satisfy a test, at least as many do. -/
theorem le_countP {α : Type} {entries : List α} {test : α → Bool} {k : Nat}
    (all : ∀ w < k, ∃ entry, entries[w]? = some entry ∧ test entry) : k ≤ entries.countP test := by
  have long : k ≤ entries.length := by
    by_contra short
    obtain ⟨entry, present, _⟩ := all entries.length (by omega)
    exact absurd (List.getElem?_eq_some_iff.mp present).1 (Nat.lt_irrefl _)
  calc k = (entries.take k).length := (List.length_take_of_le long).symm
    _ = (entries.take k).countP test := by
        refine (List.countP_eq_length.mpr fun entry member => ?_).symm
        obtain ⟨w, present⟩ := List.getElem?_of_mem member
        have small : w < k := by
          have inside := (List.getElem?_eq_some_iff.mp present).1
          rw [List.length_take] at inside
          omega
        rw [List.getElem?_take_of_lt small] at present
        obtain ⟨same, present', holds⟩ := all w small
        rw [present] at present'
        cases present'
        exact holds
    _ ≤ entries.countP test := (List.take_sublist k entries).countP_le

/-- When only entries below `k` satisfy a test and one of those does not, fewer do. -/
theorem countP_lt {α : Type} {entries : List α} {test : α → Bool} {k w : Nat} (small : w < k)
    (only : ∀ v entry, entries[v]? = some entry → test entry → v < k ∧ v ≠ w) :
    entries.countP test < k := by
  have beyond : (entries.drop k).countP test = 0 := by
    refine List.countP_eq_zero.mpr fun entry member holds => ?_
    obtain ⟨v, present⟩ := List.getElem?_of_mem member
    rw [List.getElem?_drop] at present
    exact absurd (only _ entry present holds).1 (by omega)
  have split : entries.countP test = (entries.take k).countP test := by
    conv_lhs => rw [← List.take_append_drop k entries, List.countP_append, beyond, Nat.add_zero]
  rw [split]
  have short : (entries.take k).length ≤ k := by
    rw [List.length_take]
    omega
  by_cases inside : w < entries.length
  · have absent : ∃ entry ∈ entries.take k, test entry = false := by
      refine ⟨entries[w], List.mem_of_getElem? (i := w) ?_, ?_⟩
      · rw [List.getElem?_take_of_lt small, List.getElem?_eq_getElem inside]
      · by_contra holds
        have present := List.getElem?_eq_getElem inside
        exact (only w _ present (by simpa using holds)).2 rfl
    exact Nat.lt_of_lt_of_le (List.countP_lt_length_iff.mpr absent) short
  · have few : (entries.take k).length ≤ w := by
      rw [List.length_take]
      omega
    exact Nat.lt_of_le_of_lt (Nat.le_trans List.countP_le_length few) small

namespace Sound

/-- The loops that were lost count again once their hosts are built. -/
theorem loops (config : Config) : (machine config api).Progress byItself
    (config.minThreads ≤ servingLoops ·) (Sound config) remaining where
  preserved sound _ own moved := sound.step (Event.calm_of_own own) (.of_step moved)
  decreasing _ own moved := (Step.of_step moved).remaining_lt own
  enabled := by
    intro state sound few
    have missing : ¬ ∀ w < config.minThreads, ∃ worker, state.workers[w]? = some worker ∧
        worker.phase.serves := fun all => few (le_countP all)
    obtain ⟨w, core, idle⟩ := not_forall₂.mp missing
    obtain ⟨worker, submitted, running⟩ := sound.runs core
    refine running_enabled submitted running (.inr fun waiting => ?_)
    exact idle ⟨worker, submitted, by rw [waiting]; rfl⟩

/-- Every request reaches a worker. -/
theorem served (config : Config) (core : 1 ≤ config.minThreads) (n : Nat) :
    (machine config api).Progress byItself (fun state => n ∈ callers (handings state.log))
      (fun state => Sound config state ∧ n < state.calls.length) remaining where
  preserved := by
    rintro state event next ⟨sound, inside⟩ _ own moved
    refine ⟨sound.step (Event.calm_of_own own) (.of_step moved), ?_⟩
    obtain ⟨after, present, _⟩ :=
      (Step.of_step moved).callsGrow n _ (List.getElem?_eq_getElem inside)
    exact (List.getElem?_eq_some_iff.mp present).1
  decreasing _ own moved := (Step.of_step moved).remaining_lt own
  enabled := by
    rintro state ⟨sound, inside⟩ unhanded
    obtain ⟨worker, submitted, running⟩ := sound.runs core
    rcases sound.reached.placed n inside with handed | ⟨message, full, _⟩ | ⟨call, issued, holds⟩
    · exact absurd handed unhanded
    · exact running_enabled submitted running (.inl (by simp [full]))
    · refine outstanding_enabled sound.reached.orderly.pending issued ?_ submitted running
      revert holds
      cases call.phase <;> simp [CallPhase.holds, CallPhase.outstanding]

end Sound

/-- At rest only workers of `new` that are alive serve the channel. -/
theorem few_at_rest (manned : Manned config state) {w : Nat} (core : w < config.minThreads)
    (panicked : Panicked state w) (rest : ¬ (machine config api).Enabled byItself state) :
    state.servingLoops < config.minThreads := by
  refine countP_lt core fun v worker submitted serves => ?_
  have running : worker.phase.running := by
    revert serves
    cases worker.phase <;> simp [WorkerPhase.serves, WorkerPhase.running]
  have idle : state.slot = none ∧ worker.phase = .waiting := by
    by_contra busy
    exact rest (running_enabled submitted running (not_and_or.mp busy))
  constructor
  · refine (manned.endless v worker submitted).mp ?_
    by_contra elastic
    obtain ⟨duration, elastic⟩ := Option.ne_none_iff_exists'.mp elastic
    exact rest ((Step.recvTimeout submitted idle.2 elastic idle.1).enabled rfl)
  · rintro rfl
    obtain ⟨other, submitted', panicked⟩ := panicked
    rw [submitted] at submitted'
    cases submitted'
    rw [idle.2] at panicked
    cases panicked

/-- A pool whose first workers are alive contains its panics. -/
theorem Sound.contains (sound : Sound config state) (core : 1 ≤ config.minThreads) :
    PanicsContained config state where
  failed := sound.reached.tracked.failed
  loops _ _ steps := (Sound.loops config).inevitable (sound.steps steps)
  served _ _ steps n inside := (Sound.served config core n).inevitable ⟨sound.steps steps, inside⟩

/-- A pool that lost one of its first workers comes to rest with too few loops. -/
theorem PanicsContained.alive (contained : PanicsContained config state)
    (manned : Manned config state) {w : Nat} (core : w < config.minThreads) :
    ¬ Panicked state w := by
  intro panicked
  have calms : (machine config api).Inevitable byItself _ state :=
    Machine.inevitable_rest remaining (fun own moved => (Step.of_step moved).remaining_lt own) state
  obtain ⟨events, final, steps, rest⟩ := calms.reachable
  have calm : (machine config api).Steps calmly state events final :=
    steps.mono fun _ _ own => Event.calm_of_own own
  have manned : Manned config final :=
    steps.invariant manned fun manned _ moved => manned.step (.of_step moved)
  have lost : Panicked final w := by
    refine steps.invariant (motive := (Panicked · w)) panicked fun panicked _ moved => ?_
    exact ((Step.of_step moved).panicked_iff w).mpr (.inl panicked)
  have enough := (contained.loops events final calm).reached_of_rest rest
  have few := few_at_rest manned core lost rest
  omega

/-- In a run that has not shut the pool down, panics cost no more than their requests
exactly when none of them hits a worker of `new`. -/
theorem panics_contained_iff (api : ThreadPool) (config : Config) (events : List Event)
    (state : HostPool api) (core : 1 ≤ config.minThreads)
    (executed : (machine config api).run (new config api) events = some state)
    (running : state.pool ≠ none) :
    PanicsContained config state ↔ ∀ w < config.minThreads, .worker w .panic ∉ events := by
  have steps := Machine.Steps.ofRun (fun _ _ _ => trivial) executed
  have reached : Reached config state :=
    steps.invariant (.new config api) fun reached _ moved => reached.step (.of_step moved)
  constructor
  · intro contained w small member
    exact contained.alive reached.orderly.manned small ((panicked_iff steps w).mpr member)
  · intro calm
    refine Sound.contains ⟨reached, running, fun w small panicked => ?_⟩ core
    exact calm w small ((panicked_iff steps w).mp panicked)

/-- The invocation of the worker that a timeout added panics. -/
def elasticPanicRun : List Event :=
  [.call "echo" [1], .call "boom" [2], .caller 0 .send, .caller 1 .sendTimeout,
    .caller 1 .checkSize, .caller 1 .spawn, .worker 0 .build, .worker 0 .receive,
    .caller 1 .resend, .worker 1 .build, .worker 1 .receive, .worker 1 .invoke, .worker 1 .panic]

theorem elastic_panic_is_contained :
    ∃ state, (machine .default countedThreads).run (new .default countedThreads) elasticPanicRun =
      some state ∧ PanicsContained .default state := by
  refine ⟨_, rfl, ?_⟩
  refine (panics_contained_iff countedThreads .default elasticPanicRun _ (by decide) rfl
    nofun).mpr ?_
  intro w core
  have first : w = 0 := Nat.lt_one_iff.mp core
  simp [elasticPanicRun, first]

/-- The only worker of `new` invokes a request that panics. -/
def corePanicRun : List Event :=
  [.worker 0 .build, .call "boom" [], .caller 0 .send, .worker 0 .receive, .worker 0 .invoke,
    .worker 0 .panic]

/-- A panic of a worker of `new` costs the pool its loop. -/
theorem core_panic_is_not_contained :
    ¬ ∀ api config events (state : HostPool api), 1 ≤ config.minThreads →
      (machine config api).run (new config api) events = some state → state.pool ≠ none →
      PanicsContained config state := by
  intro contained
  obtain ⟨state, executed, running⟩ : ∃ state,
      (machine .default countedThreads).run (new .default countedThreads) corePanicRun =
        some state ∧ state.pool ≠ none := ⟨_, rfl, nofun⟩
  have steps := Machine.Steps.ofRun (fun _ _ _ => trivial) executed
  have manned : Manned .default state :=
    steps.invariant (.new _ _) fun manned _ moved => manned.step (.of_step moved)
  have alive := (contained _ _ _ state (by decide) executed running).alive manned (w := 0)
    (by decide)
  exact alive ((panicked_iff steps 0).mpr (by simp [corePanicRun]))

end Wapc.Pool
