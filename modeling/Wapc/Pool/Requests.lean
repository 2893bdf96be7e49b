import Mathlib.Data.List.Nodup
import Wapc.Pool.Step

/-!
# Requests of a pool are served once

A message is in the hands of its caller, in the slot, or with one worker, and the
sender in it names the call it came from. So each request is handed to one worker
at most, invoked once at most, and what a host produced for it goes to the call
that asked for it, whatever the timeouts and the growth of the pool.
-/

namespace Wapc.Pool

open Semantics Host HostPool

section Log

/-- The messages handed to workers. -/
def handings (log : List Observation) : List (Nat × WorkerMessage) :=
  log.filterMap fun
    | .handed w message => some (w, message)
    | _ => none

/-- The messages invoked on the hosts of workers. -/
def invocations (log : List Observation) : List (Nat × WorkerMessage) :=
  log.filterMap fun
    | .invoked w message => some (w, message)
    | _ => none

/-- What the hosts of workers produced. -/
def products (log : List Observation) : List (Nat × WorkerMessage × CallResult) :=
  log.filterMap fun
    | .produced w message result => some (w, message, result)
    | _ => none

/-- The calls some messages came from. -/
def callers (messages : List (Nat × WorkerMessage)) : List Oneshot := messages.map (·.2.tx)

@[simp] theorem callers_append (first second : List (Nat × WorkerMessage)) :
    callers (first ++ second) = callers first ++ callers second := List.map_append

theorem mem_callers {messages : List (Nat × WorkerMessage)} {w : Nat} {message : WorkerMessage}
    (member : (w, message) ∈ messages) : message.tx ∈ callers messages :=
  List.mem_map_of_mem (f := (·.2.tx)) member

/-- Messages of different calls are told apart by their callers. -/
theorem eq_of_callers_nodup {messages : List (Nat × WorkerMessage)}
    (once : (callers messages).Nodup) {first second : Nat × WorkerMessage}
    (one : first ∈ messages) (other : second ∈ messages) (same : first.2.tx = second.2.tx) :
    first = second :=
  List.inj_on_of_nodup_map once one other same

variable (log : List Observation) (w : Nat) (message : WorkerMessage)

@[simp] theorem handings_handed :
    handings (log ++ [.handed w message]) = handings log ++ [(w, message)] := by
  simp [handings]

@[simp] theorem handings_invoked :
    handings (log ++ [.invoked w message]) = handings log := by
  simp [handings]

@[simp] theorem handings_produced (result : CallResult) :
    handings (log ++ [.produced w message result]) = handings log := by
  simp [handings]

@[simp] theorem handings_panicked (serving : Option Oneshot) :
    handings (log ++ [.panicked w serving]) = handings log := by
  simp [handings]

@[simp] theorem invocations_handed :
    invocations (log ++ [.handed w message]) = invocations log := by
  simp [invocations]

@[simp] theorem invocations_invoked :
    invocations (log ++ [.invoked w message]) = invocations log ++ [(w, message)] := by
  simp [invocations]

@[simp] theorem invocations_produced (result : CallResult) :
    invocations (log ++ [.produced w message result]) = invocations log := by
  simp [invocations]

@[simp] theorem invocations_panicked (serving : Option Oneshot) :
    invocations (log ++ [.panicked w serving]) = invocations log := by
  simp [invocations]

@[simp] theorem products_handed :
    products (log ++ [.handed w message]) = products log := by
  simp [products]

@[simp] theorem products_invoked :
    products (log ++ [.invoked w message]) = products log := by
  simp [products]

@[simp] theorem products_produced (result : CallResult) :
    products (log ++ [.produced w message result]) = products log ++ [(w, message, result)] := by
  simp [products]

@[simp] theorem products_panicked (serving : Option Oneshot) :
    products (log ++ [.panicked w serving]) = products log := by
  simp [products]

end Log

variable {api : ThreadPool} {config : Config} {state next : HostPool api}

/-- What a step may do to a call: the request stays, and arguments that were sent
do not come back. -/
structure Call.Grows (before after : Call) : Prop where
  op : after.op = before.op
  payload : after.payload = before.payload
  sent : before.phase.holds = false → after.phase.holds = false

theorem Call.Grows.refl (call : Call) : call.Grows call := ⟨rfl, rfl, id⟩

theorem Call.Grows.message {before after : Call} (grows : before.Grows after) (n : Nat) :
    after.message n = before.message n := by
  unfold Call.message
  rw [grows.op, grows.payload]

/-- Every call of a state is in the other one and has grown. -/
def CallsGrow (state next : HostPool api) : Prop :=
  ∀ (n : Nat) (before : Call), state.calls[n]? = some before →
    ∃ after, next.calls[n]? = some after ∧ before.Grows after

namespace CallsGrow

theorem same (calls : next.calls = state.calls) : CallsGrow state next := by
  intro n before issued
  exact ⟨before, calls ▸ issued, .refl before⟩

theorem setCall {n : Nat} {phase : CallPhase}
    (sent : ∀ call, state.calls[n]? = some call → call.phase.holds = false → phase.holds = false) :
    CallsGrow state (state.setCall n phase) := by
  intro m before issued
  by_cases same : n = m
  · subst same
    exact ⟨_, state.setCall_self phase issued, rfl, rfl, sent before issued⟩
  · exact ⟨before, (state.setCall_other phase same).trans issued, .refl before⟩

theorem setAnswer (tx : Oneshot) (answer : Answer) :
    CallsGrow state (state.setAnswer tx answer) := by
  intro m before issued
  by_cases same : tx = m
  · subst same
    refine ⟨_, by simp [HostPool.setAnswer, issued]; rfl, ?_⟩
    split
    · exact .refl before
    · exact ⟨rfl, rfl, id⟩
  · exact ⟨before, by simp [HostPool.setAnswer, same, issued], .refl before⟩

end CallsGrow

/-- No step forgets a request or hands its arguments back after they were sent. -/
theorem Step.callsGrow {event : Event} (moved : Step config state event next) :
    CallsGrow state next := by
  cases moved with
  | call =>
    intro n before issued
    have inside := (List.getElem?_eq_some_iff.mp issued).1
    exact ⟨before, (List.getElem?_append_left inside).trans issued, .refl before⟩
  | send | resend | resendDisconnected | answered | closed | dropFuture =>
    exact CallsGrow.setCall fun _ _ _ => rfl
  | sendTimeout issued phase | sendDisconnected issued phase | grow issued phase
  | stay issued phase =>
    refine CallsGrow.setCall fun call issued' sent => ?_
    rw [issued] at issued'
    cases issued'
    rw [phase] at sent
    cases sent
  | @spawn n call issued phase =>
    have kept : ((state.spawn config (some config.maxIdle)).getD state).calls = state.calls :=
      state.spawn_calls config _
    intro m before issued'
    rw [← kept] at issued'
    refine CallsGrow.setCall (fun call' issued'' sent => ?_) m before issued'
    rw [kept, issued] at issued''
    cases issued''
    rw [phase] at sent
    cases sent
  | reply | callPanics => exact CallsGrow.setAnswer _ _
  | _ => exact CallsGrow.same rfl

/-- The message carries the arguments of the call its sender names, which were sent. -/
def Sent (state : HostPool api) (message : WorkerMessage) : Prop :=
  ∃ call, state.calls[message.tx]? = some call ∧ message = call.message message.tx ∧
    call.phase.holds = false

theorem Sent.grow {message : WorkerMessage} (sent : Sent state message)
    (grows : CallsGrow state next) : Sent next message := by
  obtain ⟨call, issued, own, gone⟩ := sent
  obtain ⟨after, present, grown⟩ := grows message.tx call issued
  exact ⟨after, present, own.trans (grown.message message.tx).symm, grown.sent gone⟩

/-- Each request is in one place: with its caller, in the slot, or handed out. -/
structure HandedOnce (state : HostPool api) : Prop where
  once : (callers (handings state.log)).Nodup
  sent : ∀ w message, (w, message) ∈ handings state.log → Sent state message
  slot : ∀ message, state.slot = some message →
    Sent state message ∧ message.tx ∉ callers (handings state.log)

namespace HandedOnce

/-- A step that neither fills the slot nor hands a message out. -/
theorem frame (handed : HandedOnce state) (grows : CallsGrow state next)
    (slot : next.slot = state.slot) (log : handings next.log = handings state.log) :
    HandedOnce next where
  once := log ▸ handed.once
  sent := by
    intro w message member
    rw [log] at member
    exact (handed.sent w message member).grow grows
  slot := by
    intro message full
    rw [slot] at full
    obtain ⟨sent, fresh⟩ := handed.slot message full
    exact ⟨sent.grow grows, log ▸ fresh⟩

/-- A caller that still holds its arguments fills the slot. -/
theorem fill {n : Nat} {call : Call} (handed : HandedOnce state)
    (issued : state.calls[n]? = some call) (holds : call.phase.holds) :
    HandedOnce { state.setCall n .awaiting with slot := some (call.message n) } := by
  have grows : CallsGrow state (state.setCall n .awaiting) := CallsGrow.setCall fun _ _ _ => rfl
  refine ⟨handed.once, fun w message member => (handed.sent w message member).grow grows, ?_⟩
  rintro message ⟨rfl⟩
  refine ⟨⟨_, state.setCall_self .awaiting issued, rfl, rfl⟩, ?_⟩
  intro member
  obtain ⟨⟨w, message⟩, member, same⟩ := List.mem_map.mp member
  obtain ⟨call', issued', _, gone⟩ := handed.sent w message member
  change message.tx = n at same
  rw [same, issued] at issued'
  cases issued'
  rw [holds] at gone
  cases gone

/-- A worker takes the message out of the slot. -/
theorem take {w : Nat} {message : WorkerMessage} (handed : HandedOnce state)
    (full : state.slot = some message) :
    HandedOnce ({ state.setWorker w (.received message) with slot := none }.note
      (.handed w message)) := by
  obtain ⟨sent, fresh⟩ := handed.slot message full
  refine ⟨?_, ?_, by rintro _ ⟨⟩⟩
  · have distinct : (callers (handings state.log) ++ [message.tx]).Nodup := by
      rw [List.nodup_append]
      refine ⟨handed.once, List.nodup_singleton _, ?_⟩
      rintro tx member _ (_ | _) rfl
      · exact fresh member
      · contradiction
    simpa [callers] using distinct
  · intro v other member
    simp only [note_log, setWorker_log, handings_handed, List.mem_append,
      List.mem_singleton, Prod.mk.injEq] at member
    rcases member with before | ⟨_, rfl⟩
    · exact handed.sent v other before
    · exact sent

theorem step {event : Event} (handed : HandedOnce state) (moved : Step config state event next) :
    HandedOnce next := by
  have grows := moved.callsGrow
  cases moved with
  | send issued phase => exact handed.fill issued (by rw [phase]; rfl)
  | resend issued phase => exact handed.fill issued (by rw [phase]; rfl)
  | receive _ _ full => exact handed.take full
  | spawn =>
    rcases state.spawn_cases config (some config.maxIdle) with
      failed | ⟨pool, phase, _, spawned⟩
    · rw [failed] at grows ⊢
      exact handed.frame grows rfl rfl
    · rw [spawned] at grows ⊢
      exact handed.frame grows rfl rfl
  | invoke | complete | factoryPanics | callPanics =>
    exact handed.frame grows rfl (by simp)
  | _ => exact handed.frame grows rfl rfl

end HandedOnce

/-- What the log knows about the phase of worker `w`. -/
def WorkerPhase.Logged (log : List Observation) (w : Nat) : WorkerPhase → Prop
  | .received message =>
    (w, message) ∈ handings log ∧ message.tx ∉ callers (invocations log)
  | .serving message => (w, message) ∈ invocations log
  | .replying message result => (w, message, result) ∈ products log
  | _ => True

/-- More handings and products, and the same invocations, keep what the log knows. -/
theorem WorkerPhase.Logged.mono {log later : List Observation} {w : Nat} {phase : WorkerPhase}
    (logged : phase.Logged log w) (handed : ∀ p ∈ handings log, p ∈ handings later)
    (invoked : invocations later = invocations log)
    (produced : ∀ p ∈ products log, p ∈ products later) : phase.Logged later w := by
  cases phase with
  | received message => exact ⟨handed _ logged.1, invoked ▸ logged.2⟩
  | serving message =>
    change _ ∈ invocations later
    rw [invoked]
    exact logged
  | replying message result => exact produced _ logged
  | _ => trivial

/-- The log covers all workers. -/
def Covers (log : List Observation) (workers : List Worker) : Prop :=
  ∀ (w : Nat) (worker : Worker), workers[w]? = some worker → worker.phase.Logged log w

/-- A worker moves to a phase the log covers. -/
theorem Covers.setWorker {log : List Observation} {w : Nat} {phase : WorkerPhase}
    (others : ∀ (v : Nat) (worker : Worker), v ≠ w → state.workers[v]? = some worker →
      worker.phase.Logged log v) (own : phase.Logged log w) :
    Covers log (state.setWorker w phase).workers := by
  intro v worker present
  rcases state.setWorker_cases present with ⟨rfl, _, _, rfl⟩ | ⟨different, before⟩
  · exact own
  · exact others v worker different before

/-- Each request handed to a worker is invoked once at most, on that worker. -/
structure InvokedOnce (state : HostPool api) : Prop where
  once : (callers (invocations state.log)).Nodup
  handed : ∀ p ∈ invocations state.log, p ∈ handings state.log
  workers : Covers state.log state.workers
  produced : ∀ w message result, (w, message, result) ∈ products state.log →
    (w, message) ∈ invocations state.log

namespace InvokedOnce

/-- A step that leaves the log alone and moves workers to phases it covers. -/
theorem frame (invoked : InvokedOnce state) (log : next.log = state.log)
    (workers : Covers state.log next.workers) : InvokedOnce next := by
  refine ⟨?_, ?_, ?_, ?_⟩ <;> rw [log]
  exacts [invoked.once, invoked.handed, workers, invoked.produced]

/-- A worker moves to a phase the log covers; other parts of the state may change. -/
theorem move {w : Nat} (invoked : InvokedOnce state) (phase : WorkerPhase)
    (own : phase.Logged state.log w) (log : next.log = state.log)
    (workers : next.workers = (state.setWorker w phase).workers) : InvokedOnce next :=
  invoked.frame log
    (workers ▸ Covers.setWorker (fun v worker _ => invoked.workers v worker) own)

/-- A panic is logged. -/
theorem panic {w : Nat} (invoked : InvokedOnce state) (serving : Option Oneshot) :
    InvokedOnce (state.note (.panicked w serving)) := by
  refine ⟨?_, ?_, ?_, ?_⟩ <;>
    simp only [note_log, invocations_panicked, handings_panicked, products_panicked]
  · exact invoked.once
  · exact invoked.handed
  · intro v worker present
    exact (invoked.workers v worker present).mono (by simp) (by simp) (by simp)
  · exact invoked.produced

/-- A worker takes the message out of the slot, which nobody invoked. -/
theorem take {w : Nat} {message : WorkerMessage} (invoked : InvokedOnce state)
    (fresh : message.tx ∉ callers (handings state.log)) :
    InvokedOnce ({ state.setWorker w (.received message) with slot := none }.note
      (.handed w message)) := by
  refine ⟨?_, ?_, ?_, ?_⟩ <;>
    simp only [note_log, setWorker_log, invocations_handed, handings_handed, products_handed]
  · exact invoked.once
  · exact fun p member => List.mem_append_left _ (invoked.handed p member)
  · refine Covers.setWorker (fun v worker _ present => ?_) ⟨by simp, ?_⟩
    · refine (invoked.workers v worker present).mono (fun p member => ?_) (by simp) (by simp)
      rw [handings_handed]
      exact List.mem_append_left _ member
    · intro member
      rw [invocations_handed] at member
      obtain ⟨p, before, same⟩ := List.mem_map.mp member
      exact fresh (List.mem_map.mpr ⟨p, invoked.handed p before, same⟩)
  · exact invoked.produced

/-- A worker invokes the message it received. -/
theorem invoke {w : Nat} {worker : Worker} {message : WorkerMessage} (invoked : InvokedOnce state)
    (handed : HandedOnce state) (submitted : state.workers[w]? = some worker)
    (phase : worker.phase = .received message) :
    InvokedOnce ((state.setWorker w (.serving message)).note (.invoked w message)) := by
  obtain ⟨own, fresh⟩ : (w, message) ∈ handings state.log ∧
      message.tx ∉ callers (invocations state.log) := by
    have logged := invoked.workers w worker submitted
    rwa [phase] at logged
  refine ⟨?_, ?_, ?_, ?_⟩ <;>
    simp only [note_log, setWorker_log, invocations_invoked, handings_invoked, products_invoked]
  · rw [callers_append, List.nodup_append]
    refine ⟨invoked.once, List.nodup_singleton _, ?_⟩
    rintro tx member _ (_ | _) rfl
    · exact fresh member
    · contradiction
  · intro p member
    rcases List.mem_append.mp member with before | new
    · exact invoked.handed p before
    · rw [List.mem_singleton.mp new]
      exact own
  · refine Covers.setWorker (fun v other different present => ?_) (by simp [WorkerPhase.Logged])
    have logged := invoked.workers v other present
    cases kind : other.phase <;> rw [kind] at logged
    case received message' =>
      refine ⟨by simpa using logged.1, ?_⟩
      rw [invocations_invoked, callers_append, List.mem_append, not_or]
      refine ⟨logged.2, fun member => ?_⟩
      -- One request is with one worker only.
      have same : message'.tx = message.tx := List.mem_singleton.mp member
      have one := eq_of_callers_nodup handed.once logged.1 own same
      exact different (Prod.mk.inj one).1
    case serving message' =>
      change _ ∈ invocations _
      rw [invocations_invoked]
      exact List.mem_append_left _ logged
    case replying message' result => simpa [WorkerPhase.Logged] using logged
    all_goals trivial
  · intro v other result member
    exact List.mem_append_left _ (invoked.produced v other result member)

/-- The host of a worker produces a result for the message it was invoked with. -/
theorem complete {w : Nat} {worker : Worker} {message : WorkerMessage} {result : CallResult}
    (invoked : InvokedOnce state) (submitted : state.workers[w]? = some worker)
    (phase : worker.phase = .serving message) :
    InvokedOnce ((state.setWorker w (.replying message result)).note
      (.produced w message result)) := by
  have own : (w, message) ∈ invocations state.log := by
    have logged := invoked.workers w worker submitted
    rwa [phase] at logged
  refine ⟨?_, ?_, ?_, ?_⟩ <;>
    simp only [note_log, setWorker_log, invocations_produced, handings_produced,
      products_produced]
  · exact invoked.once
  · exact invoked.handed
  · refine Covers.setWorker (fun v other _ present => ?_) (by simp [WorkerPhase.Logged])
    refine (invoked.workers v other present).mono (by simp) (by simp) (fun p member => ?_)
    rw [products_produced]
    exact List.mem_append_left _ member
  · intro v other result' member
    rcases List.mem_append.mp member with before | new
    · exact invoked.produced v other result' before
    · cases List.mem_singleton.mp new
      exact own

/-- A new job has done nothing yet. -/
theorem spawn (invoked : InvokedOnce state) (maxIdle : Option Nat) :
    InvokedOnce ((state.spawn config maxIdle).getD state) := by
  rcases state.spawn_cases config maxIdle with
    failed | ⟨pool, phase, idle, spawned⟩
  · rw [failed]
    exact invoked
  · rw [spawned]
    refine invoked.frame rfl fun w worker present => ?_
    rcases getElem?_snoc present with before | ⟨_, rfl⟩
    · exact invoked.workers w worker before
    · rcases idle with rfl | rfl <;> trivial

theorem step {event : Event} (invoked : InvokedOnce state) (handed : HandedOnce state)
    (moved : Step config state event next) : InvokedOnce next := by
  cases moved with
  | spawn => exact (invoked.spawn _).frame rfl (invoked.spawn _).workers
  | start => exact invoked.move .starting trivial rfl rfl
  | build => exact invoked.move .waiting trivial rfl rfl
  | receive _ _ full => exact invoked.take (handed.slot _ full).2
  | recvTimeout | recvDisconnected => exact invoked.move .ended trivial rfl rfl
  | invoke submitted phase => exact invoked.invoke handed submitted phase
  | complete submitted phase => exact invoked.complete submitted phase
  | reply => exact invoked.move .waiting trivial rfl rfl
  | factoryPanics | callPanics =>
    refine InvokedOnce.panic ?_ _
    exact invoked.move .panicked trivial rfl rfl
  | _ => exact invoked.frame rfl invoked.workers

end InvokedOnce

/-- What a call was answered, and what it returned, a host produced for its own
request. -/
structure AnsweredOwn (state : HostPool api) : Prop where
  answer : ∀ (n : Nat) (call : Call) (result : CallResult), state.calls[n]? = some call →
    call.answer = .sent result → ∃ w, (w, call.message n, result) ∈ products state.log
  returned : ∀ (n : Nat) (call : Call) (result : CallResult), state.calls[n]? = some call →
    call.phase = .returned (.fromHost result) →
    ∃ w, (w, call.message n, result) ∈ products state.log

namespace AnsweredOwn

/-- A step that leaves the calls alone; the log may grow. -/
theorem frame (own : AnsweredOwn state) (calls : next.calls = state.calls)
    (log : ∀ p ∈ products state.log, p ∈ products next.log) : AnsweredOwn next where
  answer := by
    intro n call result issued answered
    obtain ⟨w, member⟩ := own.answer n call result (calls ▸ issued) answered
    exact ⟨w, log _ member⟩
  returned := by
    intro n call result issued done
    obtain ⟨w, member⟩ := own.returned n call result (calls ▸ issued) done
    exact ⟨w, log _ member⟩

/-- A call moves to a phase that returns at most what it was answered. -/
theorem move {n : Nat} {call : Call} (own : AnsweredOwn state) (phase : CallPhase)
    (issued : state.calls[n]? = some call)
    (answered : ∀ result, phase = .returned (.fromHost result) → call.answer = .sent result) :
    AnsweredOwn (state.setCall n phase) where
  answer := by
    intro m after result present sent
    rcases state.setCall_cases present with ⟨rfl, before, issued', rfl⟩ | ⟨_, issued'⟩
    · exact own.answer m before result issued' sent
    · exact own.answer m after result issued' sent
  returned := by
    intro m after result present done
    rcases state.setCall_cases present with ⟨rfl, before, issued', rfl⟩ | ⟨_, issued'⟩
    · rw [issued] at issued'
      cases issued'
      exact own.answer m call result issued (answered result done)
    · exact own.returned m after result issued' done

/-- A call is answered with what a host produced for it. -/
theorem reply {tx : Oneshot} {answer : Answer} (own : AnsweredOwn state)
    (produced : ∀ call result, state.calls[tx]? = some call → answer = .sent result →
      ∃ w, (w, call.message tx, result) ∈ products state.log) :
    AnsweredOwn (state.setAnswer tx answer) where
  answer := by
    intro m after result present sent
    rcases state.setAnswer_cases present with issued | ⟨rfl, before, issued, _, rfl⟩
    · exact own.answer m after result issued sent
    · exact produced before result issued sent
  returned := by
    intro m after result present done
    rcases state.setAnswer_cases present with issued | ⟨rfl, before, issued, _, rfl⟩
    · exact own.returned m after result issued done
    · exact own.returned m before result issued done

/-- What a worker is about to reply was produced for the call it replies to. -/
theorem produced_own {w : Nat} {worker : Worker} {message : WorkerMessage} {result : CallResult}
    (handed : HandedOnce state) (invoked : InvokedOnce state)
    (submitted : state.workers[w]? = some worker)
    (phase : worker.phase = .replying message result) {call : Call}
    (issued : state.calls[message.tx]? = some call) :
    (w, call.message message.tx, result) ∈ products state.log := by
  have produced : (w, message, result) ∈ products state.log := by
    have logged := invoked.workers w worker submitted
    rwa [phase] at logged
  obtain ⟨call', issued', message', _⟩ :=
    handed.sent w message (invoked.handed _ (invoked.produced w message result produced))
  rw [issued] at issued'
  cases issued'
  rw [← message']
  exact produced

theorem step {event : Event} (own : AnsweredOwn state) (handed : HandedOnce state)
    (invoked : InvokedOnce state) (moved : Step config state event next) : AnsweredOwn next := by
  cases moved with
  | call =>
    refine ⟨fun n call result present sent => ?_, fun n call result present done => ?_⟩
    · rcases getElem?_snoc present with issued | ⟨_, rfl⟩
      · exact own.answer n call result issued sent
      · cases sent
    · rcases getElem?_snoc present with issued | ⟨_, rfl⟩
      · exact own.returned n call result issued done
      · cases done
  | send issued | resend issued =>
    exact (own.move .awaiting issued (by simp)).frame rfl fun _ => id
  | sendTimeout issued | sendDisconnected issued => exact own.move .timedOut issued (by simp)
  | grow issued => exact own.move .growing issued (by simp)
  | stay issued => exact own.move .resending issued (by simp)
  | spawn issued =>
    have kept : ((state.spawn config (some config.maxIdle)).getD state).calls = state.calls :=
      state.spawn_calls config _
    have spawned : AnsweredOwn ((state.spawn config (some config.maxIdle)).getD state) := by
      refine own.frame kept ?_
      rcases state.spawn_cases config (some config.maxIdle) with
        failed | ⟨pool, phase, _, spawned⟩
      · rw [failed]
        exact fun _ => id
      · rw [spawned]
        exact fun _ => id
    exact spawned.move .resending (kept.symm ▸ issued) (by simp)
  | resendDisconnected issued | closed issued => exact own.move _ issued (by simp)
  | answered issued _ answer =>
    refine own.move _ issued fun result same => ?_
    cases same
    exact answer
  | dropFuture issued => exact own.move .dropped issued (by simp)
  | receive | invoke | factoryPanics => exact own.frame rfl fun p member => by simpa using member
  | complete => exact own.frame rfl fun p member => by simp [member]
  | @reply w worker message result submitted phase =>
    have moved : AnsweredOwn (state.setWorker w .waiting) := own.frame rfl fun _ => id
    refine moved.reply ?_
    rintro call _ issued ⟨rfl⟩
    exact ⟨w, produced_own handed invoked submitted phase issued⟩
  | @callPanics w worker message =>
    have moved : AnsweredOwn (state.setWorker w .panicked) := own.frame rfl fun _ => id
    have closed : AnsweredOwn ((state.setWorker w .panicked).setAnswer message.tx .closed) :=
      moved.reply (by simp)
    exact closed.frame rfl fun p member => by simpa using member
  | _ => exact own.frame rfl fun _ => id

end AnsweredOwn

/-- What holds of the requests in every reachable state. -/
structure Accounted (state : HostPool api) : Prop where
  handed : HandedOnce state
  invoked : InvokedOnce state
  own : AnsweredOwn state

theorem Accounted.new (config : Config) (api : ThreadPool) : Accounted (new config api) := by
  obtain ⟨threads, fresh⟩ := new_eq config api
  rw [fresh]
  refine ⟨⟨?_, ?_, ?_⟩, ⟨?_, ?_, ?_, ?_⟩, ⟨?_, ?_⟩⟩ <;>
    simp only [handings, invocations, products, callers, List.filterMap_nil, List.map_nil]
  case refine_6 =>
    intro w worker present
    rw [List.getElem?_replicate] at present
    split at present <;> cases present
    trivial
  all_goals simp

theorem Accounted.step {event : Event} (accounted : Accounted state)
    (moved : Step config state event next) : Accounted next where
  handed := accounted.handed.step moved
  invoked := accounted.invoked.step accounted.handed moved
  own := accounted.own.step accounted.handed accounted.invoked moved

/-- In every run of a pool each request is handed to one worker and invoked once at
most, with the operation and the payload of its call, and what a call returns from
a host was produced for its own request. -/
theorem requests_are_served_once (api : ThreadPool) (config : Config) (events : List Event)
    (state : HostPool api)
    (executed : (machine config api).run (new config api) events = some state) :
    (callers (handings state.log)).Nodup ∧ (callers (invocations state.log)).Nodup ∧
      (∀ w message, (w, message) ∈ invocations state.log → ∃ call,
        state.calls[message.tx]? = some call ∧ message = call.message message.tx) ∧
      ∀ (n : Nat) (call : Call) (result : CallResult), state.calls[n]? = some call →
        call.phase = .returned (.fromHost result) →
        ∃ w, (w, call.message n, result) ∈ products state.log := by
  have steps := Machine.Steps.ofRun (fun _ _ _ => trivial) executed
  have accounted : Accounted state :=
    steps.invariant (.new config api) fun accounted _ moved => accounted.step (.of_step moved)
  refine ⟨accounted.handed.once, accounted.invoked.once, ?_, accounted.own.returned⟩
  intro w message member
  obtain ⟨call, issued, own, _⟩ :=
    accounted.handed.sent w message (accounted.invoked.handed _ member)
  exact ⟨call, issued, own⟩

/-- The second of two calls times out, grows the pool and sends its request again. -/
def growingRun : List Event :=
  [.call "echo" [1], .call "echo" [2], .caller 0 .send, .caller 1 .sendTimeout,
    .caller 1 .checkSize, .caller 1 .spawn, .worker 0 .build, .worker 0 .receive,
    .caller 1 .resend, .worker 1 .build, .worker 1 .receive, .worker 0 .invoke,
    .worker 1 .invoke, .worker 1 (.complete (.ok [2])), .worker 1 .reply,
    .worker 0 (.complete (.ok [1])), .worker 0 .reply, .caller 1 .answer, .caller 0 .answer]

/-- The request that was sent again is served once, and its caller gets its result. -/
theorem resent_request_is_served_once :
    ∃ state, (machine .default countedThreads).run (new .default countedThreads) growingRun =
        some state ∧
      (callers (invocations state.log)).Nodup ∧
      ∃ w, (w, ⟨1, "echo", [2]⟩, .ok [2]) ∈ products state.log := by
  refine ⟨_, rfl, ?_⟩
  obtain ⟨_, once, _, own⟩ := requests_are_served_once countedThreads .default growingRun _ rfl
  exact ⟨once, own 1 _ _ rfl rfl⟩

end Wapc.Pool
