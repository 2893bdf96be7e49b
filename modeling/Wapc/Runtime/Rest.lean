import Wapc.Host.Locking
import Wapc.Host.Trap
import Wapc.Runtime.Turn
import Wapc.Semantics.Inevitable

/-!
# Calls at rest

The caller, the handler loop and the tasks of async host calls share one store lock. A
call never comes to a stop because they block each other: when no party can move, the
call is over, or its future waits for a guest that is not running and was told
everything, and the sender is still in the map for it. `Consistent` is what the parties
know of each other; it holds in every state a call reaches.
-/

namespace Wapc.Host.Step

variable {ctx next : Context} {event : Event}

/-- A guest is blocked in a host call from the call to the return of its callback. -/
theorem blocked (moved : Step ctx event next) {holder : Holder} {id : I32}
    (frame : next.frame = some { holder := holder, hostCall := some id }) :
    (∃ request, event = .guest (.hostCall request)) ∨
      ctx.frame = some { holder := holder, hostCall := some id } ∧
        ∀ result, event ≠ .hostCallReturns result := by
  cases moved with
  | hostCall => exact .inl ⟨_, rfl⟩
  | hostCallReturns => cases frame
  | _ => first | cases frame | exact .inr ⟨frame, by simp⟩

/-- Only an entry takes the free lock. -/
theorem unlocked (moved : Step ctx event next) (free : ctx.frame = none) (inner : event ≠ .enter)
    (own : event ≠ .notify) : next.frame = none := by
  cases moved with
  | enter => exact absurd rfl inner
  | notify => exact absurd rfl own
  | hostCall frame | hostCallReturns frame => rw [free] at frame; cases frame
  | _ => first | exact free | rfl

/-- A caller is idle before its call and after it dropped the future. -/
theorem caller_idle (moved : Step ctx event next) (started : ∀ mode inv, event ≠ .start mode inv)
    (kept : event ≠ .dropFuture) : next.caller = .idle ↔ ctx.caller = .idle := by
  cases moved with
  | start => exact absurd rfl (started _ _)
  | dropFuture => exact absurd rfl kept
  | enter caller | exportMissing caller | syncReturned _ caller | syncTrapped _ caller
    | asyncReturned _ caller | asyncTrapped _ caller | asyncTrapPanics _ caller | finish caller
    | finishPanics caller | resolve caller | resolveDropped caller =>
    simp [caller, Context.crash]
  | _ => exact Iff.rfl

/-- The handler loop leaves `recv` with a message only. -/
theorem handler_idle (moved : Step ctx event next) (waits : ctx.handler = .idle)
    (quiet : event ≠ .receive) : next.handler = .idle := by
  cases moved with
  | receive => exact absurd rfl quiet
  | notify received => rw [waits] at received; cases received
  | handlerExit => rfl
  | _ => exact waits

end Wapc.Host.Step

/-- The event of a caller that is not in the guest, or of a task. -/
def Wapc.Host.Event.quiet : Host.Event → Bool
  | .exportMissing | .finish | .resolve | .taskRecord _ _ | .taskSend _ => true
  | _ => false

namespace Wapc.Runtime

open Semantics Host

variable {Memory : Type}

/-! ### What the parties know of each other -/

/-- The state of a call that has not panicked. -/
structure Consistent (conv : Conversation Memory) : Prop where
  locked : conv.ctx.Locked conv.phase.starts
  /-- A synchronous callback has its request. -/
  asked : ∀ holder id, conv.ctx.frame = some { holder := holder, hostCall := some id } →
    conv.pending ≠ none
  /-- A guest that was not instantiated does not run. -/
  unborn : conv.memory = none →
    conv.phase.dropped ∧ conv.looping = false ∧ conv.ctx.frame = none
  uncalled : conv.phase ≠ .called → conv.phase.dropped ∨ conv.ctx.caller = .idle
  called : conv.phase = .called → conv.ctx.caller ≠ .idle
  looping : conv.ctx.handler ≠ .idle → conv.looping
  closed : conv.closed = conv.phase.dropped
  answerable : conv.ctx.Answerable

namespace Consistent

variable {host : WapcHost Memory} {conv next : Conversation Memory} {move : Move}

theorem new (host : WapcHost Memory) (mode : Mode) (inv : Invocation) :
    Consistent (Conversation.new host mode inv) := by
  unfold Conversation.new
  split
  · constructor <;> simp [Context.new, Conversation.callerFrame, Phase.starts, Phase.dropped,
      Context.Answerable, Caller.async?]
    constructor <;> simp [Context.holder]
  · constructor <;> simp [Context.new, Phase.dropped, Context.Answerable, Caller.async?]
    constructor <;> simp [Context.holder, Phase.starts, Caller.isInside]

/-- A step of the context in a call that goes on. -/
theorem inner {event : Host.Event} (consistent : Consistent conv)
    (moved : Step conv.ctx event next.ctx) (alive : next.ctx.crashed = false)
    (begun : ∀ exit, event = .exit exit → conv.phase.starts = false)
    (started : ∀ mode inv, event ≠ .start mode inv) (kept : event ≠ .dropFuture)
    (received : event = .receive → conv.looping)
    (entered : event = .enter ∨ event = .notify → next.memory ≠ none)
    (asked : (∃ request, event = .guest (.hostCall request)) → next.pending ≠ none)
    (waits : (∀ result, event ≠ .hostCallReturns result) → conv.pending ≠ none →
      next.pending ≠ none)
    (memory : next.memory = none → conv.memory = none) (phase : next.phase = conv.phase)
    (looping : next.looping = conv.looping) (closed : next.closed = conv.closed) :
    Consistent next where
  locked := by
    rw [phase]
    exact consistent.locked.step moved alive begun
  asked := by
    intro holder id frame
    rcases moved.blocked frame with called | ⟨before, returns⟩
    · exact asked called
    · exact waits returns (consistent.asked holder id before)
  unborn := by
    intro missing
    obtain ⟨dropped, stopped, free⟩ := consistent.unborn (memory missing)
    refine ⟨by rwa [phase], by rwa [looping], moved.unlocked free ?_ ?_⟩
    · intro enter
      exact entered (.inl enter) missing
    · intro notify
      exact entered (.inr notify) missing
  uncalled := by
    rw [phase, moved.caller_idle started kept]
    exact consistent.uncalled
  called := by
    rw [phase, ne_eq, moved.caller_idle started kept]
    exact consistent.called
  looping := by
    intro busy
    rw [looping]
    by_cases message : event = .receive
    · exact received message
    · exact consistent.looping fun waits => busy (moved.handler_idle waits message)
  closed := by rw [closed, phase, consistent.closed]
  answerable := consistent.answerable.step moved

/-- A step that nobody enters or leaves the guest with. -/
theorem quietly {event : Host.Event} {ctx : Context} (consistent : Consistent conv)
    (quiet : event.quiet) (moved : Step conv.ctx event ctx) (alive : ctx.crashed = false) :
    Consistent { conv with ctx := ctx } := by
  refine consistent.inner moved alive ?_ ?_ ?_ ?_ ?_ ?_ (fun _ => id) id rfl rfl rfl
  · rintro exit rfl
    cases quiet
  · rintro mode inv rfl
    cases quiet
  · rintro rfl
    cases quiet
  · rintro rfl
    cases quiet
  · rintro (rfl | rfl) <;> cases quiet
  · rintro ⟨request, rfl⟩
    cases quiet

/-- The guest was instantiated where the context was not dropped. -/
theorem memory_ne_none (consistent : Consistent conv) (present : conv.phase.dropped = false) :
    conv.memory ≠ none := by
  intro missing
  have dropped := (consistent.unborn missing).1
  rw [present] at dropped
  cases dropped

/-- Before the context is called its caller is idle. -/
theorem idle (consistent : Consistent conv) (uncalled : conv.phase ≠ .called)
    (present : conv.phase.dropped = false) : conv.ctx.caller = .idle := by
  refine (consistent.uncalled uncalled).resolve_left ?_
  rw [present]
  exact Bool.false_ne_true

/-- The call comes to its next phase before it calls the context. -/
theorem rephase (consistent : Consistent conv) {phase : Phase} (before : conv.phase ≠ .called)
    (present : conv.phase.dropped = false) (starts : phase.starts = conv.phase.starts)
    (uncalled : phase ≠ .called) (dropped : phase.dropped = false) :
    Consistent { conv with phase := phase } where
  locked := by
    rw [starts]
    exact consistent.locked
  asked := consistent.asked
  unborn missing := absurd missing (consistent.memory_ne_none present)
  uncalled _ := .inr (consistent.idle before present)
  called phase := absurd phase uncalled
  looping := consistent.looping
  closed := by rw [consistent.closed, dropped, present]
  answerable := consistent.answerable

/-- An entry that the caller made before it called the context ends. -/
theorem leave (consistent : Consistent conv) (starting : conv.phase.starts) (exit : Exit)
    {phase : Phase} {looping closed : Bool} (starts : phase.starts = false)
    (uncalled : phase ≠ .called) (loops : conv.ctx.handler ≠ .idle → looping)
    (same : closed = phase.dropped) :
    Consistent { conv.leave exit with phase := phase, looping := looping, closed := closed } := by
  have before : conv.phase ≠ .called ∧ conv.phase.dropped = false := by
    cases phase : conv.phase <;> simp_all [Phase.starts, Phase.dropped]
  have idle := consistent.idle before.1 before.2
  have inGuest := consistent.locked.caller.mpr (.inl starting)
  have notBusy := (not_congr consistent.locked.handler).mp (by rw [inGuest]; simp)
  refine ⟨⟨?_, ?_⟩, ?_, ?_, ?_, ?_, loops, same, consistent.answerable⟩
  · simp [Conversation.leave, Context.holder, idle, Caller.isInside, starts]
  · simpa [Conversation.leave, Context.holder] using notBusy
  · simp [Conversation.leave]
  · intro missing
    exact absurd missing (consistent.memory_ne_none before.2)
  · intro _
    exact .inr idle
  · intro called
    exact absurd called uncalled

/-- The free lock is taken for a start function. -/
theorem enterStarter (consistent : Consistent conv) {starters : List String} {entry : Entry}
    (before : conv.phase ≠ .called) (present : conv.phase.dropped = false)
    (unlocked : conv.ctx.frame = none) :
    Consistent ({ conv with phase := .starting starters }.entered host
      { conv.ctx with frame := some Conversation.callerFrame } entry) := by
  obtain ⟨-, -, notBusy⟩ := consistent.locked.free unlocked
  refine ⟨⟨?_, ?_⟩, ?_, ?_, ?_, ?_, consistent.looping, ?_, consistent.answerable⟩
  · simp [Conversation.entered, Context.holder, Conversation.callerFrame, Phase.starts]
  · simpa [Conversation.entered, Context.holder, Conversation.callerFrame] using notBusy
  · simp [Conversation.entered, Conversation.callerFrame]
  · intro missing
    exact absurd (Option.map_eq_none_iff.mp missing) (consistent.memory_ne_none present)
  · intro _
    exact .inr (consistent.idle before present)
  · intro called
    cases called
  · rw [Conversation.entered, consistent.closed, present]
    rfl

/-- The context is called. -/
theorem start {ctx : Context} (consistent : Consistent conv) (ready : conv.phase = .ready)
    (moved : Step conv.ctx (.start conv.mode conv.inv) ctx) (alive : ctx.crashed = false) :
    Consistent { conv with phase := .called, ctx := ctx } := by
  have present : conv.phase.dropped = false := by rw [ready]; rfl
  have locked := consistent.locked.step moved alive (by simp)
  have answerable := consistent.answerable.step moved
  rw [ready] at locked
  refine ⟨locked, ?_, ?_, ?_, ?_, ?_, ?_, answerable⟩
  · intro holder id frame
    cases moved
    exact consistent.asked holder id frame
  · intro missing
    exact absurd missing (consistent.memory_ne_none present)
  · intro uncalled
    exact absurd rfl uncalled
  · intro _ idle
    cases moved
    cases idle
  · cases moved
    exact consistent.looping
  · rw [consistent.closed, present]
    rfl

/-- The context is dropped while its caller is not in the guest. -/
theorem drop (consistent : Consistent conv) (droppable : conv.droppable) :
    Consistent { conv with phase := .concluded }.dropContext := by
  have outside : conv.phase.starts = false := by
    cases phase : conv.phase <;> simp_all [Conversation.droppable, Phase.starts]
  have locked := consistent.locked
  rw [outside] at locked
  refine ⟨locked, consistent.asked, ?_, ?_, ?_, ?_, rfl, consistent.answerable⟩
  · intro missing
    obtain ⟨-, stopped, free⟩ := consistent.unborn missing
    exact ⟨rfl, by simp [Conversation.dropContext, stopped], free⟩
  · intro _
    exact .inl rfl
  · intro called
    cases called
  · intro busy
    simpa [Conversation.dropContext, consistent.looping busy] using busy

/-- The aborted handler loop ends. -/
theorem stop (consistent : Consistent conv) (idle : conv.ctx.handler = .idle) :
    Consistent { conv with looping := false } where
  locked := consistent.locked
  asked := consistent.asked
  unborn missing := ⟨(consistent.unborn missing).1, rfl, (consistent.unborn missing).2.2⟩
  uncalled := consistent.uncalled
  called := consistent.called
  looping busy := absurd idle busy
  closed := consistent.closed
  answerable := consistent.answerable

/-- The loss of messages is seen by no other party. -/
theorem rechannel (consistent : Consistent conv) (channel : List AsyncChannel) :
    Consistent { conv with ctx := { conv.ctx with channel := channel } } where
  locked := ⟨consistent.locked.caller, consistent.locked.handler⟩
  asked := consistent.asked
  unborn := consistent.unborn
  uncalled := consistent.uncalled
  called := consistent.called
  looping := consistent.looping
  closed := consistent.closed
  answerable := consistent.answerable

/-- Every move of a call keeps what its parties know, unless it panics. -/
theorem step (consistent : Consistent conv) (turn : Turn host conv move next)
    (alive : next.ctx.crashed = false) : Consistent next := by
  have present {phase : Phase} (here : conv.phase = phase) (kept : phase.dropped = false) :
      conv.phase.dropped = false := by rwa [here]
  cases turn with
  | create phase =>
    exact consistent.rephase (by simp [phase]) (present phase rfl) (by simp [phase, Phase.starts])
      (by simp) rfl
  | initialized phase =>
    exact consistent.rephase (by simp [phase]) (present phase rfl) (by simp [phase, Phase.starts])
      (by simp) rfl
  | starter phase unlocked exported =>
    exact consistent.enterStarter (by simp [phase]) (present phase rfl) unlocked
  | skipped phase =>
    exact consistent.rephase (by simp [phase]) (present phase rfl) (by simp [phase, Phase.starts])
      (by simp) rfl
  | start phase moved => exact consistent.start phase moved alive
  | enter phase caller exported moved =>
    refine consistent.inner moved alive (by simp) (by simp) (by simp) (by simp) ?_ (by simp)
      (fun _ => id) (by simp [Conversation.entered]) rfl rfl rfl
    intro _ missing
    exact consistent.memory_ne_none (present phase rfl) (Option.map_eq_none_iff.mp missing)
  | exportMissing phase missing moved => exact consistent.quietly rfl moved alive
  | hostCall held action moved =>
    exact consistent.inner moved alive (by simp) (by simp) (by simp) (by simp) (by simp) (by simp)
      (by simp) id rfl rfl rfl
  | importCall held action atOnce moved =>
    refine consistent.inner moved alive (by simp) (by simp) (by simp) (by simp) (by simp) ?_
      (fun _ => id) (by simp) rfl rfl rfl
    rintro ⟨request, same⟩
    cases same
    cases atOnce
  | instantiated phase frame exported =>
    exact consistent.leave (by simp [phase, Phase.starts]) _ rfl (by simp) (by simp)
      (consistent.closed.trans (present phase rfl))
  | notInstantiated phase frame =>
    refine consistent.leave (by simp [phase, Phase.starts]) _ rfl (by simp) ?_ rfl
    intro busy
    simpa [Conversation.leave, consistent.looping busy] using busy
  | started phase frame =>
    exact consistent.leave (by simp [phase, Phase.starts]) _ rfl (by simp) consistent.looping
      (consistent.closed.trans (present phase rfl))
  | notStarted phase frame =>
    refine consistent.leave (by simp [phase, Phase.starts]) _ rfl (by simp) ?_ rfl
    intro busy
    simpa [Conversation.leave, consistent.looping busy] using busy
  | exit begun moved =>
    exact consistent.inner moved alive (fun _ _ => begun) (by simp) (by simp) (by simp) (by simp)
      (by simp) (fun _ => id) id rfl rfl rfl
  | callbackReturns frame waiting held ran moved =>
    exact consistent.inner moved alive (by simp) (by simp) (by simp) (by simp) (by simp) (by simp)
      (by simp) (by simp) rfl rfl rfl
  | finish phase moved => exact consistent.quietly rfl moved alive
  | resolve phase moved => exact consistent.quietly rfl moved alive
  | taskRecord found ran moved => exact consistent.quietly rfl moved alive
  | taskSend opened moved => exact consistent.quietly rfl moved alive
  | @taskLost n ctx closed moved =>
    have sent : Consistent { conv with ctx := ctx } := consistent.quietly rfl moved alive
    exact sent.rechannel conv.ctx.channel
  | receive looping moved =>
    exact consistent.inner moved alive (by simp) (by simp) (by simp) (fun _ => looping) (by simp)
      (by simp) (fun _ => id) id rfl rfl rfl
  | notify received looping moved =>
    refine consistent.inner moved alive (by simp) (by simp) (by simp) (by simp) ?_ (by simp)
      (fun _ => id) (by simp [Conversation.entered]) rfl rfl rfl
    intro _ missing
    have unborn := consistent.unborn (Option.map_eq_none_iff.mp missing)
    rw [looping] at unborn
    cases unborn.2.1
  | drop droppable => exact consistent.drop droppable
  | stop closed looping idle => exact consistent.stop idle

/-- The parties know of each other in every state a call reaches. -/
theorem run {mode : Mode} {inv : Invocation} {moves : List Move}
    (executed : (Conversation.machine host).run (.new host mode inv) moves = some conv)
    (alive : conv.ctx.crashed = false) : Consistent conv := by
  have steps := Machine.Steps.ofRun (fun _ _ _ => trivial) executed
  refine steps.invariant (motive := fun conv => conv.ctx.crashed = false → Consistent conv)
    (fun _ => .new host mode inv) ?_ alive
  intro state move next consistent _ moved alive
  obtain ⟨before, turn⟩ := Turn.of_step moved
  exact (consistent before).step turn alive

end Consistent

/-! ### Rest -/

/-- The call has its result, or its future was dropped. -/
def Conversation.Over (conv : Conversation Memory) : Prop :=
  conv.phase.dropped ∨ conv.phase = .called ∧ ∃ result, conv.ctx.caller = .done result

/-- The future waits for the guest to signal the end of the invocation, and the signal
would find its sender. -/
def Conversation.AwaitsGuest (conv : Conversation Memory) : Prop :=
  conv.phase = .called ∧ ∃ index rx call, conv.ctx.caller = .waiting index rx ∧
    ¬ conv.ctx.module.oneshots.Settled rx ∧
      conv.ctx.module.calls index = some call ∧ call.channel = some rx

/-- Nothing is left to do: the guest is not running, every accepted host call was answered
and every answer was handed to the guest, unless the handler loop has ended. -/
structure Conversation.AtRest (conv : Conversation Memory) : Prop where
  unlocked : conv.ctx.frame = none
  noTask : conv.ctx.tasks = []
  noMessage : conv.ctx.handler = .idle
  drained : conv.looping → conv.ctx.channel = []
  stopped : conv.closed → conv.looping = false
  settled : conv.Over ∨ conv.AwaitsGuest

/-- The moves of a call but for the drop of its context. -/
def goesOn (_ : Conversation Memory) (move : Move) : Prop := move ≠ .drop

section Enabled

variable {host : WapcHost Memory} {conv : Conversation Memory}

theorem enabled_of_isSome (move : Move) (kept : move ≠ .drop)
    (moved : (conv.step host move).isSome) : (Conversation.machine host).Enabled goesOn conv := by
  obtain ⟨next, moved⟩ := Option.isSome_iff_exists.mp moved
  exact ⟨move, next, kept, moved⟩

/-- A running guest can call every import. -/
theorem guest_isSome {holder : Holder} (alive : conv.ctx.crashed = false)
    (frame : conv.ctx.frame = some { holder := holder, hostCall := none }) (call : ImportCall) :
    (conv.ctx.step (.guest call)).isSome := by
  cases call <;> simp [Context.step, alive, Context.guest, frame]

/-- A guest that was entered by its context can return and trap. -/
theorem exit_isSome {holder : Holder} (consistent : Consistent conv)
    (alive : conv.ctx.crashed = false)
    (frame : conv.ctx.frame = some { holder := holder, hostCall := none })
    (begun : conv.phase.starts = false) (exit : Exit) : (conv.ctx.step (.exit exit)).isSome := by
  cases holder with
  | handler => simp [Context.step, alive, Context.exit, frame]
  | caller =>
    have inside := consistent.locked.caller.mp (by simp [Context.holder, frame])
    rw [begun] at inside
    cases caller : conv.ctx.caller with
    | inside mode index rx =>
      cases mode <;> cases exit <;> simp [Context.step, alive, Context.exit, frame, caller]
    | _ => simp [caller, Caller.isInside] at inside

/-- While somebody is in the guest, the guest or its callback goes on. -/
theorem enabled_of_frame (consistent : Consistent conv) (alive : conv.ctx.crashed = false)
    (locked : conv.ctx.frame ≠ none) : (Conversation.machine host).Enabled goesOn conv := by
  obtain ⟨⟨holder, hostCall⟩, frame⟩ := Option.ne_none_iff_exists'.mp locked
  have held : conv.memory ≠ none := fun missing => locked (consistent.unborn missing).2.2
  obtain ⟨memory, held⟩ := Option.ne_none_iff_exists'.mp held
  cases hostCall with
  | some id =>
    obtain ⟨request, asked⟩ := Option.ne_none_iff_exists'.mp (consistent.asked holder id frame)
    refine enabled_of_isSome .callbackReturns (by simp) ?_
    simp [Conversation.step, alive, Conversation.callbackReturns, frame, asked, held,
      Context.step, Context.hostCallReturns]
  | none =>
    refine enabled_of_isSome .run (by simp) ?_
    simp only [Conversation.step, alive, Bool.false_eq_true, if_false, Conversation.run, frame,
      held]
    cases host.guest.next memory with
    | call call => simpa [Conversation.call] using guest_isSome alive frame call
    | exit exit =>
      simp only [Conversation.exit]
      split
      · rfl
      · rfl
      · rename_i notInstantiating notStarting
        have begun : conv.phase.starts = false := by
          cases phase : conv.phase with
          | instantiating => exact absurd phase notInstantiating
          | starting starters => exact absurd phase (notStarting starters)
          | _ => rfl
        simpa using exit_isSome consistent alive frame begun exit

/-- A task records its result and then sends its message. -/
theorem enabled_of_task (alive : conv.ctx.crashed = false) (tasks : conv.ctx.tasks ≠ []) :
    (Conversation.machine host).Enabled goesOn conv := by
  obtain ⟨⟨id, request, phase⟩, later, tasks⟩ := List.exists_cons_of_ne_nil tasks
  have first : conv.ctx.tasks[0]? = some ⟨id, request, phase⟩ := by simp [tasks]
  cases phase with
  | running =>
    refine enabled_of_isSome (.taskRecord 0) (by simp) ?_
    simp [Conversation.step, alive, Conversation.taskRecord, first, Context.step,
      Context.taskRecord]
  | recorded code =>
    refine enabled_of_isSome (.taskSend 0) (by simp) ?_
    simp [Conversation.step, alive, Conversation.taskSend, first, Context.step, Context.taskSend]

/-- The handler loop goes on with the message it has and with the next one. -/
theorem enabled_of_message (consistent : Consistent conv) (alive : conv.ctx.crashed = false)
    (unlocked : conv.ctx.frame = none) (looping : conv.looping)
    (message : conv.ctx.handler ≠ .idle ∨ conv.ctx.channel ≠ []) :
    (Conversation.machine host).Enabled goesOn conv := by
  obtain ⟨-, -, notBusy⟩ := consistent.locked.free unlocked
  cases handler : conv.ctx.handler with
  | busy => exact absurd handler notBusy
  | received id code =>
    refine enabled_of_isSome .notify (by simp) ?_
    simp [Conversation.step, alive, Conversation.notify, handler, looping, Context.step,
      Context.notify, unlocked]
  | idle =>
    have waiting := message.resolve_left (by simp [handler])
    obtain ⟨first, later, queued⟩ := List.exists_cons_of_ne_nil waiting
    refine enabled_of_isSome .receive (by simp) ?_
    simp [Conversation.step, alive, Conversation.receive, looping, Context.step, Context.receive,
      handler, queued]

/-- A caller that has the lock to take goes on until it has its result or waits for the
guest. -/
theorem enabled_of_phase (consistent : Consistent conv) (alive : conv.ctx.crashed = false)
    (unlocked : conv.ctx.frame = none) (unsettled : ¬ (conv.Over ∨ conv.AwaitsGuest)) :
    (Conversation.machine host).Enabled goesOn conv := by
  obtain ⟨notStarting, notInside, -⟩ := consistent.locked.free unlocked
  push Not at unsettled
  cases phase : conv.phase with
  | instantiating | starting => simp [phase, Phase.starts] at notStarting
  | concluded | failed => exact absurd (.inl (by simp [phase, Phase.dropped])) unsettled.1
  | created =>
    refine enabled_of_isSome .create (by simp) ?_
    simp [Conversation.step, alive, Conversation.create, phase]
  | initializing starters =>
    refine enabled_of_isSome .init (by simp) ?_
    cases starters with
    | nil => simp [Conversation.step, alive, Conversation.init, phase]
    | cons starter starters =>
      simp only [Conversation.step, alive, Bool.false_eq_true, if_false, Conversation.init, phase,
        unlocked]
      split <;> rfl
  | ready =>
    have idle := consistent.idle (by simp [phase]) (by simp [phase, Phase.dropped])
    refine enabled_of_isSome .start (by simp) ?_
    simp [Conversation.step, alive, Conversation.start, phase, Context.step, Context.start, idle,
      Caller.free]
  | called =>
    cases caller : conv.ctx.caller with
    | idle => exact absurd caller (consistent.called phase)
    | inside mode index rx => simp [caller, Caller.isInside] at notInside
    | done result => exact absurd (.inr ⟨phase, result, caller⟩) unsettled.1
    | starting mode index rx =>
      refine enabled_of_isSome .enter (by simp) ?_
      simp only [Conversation.step, alive, Bool.false_eq_true, if_false, Conversation.enter, phase,
        caller]
      split <;> simp [Context.step, alive, Context.enter, Context.exportMissing, caller, unlocked]
    | returned index callresult =>
      refine enabled_of_isSome .finish (by simp) ?_
      simp only [Conversation.step, alive, Bool.false_eq_true, if_false, Conversation.conclude,
        phase, Context.step, Context.finish, caller, ModuleState.takeState, Option.isSome_map]
      split <;> rfl
    | waiting index rx =>
      have answerable := consistent.answerable index rx (by rw [caller]; rfl)
      by_cases settled : conv.ctx.module.oneshots.Settled rx
      · refine enabled_of_isSome .resolve (by simp) ?_
        simp only [Conversation.step, alive, Bool.false_eq_true, if_false, Conversation.conclude,
          phase, Context.step, Context.resolve, caller, Option.isSome_map]
        cases sent : conv.ctx.module.oneshots.delivered rx with
        | cons status later => rfl
        | nil =>
          have dropped := settled.resolve_left (by simp [sent])
          simp [dropped]
      · obtain ⟨call, present, holds⟩ := answerable.resolve_left settled
        exact absurd ⟨phase, index, rx, call, caller, settled, present, holds⟩ unsettled.2

/-- Where no party can move, nothing is left to do. -/
theorem atRest_of_stuck (consistent : Consistent conv) (alive : conv.ctx.crashed = false)
    (stuck : ¬ (Conversation.machine host).Enabled goesOn conv) : conv.AtRest := by
  have unlocked : conv.ctx.frame = none := by
    by_contra locked
    exact stuck (enabled_of_frame consistent alive locked)
  have noMessage : conv.ctx.handler = .idle := by
    by_contra message
    exact stuck (enabled_of_message consistent alive unlocked (consistent.looping message)
      (.inl message))
  refine ⟨unlocked, ?_, noMessage, ?_, ?_, ?_⟩
  · by_contra tasks
    exact stuck (enabled_of_task alive tasks)
  · intro looping
    by_contra message
    exact stuck (enabled_of_message consistent alive unlocked looping (.inr message))
  · intro closed
    by_contra looping
    refine stuck (enabled_of_isSome .stop (by simp) ?_)
    simpa [Conversation.step, alive, Conversation.stop, closed, noMessage] using looping
  · by_contra unsettled
    exact stuck (enabled_of_phase consistent alive unlocked unsettled)

end Enabled

namespace Conversation.AtRest

variable {host : WapcHost Memory} {conv next : Conversation Memory}

/-- Nobody enters the guest at rest. -/
theorem caller_free (rest : conv.AtRest) (called : conv.phase = .called) :
    (∃ result, conv.ctx.caller = .done result) ∨
      ∃ index rx, conv.ctx.caller = .waiting index rx ∧ ¬ conv.ctx.module.oneshots.Settled rx := by
  rcases rest.settled with (dropped | ⟨-, done⟩) | ⟨-, index, rx, call, waiting, unsettled, -⟩
  · simp [called, Phase.dropped] at dropped
  · exact .inl done
  · exact .inr ⟨index, rx, waiting, unsettled⟩

/-- At rest no party moves, whatever the guest and the callbacks do. -/
theorem stuck (rest : conv.AtRest) : ¬ (Conversation.machine host).Enabled goesOn conv := by
  rintro ⟨move, next, kept, moved⟩
  have free := rest.unlocked
  have early : ∀ phase, conv.phase = phase → phase.dropped = false → phase = .called := by
    intro phase here present
    rcases rest.settled with (dropped | ⟨called, -⟩) | ⟨called, -⟩
    · rw [here, present] at dropped
      cases dropped
    · rw [← here, called]
    · rw [← here, called]
  cases (Turn.of_step moved).2 with
  | create phase | initialized phase | starter phase | skipped phase | start phase
    | instantiated phase | notInstantiated phase | started phase | notStarted phase =>
    cases early _ phase rfl
  | drop => exact kept rfl
  | enter phase caller exported inner | exportMissing phase missing inner
    | finish phase inner | resolve phase inner =>
    rcases rest.caller_free phase with ⟨result, done⟩ | ⟨index, rx, waiting, unsettled⟩ <;>
      cases inner <;> simp_all [Oneshots.Settled]
  | hostCall held action inner | importCall held action atOnce inner | exit begun inner
    | callbackReturns frame asked held ran inner =>
    cases inner <;> simp_all
  | taskRecord found => simp [rest.noTask] at found
  | taskSend opened inner | taskLost closed inner =>
    cases inner
    simp_all [rest.noTask]
  | receive looping inner =>
    cases inner
    simp_all [rest.drained looping]
  | notify received => simp [rest.noMessage] at received
  | stop closed looping =>
    rw [rest.stopped closed] at looping
    cases looping

end Conversation.AtRest

/-- In every run of a call, the parties come to a stop exactly where nothing is left to do
but for the guest to answer: they never wait for each other. -/
theorem call_rests_iff (host : WapcHost Memory) (mode : Mode) (inv : Invocation)
    (moves : List Move) (conv : Conversation Memory)
    (executed : (Conversation.machine host).run (.new host mode inv) moves = some conv)
    (alive : conv.ctx.crashed = false) :
    ¬ (Conversation.machine host).Enabled goesOn conv ↔ conv.AtRest :=
  ⟨atRest_of_stuck (.run executed alive) alive, Conversation.AtRest.stuck⟩

/-- A guest that returns from every entry and does nothing else. -/
def silentGuest : Guest Unit where
  exports name := name ≠ "_start"
  instantiate := .ok ()
  enter memory _ := memory
  next _ := .exit (.returned 0)
  resume memory _ := memory

def silentHost : WapcHost Unit := ⟨1, silentGuest, none, none⟩

/-- The moves of a call up to the return of its entry. -/
def untilReturn : List Move :=
  [.run, .create, .init, .init, .run, .init, .start, .enter, .run]

/-- The future of a call waits for a guest that forgot it. -/
theorem forgotten_call_rests : ∃ conv,
    (Conversation.machine silentHost).run (.new silentHost .async ⟨"ping", []⟩) untilReturn =
      some conv ∧ ¬ (Conversation.machine silentHost).Enabled goesOn conv := by
  refine ⟨_, rfl, (call_rests_iff silentHost .async ⟨"ping", []⟩ untilReturn _ rfl rfl).mpr ?_⟩
  refine ⟨rfl, rfl, rfl, fun _ => rfl, fun closed => ?_, .inr ⟨rfl, 1, 0, _, rfl, ?_, rfl, rfl⟩⟩
  · cases closed
  · rintro (delivered | dropped)
    · exact delivered rfl
    · cases dropped

end Wapc.Runtime
