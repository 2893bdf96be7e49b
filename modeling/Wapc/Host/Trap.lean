import Wapc.Host.Step

/-!
# Traps and waiting callers

A trap of the initial entry completes the async invocation with its text. The
handler loop drops the result of its entries, so a trap there completes nothing,
and a caller whose guest was to answer later waits forever. `Answerable` is what
keeps a waiting caller from being lost otherwise: its sender is in the map until
it is used or dropped.
-/

namespace Wapc.Host

open Semantics

/-- The receiver is ready: a status was sent, or the sender was dropped. -/
def Oneshots.Settled (oneshots : Oneshots) (rx : Oneshot) : Prop :=
  oneshots.delivered rx ≠ [] ∨ oneshots.dropped rx

namespace Oneshots.Settled

variable {oneshots : Oneshots} {rx : Oneshot}

theorem send (settled : oneshots.Settled rx) (tx : Oneshot) (status : CallStatus) :
    (oneshots.send tx status).Settled rx := by
  refine settled.imp_left fun delivered => ?_
  by_cases same : rx = tx
  · subst same
    simp
  · rwa [send_delivered_other _ _ same]

theorem dropSender (settled : oneshots.Settled rx) (held : Option Oneshot) :
    (oneshots.dropSender held).Settled rx := by
  cases held with
  | none => exact settled
  | some tx =>
    refine settled.imp id fun dropped => ?_
    by_cases same : rx = tx <;> simp [Oneshots.dropSender, same, dropped]

end Oneshots.Settled

/-- No operation takes a status or a drop back. -/
theorem ModuleState.settled_apply {state next : ModuleState} {rx : Oneshot}
    (settled : state.oneshots.Settled rx) {op : Op} (applied : op.apply state = .returned next) :
    next.oneshots.Settled rx := by
  have finished : ∀ {before : ModuleState} {id code}, before.oneshots.Settled rx →
      before.finishGuestInvocation id code = .returned next → next.oneshots.Settled rx := by
    intro before id code settled finish
    rcases finish_cases finish with ⟨_, rfl⟩ | ⟨_, tx, _, _, rfl⟩
    · exact settled
    · exact settled.send tx _
  cases op with
  | newInvocation inv =>
    cases applied
    have opened : state.oneshots.channel.2.Settled rx := settled
    exact opened.dropSender _
  | beginHostCall => cases applied; exact settled.dropSender _
  | recordHostResult id result =>
    cases applied
    rw [recordHostResult_eq]
    simpa using settled
  | setGuestResponse id response => cases applied; simpa [setGuestResponse] using settled
  | setGuestError id error => cases applied; simpa [setGuestError] using settled
  | setGuestCallComplete id code response =>
    exact finished (by simpa [setGuestResponse] using settled) applied
  | finishGuestInvocation id code => exact finished settled applied
  | takeState id => cases applied; exact settled

/-- The receiver is ready, or its sender is in the entry of its invocation. -/
def ModuleState.Answerable (state : ModuleState) (index : I32) (rx : Oneshot) : Prop :=
  state.oneshots.Settled rx ∨ ∃ call, state.calls index = some call ∧ call.channel = some rx

namespace ModuleState.Answerable

variable {state next : ModuleState} {index : I32} {rx : Oneshot}

theorem modifyCall (answerable : state.Answerable index rx) (id : I32)
    {change : CallState → CallState} (channel : ∀ call, (change call).channel = call.channel) :
    (state.modifyCall id change).Answerable index rx := by
  rcases answerable with settled | ⟨call, present, holds⟩
  · exact .inl (by simpa using settled)
  · right
    by_cases same : index = id
    · subst same
      exact ⟨change call, by simp [present], (channel call).trans holds⟩
    · exact ⟨call, by simp [same, present], holds⟩

/-- An entry that takes the place of another drops the sender in it. -/
theorem insertCall (answerable : state.Answerable index rx) (id : I32) (call : CallState) :
    (state.insertCall id call).Answerable index rx := by
  rcases answerable with settled | ⟨entry, present, holds⟩
  · exact .inl (settled.dropSender _)
  · by_cases same : index = id
    · subst same
      exact .inl (.inr (by simp [Oneshots.dropSender, present, holds]))
    · exact .inr ⟨entry, by simp [same, present], holds⟩

theorem finishGuestInvocation (answerable : state.Answerable index rx) {id code : I32}
    (finish : state.finishGuestInvocation id code = .returned next) :
    next.Answerable index rx := by
  rcases finish_cases finish with ⟨_, rfl⟩ | ⟨entry, tx, found, own, rfl⟩
  · exact answerable
  · rcases answerable with settled | ⟨call, present, holds⟩
    · exact .inl (settled.send tx _)
    · by_cases same : index = id
      · subst same
        obtain rfl := Option.some.inj (found.symm.trans present)
        obtain rfl := Option.some.inj (own.symm.trans holds)
        exact .inl (.inl (by simp [finished]))
      · exact .inr ⟨call, by simpa [finished, same] using present, holds⟩

/-- Only taking the entry away loses its sender. -/
theorem apply (answerable : state.Answerable index rx) {op : Op}
    (applied : op.apply state = .returned next) (kept : op ≠ .takeState index) :
    next.Answerable index rx := by
  cases op with
  | newInvocation inv =>
    cases applied
    have opened : ({ state with
        callIndex := state.callIndex + 1
        oneshots := state.oneshots.channel.2 } : ModuleState).Answerable index rx := answerable
    exact opened.insertCall _ _
  | beginHostCall =>
    cases applied
    have advanced : ({ state with callIndex := state.callIndex + 1 } : ModuleState).Answerable
        index rx := answerable
    exact advanced.insertCall _ _
  | recordHostResult id result =>
    cases applied
    rw [recordHostResult_eq]
    exact answerable.modifyCall id fun _ => by cases result <;> rfl
  | setGuestResponse id response =>
    cases applied
    exact answerable.modifyCall id fun _ => rfl
  | setGuestError id error =>
    cases applied
    exact answerable.modifyCall id fun _ => rfl
  | setGuestCallComplete id code response =>
    have recorded : (state.setGuestResponse id response).Answerable index rx :=
      answerable.modifyCall id fun _ => rfl
    exact recorded.finishGuestInvocation applied
  | finishGuestInvocation id code => exact answerable.finishGuestInvocation applied
  | takeState id =>
    cases applied
    have different : index ≠ id := fun same => kept (same ▸ rfl)
    refine answerable.imp_right ?_
    rintro ⟨call, present, holds⟩
    exact ⟨call, by simpa [takeState, different] using present, holds⟩

end ModuleState.Answerable

/-- The async invocation the caller is on, and its receiver. -/
def Caller.async? : Caller → Option (I32 × Oneshot)
  | .starting .async index rx | .inside .async index rx | .waiting index rx => some (index, rx)
  | _ => none

/-- The invocation was completed with an error that carries this trap. -/
def ModuleState.CompletedWith (state : ModuleState) (rx : Oneshot) (message : String) : Prop :=
  ∃ status, state.oneshots.delivered rx = [status] ∧
    asyncResult status = .error (.guestCallFailure message)

/-- Completing an invocation with a trap works while its entry has its channel. -/
theorem ModuleState.complete_with_trap {state : ModuleState} {index : I32} {rx : Oneshot}
    {call : CallState} (message : String) (present : state.calls index = some call)
    (holds : call.channel = some rx) (unsent : state.oneshots.delivered rx = []) :
    ∃ next, (state.setGuestError index message).setGuestCallComplete index 0 [] =
        .returned next ∧ next.CompletedWith rx message := by
  have found : ((state.setGuestError index message).setGuestResponse index []).calls index =
      some { call with guestError := some message, guestResponse := some [] } := by
    simp [setGuestError, setGuestResponse, present]
  refine ⟨_, finish_with_channel 0 found holds, .complete { call with
    guestError := some message, guestResponse := some [], channel := none }, ?_, rfl⟩
  simp [finished, statusOf, setGuestError, setGuestResponse, unsent]

/-- The sender of a waiting caller is not lost. -/
def Context.Answerable (ctx : Context) : Prop :=
  ∀ index rx, ctx.caller.async? = some (index, rx) → ctx.module.Answerable index rx

/-- Only the end of a synchronous call takes an entry away. -/
theorem Context.takes_at_finish {ctx : Context} {event : Event} {index : I32}
    (takes : .takeState index ∈ ctx.ops event) : event = .finish := by
  cases event with
  | finish => rfl
  | guest call => cases call <;> simp [Context.ops] at takes
  | exit exit =>
    cases exit with
    | returned code => simp [Context.ops] at takes
    | trapped message =>
      simp only [Context.ops] at takes
      split at takes <;> simp at takes
  | hostCallReturns result =>
    simp only [Context.ops] at takes
    split at takes <;> simp at takes
  | taskRecord n result =>
    simp only [Context.ops] at takes
    split at takes <;> simp at takes
  | _ => simp [Context.ops] at takes

theorem Step.keeps_sender {ctx next : Context} {event : Event} (moved : Step ctx event next)
    (goesOn : event ≠ .finish) {index : I32} {rx : Oneshot}
    (answerable : ctx.module.Answerable index rx) : next.module.Answerable index rx := by
  rcases moved.run_ops with executed | ⟨_, same⟩
  · refine ModuleState.run_invariant (motive := (·.Answerable index rx)) executed answerable ?_
    intro op member before after answerable applied
    refine answerable.apply applied ?_
    rintro rfl
    exact goesOn (Context.takes_at_finish member)
  · rwa [same]

theorem Context.Answerable.step {ctx next : Context} {event : Event}
    (answerable : ctx.Answerable) (moved : Step ctx event next) : next.Answerable := by
  intro index rx waiting
  have same (goesOn : event ≠ .finish) (before : ctx.caller.async? = some (index, rx)) :
      next.module.Answerable index rx := moved.keeps_sender goesOn (answerable index rx before)
  cases moved with
  | @start mode inv free =>
    cases mode with
    | sync => cases waiting
    | async =>
      cases waiting
      exact .inr ⟨_, by simp [ModuleState.newInvocation, ModuleState.fetchAdd]; rfl, rfl⟩
  | @enter mode index' rx' caller =>
    cases mode with
    | sync => cases waiting
    | async => exact same (by simp) (by rwa [caller])
  | asyncReturned frame caller => exact same (by simp) (by rwa [caller])
  | asyncTrapped frame caller => exact same (by simp) (by rwa [caller])
  | finishPanics caller =>
    rw [Context.crash, caller] at waiting
    cases waiting
  | exportMissing | syncReturned | syncTrapped | finish | resolve | resolveDropped | dropFuture =>
    cases waiting
  | _ => exact same (by simp) waiting

/-- In every run, a waiting caller has its status, or lost its sender to a drop,
or has its sender in the map. -/
theorem answerable_run {moduleId : Nat} {events : List Event} {ctx : Context}
    (executed : Context.machine.run (Context.new moduleId) events = some ctx) :
    ctx.Answerable := by
  have steps := Machine.Steps.ofRun (fun _ _ _ => trivial) executed
  exact steps.invariant (by simp [Context.Answerable, Context.new, Caller.async?])
    fun answerable _ moved => answerable.step (Step.of_step moved).2

/-- The guest trapped since the last call began. -/
def trappedInCall (log : List Observation) : Bool :=
  log.foldl (fun trapped observation =>
    match observation with
    | .invocation _ _ => false
    | .trapped _ => true
    | _ => trapped) false

/-- A trap that nobody will ever hear of: the guest trapped during an async
call, nothing is running or will run again, and the caller still waits. -/
structure Context.Stranded (ctx : Context) : Prop where
  trapped : trappedInCall ctx.log
  unlocked : ctx.frame = none
  noTask : ctx.tasks = []
  noMessage : ctx.channel = []
  idle : ctx.handler = .idle
  waiting : ∃ index rx, ctx.caller = .waiting index rx ∧ ¬ ctx.module.oneshots.Settled rx

/-- A handler entry traps only while no async invocation is outstanding. -/
def HandlerEntriesReturn (ctx : Context) : Event → Prop
  | .exit (.trapped _) => ctx.frame = some { holder := .handler, hostCall := none } →
    ∀ index rx, ctx.caller.async? = some (index, rx) → ctx.module.oneshots.Settled rx
  | _ => True

/-- An outstanding async invocation can be completed with a trap. -/
theorem Context.Answerable.completes {ctx : Context} (answerable : ctx.Answerable) {index : I32}
    {rx : Oneshot} (waiting : ctx.caller.async? = some (index, rx))
    (outstanding : ¬ ctx.module.oneshots.Settled rx) (message : String) :
    ∃ next, (ctx.module.setGuestError index message).setGuestCallComplete index 0 [] =
      .returned next ∧ next.CompletedWith rx message := by
  have unsent : ctx.module.oneshots.delivered rx = [] := by
    by_contra sent
    exact outstanding (.inl sent)
  obtain ⟨call, present, holds⟩ := (answerable index rx waiting).resolve_left outstanding
  exact ModuleState.complete_with_trap message present holds unsent

/-- A trap while an async invocation is outstanding completes it exactly when it
ends the initial entry. -/
theorem trap_completes_iff {ctx next : Context} {holder : Holder} {index : I32} {rx : Oneshot}
    {message : String} (answerable : ctx.Answerable)
    (frame : ctx.frame = some { holder := holder, hostCall := none })
    (waiting : ctx.caller.async? = some (index, rx))
    (outstanding : ¬ ctx.module.oneshots.Settled rx)
    (trapped : ctx.step (.exit (.trapped message)) = some next) :
    next.module.CompletedWith rx message ↔ holder = .caller := by
  obtain ⟨module, completed, done⟩ := answerable.completes waiting outstanding message
  cases (Step.of_step trapped).2 with
  | handlerExit frame' =>
    cases frame.symm.trans frame'
    constructor
    · rintro ⟨status, sent, _⟩
      have delivered : ctx.module.oneshots.delivered rx = [status] := sent
      exact absurd (.inl (by simp [delivered])) outstanding
    · intro impossible
      cases impossible
  | syncTrapped frame' caller =>
    rw [caller] at waiting
    cases waiting
  | asyncTrapped frame' caller completed' =>
    cases frame.symm.trans frame'
    rw [caller] at waiting
    cases waiting
    cases completed.symm.trans completed'
    exact ⟨fun _ => rfl, fun _ => done⟩
  | asyncTrapPanics frame' caller panics =>
    rw [caller] at waiting
    cases waiting
    cases completed.symm.trans panics

/-- A call whose guest trapped has its status, or lost its sender to a drop. -/
def Context.TrapsHeard (ctx : Context) : Prop :=
  trappedInCall ctx.log → ∀ index rx, ctx.caller.async? = some (index, rx) →
    ctx.module.oneshots.Settled rx

theorem Step.keeps_settled {ctx next : Context} {event : Event} (moved : Step ctx event next)
    {rx : Oneshot} (settled : ctx.module.oneshots.Settled rx) :
    next.module.oneshots.Settled rx := by
  rcases moved.run_ops with executed | ⟨_, same⟩
  · exact ModuleState.run_invariant (motive := (·.oneshots.Settled rx)) executed settled
      fun _ _ _ _ settled applied => ModuleState.settled_apply settled applied
  · rwa [same]

theorem Context.TrapsHeard.step {ctx next : Context} {event : Event} (heard : ctx.TrapsHeard)
    (answerable : ctx.Answerable) (returns : HandlerEntriesReturn ctx event)
    (moved : Step ctx event next) : next.TrapsHeard := by
  intro trapped index rx waiting
  by_contra outstanding
  have before : ¬ ctx.module.oneshots.Settled rx :=
    fun settled => outstanding (moved.keeps_settled settled)
  have silent (same : trappedInCall next.log = trappedInCall ctx.log) :
      ctx.caller.async? ≠ some (index, rx) :=
    fun on => before (heard (same ▸ trapped) index rx on)
  cases moved with
  | start => simp [trappedInCall] at trapped
  | @handlerExit exit frame =>
    cases exit with
    | returned code => exact silent rfl waiting
    | trapped message => exact before (returns frame index rx waiting)
  | asyncTrapped frame caller completed =>
    cases waiting
    obtain ⟨module, completed', status, sent, _⟩ :=
      answerable.completes (by rw [caller]; rfl) before _
    cases completed.symm.trans completed'
    exact outstanding (.inl (by simp [sent]))
  | asyncTrapPanics frame caller panics =>
    rw [caller] at waiting
    cases waiting
    obtain ⟨module, completed, _⟩ := answerable.completes (by rw [caller]; rfl) before _
    cases panics.symm.trans completed
  | exportMissing | syncReturned | syncTrapped | finish | resolve | resolveDropped | dropFuture =>
    cases waiting
  | @enter mode index' rx' caller =>
    cases mode with
    | sync => cases waiting
    | async => exact silent rfl (by rwa [caller])
  | asyncReturned frame caller => exact silent rfl (by rwa [caller])
  | _ => exact silent (by first | rfl | simp [trappedInCall]) waiting

/-- In every run a trap while the async invocation is outstanding completes it
with the trap exactly when it ends the initial entry; and if handler entries
trap only while none is outstanding, no caller is left waiting for a guest that
trapped. -/
theorem async_trap_completes_iff_initial_entry (moduleId : Nat) :
    (∀ events ctx holder index rx message next,
      Context.machine.run (Context.new moduleId) events = some ctx →
      ctx.frame = some { holder := holder, hostCall := none } →
      ctx.caller.async? = some (index, rx) → ¬ ctx.module.oneshots.Settled rx →
      ctx.step (.exit (.trapped message)) = some next →
      (next.module.CompletedWith rx message ↔ holder = .caller)) ∧
    ∀ events ctx,
      Context.machine.Steps HandlerEntriesReturn (Context.new moduleId) events ctx →
      ¬ ctx.Stranded := by
  constructor
  · intro events ctx holder index rx message next executed frame waiting outstanding trapped
    exact trap_completes_iff (answerable_run executed) frame waiting outstanding trapped
  · intro events ctx steps stranded
    have initially : (Context.new moduleId).Answerable ∧ (Context.new moduleId).TrapsHeard := by
      simp [Context.Answerable, Context.TrapsHeard, Context.new, Caller.async?]
    have holds : ctx.Answerable ∧ ctx.TrapsHeard :=
      steps.invariant (motive := fun ctx => ctx.Answerable ∧ ctx.TrapsHeard) initially
        fun both returns moved =>
          ⟨both.1.step (Step.of_step moved).2,
            both.2.step both.1 returns (Step.of_step moved).2⟩
    obtain ⟨index, rx, caller, outstanding⟩ := stranded.waiting
    exact outstanding (holds.2 stranded.trapped index rx (by rw [caller]; rfl))

/-- A guest that awaits a host call and traps when it is told strands its caller. -/
theorem handler_trap_strands_caller :
    ¬ ∀ events ctx, Context.machine.run (Context.new 0) events = some ctx → ¬ ctx.Stranded := by
  intro never
  refine never [.start .async ⟨"op", []⟩, .enter, .guest (.asyncHostCall ⟨"", "", "", []⟩),
    .exit (.returned 0), .taskRecord 0 (.ok []), .taskSend 0, .receive, .notify,
    .exit (.trapped "unreachable")] _ rfl ?_
  exact ⟨rfl, rfl, rfl, rfl, rfl, 1, 0, rfl, by rintro (sent | dropped) <;> contradiction⟩

end Wapc.Host
