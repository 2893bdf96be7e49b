import Wapc.Host.Context

/-!
# What one event can do

`Step` lists every transition of a context with its guard and its effect, and
`Step.of_step` shows that `Context.step` takes no other. Proofs about runs case
on `Step` and never unfold the functions of the context. `Context.ops` names the
operations an event performs on the module state, so that the facts about those
carry over.
-/

namespace Wapc.Host

open Semantics

/-- The transitions of a context. -/
inductive Step (ctx : Context) : Event → Context → Prop where
  | start {mode inv} (free : ctx.caller.free) :
      Step ctx (.start mode inv) { ctx with
        module := (ctx.module.newInvocation inv).2.2
        caller := .starting mode ctx.module.callIndex ctx.module.oneshots.opened
        log := ctx.log ++ [.invocation ctx.module.callIndex ctx.module.oneshots.opened] }
  | enter {mode index rx} (caller : ctx.caller = .starting mode index rx)
      (unlocked : ctx.frame = none) :
      Step ctx .enter { ctx with
        caller := .inside mode index rx
        frame := some { holder := .caller, hostCall := none } }
  | exportMissing {mode index rx message} (caller : ctx.caller = .starting mode index rx)
      (unlocked : ctx.frame = none) :
      Step ctx .exportMissing { ctx with
        caller := .done (.error (.guestCallFailure message)) }
  | read {holder id} (frame : ctx.frame = some { holder := holder, hostCall := none }) :
      Step ctx (.guest (.read id)) ctx
  | guestResponse {holder id response}
      (frame : ctx.frame = some { holder := holder, hostCall := none }) :
      Step ctx (.guest (.guestResponse id response)) { ctx with
        module := ctx.module.setGuestResponse id response }
  | guestError {holder id error}
      (frame : ctx.frame = some { holder := holder, hostCall := none }) :
      Step ctx (.guest (.guestError id error)) { ctx with
        module := ctx.module.setGuestError id error }
  | hostCall {holder request}
      (frame : ctx.frame = some { holder := holder, hostCall := none }) :
      Step ctx (.guest (.hostCall request)) { ctx with
        module := ctx.module.beginHostCall.2
        frame := some { holder := holder, hostCall := some ctx.module.callIndex }
        log := ctx.log ++ [.hostCall ctx.module.callIndex] }
  | asyncHostCall {holder request}
      (frame : ctx.frame = some { holder := holder, hostCall := none }) :
      Step ctx (.guest (.asyncHostCall request)) { ctx with
        module := ctx.module.beginHostCall.2
        tasks := ctx.tasks ++ [⟨ctx.module.callIndex, request, .running⟩]
        log := ctx.log ++ [.accepted ctx.module.callIndex] }
  | ready {holder id code module}
      (frame : ctx.frame = some { holder := holder, hostCall := none })
      (finished : ctx.module.finishGuestInvocation id code = .returned module) :
      Step ctx (.guest (.guestResponseReady id code)) { ctx with module := module }
  | readyPanics {holder id code}
      (frame : ctx.frame = some { holder := holder, hostCall := none })
      (panics : ctx.module.finishGuestInvocation id code = .panicked) :
      Step ctx (.guest (.guestResponseReady id code)) ctx.crash
  | hostCallReturns {holder id result}
      (frame : ctx.frame = some { holder := holder, hostCall := some id }) :
      Step ctx (.hostCallReturns result) { ctx with
        module := (ctx.module.recordHostResult id result).2
        frame := some { holder := holder, hostCall := none } }
  | handlerExit {exit} (frame : ctx.frame = some { holder := .handler, hostCall := none }) :
      Step ctx (.exit exit) { ctx with
        frame := none, handler := .idle, log := exit.log ctx.log }
  | syncReturned {index rx code}
      (frame : ctx.frame = some { holder := .caller, hostCall := none })
      (caller : ctx.caller = .inside .sync index rx) :
      Step ctx (.exit (.returned code)) { ctx with
        frame := none, caller := .returned index code }
  | syncTrapped {index rx message}
      (frame : ctx.frame = some { holder := .caller, hostCall := none })
      (caller : ctx.caller = .inside .sync index rx) :
      Step ctx (.exit (.trapped message)) { ctx with
        module := ctx.module.setGuestError index message
        frame := none
        caller := .returned index 0
        log := ctx.log ++ [.trapped message] }
  | asyncReturned {index rx code}
      (frame : ctx.frame = some { holder := .caller, hostCall := none })
      (caller : ctx.caller = .inside .async index rx) :
      Step ctx (.exit (.returned code)) { ctx with
        frame := none, caller := .waiting index rx }
  | asyncTrapped {index rx message module}
      (frame : ctx.frame = some { holder := .caller, hostCall := none })
      (caller : ctx.caller = .inside .async index rx)
      (completed : (ctx.module.setGuestError index message).setGuestCallComplete index 0 [] =
        .returned module) :
      Step ctx (.exit (.trapped message)) { ctx with
        module := module
        frame := none
        caller := .waiting index rx
        log := ctx.log ++ [.trapped message] }
  | asyncTrapPanics {index rx message}
      (frame : ctx.frame = some { holder := .caller, hostCall := none })
      (caller : ctx.caller = .inside .async index rx)
      (panics : (ctx.module.setGuestError index message).setGuestCallComplete index 0 [] =
        .panicked) :
      Step ctx (.exit (.trapped message)) { ctx with
        frame := none, crashed := true, log := ctx.log ++ [.trapped message] }
  | finish {index callresult state} (caller : ctx.caller = .returned index callresult)
      (present : ctx.module.calls index = some state) :
      Step ctx .finish { ctx with
        module := (ctx.module.takeState index).2
        caller := .done (syncResult callresult state) }
  | finishPanics {index callresult} (caller : ctx.caller = .returned index callresult)
      (absent : ctx.module.calls index = none) : Step ctx .finish ctx.crash
  | resolve {index rx status later} (caller : ctx.caller = .waiting index rx)
      (sent : ctx.module.oneshots.delivered rx = status :: later) :
      Step ctx .resolve { ctx with caller := .done (asyncResult status) }
  | resolveDropped {index rx} (caller : ctx.caller = .waiting index rx)
      (unsent : ctx.module.oneshots.delivered rx = [])
      (dropped : ctx.module.oneshots.dropped rx) :
      Step ctx .resolve { ctx with
        caller := .done (.error (.guestCallFailure "Async wait failed")) }
  | dropFuture {index rx} (caller : ctx.caller = .waiting index rx) :
      Step ctx .dropFuture { ctx with caller := .idle }
  | taskRecord {n id request result}
      (task : ctx.tasks[n]? = some ⟨id, request, .running⟩) :
      Step ctx (.taskRecord n result) { ctx with
        module := (ctx.module.recordHostResult id result).2
        tasks := ctx.tasks.set n ⟨id, request, .recorded (ModuleState.returnCode id result)⟩
        log := ctx.log ++ [.callback id result] }
  | taskSend {n id request code}
      (task : ctx.tasks[n]? = some ⟨id, request, .recorded code⟩) :
      Step ctx (.taskSend n) { ctx with
        tasks := ctx.tasks.eraseIdx n
        channel := ctx.channel ++ [.ofCode id code]
        log := ctx.log ++ [.sent id code] }
  | receive {message channel} (idle : ctx.handler = .idle)
      (queued : ctx.channel = message :: channel) :
      Step ctx .receive { ctx with
        handler := .received message.payload.1 message.payload.2
        channel := channel }
  | notify {id code} (received : ctx.handler = .received id code) (unlocked : ctx.frame = none) :
      Step ctx .notify { ctx with
        handler := .busy
        frame := some { holder := .handler, hostCall := none }
        log := ctx.log ++
          [.notified id code (ctx.module.getHostResponse id) (ctx.module.getHostError id)] }

namespace ModuleState

/-- Finishing never traps. -/
theorem finish_not_trapped (state : ModuleState) (id code : I32) (message : String) :
    state.finishGuestInvocation id code ≠ .trapped message := by
  intro trapped
  cases present : state.calls id with
  | none => rw [finish_absent code present] at trapped; cases trapped
  | some call =>
    cases holds : call.channel with
    | none => rw [finish_without_channel code present holds] at trapped; cases trapped
    | some tx => rw [finish_with_channel code present holds] at trapped; cases trapped

end ModuleState

namespace Step

variable {ctx next : Context}

private theorem of_guest {call : ImportCall} (moved : ctx.guest call = some next) :
    Step ctx (.guest call) next := by
  unfold Context.guest at moved
  split at moved
  · rename_i holder frame
    cases call with
    | read id => cases moved; exact .read frame
    | guestResponse id response => cases moved; exact .guestResponse frame
    | guestError id error => cases moved; exact .guestError frame
    | hostCall request => cases moved; exact .hostCall frame
    | asyncHostCall request => cases moved; exact .asyncHostCall frame
    | guestResponseReady id code =>
      cases moved
      cases result : ctx.module.finishGuestInvocation id code with
      | returned module => exact .ready frame result
      | panicked => exact .readyPanics frame result
      | trapped message => exact absurd result (ctx.module.finish_not_trapped id code message)
  · cases moved

private theorem of_exit {exit : Exit} (moved : ctx.exit exit = some next) :
    Step ctx (.exit exit) next := by
  unfold Context.exit at moved
  split at moved
  · rename_i frame
    cases moved
    exact .handlerExit frame
  · rename_i frame
    split at moved
    · rename_i caller
      cases moved
      exact .syncReturned frame caller
    · rename_i caller
      cases moved
      exact .syncTrapped frame caller
    · rename_i caller
      cases moved
      exact .asyncReturned frame caller
    · rename_i index rx message caller
      cases moved
      cases result :
          (ctx.module.setGuestError index message).setGuestCallComplete index 0 [] with
      | returned module => exact .asyncTrapped frame caller result
      | panicked => exact .asyncTrapPanics frame caller result
      | trapped text => exact absurd result (ModuleState.finish_not_trapped _ _ _ _)
    · cases moved
  · cases moved

/-- `Context.step` takes no other transition. -/
theorem of_step {event : Event} (moved : ctx.step event = some next) :
    ctx.crashed = false ∧ Step ctx event next := by
  unfold Context.step at moved
  split at moved
  · cases moved
  · rename_i running
    refine ⟨by simpa using running, ?_⟩
    cases event with
    | start mode inv =>
      simp only [Context.start] at moved
      split at moved
      · cases moved; exact .start ‹_›
      · cases moved
    | enter =>
      simp only [Context.enter] at moved
      split at moved
      · cases moved; exact .enter ‹_› ‹_›
      · cases moved
    | exportMissing =>
      simp only [Context.exportMissing] at moved
      split at moved
      · cases moved; exact .exportMissing ‹_› ‹_›
      · cases moved
    | guest call => exact of_guest moved
    | hostCallReturns result =>
      simp only [Context.hostCallReturns] at moved
      split at moved
      · cases moved; exact .hostCallReturns ‹_›
      · cases moved
    | exit exit => exact of_exit moved
    | finish =>
      simp only [Context.finish, ModuleState.takeState] at moved
      split at moved
      · split at moved
        · cases moved; exact .finish ‹_› ‹_›
        · cases moved; exact .finishPanics ‹_› ‹_›
      · cases moved
    | resolve =>
      simp only [Context.resolve] at moved
      split at moved
      · split at moved
        · cases moved; exact .resolve ‹_› ‹_›
        · split at moved
          · cases moved; exact .resolveDropped ‹_› ‹_› ‹_›
          · cases moved
      · cases moved
    | dropFuture =>
      simp only [Context.dropFuture] at moved
      split at moved
      · cases moved; exact .dropFuture ‹_›
      · cases moved
    | taskRecord n result =>
      simp only [Context.taskRecord, ModuleState.recordHostResult_eq] at moved
      split at moved
      · cases moved
        rename_i task
        have recorded : Step ctx (.taskRecord n result) _ := Step.taskRecord task
        rwa [ModuleState.recordHostResult_eq] at recorded
      · cases moved
    | taskSend n =>
      simp only [Context.taskSend] at moved
      split at moved
      · cases moved; exact .taskSend ‹_›
      · cases moved
    | receive =>
      simp only [Context.receive] at moved
      split at moved
      · cases moved; exact .receive ‹_› ‹_›
      · cases moved
    | notify =>
      simp only [Context.notify] at moved
      split at moved
      · cases moved; exact .notify ‹_› ‹_›
      · cases moved

end Step

/-- The operations an event performs on the module state. -/
def Context.ops (ctx : Context) : Event → List Op
  | .start _ inv => [.newInvocation inv]
  | .guest (.guestResponse id response) => [.setGuestResponse id response]
  | .guest (.guestError id error) => [.setGuestError id error]
  | .guest (.hostCall _) => [.beginHostCall]
  | .guest (.asyncHostCall _) => [.beginHostCall]
  | .guest (.guestResponseReady id code) => [.finishGuestInvocation id code]
  | .hostCallReturns result =>
    match ctx.frame with
    | some { holder := _, hostCall := some id } => [.recordHostResult id result]
    | _ => []
  | .exit (.trapped message) =>
    match ctx.frame, ctx.caller with
    | some { holder := .caller, hostCall := none }, .inside .sync index _ =>
      [.setGuestError index message]
    | some { holder := .caller, hostCall := none }, .inside .async index _ =>
      [.setGuestError index message, .setGuestCallComplete index 0 []]
    | _, _ => []
  | .finish =>
    match ctx.caller with
    | .returned index _ => [.takeState index]
    | _ => []
  | .taskRecord n result =>
    match ctx.tasks[n]? with
    | some task => [.recordHostResult task.id result]
    | none => []
  | _ => []

/-- An event performs its operations, or crashes the context and leaves the
module state alone. -/
theorem Step.run_ops {ctx next : Context} {event : Event} (moved : Step ctx event next) :
    ctx.module.run (ctx.ops event) = .returned next.module ∨
      next.crashed = true ∧ next.module = ctx.module := by
  cases moved with
  | readyPanics => exact .inr ⟨rfl, rfl⟩
  | asyncTrapPanics => exact .inr ⟨rfl, rfl⟩
  | finishPanics => exact .inr ⟨rfl, rfl⟩
  | ready frame finished => simp [Context.ops, ModuleState.run, Op.apply, finished]
  | hostCallReturns frame => simp [Context.ops, frame, ModuleState.run, Op.apply]
  | @handlerExit exit frame => cases exit <;> simp [Context.ops, frame, ModuleState.run]
  | syncTrapped frame caller => simp [Context.ops, frame, caller, ModuleState.run, Op.apply]
  | asyncTrapped frame caller completed =>
    left
    simp only [Context.ops, frame, caller, ModuleState.run, Op.apply, Outcome.returned_bind]
    rw [completed]
    rfl
  | finish caller present => simp [Context.ops, caller, ModuleState.run, Op.apply]
  | taskRecord task => simp [Context.ops, task, ModuleState.run, Op.apply]
  | _ => exact .inl rfl

/-- The map of every reachable context is well formed. -/
theorem Step.wellFormed {ctx next : Context} {event : Event} (moved : Step ctx event next)
    (wellFormed : ctx.module.WellFormed) : next.module.WellFormed := by
  rcases moved.run_ops with executed | ⟨_, same⟩
  · exact wellFormed.run executed
  · exact same ▸ wellFormed

end Wapc.Host
