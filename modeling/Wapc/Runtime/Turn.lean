import Wapc.Runtime.Conversation

/-!
# What one move of a call can do

`Turn` lists every transition of a conversation with its guard and its effect, and
`Turn.of_step` shows that `Conversation.step` takes no other. The transitions of the
context inside are those of `Step`. Proofs about the runs of a call case on `Turn` and
leave the functions of the conversation folded.
-/

namespace Wapc.Runtime

open Semantics Host

variable {Memory : Type}

/-- An import call that gives the guest its reply at once. -/
def answersAtOnce : ImportCall → Bool
  | .hostCall _ => false
  | _ => true

namespace Phase

/-- The caller's entry is a start function. -/
def starts : Phase → Bool
  | .instantiating | .starting _ => true
  | _ => false

/-- The context of the call was dropped. -/
def dropped : Phase → Bool
  | .concluded | .failed _ => true
  | _ => false

end Phase

/-- The transitions of a conversation. -/
inductive Turn (host : WapcHost Memory) (conv : Conversation Memory) :
    Move → Conversation Memory → Prop where
  | create (phase : conv.phase = .created) :
      Turn host conv .create { conv with phase := .initializing requiredStarts }
  | initialized (phase : conv.phase = .initializing []) :
      Turn host conv .init { conv with phase := .ready }
  | starter {starter starters} (phase : conv.phase = .initializing (starter :: starters))
      (unlocked : conv.ctx.frame = none) (exported : host.guest.exports starter) :
      Turn host conv .init ({ conv with phase := .starting starters }.entered host
        { conv.ctx with frame := some Conversation.callerFrame } (.starter starter))
  | skipped {starter starters} (phase : conv.phase = .initializing (starter :: starters))
      (unlocked : conv.ctx.frame = none) (missing : host.guest.exports starter = false) :
      Turn host conv .init { conv with phase := .initializing starters }
  | start {ctx} (phase : conv.phase = .ready)
      (moved : Step conv.ctx (.start conv.mode conv.inv) ctx) :
      Turn host conv .start { conv with phase := .called, ctx := ctx }
  | enter {mode index rx ctx} (phase : conv.phase = .called)
      (caller : conv.ctx.caller = .starting mode index rx)
      (exported : host.guest.exports (guestExport conv.mode)) (moved : Step conv.ctx .enter ctx) :
      Turn host conv .enter (conv.entered host ctx (conv.guestEntry index))
  | exportMissing {ctx} (phase : conv.phase = .called)
      (missing : host.guest.exports (guestExport conv.mode) = false)
      (moved : Step conv.ctx .exportMissing ctx) :
      Turn host conv .enter { conv with ctx := ctx }
  | hostCall {memory request ctx} (held : conv.memory = some memory)
      (next : host.guest.next memory = .call (.hostCall request))
      (moved : Step conv.ctx (.guest (.hostCall request)) ctx) :
      Turn host conv .run { conv with ctx := ctx, pending := some request }
  | importCall {memory call ctx} (held : conv.memory = some memory)
      (next : host.guest.next memory = .call call) (atOnce : answersAtOnce call)
      (moved : Step conv.ctx (.guest call) ctx) :
      Turn host conv .run { conv with
        ctx := ctx
        memory := some (host.guest.resume memory (conv.reply call)) }
  | instantiated {holder code} (phase : conv.phase = .instantiating)
      (frame : conv.ctx.frame = some { holder := holder, hostCall := none })
      (exported : host.guest.exports "__host_call_response_ready") :
      Turn host conv .run { conv.leave (.returned code) with phase := .created, looping := true }
  | notInstantiated {holder exit error} (phase : conv.phase = .instantiating)
      (frame : conv.ctx.frame = some { holder := holder, hostCall := none }) :
      Turn host conv .run ((conv.leave exit).fail error)
  | started {holder code starters} (phase : conv.phase = .starting starters)
      (frame : conv.ctx.frame = some { holder := holder, hostCall := none }) :
      Turn host conv .run { conv.leave (.returned code) with phase := .initializing starters }
  | notStarted {holder exit starters error} (phase : conv.phase = .starting starters)
      (frame : conv.ctx.frame = some { holder := holder, hostCall := none }) :
      Turn host conv .run ((conv.leave exit).fail error)
  | exit {exit ctx} (begun : conv.phase.starts = false)
      (moved : Step conv.ctx (.exit exit) ctx) :
      Turn host conv .run { conv with ctx := ctx }
  | callbackReturns {holder id request memory result ctx}
      (frame : conv.ctx.frame = some { holder := holder, hostCall := some id })
      (waiting : conv.pending = some request) (held : conv.memory = some memory)
      (ran : (runCallback host.syncHostcall () id request).1 = result)
      (moved : Step conv.ctx (.hostCallReturns result) ctx) :
      Turn host conv .callbackReturns { conv with
        ctx := ctx
        memory := some (host.guest.resume memory (.code (ModuleState.returnCode id result)))
        pending := none }
  | finish {ctx} (phase : conv.phase = .called) (moved : Step conv.ctx .finish ctx) :
      Turn host conv .finish { conv with ctx := ctx }
  | resolve {ctx} (phase : conv.phase = .called) (moved : Step conv.ctx .resolve ctx) :
      Turn host conv .resolve { conv with ctx := ctx }
  | taskRecord {n task result ctx} (found : conv.ctx.tasks[n]? = some task)
      (ran : (runCallback host.asyncHostcall () task.id task.request).1 = result)
      (moved : Step conv.ctx (.taskRecord n result) ctx) :
      Turn host conv (.taskRecord n) { conv with ctx := ctx }
  | taskSend {n ctx} (opened : conv.closed = false) (moved : Step conv.ctx (.taskSend n) ctx) :
      Turn host conv (.taskSend n) { conv with ctx := ctx }
  | taskLost {n ctx} (closed : conv.closed) (moved : Step conv.ctx (.taskSend n) ctx) :
      Turn host conv (.taskSend n) { conv with
        ctx := { ctx with channel := conv.ctx.channel } }
  | receive {ctx} (looping : conv.looping) (moved : Step conv.ctx .receive ctx) :
      Turn host conv .receive { conv with ctx := ctx }
  | notify {id code ctx} (received : conv.ctx.handler = .received id code)
      (looping : conv.looping) (moved : Step conv.ctx .notify ctx) :
      Turn host conv .notify (conv.entered host ctx (.hostCallResponseReady id code))
  | drop (droppable : conv.droppable) :
      Turn host conv .drop { conv with phase := .concluded }.dropContext
  | stop (closed : conv.closed) (looping : conv.looping) (idle : conv.ctx.handler = .idle) :
      Turn host conv .stop { conv with looping := false }

namespace Turn

variable {host : WapcHost Memory} {conv next : Conversation Memory} {move : Move}

private theorem of_exit {holder : Holder} {exit : Exit}
    (frame : conv.ctx.frame = some { holder := holder, hostCall := none })
    (moved : conv.exit host exit = some next) : Turn host conv .run next := by
  unfold Conversation.exit at moved
  split at moved
  · rename_i phase
    cases moved
    cases exit with
    | returned code =>
      simp only [Conversation.instantiated]
      split
      · exact .instantiated phase frame ‹_›
      · exact .notInstantiated phase frame
    | trapped message => exact .notInstantiated phase frame
  · rename_i starters phase
    cases moved
    cases exit with
    | returned code => exact .started phase frame
    | trapped message => exact .notStarted phase frame
  · rename_i notInstantiating notStarting
    obtain ⟨ctx, stepped, rfl⟩ := Option.map_eq_some_iff.mp moved
    refine .exit ?_ (Step.of_step stepped).2
    cases phase : conv.phase with
    | instantiating => exact absurd phase notInstantiating
    | starting starters => exact absurd phase (notStarting starters)
    | _ => rfl

private theorem of_run (moved : conv.run host = some next) : Turn host conv .run next := by
  unfold Conversation.run at moved
  split at moved
  · rename_i holder memory frame held
    split at moved
    · rename_i call action
      obtain ⟨ctx, stepped, rfl⟩ := Option.map_eq_some_iff.mp moved
      cases call with
      | hostCall request => exact .hostCall held action (Step.of_step stepped).2
      | _ => exact .importCall held action rfl (Step.of_step stepped).2
    · exact of_exit frame moved
  · cases moved

private theorem of_init (moved : conv.init host = some next) : Turn host conv .init next := by
  unfold Conversation.init at moved
  split at moved
  · cases moved
    exact .initialized ‹_›
  · split at moved
    · cases moved
      exact .starter ‹_› ‹_› ‹_›
    · cases moved
      exact .skipped ‹_› ‹_› (Bool.eq_false_iff.mpr ‹_›)
  · cases moved

private theorem of_enter (moved : conv.enter host = some next) : Turn host conv .enter next := by
  unfold Conversation.enter at moved
  split at moved
  · split at moved
    · obtain ⟨ctx, stepped, rfl⟩ := Option.map_eq_some_iff.mp moved
      exact .enter ‹_› ‹_› ‹_› (Step.of_step stepped).2
    · obtain ⟨ctx, stepped, rfl⟩ := Option.map_eq_some_iff.mp moved
      exact .exportMissing ‹_› (Bool.eq_false_iff.mpr ‹_›) (Step.of_step stepped).2
  · cases moved

private theorem of_taskSend {n : Nat} (moved : conv.taskSend n = some next) :
    Turn host conv (.taskSend n) next := by
  obtain ⟨ctx, stepped, rfl⟩ := Option.map_eq_some_iff.mp moved
  cases closed : conv.closed with
  | true =>
    have turn : Turn host conv (.taskSend n) _ := .taskLost closed (Step.of_step stepped).2
    simpa [closed] using turn
  | false =>
    have turn : Turn host conv (.taskSend n) _ := .taskSend closed (Step.of_step stepped).2
    simpa [closed] using turn

/-- `Conversation.step` takes no other transition. -/
theorem of_step (moved : conv.step host move = some next) :
    conv.ctx.crashed = false ∧ Turn host conv move next := by
  unfold Conversation.step at moved
  split at moved
  · cases moved
  · rename_i running
    refine ⟨Bool.eq_false_iff.mpr running, ?_⟩
    cases move with
    | create =>
      simp only [Conversation.create] at moved
      split at moved
      · cases moved; exact .create ‹_›
      · cases moved
    | init => exact of_init moved
    | start =>
      simp only [Conversation.start] at moved
      split at moved
      · obtain ⟨ctx, stepped, rfl⟩ := Option.map_eq_some_iff.mp moved
        exact .start ‹_› (Step.of_step stepped).2
      · cases moved
    | enter => exact of_enter moved
    | run => exact of_run moved
    | callbackReturns =>
      simp only [Conversation.callbackReturns] at moved
      split at moved
      · obtain ⟨ctx, stepped, rfl⟩ := Option.map_eq_some_iff.mp moved
        exact .callbackReturns ‹_› ‹_› ‹_› rfl (Step.of_step stepped).2
      · cases moved
    | finish =>
      simp only [Conversation.conclude] at moved
      split at moved
      · obtain ⟨ctx, stepped, rfl⟩ := Option.map_eq_some_iff.mp moved
        exact .finish ‹_› (Step.of_step stepped).2
      · cases moved
    | resolve =>
      simp only [Conversation.conclude] at moved
      split at moved
      · obtain ⟨ctx, stepped, rfl⟩ := Option.map_eq_some_iff.mp moved
        exact .resolve ‹_› (Step.of_step stepped).2
      · cases moved
    | taskRecord n =>
      simp only [Conversation.taskRecord] at moved
      split at moved
      · obtain ⟨ctx, stepped, rfl⟩ := Option.map_eq_some_iff.mp moved
        exact .taskRecord ‹_› rfl (Step.of_step stepped).2
      · cases moved
    | taskSend n => exact of_taskSend moved
    | receive =>
      simp only [Conversation.receive] at moved
      split at moved
      · obtain ⟨ctx, stepped, rfl⟩ := Option.map_eq_some_iff.mp moved
        exact .receive ‹_› (Step.of_step stepped).2
      · cases moved
    | notify =>
      simp only [Conversation.notify] at moved
      split at moved
      · split at moved
        · obtain ⟨ctx, stepped, rfl⟩ := Option.map_eq_some_iff.mp moved
          exact .notify ‹_› ‹_› (Step.of_step stepped).2
        · cases moved
      · cases moved
    | drop =>
      simp only [Conversation.drop] at moved
      split at moved
      · cases moved; exact .drop ‹_›
      · cases moved
    | stop =>
      simp only [Conversation.stop] at moved
      split at moved
      · rename_i ends
        simp only [Bool.and_eq_true, decide_eq_true_eq] at ends
        cases moved
        exact .stop ends.1.1 ends.1.2 ends.2
      · cases moved

end Turn
end Wapc.Runtime
