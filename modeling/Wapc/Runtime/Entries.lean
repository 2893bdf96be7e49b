import Wapc.Host.Delivery
import Wapc.Runtime.Rest
import Wapc.Semantics.Traces

/-!
# How the host enters a guest

A call enters its guest for the start functions, once for the invocation, and for each
message the handler loop takes. The order matters: the start functions come first, in the
order of `REQUIRED_STARTS`, and after the context was dropped only messages that were
queued before are still delivered.
-/

namespace Wapc.Host

/-- The caller has its index and has not entered the guest. -/
def Caller.isStarting : Caller → Bool
  | .starting _ _ _ => true
  | _ => false

theorem Step.caller_starting {ctx next : Context} {event : Event} (moved : Step ctx event next)
    (started : ∀ mode inv, event ≠ .start mode inv) (entered : event ≠ .enter)
    (missing : event ≠ .exportMissing) : next.caller.isStarting = ctx.caller.isStarting := by
  cases moved with
  | start => exact absurd rfl (started _ _)
  | enter => exact absurd rfl entered
  | exportMissing => exact absurd rfl missing
  | syncReturned _ caller | syncTrapped _ caller | asyncReturned _ caller
    | asyncTrapped _ caller | finish caller | resolve caller | resolveDropped caller
    | dropFuture caller => simp [caller, Caller.isStarting]
  | _ => rfl

end Wapc.Host

namespace Wapc.Runtime

open Semantics Host

variable {Memory : Type}

/-- The entry is made by the thread of the caller. -/
def Entry.ofCaller : Entry → Bool
  | .hostCallResponseReady _ _ => false
  | _ => true

namespace Conversation

/-- The entries a move makes. -/
def entries (host : WapcHost Memory) (conv : Conversation Memory) : Move → List Entry
  | .init =>
    match conv.phase with
    | .initializing (starter :: _) =>
      if host.guest.exports starter then [.starter starter] else []
    | _ => []
  | .enter =>
    match conv.ctx.caller with
    | .starting _ index _ =>
      if host.guest.exports (guestExport conv.mode) then [conv.guestEntry index] else []
    | _ => []
  | .notify =>
    match conv.ctx.handler with
    | .received id code => [.hostCallResponseReady id code]
    | _ => []
  | _ => []

/-- The entries made by the thread of the caller. -/
def callerEntries (host : WapcHost Memory) (conv : Conversation Memory) (move : Move) :
    List Entry :=
  (conv.entries host move).filter (·.ofCaller)

end Conversation

/-- The entries for the start functions that the guest exports. -/
def starterEntries (host : WapcHost Memory) (starters : List String) : List Entry :=
  (starters.filter host.guest.exports).map .starter

/-- The entry for the invocation of a call, under the index it gets. -/
def invocationEntry (mode : Mode) (inv : Invocation) (index : I32) : Entry :=
  let opLen := BitVec.ofNat 32 (asBytes inv.operation).length
  let msgLen := BitVec.ofNat 32 inv.msg.length
  match mode with
  | .sync => .guestCall index opLen msgLen
  | .async => .asyncGuestCall index opLen msgLen

/-- The entries that a caller makes if it makes all of them. -/
def allEntries (host : WapcHost Memory) (mode : Mode) (inv : Invocation) (index : I32) :
    List Entry :=
  starterEntries host requiredStarts ++ [invocationEntry mode inv index]

/-- How many entries were made in each phase. -/
def InPhase (host : WapcHost Memory) (mode : Mode) (inv : Invocation) (starting : Bool)
    (made : List Entry) : Phase → Prop
  | .instantiating | .created => made = []
  | .initializing starters | .starting starters =>
    made ++ starterEntries host starters = starterEntries host requiredStarts
  | .ready => made = starterEntries host requiredStarts
  | .called =>
    if starting then made = starterEntries host requiredStarts
    else starterEntries host requiredStarts <+: made ∧
      ∃ index, made <+: allEntries host mode inv index
  | .concluded | .failed _ => ∃ index, made <+: allEntries host mode inv index

/-- The entries a caller made, in the phase the call is in. -/
structure Ordered (host : WapcHost Memory) (mode : Mode) (inv : Invocation)
    (conv : Conversation Memory) (made : List Entry) : Prop where
  ofMode : conv.mode = mode
  ofInv : conv.inv = inv
  inPhase : InPhase host mode inv conv.ctx.caller.isStarting made conv.phase

namespace Ordered

variable {host : WapcHost Memory} {mode : Mode} {inv : Invocation}
  {conv next : Conversation Memory} {move : Move} {made : List Entry}

/-- In every phase the entries made are the first of all entries. -/
theorem allowed (ordered : Ordered host mode inv conv made) :
    ∃ index, made <+: allEntries host mode inv index := by
  have inPhase := ordered.inPhase
  have first {part : List Entry} (starts : part <+: starterEntries host requiredStarts) :
      ∃ index, part <+: allEntries host mode inv index :=
    ⟨0, starts.trans (List.prefix_append _ _)⟩
  cases phase : conv.phase with
  | instantiating | created =>
    rw [phase] at inPhase
    exact first (inPhase ▸ List.nil_prefix)
  | initializing starters | starting starters =>
    rw [phase] at inPhase
    exact first ⟨_, inPhase⟩
  | ready =>
    rw [phase] at inPhase
    exact first (inPhase ▸ List.prefix_rfl)
  | called =>
    rw [phase, InPhase] at inPhase
    split at inPhase
    · exact first (inPhase ▸ List.prefix_rfl)
    · exact inPhase.2
  | concluded | failed =>
    rw [phase] at inPhase
    exact inPhase

theorem frame (ordered : Ordered host mode inv conv made) (sameMode : next.mode = conv.mode)
    (sameInv : next.inv = conv.inv) (phase : next.phase = conv.phase)
    (caller : next.ctx.caller.isStarting = conv.ctx.caller.isStarting) :
    Ordered host mode inv next made where
  ofMode := sameMode.trans ordered.ofMode
  ofInv := sameInv.trans ordered.ofInv
  inPhase := by
    rw [phase, caller]
    exact ordered.inPhase

/-- The caller only makes entries in `init` and for the invocation. -/
theorem callerEntries_eq_nil (initialized : move ≠ .init) (entered : move ≠ .enter) :
    conv.callerEntries host move = [] := by
  cases move with
  | init => exact absurd rfl initialized
  | enter => exact absurd rfl entered
  | notify =>
    simp only [Conversation.callerEntries, Conversation.entries]
    split <;> rfl
  | _ => rfl

/-- A step of the context that is not the caller's own. -/
theorem inner {event : Host.Event} (ordered : Ordered host mode inv conv made)
    (moved : Step conv.ctx event next.ctx) (started : ∀ mode inv, event ≠ .start mode inv)
    (entered : event ≠ .enter) (missing : event ≠ .exportMissing)
    (sameMode : next.mode = conv.mode) (sameInv : next.inv = conv.inv)
    (phase : next.phase = conv.phase) : Ordered host mode inv next made :=
  ordered.frame sameMode sameInv phase (moved.caller_starting started entered missing)

/-- The context is called with all start functions behind it. -/
theorem start {ctx : Context} (ordered : Ordered host mode inv conv made)
    (ready : conv.phase = .ready) (moved : Step conv.ctx (.start conv.mode conv.inv) ctx) :
    Ordered host mode inv { conv with phase := .called, ctx := ctx } made := by
  have inPhase := ordered.inPhase
  rw [ready] at inPhase
  refine ⟨ordered.ofMode, ordered.ofInv, ?_⟩
  cases moved
  exact inPhase

/-- The entry for the invocation comes after all start functions. -/
theorem enter {ctx : Context} {callMode : Mode} {index : I32} {rx : Oneshot}
    (ordered : Ordered host mode inv conv made) (called : conv.phase = .called)
    (caller : conv.ctx.caller = .starting callMode index rx)
    (exported : host.guest.exports (guestExport conv.mode)) (moved : Step conv.ctx .enter ctx) :
    Ordered host mode inv (conv.entered host ctx (conv.guestEntry index))
      (made ++ conv.callerEntries host .enter) := by
  have inPhase := ordered.inPhase
  rw [called, caller] at inPhase
  have entries : conv.callerEntries host .enter = [invocationEntry mode inv index] := by
    have own : (conv.guestEntry index).ofCaller := by
      unfold Conversation.guestEntry
      cases conv.mode <;> rfl
    rw [← ordered.ofMode, ← ordered.ofInv]
    simp only [Conversation.callerEntries, Conversation.entries, caller, exported, if_true,
      List.filter_cons, own, List.filter_nil]
    rfl
  refine ⟨ordered.ofMode, ordered.ofInv, ?_⟩
  have all : made = starterEntries host requiredStarts := inPhase
  have notStarting : ctx.caller.isStarting = false := by
    cases moved
    rfl
  simp only [Conversation.entered, called, InPhase, notStarting]
  rw [entries, all]
  exact ⟨List.prefix_append _ _, index, List.prefix_rfl⟩

/-- Every move of a call makes the entries that are next. -/
theorem step (ordered : Ordered host mode inv conv made) (turn : Turn host conv move next) :
    Ordered host mode inv next (made ++ conv.callerEntries host move) := by
  have quiet (same : Ordered host mode inv next made)
      (nothing : conv.callerEntries host move = []) :
      Ordered host mode inv next (made ++ conv.callerEntries host move) := by
    rwa [nothing, List.append_nil]
  have inPhase := ordered.inPhase
  have kept {phase : Phase} (here : conv.phase = phase)
      (fits : InPhase host mode inv conv.ctx.caller.isStarting made phase →
        InPhase host mode inv next.ctx.caller.isStarting made next.phase) :
      InPhase host mode inv next.ctx.caller.isStarting made next.phase := by
    rw [here] at inPhase
    exact fits inPhase
  cases turn with
  | create phase =>
    refine quiet ⟨ordered.ofMode, ordered.ofInv, kept phase ?_⟩ rfl
    rintro rfl
    rfl
  | initialized phase =>
    refine quiet ⟨ordered.ofMode, ordered.ofInv, kept phase ?_⟩ ?_
    · simp [InPhase, starterEntries]
    · simp [Conversation.callerEntries, Conversation.entries, phase]
  | @starter starter starters phase unlocked exported =>
    rw [phase] at inPhase
    refine ⟨ordered.ofMode, ordered.ofInv, ?_⟩
    simpa [InPhase, Conversation.entered, Conversation.callerEntries, Conversation.entries, phase,
      exported, starterEntries, Entry.ofCaller] using inPhase
  | skipped phase unlocked missing =>
    refine quiet ⟨ordered.ofMode, ordered.ofInv, kept phase ?_⟩ ?_
    · simp [InPhase, starterEntries, missing]
    · simp [Conversation.callerEntries, Conversation.entries, phase, missing]
  | start phase moved => exact quiet (ordered.start phase moved) rfl
  | enter phase caller exported moved => exact ordered.enter phase caller exported moved
  | exportMissing phase missing moved =>
    cases moved with
    | exportMissing caller =>
      refine quiet ⟨ordered.ofMode, ordered.ofInv, ?_⟩ ?_
      · rw [phase, caller] at inPhase
        have all : made = starterEntries host requiredStarts := inPhase
        rw [phase, all]
        exact ⟨List.prefix_rfl, 0, List.prefix_append _ _⟩
      · simp [Conversation.callerEntries, Conversation.entries, caller, missing]
  | instantiated phase =>
    exact quiet ⟨ordered.ofMode, ordered.ofInv, kept phase id⟩ rfl
  | started phase =>
    exact quiet ⟨ordered.ofMode, ordered.ofInv, kept phase id⟩ rfl
  | notInstantiated | notStarted | drop =>
    exact quiet ⟨ordered.ofMode, ordered.ofInv, ordered.allowed⟩ rfl
  | hostCall held action moved | importCall held action atOnce moved | exit begun moved
    | callbackReturns frame asked held ran moved | finish phase moved | resolve phase moved
    | taskRecord found ran moved | taskSend opened moved | receive looping moved =>
    exact quiet (ordered.inner moved (by simp) (by simp) (by simp) rfl rfl rfl) rfl
  | notify received looping moved =>
    exact quiet (ordered.inner moved (by simp) (by simp) (by simp) rfl rfl rfl)
      (callerEntries_eq_nil (by simp) (by simp))
  | @taskLost n ctx closed moved =>
    have sent : Ordered host mode inv { conv with ctx := ctx } made :=
      ordered.inner moved (by simp) (by simp) (by simp) rfl rfl rfl
    exact quiet ⟨sent.ofMode, sent.ofInv, sent.inPhase⟩ rfl
  | stop => exact quiet ⟨ordered.ofMode, ordered.ofInv, inPhase⟩ rfl

theorem new (host : WapcHost Memory) (mode : Mode) (inv : Invocation) :
    Ordered host mode inv (.new host mode inv) [] := by
  unfold Conversation.new
  split
  · exact ⟨rfl, rfl, rfl⟩
  · exact ⟨rfl, rfl, 0, List.nil_prefix⟩

end Ordered

/-- In every run of a call, its caller enters the guest for the exported start functions, in
their order, and then at most once for the invocation; once the invocation has its index, all
start functions have run. -/
theorem starters_precede_invocation (host : WapcHost Memory) (mode : Mode) (inv : Invocation)
    (moves : List Move) (conv : Conversation Memory)
    (executed : (Conversation.machine host).run (.new host mode inv) moves = some conv) :
    let made := (Conversation.machine host).trace (Conversation.callerEntries host)
      (.new host mode inv) moves
    (∃ index, made <+: allEntries host mode inv index) ∧
      (conv.phase = .called → starterEntries host requiredStarts <+: made) := by
  intro made
  have ordered : Ordered host mode inv conv made := by
    refine Machine.trace_invariant (motive := Ordered host mode inv) (.new host mode inv) ?_
      executed
    intro state move next made ordered moved
    exact ordered.step (Turn.of_step moved).2
  refine ⟨ordered.allowed, ?_⟩
  intro called
  have inPhase := ordered.inPhase
  rw [called, InPhase] at inPhase
  split at inPhase
  · exact inPhase.symm ▸ List.prefix_rfl
  · exact inPhase.1

theorem silent_call_starts : ∃ conv,
    (Conversation.machine silentHost).run (.new silentHost .async ⟨"ping", []⟩) untilReturn =
      some conv ∧ starterEntries silentHost requiredStarts <+:
        (Conversation.machine silentHost).trace (Conversation.callerEntries silentHost)
          (.new silentHost .async ⟨"ping", []⟩) untilReturn :=
  ⟨_, rfl, (starters_precede_invocation silentHost .async ⟨"ping", []⟩ untilReturn _ rfl).2 rfl⟩

/-! ### After the context was dropped -/

/-- The entries for the messages that the handler loop has or can still receive. -/
def Conversation.queued (conv : Conversation Memory) : List Entry :=
  (conv.ctx.handler.pending ++ conv.ctx.channel.map (·.payload)).map fun message =>
    .hostCallResponseReady message.1 message.2

section Closed

variable {host : WapcHost Memory} {conv next : Conversation Memory} {move : Move}

/-- Once the context was dropped, no message is queued and the caller makes no entry: each
entry is for the next message. -/
theorem Turn.queued_closed (consistent : Consistent conv) (closed : conv.closed)
    (turn : Turn host conv move next) :
    next.closed ∧ conv.queued = conv.entries host move ++ next.queued := by
  have dropped : conv.phase.dropped := by rw [← consistent.closed, closed]
  have early {phase : Phase} (here : conv.phase = phase) (present : phase.dropped = false) :
      False := by simp [here, present] at dropped
  cases turn with
  | create phase | initialized phase | starter phase | skipped phase | start phase | enter phase
    | exportMissing phase | instantiated phase | notInstantiated phase | started phase
    | notStarted phase | finish phase | resolve phase => exact (early phase rfl).elim
  | hostCall held action moved | callbackReturns frame asked held ran moved
    | taskRecord found ran moved =>
    cases moved
    exact ⟨closed, rfl⟩
  | importCall held action atOnce moved =>
    cases moved with
    | hostCall => cases atOnce
    | _ => exact ⟨closed, rfl⟩
  | exit begun moved =>
    cases moved with
    | handlerExit frame =>
      have busy := consistent.locked.handler.mp (by simp [Context.holder, frame])
      exact ⟨closed, by simp [Conversation.queued, Conversation.entries, busy, Handler.pending]⟩
    | _ => exact ⟨closed, rfl⟩
  | taskSend opened =>
    rw [closed] at opened
    cases opened
  | taskLost _ moved =>
    cases moved
    exact ⟨closed, rfl⟩
  | receive looping moved =>
    cases moved with
    | receive idle queued =>
      refine ⟨closed, ?_⟩
      simp [Conversation.queued, Conversation.entries, idle, queued, Handler.pending]
  | notify received looping moved =>
    cases moved with
    | notify _ unlocked =>
      refine ⟨closed, ?_⟩
      simp [Conversation.queued, Conversation.entries, Conversation.entered, received,
        Handler.pending]
  | drop droppable =>
    cases phase : conv.phase with
    | concluded | failed => simp [Conversation.droppable, phase] at droppable
    | _ => exact (early phase rfl).elim
  | stop => exact ⟨closed, rfl⟩

end Closed

/-- After the context of a call was dropped, the guest is entered for the messages that were
queued before and for nothing else: they are delivered in their order, each once, until the
handler loop ends. -/
theorem closed_call_delivers_queued (host : WapcHost Memory) (mode : Mode) (inv : Invocation)
    (moves later : List Move) (conv next : Conversation Memory)
    (executed : (Conversation.machine host).run (.new host mode inv) moves = some conv)
    (closed : conv.closed)
    (continued : (Conversation.machine host).run conv later = some next) :
    conv.queued =
      (Conversation.machine host).trace (Conversation.entries host) conv later ++ next.queued := by
  let motive : Conversation Memory → List Entry → Prop := fun state made =>
    (state.ctx.crashed = false → Consistent state) ∧ state.closed ∧
      conv.queued = made ++ state.queued
  have delivered : motive next
      ((Conversation.machine host).trace (Conversation.entries host) conv later) := by
    refine Machine.trace_invariant ⟨.run executed, closed, rfl⟩ ?_ continued
    rintro state move next made ⟨consistent, closed, queued⟩ moved
    obtain ⟨alive, turn⟩ := Turn.of_step moved
    obtain ⟨stillClosed, delivered⟩ := turn.queued_closed (consistent alive) closed
    refine ⟨(consistent alive).step turn, stillClosed, ?_⟩
    rw [queued, delivered, List.append_assoc]
  exact delivered.2.2

/-- A guest that makes an async host call for its invocation and returns. -/
def callingGuest : Guest Bool where
  exports name := name ≠ "_start" ∧ name ≠ "wapc_init"
  instantiate := .ok false
  enter _ entry := entry.ofCaller
  next calling :=
    if calling then .call (.asyncHostCall ⟨"default", "ns", "op", []⟩) else .exit (.returned 0)
  resume _ _ := false

def callingHost : WapcHost Bool := ⟨1, callingGuest, none, none⟩

/-- The moves of a call until its handler loop has a message and its context is dropped. -/
def untilDrop : List Move :=
  [.run, .create, .init, .init, .init, .start, .enter, .run, .run, .taskRecord 0, .taskSend 0,
    .receive, .drop]

theorem dropped_call_delivers_queued : ∃ conv next,
    (Conversation.machine callingHost).run (.new callingHost .async ⟨"ping", []⟩) untilDrop =
      some conv ∧
    (Conversation.machine callingHost).run conv [.notify, .run, .stop] = some next ∧
    conv.queued = (Conversation.machine callingHost).trace (Conversation.entries callingHost) conv
      [.notify, .run, .stop] ++ next.queued :=
  ⟨_, _, rfl, rfl, closed_call_delivers_queued callingHost .async ⟨"ping", []⟩ untilDrop
    [.notify, .run, .stop] _ _ rfl rfl rfl⟩

end Wapc.Runtime
