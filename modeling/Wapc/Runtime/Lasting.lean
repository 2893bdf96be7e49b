import Wapc.Semantics.Histories
import Wapc.Runtime.Rest
import Wapc.Runtime.Isolation

/-!
# What lasts of a call

A process changes a call by the moves of this call only. A law that the moves keep is
lasting: once it holds of a call it holds in every later state. What a call asks for is such
a law, and what it returned is another.
-/

namespace Wapc.Host

/-- Nothing but the start of another call changes the result of a caller. -/
theorem Step.caller_done {ctx next : Context} {event : Event} {result : CallResult}
    (moved : Step ctx event next) (started : ∀ mode inv, event ≠ .start mode inv)
    (done : ctx.caller = .done result) : next.caller = .done result := by
  cases moved with
  | start => exact absurd rfl (started _ _)
  | enter caller | exportMissing caller | syncReturned _ caller | syncTrapped _ caller
    | asyncReturned _ caller | asyncTrapped _ caller | finish caller | resolve caller
    | resolveDropped caller | dropFuture caller =>
    rw [done] at caller
    cases caller
  | _ => exact done

end Wapc.Host

namespace Wapc.Runtime

open Semantics Host

variable {Memory : Type}

/-- A law that the moves of a call keep. -/
def Lasting (law : Conversation Memory → Prop) : Prop :=
  ∀ ⦃host conv move next⦄, law conv → conv.step host move = some next → law next

/-- Call `n` was made on a host, and a law holds of it. -/
def Process.Holds (process : Process Memory) (n host : Nat)
    (law : Conversation Memory → Prop) : Prop :=
  ∃ conv, process.made n = some (host, conv) ∧ law conv

section Laws

variable {host : WapcHost Memory} {conv next : Conversation Memory} {move : Move}

/-- What a call was made for. -/
def Asks (mode : Mode) (inv : Invocation) (conv : Conversation Memory) : Prop :=
  conv.mode = mode ∧ conv.inv = inv

theorem Asks.lasting (mode : Mode) (inv : Invocation) :
    Lasting (Asks mode inv : Conversation Memory → Prop) := by
  intro host conv move next asks moved
  cases (Turn.of_step moved).2 <;> exact asks

theorem Asks.new (host : WapcHost Memory) (mode : Mode) (inv : Invocation) :
    Asks mode inv (Conversation.new host mode inv) := by
  unfold Conversation.new
  split <;> exact ⟨rfl, rfl⟩

theorem Lasting.run {law : Conversation Memory → Prop} (lasting : Lasting law) {moves : List Move}
    {start finish : Conversation Memory} (initially : law start)
    (executed : (Conversation.machine host).run start moves = some finish) : law finish :=
  (Machine.Steps.ofRun (fun _ _ _ => trivial) executed).invariant initially
    fun holds _ moved => lasting holds moved

/-- The call has a result, and its parties still know of each other. -/
def Returns (result : CallResult) (conv : Conversation Memory) : Prop :=
  (conv.ctx.crashed = false → Consistent conv) ∧ conv.result = some result

/-- Where a call failed early it stays so, and its caller keeps a result. -/
theorem Turn.lasts (turn : Turn host conv move next)
    (settled : conv.phase.dropped ∨ conv.phase = .called) :
    (∀ error, next.phase = .failed error ↔ conv.phase = .failed error) ∧
      ∀ result, conv.ctx.caller = .done result → next.ctx.caller = .done result := by
  cases turn with
  | create phase | initialized phase | starter phase | skipped phase | start phase
    | instantiated phase | notInstantiated phase | started phase | notStarted phase =>
    simp [phase, Phase.dropped] at settled
  | enter phase caller exported moved | exportMissing phase missing moved
    | hostCall held action moved | importCall held action atOnce moved | exit begun moved
    | callbackReturns frame asked held ran moved | finish phase moved | resolve phase moved
    | taskRecord found ran moved | taskSend opened moved | taskLost closed moved
    | receive looping moved | notify received looping moved =>
    exact ⟨fun _ => Iff.rfl, fun _ done => moved.caller_done (by simp) done⟩
  | drop droppable =>
    refine ⟨fun error => ⟨fun failed => ?_, fun failed => ?_⟩, fun _ done => done⟩
    · cases failed
    · simp [Conversation.droppable, failed] at droppable
  | stop => exact ⟨fun _ => Iff.rfl, fun _ done => done⟩

theorem Conversation.result_eq_some_iff {result : CallResult} :
    conv.result = some result ↔
      (∃ error, conv.phase = .failed error ∧ result = .error error) ∨
      (∀ error, conv.phase ≠ .failed error) ∧ ∃ returned, conv.ctx.caller = .done returned ∧
        result = returned.mapError fun error => .guestCallFailure error.display := by
  unfold Conversation.result
  split
  · simp_all [eq_comm]
  · rename_i alive
    split
    · simp_all [eq_comm, Except.mapError]
    · simp_all [eq_comm, Except.mapError]
    · rename_i notOk notError
      refine iff_of_false nofun ?_
      rintro (⟨error, failed, -⟩ | ⟨-, returned, done, -⟩)
      · exact alive error failed
      · cases returned with
        | ok response => exact notOk response done
        | error error => exact notError error done

theorem Returns.lasting (result : CallResult) :
    Lasting (Returns result : Conversation Memory → Prop) := by
  rintro host conv move next ⟨consistent, returned⟩ moved
  obtain ⟨alive, turn⟩ := Turn.of_step moved
  refine ⟨(consistent alive).step turn, ?_⟩
  rw [Conversation.result_eq_some_iff] at returned ⊢
  have settled : conv.phase.dropped ∨ conv.phase = .called := by
    rcases returned with ⟨error, failed, -⟩ | ⟨-, _, done, -⟩
    · simp [failed, Phase.dropped]
    · by_contra early
      rw [not_or] at early
      rcases (consistent alive).uncalled early.2 with dropped | idle
      · exact early.1 dropped
      · rw [done] at idle
        cases idle
  obtain ⟨failed, done⟩ := turn.lasts settled
  simp only [failed, ne_eq]
  refine returned.imp_right ?_
  rintro ⟨alive, result, there, same⟩
  exact ⟨alive, result, done _ there, same⟩

end Laws

namespace Process

variable {process next : Process Memory} {event : Event Memory} {n host : Nat}
  {conv : Conversation Memory} {law : Conversation Memory → Prop}

/-- A step of a process changes a call by a move of this call or not at all. -/
theorem made_step (wired : Wired process) (made : process.made n = some (host, conv))
    (stepped : process.step event = some next) :
    ∃ conv', next.made n = some (host, conv') ∧ (conv' = conv ∨ ∃ wapcHost move,
      event = .step n move ∧ conv.step wapcHost move = some conv') := by
  cases event with
  | nextId | newHost =>
    cases stepped
    exact ⟨conv, made, .inl rfl⟩
  | call m host' mode inv =>
    obtain ⟨rfl, called⟩ := of_step_call stepped
    obtain ⟨_, _, called⟩ := wired.of_call called
    exact ⟨conv, (called.others n (Nat.ne_of_lt (small_of_made made))).trans made, .inl rfl⟩
  | step m move =>
    obtain ⟨host', wapcHost, before, after, own, -, turned, moved⟩ := wired.of_move stepped
    by_cases same : n = m
    · subst same
      cases own.symm.trans made
      exact ⟨after, moved.own, .inr ⟨wapcHost, move, rfl, turned⟩⟩
    · exact ⟨conv, (moved.others n same).trans made, .inl rfl⟩

theorem Holds.step (holds : process.Holds n host law) (lasting : Lasting law)
    (wired : Wired process) (stepped : process.step event = some next) :
    next.Holds n host law := by
  obtain ⟨conv, made, law⟩ := holds
  obtain ⟨conv', made', rfl | ⟨_, _, -, turned⟩⟩ := made_step wired made stepped
  · exact ⟨conv', made', law⟩
  · exact ⟨conv', made', lasting law turned⟩

theorem hosts_step (stepped : process.step event = some next) {wapcHost : WapcHost Memory}
    (wired : Wired process) (there : process.hosts[host]? = some wapcHost) :
    next.hosts[host]? = some wapcHost := by
  cases event with
  | nextId =>
    cases stepped
    exact there
  | newHost =>
    cases stepped
    exact (List.getElem?_append_left (List.getElem?_eq_some_iff.mp there).1).trans there
  | call m host' mode inv =>
    obtain ⟨_, _, called⟩ := wired.of_call (of_step_call stepped).2
    rwa [called.hosts]
  | step m move =>
    obtain ⟨_, _, _, _, -, -, -, moved⟩ := wired.of_move stepped
    rwa [moved.hosts]

/-- Some run leads to the process. -/
def Reached (process : Process Memory) : Prop :=
  ∃ events, machine.run .new events = some process

/-- The process takes one step at most. -/
def Advances (process next : Process Memory) : Prop :=
  next = process ∨ ∃ event, process.step event = some next

theorem Reached.wired (reached : process.Reached) : Wired process := by
  obtain ⟨events, executed⟩ := reached
  exact (Separate.run executed).wired

theorem Reached.advance (reached : process.Reached) (advances : process.Advances next) :
    next.Reached := by
  obtain ⟨events, executed⟩ := reached
  rcases advances with rfl | ⟨event, stepped⟩
  · exact ⟨events, executed⟩
  · exact ⟨events ++ [event], Machine.run_concat executed stepped⟩

theorem Holds.advance (holds : process.Holds n host law) (lasting : Lasting law)
    (reached : process.Reached) (advances : process.Advances next) : next.Holds n host law := by
  rcases advances with rfl | ⟨event, stepped⟩
  · exact holds
  · exact holds.step lasting reached.wired stepped

theorem Advances.hosts (advances : process.Advances next) (reached : process.Reached)
    {wapcHost : WapcHost Memory} (there : process.hosts[host]? = some wapcHost) :
    next.hosts[host]? = some wapcHost := by
  rcases advances with rfl | ⟨event, stepped⟩
  · exact there
  · exact hosts_step stepped reached.wired there

/-- The conversation of a call is a run from its request. -/
theorem Reached.conversation (reached : process.Reached)
    (made : process.made n = some (host, conv)) : ∃ wapcHost moves,
      process.hosts[host]? = some wapcHost ∧
        (Conversation.machine wapcHost).run (.new wapcHost conv.mode conv.inv) moves =
          some conv := by
  obtain ⟨events, executed⟩ := reached
  obtain ⟨wapcHost, mode, inv, there, ran⟩ := (Separate.run executed).follows made
  obtain ⟨rfl, rfl⟩ := (Asks.lasting mode inv).run (Asks.new wapcHost mode inv) ran
  exact ⟨wapcHost, _, there, ran⟩

theorem Reached.consistent (reached : process.Reached)
    (made : process.made n = some (host, conv)) (alive : conv.ctx.crashed = false) :
    Consistent conv := by
  obtain ⟨wapcHost, moves, -, ran⟩ := reached.conversation made
  exact .run ran alive

end Process
end Wapc.Runtime
