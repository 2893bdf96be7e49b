import Wapc.Pool.Progress

/-!
# Stranded requests

The slot takes a message although nobody may be there to read it, and only a send
that timed out grows the pool. So it takes a worker that runs anyway to serve a
request: with one worker that never leaves every call returns, and without one the
first call waits forever.
-/

namespace Wapc.Pool

open Semantics Host HostPool

variable {api : ThreadPool} {config : Config} {state next : HostPool api}

/-- Call `n` waits for its answer, its message sits in the slot, no loop runs, and
nothing is left that could move. -/
structure Stranded (config : Config) (state : HostPool api) (n : Nat) : Prop where
  waits : Waits state n
  queued : ∃ message, state.slot = some message ∧ message.tx = n
  idle : ∀ worker ∈ state.workers, worker.phase.running = false
  rest : ¬ (machine config api).Enabled byItself state

/-- After every run without a panic nobody is stranded, and an outstanding call
returns whatever steps the pool takes from there. -/
def NeverStrands (api : ThreadPool) (config : Config) : Prop :=
  ∀ (events : List Event) (state : HostPool api), (∀ event ∈ events, event.panics = false) →
    (machine config api).run (new config api) events = some state →
    ∀ n, ¬ Stranded config state n ∧
      (Outstanding state n → (machine config api).Inevitable byItself (Returned · n) state)

/-- Call `n` of a pool that no panic has harmed. -/
structure Unharmed (config : Config) (n : Nat) (state : HostPool api) : Prop where
  orderly : Orderly config state
  sound : ∀ w, ¬ Panicked state w
  kept : Outstanding state n ∨ Returned state n

namespace Unharmed

variable {n : Nat}

/-- A worker of `new` runs as long as the call is outstanding. -/
theorem runs (orderly : Orderly config state) (sound : ∀ w, ¬ Panicked state w)
    (core : 1 ≤ config.minThreads) (outstanding : Outstanding state n) :
    ∃ worker, state.workers[0]? = some worker ∧ worker.phase.running := by
  obtain ⟨call, issued, borrows⟩ := outstanding
  obtain ⟨held, _⟩ := orderly.attended (borrowed_of_outstanding issued borrows)
  exact orderly.manned.runs held core (sound 0)

theorem step {event : Event} (unharmed : Unharmed config n state) (short : ¬ Returned state n)
    (own : event.own) (moved : Step config state event next) : Unharmed config n next where
  orderly := unharmed.orderly.step moved
  sound := by
    intro w panicked
    rcases (moved.panicked_iff w).mp panicked with before | rfl
    · exact unharmed.sound w before
    · cases own
  kept := moved.outstanding own (unharmed.kept.resolve_right short)

/-- The steps the pool has left lead to the return of the call. -/
theorem progress (core : 1 ≤ config.minThreads) (n : Nat) :
    (machine config api).Progress byItself (Returned · n) (Unharmed config n) remaining where
  preserved unharmed short own moved := unharmed.step short own (.of_step moved)
  decreasing _ own moved := (Step.of_step moved).remaining_lt own
  enabled := by
    intro state unharmed short
    have outstanding := unharmed.kept.resolve_right short
    obtain ⟨worker, submitted, running⟩ := runs unharmed.orderly unharmed.sound core outstanding
    obtain ⟨call, issued, borrows⟩ := outstanding
    exact outstanding_enabled unharmed.orderly.pending issued borrows submitted running

end Unharmed

/-- What a run without panics keeps. -/
theorem unharmed_run {events : List Event} (calm : ∀ event ∈ events, event.panics = false)
    (executed : (machine config api).run (new config api) events = some state) :
    Orderly config state ∧ ∀ w, ¬ Panicked state w := by
  have steps := Machine.Steps.ofRun (fun _ _ _ => trivial) executed
  refine ⟨steps.invariant (.new config api) fun orderly _ moved =>
    orderly.step (.of_step moved), ?_⟩
  intro w panicked
  exact absurd (calm _ ((panicked_iff steps w).mp panicked)) (by simp [Event.panics])

/-- A pool without a worker takes a request into the slot, where it stays. -/
theorem stranded_without_core (api : ThreadPool) (config : Config) (none : config.minThreads = 0)
    (op : String) (payload : Bytes) :
    ∃ state, (machine config api).run (new config api) [.call op payload, .caller 0 .send] =
      some state ∧ Stranded config state 0 := by
  obtain ⟨threads, fresh⟩ := new_eq config api
  rw [none, List.replicate_zero] at fresh
  refine ⟨_, by rw [fresh]; rfl, ⟨⟨op, payload, .awaiting, .pending⟩, rfl, rfl, rfl⟩,
    ⟨_, rfl, rfl⟩, by simp, ?_⟩
  refine not_enabled (fun n call issued _ => ?_)
    (fun w worker submitted => by simp at submitted) nofun
  cases n with
  | zero =>
    cases issued
    exact ⟨rfl, rfl⟩
  | succ n => cases issued

/-- The pool strands no request exactly when it keeps a worker. -/
theorem never_strands_iff (api : ThreadPool) (config : Config) :
    NeverStrands api config ↔ 1 ≤ config.minThreads := by
  constructor
  · intro never
    by_contra few
    obtain ⟨state, executed, stranded⟩ :=
      stranded_without_core api config (by omega) "" []
    exact (never _ state (by simp [Event.panics]) executed 0).1 stranded
  · intro core events state calm executed n
    obtain ⟨orderly, sound⟩ := unharmed_run calm executed
    constructor
    · intro stranded
      obtain ⟨call, issued, awaiting, _⟩ := stranded.waits
      obtain ⟨worker, submitted, running⟩ :=
        Unharmed.runs orderly sound core ⟨call, issued, by rw [awaiting]; rfl⟩
      rw [stranded.idle worker (List.mem_of_getElem? submitted)] at running
      cases running
    · intro outstanding
      exact (Unharmed.progress core n).inevitable ⟨orderly, sound, .inl outstanding⟩

/-- A pool that may shrink to nothing, as the builder accepts it. -/
def elasticConfig : Config := { Config.default with minThreads := 0, ordered := by decide }

/-- The only call on a pool that starts without workers waits forever. -/
theorem first_call_is_stranded : ¬ ∀ api config, NeverStrands api config := by
  intro never
  obtain ⟨state, executed, stranded⟩ :=
    stranded_without_core countedThreads elasticConfig rfl "ping" []
  exact (never countedThreads elasticConfig _ state (by simp [Event.panics]) executed 0).1 stranded

end Wapc.Pool
