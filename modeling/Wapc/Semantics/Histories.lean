import Mathlib.Data.List.Induction
import Wapc.Semantics.Machine

/-!
# Laws along a run

`Throughout` is a law of the states a run goes through, and `Along` one of the
transitions it makes. A transition law that an invariant needs is carried from
the transitions of a run to all its states by `Along.throughout`.
-/

namespace Wapc.Semantics.Machine

universe u v

variable {State : Type u} {Event : Type v} (machine : Machine State Event)

/-- Every state the run goes through satisfies the law, the first and the last included. -/
def Throughout (law : State → Prop) (start : State) (events : List Event) : Prop :=
  ∀ before state, before <+: events → machine.run start before = some state → law state

/-- Every transition the run makes satisfies the law. -/
def Along (law : State → Event → State → Prop) (start : State) (events : List Event) : Prop :=
  ∀ before event state next, before ++ [event] <+: events →
    machine.run start before = some state → machine.step state event = some next →
      law state event next

variable {machine} {start : State} {events : List Event}

/-- A run that goes one step further takes its last step from where it was before. -/
theorem run_snoc {before : List Event} {event : Event} {finish : State}
    (executed : machine.run start (before ++ [event]) = some finish) :
    ∃ state, machine.run start before = some state ∧ machine.step state event = some finish := by
  rw [run_append] at executed
  obtain ⟨state, earlier, last⟩ := Option.bind_eq_some_iff.mp executed
  refine ⟨state, earlier, ?_⟩
  simpa using last

theorem run_concat {before : List Event} {event : Event} {state next : State}
    (executed : machine.run start before = some state)
    (transition : machine.step state event = some next) :
    machine.run start (before ++ [event]) = some next := by
  rw [run_append, executed]
  simp [transition]

/-- Transitions that keep an invariant keep it in every state of the run. -/
theorem Along.throughout {admits : State → Event → State → Prop} {invariant : State → Prop}
    (along : machine.Along admits start events) (initially : invariant start)
    (preserved : ∀ {state event next}, invariant state → admits state event next →
      machine.step state event = some next → invariant next) :
    machine.Throughout invariant start events := by
  intro before
  induction before using List.reverseRecOn with
  | nil =>
    intro state _ executed
    cases executed
    exact initially
  | append_singleton before event ih =>
    intro next within executed
    obtain ⟨state, earlier, transition⟩ := run_snoc executed
    have prior := ih state ((List.prefix_append before [event]).trans within) earlier
    exact preserved prior (along before event state next within earlier transition) transition

/-- A law of the states a run goes through holds on both sides of each transition. -/
theorem Throughout.along {law : State → Prop} (throughout : machine.Throughout law start events)
    {before : List Event} {event : Event} {state next : State}
    (within : before ++ [event] <+: events) (executed : machine.run start before = some state)
    (transition : machine.step state event = some next) : law state ∧ law next :=
  ⟨throughout before state ((List.prefix_append before [event]).trans within) executed,
    throughout _ next within (run_concat executed transition)⟩

end Wapc.Semantics.Machine
