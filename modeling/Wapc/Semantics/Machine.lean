import Mathlib.Logic.Basic

/-!
# Machines with partial steps

A `Machine` reads one event at a time and either moves or refuses the event.
`run` executes a list of events; `Steps` is the relation behind it, with an
extra predicate `admits` for the events a run is allowed to take. Invariants
are proved once per step and carried to whole runs by `Steps.invariant`.
-/

namespace Wapc.Semantics

universe u v

/-- A deterministic machine; `none` refuses the event. -/
structure Machine (State : Type u) (Event : Type v) where
  step : State → Event → Option State

namespace Machine

variable {State : Type u} {Event : Type v} (machine : Machine State Event)

/-- Execute the events in order, refusing the run when one of them is refused. -/
def run (state : State) : List Event → Option State
  | [] => some state
  | event :: events => (machine.step state event).bind (run · events)

/-- A run each of whose events is admitted in the state it is taken in. -/
inductive Steps (admits : State → Event → Prop) (start : State) : List Event → State → Prop where
  | refl : Steps admits start [] start
  | step {events state event next} (prior : Steps admits start events state)
      (admitted : admits state event) (transition : machine.step state event = some next) :
      Steps admits start (events ++ [event]) next

variable {machine}

@[simp] theorem run_nil (state : State) : machine.run state [] = some state := rfl

@[simp] theorem run_cons (state : State) (event : Event) (events : List Event) :
    machine.run state (event :: events) =
      (machine.step state event).bind (machine.run · events) := rfl

theorem run_append (state : State) (first second : List Event) :
    machine.run state (first ++ second) =
      (machine.run state first).bind (machine.run · second) := by
  induction first generalizing state with
  | nil => rfl
  | cons event events ih =>
    cases moved : machine.step state event with
    | none => simp [moved]
    | some next => simp [moved, ih next]

namespace Steps

variable {admits : State → Event → Prop} {start middle finish : State}
  {events later : List Event}

/-- The relation agrees with the executable run. -/
theorem run_eq (steps : machine.Steps admits start events finish) :
    machine.run start events = some finish := by
  induction steps with
  | refl => rfl
  | step _ _ transition ih => simp [run_append, ih, transition]

/-- Consecutive runs compose at the state where they meet. -/
theorem trans (first : machine.Steps admits start events middle)
    (second : machine.Steps admits middle later finish) :
    machine.Steps admits start (events ++ later) finish := by
  induction second with
  | refl => simpa using first
  | step _ admitted transition ih =>
    rw [← List.append_assoc]
    exact .step ih admitted transition

/-- A run is also one under a weaker admission. -/
theorem mono {weaker : State → Event → Prop}
    (implies : ∀ state event, admits state event → weaker state event)
    (steps : machine.Steps admits start events finish) :
    machine.Steps weaker start events finish := by
  induction steps with
  | refl => exact .refl
  | step _ admitted transition ih => exact .step ih (implies _ _ admitted) transition

/-- A property of the start that every admitted step preserves holds at the end. -/
theorem invariant {motive : State → Prop} (initially : motive start)
    (preserved : ∀ {state event next}, motive state → admits state event →
      machine.step state event = some next → motive next)
    (steps : machine.Steps admits start events finish) : motive finish := by
  induction steps with
  | refl => exact initially
  | step _ admitted transition ih => exact preserved ih admitted transition

/-- An executable run whose events are admitted in every state is a run. -/
theorem ofRun (admitted : ∀ event ∈ events, ∀ state, admits state event)
    (executed : machine.run start events = some finish) :
    machine.Steps admits start events finish := by
  induction events generalizing start with
  | nil =>
    cases executed
    exact .refl
  | cons event events ih =>
    cases moved : machine.step start event with
    | none => simp [moved] at executed
    | some next =>
      rw [run_cons, moved] at executed
      have first : machine.Steps admits start ([] ++ [event]) next :=
        .step .refl (admitted event (by simp) start) moved
      exact first.trans
        (ih (fun event' member => admitted event' (List.mem_cons_of_mem _ member)) executed)

end Steps
end Machine
end Wapc.Semantics
