import Mathlib.Data.List.Induction
import Wapc.Semantics.Machine

/-!
# What a run puts out

Each step of a machine can put something out, which `observe` reads off the state and the
event. `trace` is all of it in order. A relation of the state and of what was put out so far
holds of a whole run if every step keeps it.
-/

namespace Wapc.Semantics.Machine

universe u v w

variable {State : Type u} {Event : Type v} {α : Type w} (machine : Machine State Event)

/-- What the steps of a run put out, up to the first event that is refused. -/
def trace (observe : State → Event → List α) (state : State) : List Event → List α
  | [] => []
  | event :: events =>
    observe state event ++ (machine.step state event).elim [] (trace observe · events)

variable {machine} {observe : State → Event → List α} {start finish : State}
  {events : List Event}

theorem trace_append {middle : State} (executed : machine.run start events = some middle)
    (later : List Event) : machine.trace observe start (events ++ later) =
      machine.trace observe start events ++ machine.trace observe middle later := by
  induction events generalizing start with
  | nil =>
    cases executed
    rfl
  | cons event events ih =>
    obtain ⟨next, moved, rest⟩ := Option.bind_eq_some_iff.mp executed
    simp only [List.cons_append, trace, moved, Option.elim_some, ih rest, List.append_assoc]

/-- A relation of the state and of what was put out holds at the end of a run if every step
keeps it. -/
theorem trace_invariant {motive : State → List α → Prop} (initially : motive start [])
    (preserved : ∀ {state event next output}, motive state output →
      machine.step state event = some next → motive next (output ++ observe state event))
    (executed : machine.run start events = some finish) :
    motive finish (machine.trace observe start events) := by
  induction events using List.reverseRecOn generalizing finish with
  | nil =>
    cases executed
    exact initially
  | append_singleton events event ih =>
    rw [run_append] at executed
    obtain ⟨state, earlier, last⟩ := Option.bind_eq_some_iff.mp executed
    have moved : machine.step state event = some finish := by simpa using last
    have output : machine.trace observe state [event] = observe state event := by
      simp [trace, moved]
    rw [trace_append earlier, output]
    exact preserved (ih earlier) moved

end Wapc.Semantics.Machine
