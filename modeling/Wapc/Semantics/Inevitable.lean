import Wapc.Semantics.Machine

/-!
# Inevitable states

A goal is inevitable when every way to go on leads to it: it holds already, or some
admitted step is enabled and after each admitted step it is inevitable. An
invariant that excludes stuck states and a measure that every admitted step
decreases make a goal inevitable; a state at rest short of the goal refutes it.
-/

namespace Wapc.Semantics

universe u v

namespace Machine

variable {State : Type u} {Event : Type v} (machine : Machine State Event)

/-- Some admitted event can be taken. -/
def Enabled (admits : State → Event → Prop) (state : State) : Prop :=
  ∃ event next, admits state event ∧ machine.step state event = some next

/-- Whatever admitted steps are taken, the goal is reached. -/
inductive Inevitable (admits : State → Event → Prop) (goal : State → Prop) : State → Prop where
  | now {state} (reached : goal state) : Inevitable admits goal state
  | later {state} (enabled : machine.Enabled admits state)
      (afterwards : ∀ event next, admits state event → machine.step state event = some next →
        Inevitable admits goal next) : Inevitable admits goal state

variable {machine} {admits : State → Event → Prop} {goal : State → Prop}

/-- A state at rest is short of the goal for good. -/
theorem Inevitable.reached_of_rest {state : State}
    (inevitable : machine.Inevitable admits goal state)
    (rest : ¬ machine.Enabled admits state) : goal state := by
  cases inevitable with
  | now reached => exact reached
  | later enabled => exact absurd enabled rest

/-- An inevitable goal is reached by some run. -/
theorem Inevitable.reachable {state : State} (inevitable : machine.Inevitable admits goal state) :
    ∃ events finish, machine.Steps admits state events finish ∧ goal finish := by
  induction inevitable with
  | now reached => exact ⟨[], _, .refl, reached⟩
  | later enabled _ ih =>
    obtain ⟨event, next, admitted, moved⟩ := enabled
    obtain ⟨events, finish, steps, reached⟩ := ih event next admitted moved
    exact ⟨[event] ++ events, finish, Steps.trans (.step .refl admitted moved) steps, reached⟩

/-- An invariant that is never stuck short of the goal, with steps that decrease a
measure. -/
structure Progress (machine : Machine State Event) (admits : State → Event → Prop)
    (goal inv : State → Prop) (measure : State → Nat) : Prop where
  preserved : ∀ {state event next}, inv state → ¬ goal state → admits state event →
    machine.step state event = some next → inv next
  decreasing : ∀ {state event next}, inv state → admits state event →
    machine.step state event = some next → measure next < measure state
  enabled : ∀ {state}, inv state → ¬ goal state → machine.Enabled admits state

/-- Where nothing is stuck short of the goal and steps run out, the goal is inevitable. -/
theorem Progress.inevitable {inv : State → Prop} {measure : State → Nat}
    (progress : Progress machine admits goal inv measure) {state : State} (holds : inv state) :
    machine.Inevitable admits goal state := by
  induction rank : measure state using Nat.strongRecOn generalizing state with
  | ind bound ih =>
    by_cases reached : goal state
    · exact .now reached
    · refine .later (progress.enabled holds reached) fun event next admitted moved => ?_
      refine ih (measure next) ?_ (progress.preserved holds reached admitted moved) rfl
      rw [← rank]
      exact progress.decreasing holds admitted moved

/-- With a decreasing measure rest is inevitable. -/
theorem inevitable_rest (measure : State → Nat)
    (decreasing : ∀ {state event next}, admits state event →
      machine.step state event = some next → measure next < measure state) (state : State) :
    machine.Inevitable admits (fun final => ¬ machine.Enabled admits final) state := by
  have progress : Progress machine admits (fun final => ¬ machine.Enabled admits final)
      (fun _ => True) measure :=
    { preserved := fun _ _ _ _ => trivial
      decreasing := fun _ => decreasing
      enabled := fun _ unrested => not_not.mp unrested }
  exact progress.inevitable trivial

end Machine
end Wapc.Semantics
