import Wapc.Semantics.Outcome

/-!
# Code inside a sandbox

Sandboxed code works on a state and may trap or make its host panic. The state
survives both, because a trap undoes nothing that was done before it. The rules
take a sequence apart at its first step, once it is known how that step ends.
-/

namespace Wapc.Semantics

universe u v

/-- A computation on a state whose effects survive a trap. -/
def Sandbox (State : Type u) (α : Type v) := State → Outcome α × State

namespace Sandbox

variable {State : Type u} {α β : Type v}

/-- Run the second computation on what the first one returned. -/
protected def bind (first : Sandbox State α) (next : α → Sandbox State β) : Sandbox State β :=
  fun state =>
    match first state with
    | (.returned value, state) => next value state
    | (.trapped message, state) => (.trapped message, state)
    | (.panicked, state) => (.panicked, state)

instance : Monad (Sandbox State) where
  pure value := fun state => (.returned value, state)
  bind := Sandbox.bind

/-- Continue after a step that returned. -/
theorem bind_returned {first : Sandbox State α} {next : α → Sandbox State β} {state middle : State}
    {value : α} (returned : first state = (.returned value, middle)) :
    (first >>= next) state = next value middle := by
  change Sandbox.bind first next state = _
  rw [Sandbox.bind, returned]

/-- A panic ends the sequence. -/
theorem bind_panicked {first : Sandbox State α} {next : α → Sandbox State β} {state middle : State}
    (panicked : first state = (.panicked, middle)) :
    (first >>= next) state = (.panicked, middle) := by
  change Sandbox.bind first next state = _
  rw [Sandbox.bind, panicked]

/-- A sequence that returned has returned from both of its parts. -/
theorem returned_of_bind {first : Sandbox State α} {next : α → Sandbox State β}
    {state final : State} {result : β}
    (returned : (first >>= next) state = (.returned result, final)) :
    ∃ value middle, first state = (.returned value, middle) ∧
      next value middle = (.returned result, final) := by
  change Sandbox.bind first next state = _ at returned
  unfold Sandbox.bind at returned
  split at returned
  · rename_i value middle done
    exact ⟨value, middle, done, returned⟩
  · cases returned
  · cases returned

end Sandbox
end Wapc.Semantics
