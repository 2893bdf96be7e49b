import Mathlib.Logic.Basic

/-!
# Code as a tree of effects

A `Resumption` is code that is driven from outside: it performs an effect, is given a
reply and goes on, until it is ready with a result or panics. `drive` reads off what it
does for a list of replies, and two resumptions that do the same for all lists are the
same.
-/

namespace Wapc.Semantics

universe u v w

/-- Code that performs effects one after the other. -/
inductive Resumption (Effect : Type u) (Reply : Type v) (Result : Type w) where
  | ready (result : Result)
  | perform (effect : Effect) (resume : Reply → Resumption Effect Reply Result)
  | panics

/-- Where driven code is. -/
inductive Ending (Result : Type w) where
  | waits
  | ready (result : Result)
  | panics
deriving DecidableEq, Repr

namespace Resumption

variable {Effect : Type u} {Reply : Type v} {Result : Type w}

/-- The effects the code performs while it is given these replies, and where it is then.
There is nothing to see if it ends before the last reply. -/
def drive : Resumption Effect Reply Result → List Reply → Option (List Effect × Ending Result)
  | .ready result, [] => some ([], .ready result)
  | .perform effect _, [] => some ([effect], .waits)
  | .panics, [] => some ([], .panics)
  | .perform effect resume, reply :: replies =>
    ((resume reply).drive replies).map fun driven => (effect :: driven.1, driven.2)
  | _, _ :: _ => none

/-- However the code is driven, it does not panic, and it is ready with such a result. -/
def Always (good : Result → Prop) : Resumption Effect Reply Result → Prop
  | .ready result => good result
  | .perform _ resume => ∀ reply, (resume reply).Always good
  | .panics => False

/-- Code is told apart by what it does. -/
theorem eq_of_drive {first second : Resumption Effect Reply Result}
    (same : ∀ replies, first.drive replies = second.drive replies) : first = second := by
  induction first generalizing second with
  | ready result =>
    cases second with
    | ready other =>
      have here := same []
      simp only [drive, Option.some.injEq, Prod.mk.injEq, Ending.ready.injEq, true_and] at here
      rw [here]
    | perform effect resume => exact absurd (same []) (by simp [drive])
    | panics => exact absurd (same []) (by simp [drive])
  | perform effect resume ih =>
    cases second with
    | ready other => exact absurd (same []) (by simp [drive])
    | perform other resume' =>
      obtain rfl : effect = other := by simpa [drive] using same []
      congr 1
      funext reply
      refine ih reply fun replies => ?_
      refine Option.map_injective ?_ (same (reply :: replies))
      rintro ⟨effects, ending⟩ ⟨effects', ending'⟩ equal
      simpa using equal
    | panics => exact absurd (same []) (by simp [drive])
  | panics =>
    cases second with
    | ready other => exact absurd (same []) (by simp [drive])
    | perform effect resume => exact absurd (same []) (by simp [drive])
    | panics => rfl

end Resumption
end Wapc.Semantics
