import Mathlib.Logic.Basic

/-!
# Outcomes of code that may trap or panic

An `Outcome` separates the three ways in which host code called from a sandbox
ends. A trap is an error value handed back to the sandboxed caller; a panic
unwinds the host itself. `bind` stops at the first of either.
-/

namespace Wapc.Semantics

universe u v

/-- A returned value, a trap with its text, or a host panic. -/
inductive Outcome (α : Type u) where
  | returned (value : α)
  | trapped (message : String)
  | panicked
deriving DecidableEq, Repr

namespace Outcome

variable {α : Type u} {β : Type v}

/-- Sequence two pieces of code, stopping at the first trap or panic. -/
def bind (first : Outcome α) (next : α → Outcome β) : Outcome β :=
  match first with
  | .returned value => next value
  | .trapped message => .trapped message
  | .panicked => .panicked

/-- Rust's `Option::unwrap`: the only value it does not return is a panic. -/
def unwrap : Option α → Outcome α
  | some value => .returned value
  | none => .panicked

/-- The run may return or panic but is no trap. -/
def NeverTraps (outcome : Outcome α) : Prop := ∀ message, outcome ≠ .trapped message

/-- The run ended without a value, by a trap or by a panic. -/
def Fails (outcome : Outcome α) : Prop := ∀ value, outcome ≠ .returned value

@[simp] theorem returned_bind (value : α) (next : α → Outcome β) :
    (returned value).bind next = next value := rfl

@[simp] theorem trapped_bind (message : String) (next : α → Outcome β) :
    (trapped message).bind next = .trapped message := rfl

@[simp] theorem panicked_bind (next : α → Outcome β) :
    (panicked : Outcome α).bind next = .panicked := rfl

@[simp] theorem unwrap_some (value : α) : unwrap (some value) = .returned value := rfl

@[simp] theorem unwrap_none : unwrap (none : Option α) = .panicked := rfl

theorem bind_assoc {γ : Type u} (first : Outcome α) (next : α → Outcome β)
    (last : β → Outcome γ) :
    (first.bind next).bind last = first.bind fun value => (next value).bind last := by
  cases first <;> rfl

/-- A sequence returns exactly when both of its parts do. -/
theorem bind_eq_returned {first : Outcome α} {next : α → Outcome β} {result : β} :
    first.bind next = .returned result ↔
      ∃ value, first = .returned value ∧ next value = .returned result := by
  cases first <;> simp

theorem unwrap_bind_ne_panicked {value : Option α} {next : α → Outcome β} :
    (unwrap value).bind next ≠ .panicked ↔
      ∃ inner, value = some inner ∧ next inner ≠ .panicked := by
  cases value <;> simp

theorem neverTraps_returned (value : α) : (returned value).NeverTraps := by
  intro message equal
  cases equal

theorem neverTraps_panicked : (panicked : Outcome α).NeverTraps := by
  intro message equal
  cases equal

theorem neverTraps_unwrap (value : Option α) : (unwrap value).NeverTraps := by
  cases value
  · exact neverTraps_panicked
  · exact neverTraps_returned _

/-- A sequence of runs that never trap never traps. -/
theorem NeverTraps.bind {first : Outcome α} {next : α → Outcome β} (once : first.NeverTraps)
    (again : ∀ value, (next value).NeverTraps) : (first.bind next).NeverTraps := by
  cases first with
  | returned value => exact again value
  | trapped message => exact absurd rfl (once message)
  | panicked => exact neverTraps_panicked

end Outcome

/-! ### Results -/

section Results

variable {ε : Type v} {α β : Type u}

theorem bind_eq_ok {first : Except ε α} {next : α → Except ε β} {result : β} :
    (first >>= next) = .ok result ↔ ∃ value, first = .ok value ∧ next value = .ok result := by
  cases first with
  | error error => exact iff_of_false (by rintro ⟨⟩) (by rintro ⟨_, ⟨⟩, _⟩)
  | ok value =>
    constructor
    · intro done
      exact ⟨value, rfl, done⟩
    · rintro ⟨_, ⟨⟩, done⟩
      exact done

end Results
end Wapc.Semantics
