import Mathlib.Data.List.Basic

/-!
# Locks along a call stack

The frames of a call stack run code that takes locks and gives them back. A lock is not
re-entrant, so a thread that takes one which its stack holds waits for itself. `Guarded`
code takes no lock that its own frame or a frame below it has; a stack of guarded frames
is `Safe`, and stays safe as its top frame goes on.
-/

namespace Wapc.Semantics.Guards

universe u v

/-- What the code of a frame does next. -/
inductive Instr (Lock : Type u) (Act : Type v) where
  | lock (lock : Lock)
  | unlock (lock : Lock)
  | act (act : Act)

/-- The guards a frame has, and the code it has yet to run. -/
structure Frame (Lock : Type u) (Act : Type v) where
  held : List Lock
  code : List (Instr Lock Act)

variable {Lock : Type u} {Act : Type v}

/-- Some frame of the stack has the lock. -/
def Holds (frames : List (Frame Lock Act)) (lock : Lock) : Prop :=
  ∃ frame ∈ frames, lock ∈ frame.held

instance [DecidableEq Lock] (frames : List (Frame Lock Act)) (lock : Lock) :
    Decidable (Holds frames lock) := inferInstanceAs (Decidable (∃ _ ∈ _, _))

/-- The top frame is about to take a lock that the stack holds. -/
def Deadlocked (frames : List (Frame Lock Act)) : Prop :=
  ∃ lock held code below, frames = ⟨held, .lock lock :: code⟩ :: below ∧ Holds frames lock

@[simp] theorem not_holds_nil (lock : Lock) : ¬ Holds ([] : List (Frame Lock Act)) lock := by
  simp [Holds]

@[simp] theorem holds_cons (frame : Frame Lock Act) (frames : List (Frame Lock Act)) (lock : Lock) :
    Holds (frame :: frames) lock ↔ lock ∈ frame.held ∨ Holds frames lock := by
  simp [Holds]

variable [DecidableEq Lock]

section Guarded

-- What a frame may do, given the locks that are held below it and its own.
variable (permits : (Lock → Prop) → Act → List Lock → Prop)

/-- The code takes only locks that are free where it does. -/
def Guarded (below : Lock → Prop) : List Lock → List (Instr Lock Act) → Prop
  | _, [] => True
  | held, .lock lock :: code => ¬ below lock ∧ lock ∉ held ∧ Guarded below (lock :: held) code
  | held, .unlock lock :: code => Guarded below (held.erase lock) code
  | held, .act act :: code => permits below act held ∧ Guarded below held code

/-- The code of each frame is guarded against the frames below it. -/
def Safe : List (Frame Lock Act) → Prop
  | [] => True
  | frame :: below => Guarded permits (Holds below) frame.held frame.code ∧ Safe below

end Guarded

variable {permits : (Lock → Prop) → Act → List Lock → Prop} {held : List Lock} {wanted : Lock}
  {action : Act} {code : List (Instr Lock Act)} {below frames : List (Frame Lock Act)}

theorem Safe.not_deadlocked (safe : Safe permits frames) : ¬ Deadlocked frames := by
  rintro ⟨lock, held, code, below, rfl, holds⟩
  obtain ⟨⟨free, fresh, _⟩, _⟩ := safe
  rcases (holds_cons _ _ _).mp holds with own | lower
  · exact fresh own
  · exact free lower

theorem Safe.push (safe : Safe permits frames) (guarded : Guarded permits (Holds frames) [] code) :
    Safe permits (⟨[], code⟩ :: frames) := ⟨guarded, safe⟩

theorem Safe.lock (safe : Safe permits (⟨held, .lock wanted :: code⟩ :: below)) :
    Safe permits (⟨wanted :: held, code⟩ :: below) := ⟨safe.1.2.2, safe.2⟩

theorem Safe.unlock (safe : Safe permits (⟨held, .unlock wanted :: code⟩ :: below)) :
    Safe permits (⟨held.erase wanted, code⟩ :: below) := ⟨safe.1, safe.2⟩

theorem Safe.act (safe : Safe permits (⟨held, .act action :: code⟩ :: below)) :
    permits (Holds below) action held ∧ Safe permits (⟨held, code⟩ :: below) :=
  ⟨safe.1.1, safe.1.2, safe.2⟩

/-- Every frame is guarded against the part of the stack below it. -/
theorem Safe.split {above : List (Frame Lock Act)} {frame : Frame Lock Act}
    (safe : Safe permits (above ++ frame :: below)) :
    Guarded permits (Holds below) frame.held frame.code := by
  induction above with
  | nil => exact safe.1
  | cons top above ih => exact ih safe.2

omit [DecidableEq Lock] in
/-- Where each frame decides what its caller may hold, so does some frame for each lock that
is held below the top. -/
theorem holds_of_isChain {Called : Frame Lock Act → Frame Lock Act → Prop}
    (expected : Frame Lock Act → Lock → Prop)
    (called : ∀ {frame caller}, Called frame caller → ∀ lock ∈ caller.held, expected frame lock)
    {top : Frame Lock Act} (chain : (top :: below).IsChain Called) (holds : Holds below wanted) :
    ∃ frame ∈ top :: below, expected frame wanted := by
  induction below generalizing top with
  | nil => exact absurd holds (not_holds_nil wanted)
  | cons caller below ih =>
    obtain ⟨adjacent, rest⟩ := List.isChain_cons_cons.mp chain
    rcases (holds_cons _ _ _).mp holds with own | lower
    · exact ⟨top, List.mem_cons_self .., called adjacent wanted own⟩
    · obtain ⟨frame, member, expects⟩ := ih rest lower
      exact ⟨frame, List.mem_cons_of_mem _ member, expects⟩

end Wapc.Semantics.Guards
