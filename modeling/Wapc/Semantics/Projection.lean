import Wapc.Semantics.Machine

/-!
# Runs projected to a part

A machine that holds several parts takes the events of all of them. `label` picks
the events of one part and renames them for a machine that has only this part.
`Projects` asks of single steps that the part follows its own events and that the
other events are nothing to it; a whole run then projects to a run of the part.
-/

namespace Wapc.Semantics

universe u v w x

variable {State : Type u} {Event : Type v} {Part : Type w} {Label : Type x}

/-- The part's machine follows the steps that are labelled, and only those. -/
structure Projects (machine : Machine State Event) (part : Machine Part Label)
    (label : Event → Option Label) (related : State → Part → Prop) : Prop where
  own : ∀ {state event next own name}, related state own → label event = some name →
    machine.step state event = some next →
    ∃ own', part.step own name = some own' ∧ related next own'
  other : ∀ {state event next own}, related state own → label event = none →
    machine.step state event = some next → related next own

namespace Projects

variable {machine : Machine State Event} {part : Machine Part Label}
  {label : Event → Option Label} {related : State → Part → Prop}

/-- The labelled events of a run are a run of the part. -/
theorem run (projects : Projects machine part label related) {state finish : State} {own : Part}
    {events : List Event} (start : related state own)
    (executed : machine.run state events = some finish) :
    ∃ own', part.run own (events.filterMap label) = some own' ∧ related finish own' := by
  induction events generalizing state own with
  | nil =>
    cases executed
    exact ⟨own, rfl, start⟩
  | cons event events ih =>
    obtain ⟨next, moved, rest⟩ := Option.bind_eq_some_iff.mp executed
    cases named : label event with
    | none =>
      rw [List.filterMap_cons_none named]
      exact ih (projects.other start named moved) rest
    | some name =>
      obtain ⟨middle, followed, kept⟩ := projects.own start named moved
      obtain ⟨own', reached, still⟩ := ih kept rest
      refine ⟨own', ?_, still⟩
      rw [List.filterMap_cons_some named, Machine.run_cons, followed]
      exact reached

end Projects
end Wapc.Semantics
