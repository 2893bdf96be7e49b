import Wapc.Host.Invocation

/-!
# The ids of a module state

Guest invocations and host calls are allocated from 1 by one counter that wraps. An id
is a key of the map, and the id of a host call is also its return code, where 0 stands
for failure. The `count`-th id is `count` as long as it fits, so all ids are fresh and
positive up to the largest `i32`, and the next one is negative.
-/

namespace Wapc.Host

open Semantics

/-- The id that is given away next is positive, and no entry of the map has it. -/
structure FreshId (state : ModuleState) : Prop where
  positive : 0 < state.callIndex.toInt
  absent : state.calls state.callIndex = none

/-- The return code of the host call `id` is positive exactly when its callback
succeeded, and 0 exactly when it failed. -/
def TellsResults (id : I32) : Prop :=
  ∀ (state : ModuleState) (result : HostResult),
    (0 < (state.recordHostResult id result).1.toInt ↔ ∃ value, result = .ok value) ∧
      ((state.recordHostResult id result).1 = 0 ↔ ∃ text, result = .error text)

/-- Each id that the operations take from the counter is fresh, and as a return code
it tells what the callback returned. -/
def IdsFresh (id : Nat) (ops : List Op) : Prop :=
  ∀ (before : List Op) (op : Op) (later : List Op) (state : ModuleState),
    ops = before ++ op :: later → op.allocates →
    (ModuleState.new id).run before = .returned state →
    FreshId state ∧ TellsResults state.callIndex

theorem toInt_ofNat_eq {n : Nat} (small : n < 2 ^ 31) : (BitVec.ofNat 32 n).toInt = n := by
  rw [BitVec.toInt_ofNat']
  exact Int.bmod_eq_of_le (by omega) (by omega)

/-- A positive id is a code that differs from the failure code. -/
theorem tellsResults_of_positive {id : I32} (positive : 0 < id.toInt) : TellsResults id := by
  intro state result
  cases result with
  | ok value =>
    refine ⟨⟨fun _ => ⟨value, rfl⟩, fun _ => positive⟩, ⟨fun zero => ?_, nofun⟩⟩
    rw [show id = 0 from zero] at positive
    exact absurd positive (by decide)
  | error text =>
    refine ⟨⟨fun large => ?_, nofun⟩, ⟨fun _ => ⟨text, rfl⟩, fun _ => rfl⟩⟩
    exact absurd (show (0 : Int) < (0 : I32).toInt from large) (by decide)

/-- A state that has given away `count` ids, which are all the keys it can have. -/
structure Allocated (count : Nat) (state : ModuleState) : Prop where
  counter : state.callIndex = BitVec.ofNat 32 (count + 1)
  keys : ∀ key, state.calls key ≠ none → ∃ n < count, key = BitVec.ofNat 32 (n + 1)

/-- A finished invocation has no entry. -/
theorem ModuleState.finish_clears {state next : ModuleState} {id code : I32}
    (finish : state.finishGuestInvocation id code = .returned next) : next.calls id = none := by
  rcases ModuleState.finish_cases finish with ⟨absent, rfl⟩ | ⟨_, _, _, _, rfl⟩
  · exact absent
  · simp [ModuleState.finished]

/-- An operation that ends an id leaves no entry under it. -/
theorem Op.ends_clears {op : Op} {state next : ModuleState} {id : I32} (ended : op.ends id)
    (applied : op.apply state = .returned next) : next.calls id = none := by
  rcases Op.ends_cases ended with rfl | ⟨code, finish⟩
  · cases applied
    simp [ModuleState.takeState]
  · cases op with
    | setGuestCallComplete other code' response =>
      cases finish
      exact ModuleState.finish_clears applied
    | finishGuestInvocation other code' =>
      cases finish
      exact ModuleState.finish_clears applied
    | _ => cases finish

/-- An operation gives an entry only to the id it takes from the counter. -/
theorem Op.apply_keys {op : Op} {state next : ModuleState} {key : I32}
    (applied : op.apply state = .returned next) (present : next.calls key ≠ none) :
    state.calls key ≠ none ∨ (op.allocates ∧ key = state.callIndex) := by
  by_cases new : op.allocates ∧ key = state.callIndex
  · exact .inr new
  left
  intro absent
  by_cases ended : op.ends key
  · exact present (Op.ends_clears ended applied)
  · have kept := Op.apply_calls applied ended fun allocates same => new ⟨allocates, same.symm⟩
    rw [absent] at kept
    exact present kept

namespace Allocated

variable {count : Nat} {state next : ModuleState}

theorem new (id : Nat) : Allocated 0 (ModuleState.new id) where
  counter := rfl
  keys := fun _ present => absurd rfl present

theorem apply {op : Op} (allocated : Allocated count state)
    (applied : op.apply state = .returned next) :
    Allocated (count + if op.allocates then 1 else 0) next where
  counter := by
    rw [op.apply_callIndex applied, allocated.counter]
    split
    · exact (BitVec.ofNat_add (count + 1) 1).symm
    · rfl
  keys := by
    intro key present
    rcases Op.apply_keys applied present with before | ⟨allocates, rfl⟩
    · obtain ⟨n, small, rfl⟩ := allocated.keys key before
      exact ⟨n, by omega, rfl⟩
    · exact ⟨count, by simp [allocates], allocated.counter⟩

/-- A run gives away as many ids as its operations take. -/
theorem run {ops : List Op} (allocated : Allocated count state)
    (executed : state.run ops = .returned next) : Allocated (count + allocations ops) next := by
  induction ops generalizing state count with
  | nil =>
    cases executed
    exact allocated
  | cons op ops ih =>
    obtain ⟨middle, applied, rest⟩ := Outcome.bind_eq_returned.mp executed
    have moved := ih (allocated.apply applied) rest
    rwa [Nat.add_assoc, Nat.add_comm (if op.allocates then 1 else 0),
      ← ModuleState.allocations_cons] at moved

/-- While the ids fit, the next one is fresh. -/
theorem fresh (allocated : Allocated count state) (few : count + 1 < 2 ^ 31) : FreshId state where
  positive := by
    rw [allocated.counter, toInt_ofNat_eq few]
    omega
  absent := by
    by_contra present
    obtain ⟨n, small, same⟩ := allocated.keys _ present
    rw [allocated.counter] at same
    have numbers := congrArg BitVec.toNat same
    simp only [BitVec.toNat_ofNat] at numbers
    omega

/-- The id after the largest `i32` is negative. -/
theorem not_fresh (allocated : Allocated (2 ^ 31 - 1) state) : ¬ FreshId state := by
  intro fresh
  have positive := fresh.positive
  rw [allocated.counter] at positive
  exact absurd positive (by decide)

end Allocated

/-- The operations up to the one that takes the id number `n`. -/
theorem exists_allocation {ops : List Op} {n : Nat} (taken : n < allocations ops) :
    ∃ before op later, ops = before ++ op :: later ∧ op.allocates ∧ allocations before = n := by
  induction ops generalizing n with
  | nil => exact absurd taken (Nat.not_lt_zero n)
  | cons op ops ih =>
    rw [ModuleState.allocations_cons] at taken
    cases allocates : op.allocates with
    | false =>
      rw [allocates] at taken
      obtain ⟨before, op', later, rfl, allocates', counted⟩ := ih (n := n) (by simpa using taken)
      refine ⟨op :: before, op', later, rfl, allocates', ?_⟩
      simp [ModuleState.allocations_cons, counted, allocates]
    | true =>
      cases n with
      | zero => exact ⟨[], op, ops, rfl, allocates, rfl⟩
      | succ n =>
        rw [allocates] at taken
        obtain ⟨before, op', later, rfl, allocates', counted⟩ :=
          ih (n := n) (by simp only [if_true] at taken; omega)
        refine ⟨op :: before, op', later, rfl, allocates', ?_⟩
        simp [ModuleState.allocations_cons, counted, allocates]

theorem allocations_append (first second : List Op) :
    allocations (first ++ second) = allocations first + allocations second :=
  List.countP_append

/-- Few ids are all fresh. -/
theorem idsFresh_of_few {id : Nat} {ops : List Op} (few : allocations ops ≤ 2 ^ 31 - 1) :
    IdsFresh id ops := by
  rintro before op later state rfl allocates executed
  rw [allocations_append, ModuleState.allocations_cons, allocates, if_pos rfl] at few
  have allocated : Allocated (allocations before) state := by
    simpa using (Allocated.new id).run executed
  have fresh := allocated.fresh (by omega)
  exact ⟨fresh, tellsResults_of_positive fresh.positive⟩

/-- A run that takes more ids takes one that is not fresh. -/
theorem few_of_idsFresh {id : Nat} {ops : List Op} {final : ModuleState}
    (executed : (ModuleState.new id).run ops = .returned final) (fresh : IdsFresh id ops) :
    allocations ops ≤ 2 ^ 31 - 1 := by
  by_contra many
  obtain ⟨before, op, later, rfl, allocates, counted⟩ :=
    exists_allocation (n := 2 ^ 31 - 1) (Nat.lt_of_not_le many)
  rw [ModuleState.run_append] at executed
  obtain ⟨state, executed, _⟩ := Outcome.bind_eq_returned.mp executed
  have allocated : Allocated (2 ^ 31 - 1) state := by
    simpa [counted] using (Allocated.new id).run executed
  exact allocated.not_fresh (fresh before op later state rfl allocates executed).1

/-- All ids of a run are fresh, and tell what callbacks returned, exactly when there
are no more of them than positive `i32`s. -/
theorem ids_fresh_iff (id : Nat) (ops : List Op) (final : ModuleState)
    (executed : (ModuleState.new id).run ops = .returned final) :
    IdsFresh id ops ↔ allocations ops ≤ 2 ^ 31 - 1 :=
  ⟨few_of_idsFresh executed, idsFresh_of_few⟩

/-- The two ids of a call that makes a host call are fresh. -/
theorem first_ids_fresh : IdsFresh 0 [.newInvocation ⟨"ping", []⟩, .beginHostCall] :=
  (ids_fresh_iff 0 [.newInvocation ⟨"ping", []⟩, .beginHostCall] _ rfl).mpr (by decide)

/-- A guest that makes 2^31 host calls gets a negative id for the last one. -/
theorem host_calls_exhaust_ids :
    ¬ ∀ (id : Nat) (ops : List Op) (final : ModuleState),
      (ModuleState.new id).run ops = .returned final → IdsFresh id ops := by
  intro always
  have returns (n : Nat) (state : ModuleState) :
      ∃ final, state.run (List.replicate n .beginHostCall) = .returned final := by
    induction n generalizing state with
    | zero => exact ⟨state, rfl⟩
    | succ n ih => exact ih state.beginHostCall.2
  obtain ⟨final, executed⟩ := returns (2 ^ 31) (.new 0)
  have few := few_of_idsFresh executed (always 0 _ final executed)
  rw [allocations, List.countP_replicate, if_pos (show Op.beginHostCall.allocates = true from rfl)]
    at few
  exact absurd few (by decide)

end Wapc.Host
