import Mathlib.Data.List.Induction
import Wapc.Host.Operation

/-!
# Async invocations over whole runs

The history theorem of a `ModuleState`: an invocation's receiver gets at most
one status, and that status, or the entry while there is none, holds exactly
what was recorded under its id. The proof reads the life of the invocation off
the list of operations and lets `Follows.run` carry it to the state.
-/

namespace Wapc.Host

open Semantics

namespace Op

/-- The response an operation records under `id`. -/
def response? (id : I32) : Op → Option Bytes
  | .setGuestResponse other response => if other = id then some response else none
  | .setGuestCallComplete other _ response => if other = id then some response else none
  | _ => none

/-- The error an operation records under `id`. -/
def error? (id : I32) : Op → Option String
  | .setGuestError other error => if other = id then some error else none
  | _ => none

end Op

/-- The last guest response recorded under `id`. -/
def lastResponse (id : I32) (ops : List Op) : Option Bytes :=
  (ops.filterMap (Op.response? id)).getLast?

/-- The last guest error recorded under `id`. -/
def lastError (id : I32) (ops : List Op) : Option String :=
  (ops.filterMap (Op.error? id)).getLast?

theorem lastResponse_snoc (id : I32) (ops : List Op) (op : Op) :
    lastResponse id (ops ++ [op]) = (op.response? id).or (lastResponse id ops) := by
  cases recorded : op.response? id <;> simp [lastResponse, recorded]

theorem lastError_snoc (id : I32) (ops : List Op) (op : Op) :
    lastError id (ops ++ [op]) = (op.error? id).or (lastError id ops) := by
  cases recorded : op.error? id <;> simp [lastError, recorded]

namespace Life

variable {id : I32}

theorem after_snoc (ops : List Op) (op : Op) :
    after id (ops ++ [op]) = (after id ops).step id op := by
  simp [after]

/-- An operation that does not end the invocation records what it carries. -/
theorem step_outstanding {op : Op} (goesOn : ¬ op.ends id) (response : Option Bytes)
    (error : Option String) :
    step id (.outstanding response error) op =
      .outstanding ((op.response? id).or response) ((op.error? id).or error) := by
  cases op with
  | setGuestResponse other value =>
    by_cases same : other = id <;> simp [step, Op.response?, Op.error?, same]
  | setGuestError other value =>
    by_cases same : other = id <;> simp [step, Op.response?, Op.error?, same]
  | setGuestCallComplete other code value =>
    have different : other ≠ id := fun same => goesOn ⟨code, by simp [Op.finish?, same]⟩
    simp [step, Op.response?, Op.error?, different]
  | finishGuestInvocation other code =>
    have different : other ≠ id := fun same => goesOn ⟨code, by simp [Op.finish?, same]⟩
    simp [step, Op.response?, Op.error?, different]
  | takeState other =>
    have different : other ≠ id := goesOn
    simp [step, Op.response?, Op.error?, different]
  | newInvocation _ => rfl
  | beginHostCall => rfl
  | recordHostResult _ _ => rfl

/-- Finishing an outstanding invocation fixes its code, response and error. -/
theorem step_finish {op : Op} {code : I32} (finish : op.finish? = some (id, code))
    (response : Option Bytes) (error : Option String) :
    step id (.outstanding response error) op =
      .finished code ((op.response? id).or response) error := by
  cases op <;> simp only [Op.finish?, Option.some.injEq, Prod.mk.injEq, reduceCtorEq] at finish
  all_goals
    obtain ⟨rfl, rfl⟩ := finish
    simp [step, Op.response?]

/-- While nothing ends it, the invocation is outstanding with the last response
and the last error recorded under its id. -/
theorem after_outstanding {ops : List Op} (goesOn : ∀ op ∈ ops, ¬ op.ends id) :
    after id ops = .outstanding (lastResponse id ops) (lastError id ops) := by
  induction ops using List.reverseRecOn with
  | nil => rfl
  | append_singleton ops op ih =>
    have before := ih fun op' member => goesOn op' (List.mem_append_left _ member)
    rw [after_snoc, before, step_outstanding (goesOn op (by simp)), lastResponse_snoc,
      lastError_snoc]

/-- A life that has ended stays as it is. -/
theorem foldl_ended {life : Life} (ended : ∀ op, life.step id op = life) (ops : List Op) :
    ops.foldl (step id) life = life := by
  induction ops with
  | nil => rfl
  | cons op ops ih => rw [List.foldl_cons, ended op, ih]

/-- The first operation that finishes the invocation decides its status; no
later operation changes it. -/
theorem after_finish {before later : List Op} {op : Op} {code : I32}
    (goesOn : ∀ op ∈ before, ¬ op.ends id) (finish : op.finish? = some (id, code)) :
    after id (before ++ op :: later) =
      .finished code (lastResponse id (before ++ [op])) (lastError id before) := by
  have prior : before.foldl (step id) (.outstanding none none) =
      .outstanding (lastResponse id before) (lastError id before) := after_outstanding goesOn
  rw [after, List.foldl_append, List.foldl_cons, prior, step_finish finish,
    foldl_ended (by simp), lastResponse_snoc]

/-- An invocation whose state is taken before it is finished is never reported. -/
theorem after_take {before later : List Op} (goesOn : ∀ op ∈ before, ¬ op.ends id) :
    after id (before ++ .takeState id :: later) = .taken := by
  have prior : before.foldl (step id) (.outstanding none none) =
      .outstanding (lastResponse id before) (lastError id before) := after_outstanding goesOn
  rw [after, List.foldl_append, List.foldl_cons, prior]
  simp only [step, if_true]
  exact foldl_ended (by simp) later

end Life

/-- What holds of every reachable map: entries hold only channels that were
opened, nothing was sent on a channel not yet opened, and an entry has a channel
exactly when it has a request. -/
structure ModuleState.WellFormed (state : ModuleState) : Prop where
  channels : ∀ id call tx, state.calls id = some call → call.channel = some tx →
    tx < state.oneshots.opened
  unsent : ∀ tx, state.oneshots.opened ≤ tx → state.oneshots.delivered tx = []
  kinds : ∀ id call, state.calls id = some call →
    (call.channel.isSome ↔ call.guestRequest.isSome)

namespace ModuleState.WellFormed

variable {state next : ModuleState}

theorem new (id : Nat) : (ModuleState.new id).WellFormed where
  channels := by simp [ModuleState.new]
  unsent := by simp [ModuleState.new]
  kinds := by simp [ModuleState.new]

theorem insertCall (wellFormed : state.WellFormed) (id : I32) {call : CallState}
    (opened : ∀ tx, call.channel = some tx → tx < state.oneshots.opened)
    (kind : call.channel.isSome ↔ call.guestRequest.isSome) :
    (state.insertCall id call).WellFormed where
  channels := by
    intro other entry tx present holds
    rw [insertCall_calls] at present
    rw [insertCall_oneshots, Oneshots.dropSender_opened]
    split at present
    · cases present
      exact opened tx holds
    · exact wellFormed.channels other entry tx present holds
  unsent := by simpa using wellFormed.unsent
  kinds := by
    intro other entry present
    rw [insertCall_calls] at present
    split at present
    · cases present
      exact kind
    · exact wellFormed.kinds other entry present

theorem modifyCall (wellFormed : state.WellFormed) (id : I32) {change : CallState → CallState}
    (channel : ∀ call, (change call).channel = call.channel)
    (request : ∀ call, (change call).guestRequest = call.guestRequest) :
    (state.modifyCall id change).WellFormed where
  channels := by
    intro other entry tx present holds
    rw [modifyCall_calls] at present
    rw [modifyCall_oneshots]
    split at present
    · obtain ⟨call, found, rfl⟩ := Option.map_eq_some_iff.mp present
      exact wellFormed.channels id call tx found (channel call ▸ holds)
    · exact wellFormed.channels other entry tx present holds
  unsent := by simpa using wellFormed.unsent
  kinds := by
    intro other entry present
    rw [modifyCall_calls] at present
    split at present
    · obtain ⟨call, found, rfl⟩ := Option.map_eq_some_iff.mp present
      rw [channel, request]
      exact wellFormed.kinds id call found
    · exact wellFormed.kinds other entry present

theorem remove (wellFormed : state.WellFormed) (id : I32) :
    ({ state with calls := Function.update state.calls id none } : ModuleState).WellFormed where
  channels := by
    intro other entry tx present holds
    by_cases same : other = id
    · simp [same] at present
    · exact wellFormed.channels other entry tx (by simpa [same] using present) holds
  unsent := wellFormed.unsent
  kinds := by
    intro other entry present
    by_cases same : other = id
    · simp [same] at present
    · exact wellFormed.kinds other entry (by simpa [same] using present)

theorem finishGuestInvocation (wellFormed : state.WellFormed) {id code : I32}
    (finish : state.finishGuestInvocation id code = .returned next) : next.WellFormed := by
  rcases finish_cases finish with ⟨_, rfl⟩ | ⟨call, tx, present, holds, rfl⟩
  · exact wellFormed
  · have removed := wellFormed.remove id
    refine ⟨removed.channels, ?_, removed.kinds⟩
    intro other later
    have different : other ≠ tx := by
      rintro rfl
      exact absurd (wellFormed.channels id call other present holds) (Nat.not_lt.mpr later)
    exact (state.oneshots.send_delivered_other _ different).trans (wellFormed.unsent other later)

theorem setGuestResponse (wellFormed : state.WellFormed) (id : I32) (response : Bytes) :
    (state.setGuestResponse id response).WellFormed :=
  wellFormed.modifyCall id (fun _ => rfl) fun _ => rfl

theorem setGuestError (wellFormed : state.WellFormed) (id : I32) (error : String) :
    (state.setGuestError id error).WellFormed :=
  wellFormed.modifyCall id (fun _ => rfl) fun _ => rfl

theorem newInvocation (wellFormed : state.WellFormed) (inv : Invocation) :
    (state.newInvocation inv).2.2.WellFormed := by
  have opened : ({ state with
      callIndex := state.callIndex + 1
      oneshots := state.oneshots.channel.2 } : ModuleState).WellFormed :=
    ⟨fun id call tx present holds =>
        Nat.lt_succ_of_lt (wellFormed.channels id call tx present holds),
      fun tx later => wellFormed.unsent tx (Nat.le_of_succ_le later), wellFormed.kinds⟩
  exact opened.insertCall state.callIndex
    (by rintro _ ⟨rfl⟩; exact Nat.lt_succ_self _) (by simp)

theorem beginHostCall (wellFormed : state.WellFormed) : state.beginHostCall.2.WellFormed := by
  have advanced : ({ state with callIndex := state.callIndex + 1 } : ModuleState).WellFormed :=
    ⟨wellFormed.channels, wellFormed.unsent, wellFormed.kinds⟩
  exact advanced.insertCall state.callIndex (by simp) (by simp)

theorem recordHostResult (wellFormed : state.WellFormed) (id : I32) (result : HostResult) :
    (state.recordHostResult id result).2.WellFormed := by
  rw [recordHostResult_eq]
  exact wellFormed.modifyCall id (fun _ => by cases result <;> rfl) fun _ => by
    cases result <;> rfl

/-- Every operation keeps the map well formed. -/
theorem apply (wellFormed : state.WellFormed) (op : Op)
    (applied : op.apply state = .returned next) : next.WellFormed := by
  cases op with
  | newInvocation inv => cases applied; exact wellFormed.newInvocation inv
  | beginHostCall => cases applied; exact wellFormed.beginHostCall
  | recordHostResult id result => cases applied; exact wellFormed.recordHostResult id result
  | setGuestResponse id response => cases applied; exact wellFormed.setGuestResponse id response
  | setGuestError id error => cases applied; exact wellFormed.setGuestError id error
  | setGuestCallComplete id code response =>
    exact (wellFormed.setGuestResponse id response).finishGuestInvocation applied
  | finishGuestInvocation id code => exact wellFormed.finishGuestInvocation applied
  | takeState id => cases applied; exact wellFormed.remove id

theorem run (wellFormed : state.WellFormed) {ops : List Op}
    (executed : state.run ops = .returned next) : next.WellFormed :=
  run_invariant executed wellFormed fun op _ _ _ wellFormed applied =>
    wellFormed.apply op applied

end ModuleState.WellFormed

/-- The ids that the host calls among the operations are given when the counter
stands at `next`. -/
def hostCallIds (next : I32) : List Op → List I32
  | [] => []
  | .beginHostCall :: ops => next :: hostCallIds (next + 1) ops
  | .newInvocation _ :: ops => hostCallIds (next + 1) ops
  | _ :: ops => hostCallIds next ops

/-- No operation finishes an id that was given to a host call before. -/
def SparesHostCalls (ops : List Op) : Prop :=
  ∀ before op later id code, ops = before ++ op :: later → op.finish? = some (id, code) →
    id ∉ hostCallIds 1 before

/-- Only the listed ids have entries without a channel. -/
def ModuleState.HostCallsIn (state : ModuleState) (known : List I32) : Prop :=
  ∀ id call, state.calls id = some call → call.channel = none → id ∈ known

namespace ModuleState

variable {state next : ModuleState} {known : List I32}

theorem HostCallsIn.modifyCall (within : state.HostCallsIn known) (id : I32)
    {change : CallState → CallState} (channel : ∀ call, (change call).channel = call.channel) :
    (state.modifyCall id change).HostCallsIn known := by
  intro other call present hostCall
  rw [modifyCall_calls] at present
  split at present
  · rename_i same
    obtain ⟨call', found, rfl⟩ := Option.map_eq_some_iff.mp present
    exact within other call' (same ▸ found) (channel call' ▸ hostCall)
  · exact within other call present hostCall

theorem HostCallsIn.finish (within : state.HostCallsIn known) {id code : I32}
    (finish : state.finishGuestInvocation id code = .returned next) :
    next.HostCallsIn known := by
  rcases finish_cases finish with ⟨_, rfl⟩ | ⟨call, tx, _, _, rfl⟩
  · exact within
  · intro other entry present hostCall
    by_cases same : other = id
    · simp [finished, same] at present
    · exact within other entry (by simpa [finished, same] using present) hostCall

/-- Finishing an id that is not a listed host call does not panic. -/
theorem HostCallsIn.finish_returns (within : state.HostCallsIn known) {id : I32} (code : I32)
    (spared : id ∉ known) : ∃ next, state.finishGuestInvocation id code = .returned next := by
  cases present : state.calls id with
  | none => exact ⟨_, finish_absent code present⟩
  | some call =>
    cases holds : call.channel with
    | none => exact absurd (within id call present holds) spared
    | some tx => exact ⟨_, finish_with_channel code present holds⟩

/-- Every operation that does not finish a listed host call returns. -/
theorem HostCallsIn.apply_returns (within : state.HostCallsIn known) {op : Op}
    (spared : ∀ id code, op.finish? = some (id, code) → id ∉ known) :
    ∃ next, op.apply state = .returned next := by
  cases op with
  | setGuestCallComplete id code response =>
    have within' : (state.setGuestResponse id response).HostCallsIn known :=
      within.modifyCall id fun _ => rfl
    exact within'.finish_returns code (spared id code rfl)
  | finishGuestInvocation id code => exact within.finish_returns code (spared id code rfl)
  | _ => exact ⟨_, rfl⟩

/-- An operation adds at most one host call, under the id it takes. -/
theorem HostCallsIn.apply (within : state.HostCallsIn known) {op : Op}
    (applied : op.apply state = .returned next) :
    next.HostCallsIn (known ++ hostCallIds state.callIndex [op]) := by
  cases op with
  | newInvocation inv =>
    cases applied
    intro id call present hostCall
    simp only [newInvocation, fetchAdd, insertCall_calls] at present
    split at present
    · cases present
      cases hostCall
    · exact List.mem_append_left _ (within id call present hostCall)
  | beginHostCall =>
    cases applied
    intro id call present hostCall
    simp only [beginHostCall, fetchAdd, initHostCall, insertCall_calls] at present
    split at present
    · rename_i same
      simp [hostCallIds, same]
    · exact List.mem_append_left _ (within id call present hostCall)
  | recordHostResult id result =>
    cases applied
    rw [recordHostResult_eq]
    simpa [hostCallIds] using within.modifyCall id (by intro call; cases result <;> rfl)
  | setGuestResponse id response =>
    cases applied
    have kept : (state.setGuestResponse id response).HostCallsIn known :=
      within.modifyCall id fun _ => rfl
    simpa [hostCallIds] using kept
  | setGuestError id error =>
    cases applied
    have kept : (state.setGuestError id error).HostCallsIn known :=
      within.modifyCall id fun _ => rfl
    simpa [hostCallIds] using kept
  | setGuestCallComplete id code response =>
    have within' : (state.setGuestResponse id response).HostCallsIn known :=
      within.modifyCall id fun _ => rfl
    simpa [hostCallIds] using within'.finish applied
  | finishGuestInvocation id code => simpa [hostCallIds] using within.finish applied
  | takeState id =>
    cases applied
    intro other call present hostCall
    by_cases same : other = id
    · simp [takeState, same] at present
    · exact List.mem_append_left _
        (within other call (by simpa [takeState, same] using present) hostCall)

end ModuleState

theorem hostCallIds_cons {state next : ModuleState} {op : Op} (ops : List Op)
    (applied : op.apply state = .returned next) :
    hostCallIds state.callIndex (op :: ops) =
      hostCallIds state.callIndex [op] ++ hostCallIds next.callIndex ops := by
  rw [op.apply_callIndex applied]
  cases op <;> rfl

/-- A run that spares the host calls never panics. -/
theorem ModuleState.HostCallsIn.run_returns {state : ModuleState} {known : List I32}
    (within : state.HostCallsIn known) {ops : List Op}
    (spared : ∀ before op later id code, ops = before ++ op :: later →
      op.finish? = some (id, code) → id ∉ known ++ hostCallIds state.callIndex before) :
    ∃ final, state.run ops = .returned final := by
  induction ops generalizing state known with
  | nil => exact ⟨state, rfl⟩
  | cons op ops ih =>
    obtain ⟨next, applied⟩ := within.apply_returns fun id code finish => by
      simpa [hostCallIds] using spared [] op ops id code rfl finish
    obtain ⟨final, rest⟩ := ih (within.apply applied) (by
      intro before op' later id code split finish
      rw [List.append_assoc, ← hostCallIds_cons before applied]
      exact spared (op :: before) op' later id code (by rw [split]; rfl) finish)
    exact ⟨final, by rw [run, applied]; exact rest⟩

theorem ModuleState.run_append (state : ModuleState) (first second : List Op) :
    state.run (first ++ second) = (state.run first).bind (·.run second) := by
  induction first generalizing state with
  | nil => rfl
  | cons op ops ih =>
    simp only [List.cons_append, run]
    cases applied : op.apply state with
    | returned next => exact ih next
    | trapped message => rfl
    | panicked => rfl

/-- Either nothing in the list ends the invocation, or there is a first
operation that does. -/
theorem exists_first_end (id : I32) (ops : List Op) :
    (∀ op ∈ ops, ¬ op.ends id) ∨
      ∃ before op later, ops = before ++ op :: later ∧ (∀ op ∈ before, ¬ op.ends id) ∧
        op.ends id := by
  induction ops with
  | nil => exact .inl (by simp)
  | cons op ops ih =>
    by_cases ended : op.ends id
    · exact .inr ⟨[], op, ops, rfl, by simp, ended⟩
    · rcases ih with goesOn | ⟨before, op', later, rfl, goesOn, ended'⟩
      · exact .inl (by simpa [ended] using goesOn)
      · exact .inr ⟨op :: before, op', later, rfl, by simpa [ended] using goesOn, ended'⟩

/-- The receiver of an async invocation gets at most one status. If it gets one,
that status belongs to the first operation that finished the invocation, whose
code decides between `Complete` and `Error`, and it holds the request, the last
response and the last error recorded before; whatever comes later changes
nothing. While nothing ended the invocation, its entry and its channel are in
the map. -/
theorem invocation_completes_once (moduleId : Nat) (before after : List Op) (inv : Invocation)
    (few : allocations (before ++ .newInvocation inv :: after) < 2 ^ 31 - 1)
    (spares : SparesHostCalls (before ++ .newInvocation inv :: after)) :
    ∃ prior id rx created final,
      (ModuleState.new moduleId).run before = .returned prior ∧
      prior.newInvocation inv = (id, rx, created) ∧
      (ModuleState.new moduleId).run (before ++ .newInvocation inv :: after) = .returned final ∧
      (final.oneshots.delivered rx).length ≤ 1 ∧
      (∀ status ∈ final.oneshots.delivered rx, ∃ recorded op later code,
        after = recorded ++ op :: later ∧ (∀ op ∈ recorded, ¬ op.ends id) ∧
        op.finish? = some (id, code) ∧
        status.Reports code inv (lastResponse id (recorded ++ [op])) (lastError id recorded)) ∧
      (∀ recorded op later code, after = recorded ++ op :: later →
        (∀ op ∈ recorded, ¬ op.ends id) → op.finish? = some (id, code) →
        ∃ status, final.oneshots.delivered rx = [status] ∧
          status.Reports code inv (lastResponse id (recorded ++ [op])) (lastError id recorded)) ∧
      ((∀ op ∈ after, ¬ op.ends id) → ∃ call, final.calls id = some call ∧
        call.Holds inv rx (lastResponse id after) (lastError id after)) := by
  have initially : (ModuleState.new moduleId).HostCallsIn [] := by
    simp [ModuleState.HostCallsIn, ModuleState.new]
  obtain ⟨final, executed⟩ := initially.run_returns
    (by simpa [ModuleState.new, SparesHostCalls] using spares)
  obtain ⟨prior, earlier, rest⟩ := Outcome.bind_eq_returned.mp
    ((ModuleState.run_append _ _ _).symm.trans executed)
  have wellFormed := (ModuleState.WellFormed.new moduleId).run earlier
  have created : (prior.newInvocation inv).2.2.run after = .returned final := rest
  have start := Follows.newInvocation prior inv wellFormed.channels
    (wellFormed.unsent _ (Nat.le_refl _))
  have room : (prior.newInvocation inv).2.2.Room prior.callIndex (allocations after) := by
    have one : ((prior.newInvocation inv).2.2.callIndex - prior.callIndex).toNat = 1 := by
      simp only [ModuleState.newInvocation, ModuleState.fetchAdd,
        ModuleState.insertCall_callIndex]
      bv_omega
    have bound : allocations after < 2 ^ 31 := by
      simp only [allocations, List.countP_append, List.countP_cons] at few ⊢
      omega
    exact .inr ⟨by omega, by omega⟩
  have follows : Follows final prior.callIndex prior.oneshots.opened inv
      (Life.after prior.callIndex after) := start.run created room
  have decided : ∀ recorded op later code, after = recorded ++ op :: later →
      (∀ op ∈ recorded, ¬ op.ends prior.callIndex) →
      op.finish? = some (prior.callIndex, code) →
      ∃ status, final.oneshots.delivered prior.oneshots.opened = [status] ∧
        status.Reports code inv (lastResponse prior.callIndex (recorded ++ [op]))
          (lastError prior.callIndex recorded) := by
    rintro recorded op later code rfl goesOn finish
    exact follows.reported _ _ _ (Life.after_finish goesOn finish)
  have sent : final.oneshots.delivered prior.oneshots.opened = [] ∨
      ∃ recorded op later code, after = recorded ++ op :: later ∧
        (∀ op ∈ recorded, ¬ op.ends prior.callIndex) ∧
        op.finish? = some (prior.callIndex, code) := by
    rcases exists_first_end prior.callIndex after with
      goesOn | ⟨recorded, op, later, rfl, goesOn, ended⟩
    · exact .inl (follows.silent (by rw [Life.after_outstanding goesOn]; simp))
    · rcases Op.ends_cases ended with rfl | ⟨code, finish⟩
      · exact .inl (follows.silent (by rw [Life.after_take goesOn]; simp))
      · exact .inr ⟨recorded, op, later, code, rfl, goesOn, finish⟩
  refine ⟨prior, prior.callIndex, prior.oneshots.opened, _, final, earlier, rfl, executed,
    ?_, ?_, decided, ?_⟩
  · rcases sent with none | ⟨recorded, op, later, code, split, goesOn, finish⟩
    · simp [none]
    · obtain ⟨status, only, _⟩ := decided recorded op later code split goesOn finish
      simp [only]
  · intro status member
    rcases sent with none | ⟨recorded, op, later, code, split, goesOn, finish⟩
    · simp [none] at member
    · obtain ⟨status', only, reports⟩ := decided recorded op later code split goesOn finish
      obtain rfl : status = status' := by simpa [only] using member
      exact ⟨recorded, op, later, code, split, goesOn, finish, reports⟩
  · intro goesOn
    exact follows.entry _ _ (Life.after_outstanding goesOn)

/-- An invocation created after a host call, answered and finished with its own
id as the code: its receiver gets one `Error` status with the response. -/
theorem answered_invocation_completes :
    ∃ rx final,
      (ModuleState.new 0).run ([.beginHostCall] ++ .newInvocation ⟨"op", []⟩ ::
        [.recordHostResult 1 (.ok []), .setGuestResponse 2 [7], .finishGuestInvocation 2 2]) =
          .returned final ∧
      ∃ status, final.oneshots.delivered rx = [status] ∧
        status.Reports 2 ⟨"op", []⟩ (some [7]) none := by
  obtain ⟨prior, id, rx, created, final, earlier, made, executed, _, _, decided, _⟩ :=
    invocation_completes_once 0 [.beginHostCall]
      [.recordHostResult 1 (.ok []), .setGuestResponse 2 [7], .finishGuestInvocation 2 2]
      ⟨"op", []⟩ (by decide) (by
        intro before op later id code split finish
        -- Only the last operation finishes anything.
        rcases before with _ | ⟨_, _ | ⟨_, _ | ⟨_, _ | ⟨_, _ | ⟨_, before⟩⟩⟩⟩⟩
        case cons.cons.cons.cons.cons => simp at split
        all_goals
          cases split
          cases finish
        decide)
  cases earlier
  cases made
  exact ⟨_, final, executed,
    decided [.recordHostResult 1 (.ok []), .setGuestResponse 2 [7]] _ [] 2 rfl
      (by simp [Op.ends, Op.finish?]) rfl⟩

end Wapc.Host
