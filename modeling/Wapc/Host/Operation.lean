import Wapc.Host.ModuleState
import Wapc.Semantics.Machine

/-!
# Runs of one module state

`Op` lists the operations that may interleave on a `ModuleState`, with the ids
and codes the guest chooses. `Life` is the abstract view of one async
invocation: what was recorded for it and how it ended. `Follows` ties the two
together, and `Follows.step` is the one place where an operation is compared
with its effect on an invocation; `Follows.run` carries it to whole runs.
-/

namespace Wapc.Host

open Semantics

/-- One operation on the shared state. A host call is two operations, since its
callback runs without the lock; the completion is allowed for any id, which
covers those of the host calls that are outstanding. -/
inductive Op where
  | newInvocation (inv : Invocation)
  | beginHostCall
  | recordHostResult (id : I32) (result : HostResult)
  | setGuestResponse (id : I32) (response : Bytes)
  | setGuestError (id : I32) (error : String)
  | setGuestCallComplete (id code : I32) (response : Bytes)
  | finishGuestInvocation (id code : I32)
  | takeState (id : I32)

namespace Op

def apply (state : ModuleState) : Op → Outcome ModuleState
  | .newInvocation inv => .returned (state.newInvocation inv).2.2
  | .beginHostCall => .returned state.beginHostCall.2
  | .recordHostResult id result => .returned (state.recordHostResult id result).2
  | .setGuestResponse id response => .returned (state.setGuestResponse id response)
  | .setGuestError id error => .returned (state.setGuestError id error)
  | .setGuestCallComplete id code response => state.setGuestCallComplete id code response
  | .finishGuestInvocation id code => state.finishGuestInvocation id code
  | .takeState id => .returned (state.takeState id).2

/-- The operation takes an id from the counter. -/
def allocates : Op → Bool
  | .newInvocation _ | .beginHostCall => true
  | _ => false

/-- The id and the code of an operation that finishes an invocation. -/
def finish? : Op → Option (I32 × I32)
  | .setGuestCallComplete id code _ => some (id, code)
  | .finishGuestInvocation id code => some (id, code)
  | _ => none

/-- The operation ends invocation `id`: it finishes it or takes its state. -/
def ends (id : I32) : Op → Prop
  | .takeState other => other = id
  | op => ∃ code, op.finish? = some (id, code)

theorem ends_cases {id : I32} {op : Op} (ended : op.ends id) :
    op = .takeState id ∨ ∃ code, op.finish? = some (id, code) := by
  cases op with
  | takeState other => exact .inl (congrArg _ ended)
  | _ => exact .inr ended

/-- What an operation stores in the entry `id` when it does not end it. -/
def change (id : I32) : Op → CallState → CallState
  | .recordHostResult other result, call =>
    if other = id then ModuleState.storeHostResult result call else call
  | .setGuestResponse other response, call =>
    if other = id then { call with guestResponse := some response } else call
  | .setGuestError other error, call =>
    if other = id then { call with guestError := some error } else call
  | _, call => call

/-- Only an allocation moves the counter, and it moves it by one. -/
theorem apply_callIndex {state next : ModuleState} (op : Op)
    (applied : op.apply state = .returned next) :
    next.callIndex = if op.allocates then state.callIndex + 1 else state.callIndex := by
  cases op with
  | finishGuestInvocation id code =>
    rcases ModuleState.finish_cases applied with ⟨_, rfl⟩ | ⟨_, _, _, _, rfl⟩ <;> rfl
  | setGuestCallComplete id code response =>
    rcases ModuleState.finish_cases applied with ⟨_, rfl⟩ | ⟨_, _, _, _, rfl⟩ <;>
      simp [ModuleState.finished, ModuleState.setGuestResponse, allocates]
  | newInvocation inv =>
    cases applied
    rfl
  | beginHostCall =>
    cases applied
    rfl
  | recordHostResult id result =>
    cases applied
    simp [ModuleState.recordHostResult_eq, allocates]
  | setGuestResponse id response =>
    cases applied
    simp [ModuleState.setGuestResponse, allocates]
  | setGuestError id error =>
    cases applied
    simp [ModuleState.setGuestError, allocates]
  | takeState id =>
    cases applied
    rfl

/-- An operation that neither ends `id` nor gives it away again changes its entry
in place, and creates none. -/
theorem apply_calls {state next : ModuleState} {op : Op} {id : I32}
    (applied : op.apply state = .returned next) (goesOn : ¬ op.ends id)
    (fresh : op.allocates → state.callIndex ≠ id) :
    next.calls id = (state.calls id).map (op.change id) := by
  have modified : ∀ other change, (state.modifyCall other change).calls id =
      (state.calls id).map fun call => if other = id then change call else call := by
    intro other change
    by_cases same : other = id
    · simp [same]
    · simp [same, Ne.symm same]
  have finished : ∀ {before : ModuleState} {other code}, other ≠ id →
      before.finishGuestInvocation other code = .returned next →
      next.calls id = before.calls id := by
    intro before other code different finish
    rcases ModuleState.finish_cases finish with ⟨_, rfl⟩ | ⟨_, _, _, _, rfl⟩
    · rfl
    · simp [ModuleState.finished, Ne.symm different]
  have kept : next.calls id = state.calls id →
      next.calls id = (state.calls id).map fun call => call := fun same => by simp [same]
  cases op with
  | newInvocation inv =>
    cases applied
    exact kept (by simp [ModuleState.newInvocation, ModuleState.fetchAdd, Ne.symm (fresh rfl)])
  | beginHostCall =>
    cases applied
    exact kept (by simp [ModuleState.beginHostCall, ModuleState.initHostCall,
      ModuleState.fetchAdd, Ne.symm (fresh rfl)])
  | recordHostResult other result =>
    cases applied
    rw [ModuleState.recordHostResult_eq]
    exact modified other _
  | setGuestResponse other response => cases applied; exact modified other _
  | setGuestError other error => cases applied; exact modified other _
  | setGuestCallComplete other code response =>
    have different : other ≠ id := fun same => goesOn ⟨code, by simp [finish?, same]⟩
    exact kept ((finished different applied).trans
      (by simp [ModuleState.setGuestResponse, Ne.symm different]))
  | finishGuestInvocation other code =>
    have different : other ≠ id := fun same => goesOn ⟨code, by simp [finish?, same]⟩
    exact kept (finished different applied)
  | takeState other =>
    cases applied
    have different : other ≠ id := goesOn
    exact kept (by simp [ModuleState.takeState, Ne.symm different])

end Op

/-- Apply the operations in order, stopping at a panic. -/
def ModuleState.run (state : ModuleState) : List Op → Outcome ModuleState
  | [] => .returned state
  | op :: ops => (op.apply state).bind (·.run ops)

/-- What every listed operation preserves holds after the run. -/
theorem ModuleState.run_invariant {state final : ModuleState} {ops : List Op}
    {motive : ModuleState → Prop} (executed : state.run ops = .returned final)
    (initially : motive state)
    (preserved : ∀ op ∈ ops, ∀ before after, motive before → op.apply before = .returned after →
      motive after) : motive final := by
  induction ops generalizing state with
  | nil =>
    cases executed
    exact initially
  | cons op ops ih =>
    obtain ⟨middle, applied, rest⟩ := Outcome.bind_eq_returned.mp executed
    exact ih rest (preserved op (by simp) state middle initially applied)
      fun op' member => preserved op' (List.mem_cons_of_mem _ member)

theorem ModuleState.run_callIndex {state final : ModuleState} {ops : List Op}
    (executed : state.run ops = .returned final) (takesNone : ∀ op ∈ ops, op.allocates = false) :
    final.callIndex = state.callIndex := by
  refine run_invariant
    (motive := fun reached => reached.callIndex = state.callIndex) executed rfl ?_
  intro op member before after same applied
  rw [op.apply_callIndex applied, takesNone op member]
  exact same

/-- How many ids a list of operations takes. -/
def allocations (ops : List Op) : Nat := ops.countP (·.allocates)

namespace ModuleState

/-- The counter can be read `count` more times before it comes round to `id`. -/
def Room (state : ModuleState) (id : I32) (count : Nat) : Prop :=
  count = 0 ∨
    0 < (state.callIndex - id).toNat ∧ (state.callIndex - id).toNat + count ≤ 2 ^ 32

variable {state next : ModuleState} {id : I32} {count : Nat}

theorem Room.fresh (room : state.Room id (count + 1)) : state.callIndex ≠ id := by
  rintro rfl
  rcases room with impossible | ⟨positive, _⟩
  · cases impossible
  · simp at positive

theorem Room.advance (room : state.Room id (count + 1))
    (counter : next.callIndex = state.callIndex + 1) : next.Room id count := by
  rcases room with impossible | ⟨positive, bound⟩
  · cases impossible
  · unfold Room
    rw [counter]
    by_cases last : count = 0
    · exact .inl last
    · right
      bv_omega

/-- The next id may be taken when it is another one. -/
theorem Room.soon (different : state.callIndex ≠ id) (few : count ≤ 1) : state.Room id count := by
  right
  constructor <;> bv_omega

theorem Room.mono {fewer : Nat} (room : state.Room id count) (less : fewer ≤ count) :
    state.Room id fewer := by
  unfold Room at room ⊢
  omega

theorem allocations_cons (op : Op) (ops : List Op) :
    allocations (op :: ops) = allocations ops + if op.allocates then 1 else 0 := by
  simp [allocations, List.countP_cons]

theorem Room.apply {op : Op} (room : state.Room id (count + if op.allocates then 1 else 0))
    (applied : op.apply state = .returned next) : next.Room id count := by
  have counter := op.apply_callIndex applied
  cases allocates : op.allocates with
  | false =>
    simp only [allocates, Bool.false_eq_true, if_false, Nat.add_zero] at counter room
    simpa [Room, counter] using room
  | true =>
    simp only [allocates, if_true] at counter room
    exact room.advance counter

/-- Running operations uses up the room they take. -/
theorem Room.run {ops : List Op} (room : state.Room id (count + allocations ops))
    (executed : state.run ops = .returned next) : next.Room id count := by
  induction ops generalizing state with
  | nil =>
    cases executed
    exact room
  | cons op ops ih =>
    obtain ⟨middle, applied, rest⟩ := Outcome.bind_eq_returned.mp executed
    rw [allocations_cons, ← Nat.add_assoc] at room
    exact ih (room.apply applied) rest

/-- What every operation preserves, as long as it does not take `id`, holds
after a run that has room. The property may speak of the operations done. -/
theorem Room.induction {motive : List Op → ModuleState → Prop} {ops : List Op}
    (room : state.Room id (allocations ops)) (executed : state.run ops = .returned next)
    (initially : motive [] state)
    (preserved : ∀ op ∈ ops, ∀ performed before after, motive performed before →
      op.apply before = .returned after → (op.allocates → before.callIndex ≠ id) →
      motive (performed ++ [op]) after) : motive ops next := by
  induction ops generalizing state motive with
  | nil =>
    cases executed
    exact initially
  | cons op ops ih =>
    obtain ⟨middle, applied, rest⟩ := Outcome.bind_eq_returned.mp executed
    rw [allocations_cons] at room
    have moved : middle.Room id (allocations ops) ∧ (op.allocates → state.callIndex ≠ id) :=
      ⟨room.apply applied, fun allocates => by
        simp only [allocates, if_true] at room
        exact room.fresh⟩
    exact ih (motive := fun performed => motive (op :: performed)) moved.1 rest
      (preserved op (by simp) [] state middle initially applied moved.2)
      fun op' member performed => preserved op' (List.mem_cons_of_mem _ member) (op :: performed)

end ModuleState

/-- One async invocation as its caller sees it: the response and the error
recorded so far, or how it ended. -/
inductive Life where
  | outstanding (response : Option Bytes) (error : Option String)
  | finished (code : I32) (response : Option Bytes) (error : Option String)
  | taken
deriving DecidableEq, Repr

namespace Life

/-- Only operations on the invocation's own id change its life, and none does
once it has ended. -/
def step (id : I32) : Life → Op → Life
  | .outstanding response error, .setGuestResponse other response' =>
    if other = id then .outstanding (some response') error else .outstanding response error
  | .outstanding response error, .setGuestError other error' =>
    if other = id then .outstanding response (some error') else .outstanding response error
  | .outstanding response error, .setGuestCallComplete other code response' =>
    if other = id then .finished code (some response') error else .outstanding response error
  | .outstanding response error, .finishGuestInvocation other code =>
    if other = id then .finished code response error else .outstanding response error
  | .outstanding response error, .takeState other =>
    if other = id then .taken else .outstanding response error
  | life, _ => life

/-- The life of an invocation after a list of operations. -/
def after (id : I32) (ops : List Op) : Life :=
  ops.foldl (Life.step id) (.outstanding none none)

@[simp] theorem step_finished (id code : I32) (response : Option Bytes) (error : Option String)
    (op : Op) : step id (.finished code response error) op = .finished code response error := by
  cases op <;> rfl

@[simp] theorem step_taken (id : I32) (op : Op) : step id .taken op = .taken := by
  cases op <;> rfl

end Life

/-- An entry holds the invocation with this response and error and can still
answer on its channel. -/
structure CallState.Holds (call : CallState) (inv : Invocation) (rx : Oneshot)
    (response : Option Bytes) (error : Option String) : Prop where
  request : call.guestRequest = some inv
  response : call.guestResponse = response
  error : call.guestError = error
  channel : call.channel = some rx

/-- A status was sent for this code, request, response and error: `Complete` for
code 0 and `Error` for every other code. -/
def CallStatus.Reports (status : CallStatus) (code : I32) (inv : Invocation)
    (response : Option Bytes) (error : Option String) : Prop :=
  ∃ call : CallState,
    (code = 0 ∧ status = .complete call ∨ code ≠ 0 ∧ status = .error call) ∧
    call.guestRequest = some inv ∧ call.guestResponse = response ∧ call.guestError = error

theorem CallStatus.reports_statusOf {call : CallState} {inv : Invocation}
    {response : Option Bytes} {error : Option String} (code : I32)
    (request : call.guestRequest = some inv) (response' : call.guestResponse = response)
    (error' : call.guestError = error) :
    (ModuleState.statusOf code call).Reports code inv response error := by
  refine ⟨call, ?_, request, response', error'⟩
  unfold ModuleState.statusOf
  split
  · exact .inl ⟨‹_›, rfl⟩
  · exact .inr ⟨‹_›, rfl⟩

/-- The state agrees with the life of invocation `id` answering on `rx`, and no
other entry can reach that channel. -/
structure Follows (state : ModuleState) (id : I32) (rx : Oneshot) (inv : Invocation)
    (life : Life) : Prop where
  opened : rx < state.oneshots.opened
  exclusive : ∀ other call, state.calls other = some call → call.channel = some rx →
    other = id ∧ ∃ response error, life = .outstanding response error
  entry : ∀ response error, life = .outstanding response error →
    ∃ call, state.calls id = some call ∧ call.Holds inv rx response error
  silent : (∀ code response error, life ≠ .finished code response error) →
    state.oneshots.delivered rx = []
  reported : ∀ code response error, life = .finished code response error →
    ∃ status, state.oneshots.delivered rx = [status] ∧ status.Reports code inv response error

namespace Follows

variable {state next : ModuleState} {id : I32} {rx : Oneshot} {inv : Invocation} {life : Life}

/-- While the invocation is outstanding only its own entry holds the channel. -/
theorem channel_eq (follows : Follows state id rx inv life) {other : I32} {call : CallState}
    (present : state.calls other = some call) (holds : call.channel = some rx) : other = id :=
  (follows.exclusive other call present holds).1

/-- The frame rule: a step that keeps the invocation's entry, its channel and
what was sent on it, and gives that channel to nobody else, changes nothing. -/
theorem frame (follows : Follows state id rx inv life)
    (grows : state.oneshots.opened ≤ next.oneshots.opened)
    (delivered : next.oneshots.delivered rx = state.oneshots.delivered rx)
    (channels : ∀ other call, next.calls other = some call → call.channel = some rx →
      ∃ call', state.calls other = some call' ∧ call'.channel = some rx)
    (kept : ∀ response error call, life = .outstanding response error →
      state.calls id = some call → call.Holds inv rx response error →
      ∃ call', next.calls id = some call' ∧ call'.Holds inv rx response error) :
    Follows next id rx inv life where
  opened := Nat.lt_of_lt_of_le follows.opened grows
  exclusive := by
    intro other call present holds
    obtain ⟨call', present', holds'⟩ := channels other call present holds
    exact follows.exclusive other call' present' holds'
  entry := by
    intro response error outstanding
    obtain ⟨call, present, holds⟩ := follows.entry response error outstanding
    exact kept response error call outstanding present holds
  silent := fun unfinished => delivered.trans (follows.silent unfinished)
  reported := by
    intro code response error ended
    rw [delivered]
    exact follows.reported code response error ended

/-- A new entry under another id, holding a fresh channel or none, is framed. -/
theorem insert (follows : Follows state id rx inv life) (other : I32) (call : CallState)
    (fresh : (∃ response error, life = .outstanding response error) → other ≠ id)
    (channel : call.channel ≠ some rx) : Follows (state.insertCall other call) id rx inv life := by
  refine follows.frame (by simp) (by simp) ?_ ?_
  · intro key entry present holds
    rw [ModuleState.insertCall_calls] at present
    split at present
    · cases present
      exact absurd holds channel
    · exact ⟨entry, present, holds⟩
  · intro response error entry outstanding present holds
    have different : id ≠ other := Ne.symm (fresh ⟨response, error, outstanding⟩)
    exact ⟨entry, by simpa [different] using present, holds⟩

/-- A change that keeps the channel of the entry it is made in is framed when it
leaves the request, the response and the error of the invocation alone. -/
theorem modify (follows : Follows state id rx inv life) (other : I32)
    {change : CallState → CallState}
    (channel : ∀ call, (change call).channel = call.channel)
    (own : ∀ response error call, life = .outstanding response error → other = id →
      call.Holds inv rx response error → (change call).Holds inv rx response error) :
    Follows (state.modifyCall other change) id rx inv life := by
  refine follows.frame (by simp) (by simp) ?_ ?_
  · intro key entry present holds
    rw [ModuleState.modifyCall_calls] at present
    split at present
    · rename_i same
      obtain ⟨call', present', rfl⟩ := Option.map_eq_some_iff.mp present
      exact ⟨call', same ▸ present', by rw [← channel]; exact holds⟩
    · exact ⟨entry, present, holds⟩
  · intro response error entry outstanding present holds
    by_cases same : other = id
    · subst same
      exact ⟨change entry, by simp [present], own response error entry outstanding rfl holds⟩
    · exact ⟨entry, by simpa [Ne.symm same] using present, holds⟩

/-- A change of the invocation's own entry moves its life. -/
theorem modifyOwn {response response' : Option Bytes} {error error' : Option String}
    (follows : Follows state id rx inv (.outstanding response error))
    {change : CallState → CallState}
    (changed : ∀ call, call.Holds inv rx response error →
      (change call).Holds inv rx response' error') :
    Follows (state.modifyCall id change) id rx inv (.outstanding response' error') where
  opened := by simpa using follows.opened
  exclusive := by
    intro other call present holds
    rw [ModuleState.modifyCall_calls] at present
    split at present
    · rename_i same
      exact ⟨same, _, _, rfl⟩
    · exact ⟨follows.channel_eq present holds, _, _, rfl⟩
  entry := by
    rintro _ _ ⟨rfl, rfl⟩
    obtain ⟨call, present, holds⟩ := follows.entry response error rfl
    exact ⟨change call, by simp [present], changed call holds⟩
  silent := fun _ => by simpa using follows.silent (by simp)
  reported := by simp

/-- A change under any id: the invocation's life moves if the id is its own. -/
theorem change {response response' : Option Bytes} {error error' : Option String}
    (follows : Follows state id rx inv (.outstanding response error))
    (other : I32) {change : CallState → CallState}
    (channel : ∀ call, (change call).channel = call.channel)
    (changed : ∀ call, call.Holds inv rx response error →
      (change call).Holds inv rx response' error') :
    Follows (state.modifyCall other change) id rx inv
      (if other = id then .outstanding response' error' else .outstanding response error) := by
  by_cases same : other = id
  · subst same
    simpa using follows.modifyOwn changed
  · simpa [same] using follows.modify other channel
      (fun _ _ _ _ equal _ => absurd equal same)

theorem setGuestResponse (follows : Follows state id rx inv life) (other : I32)
    (response : Bytes) :
    Follows (state.setGuestResponse other response) id rx inv
      (life.step id (.setGuestResponse other response)) := by
  cases life with
  | outstanding response' error =>
    exact follows.change other (fun _ => rfl)
      fun call holds => ⟨holds.request, rfl, holds.error, holds.channel⟩
  | finished code response' error => exact follows.modify other (fun _ => rfl) (by simp)
  | taken => exact follows.modify other (fun _ => rfl) (by simp)

theorem setGuestError (follows : Follows state id rx inv life) (other : I32) (error : String) :
    Follows (state.setGuestError other error) id rx inv
      (life.step id (.setGuestError other error)) := by
  cases life with
  | outstanding response error' =>
    exact follows.change other (fun _ => rfl)
      fun call holds => ⟨holds.request, holds.response, rfl, holds.channel⟩
  | finished code response error' => exact follows.modify other (fun _ => rfl) (by simp)
  | taken => exact follows.modify other (fun _ => rfl) (by simp)

/-- Removing an entry that does not hold the channel is framed. -/
theorem remove (follows : Follows state id rx inv life) (other : I32)
    (elsewhere : (∃ response error, life = .outstanding response error) → other ≠ id) :
    Follows { state with calls := Function.update state.calls other none } id rx inv life := by
  refine follows.frame (Nat.le_refl _) rfl ?_ ?_
  · intro key entry present holds
    by_cases same : key = other
    · simp [same] at present
    · exact ⟨entry, by simpa [same] using present, holds⟩
  · intro response error entry outstanding present holds
    have different : id ≠ other := Ne.symm (elsewhere ⟨response, error, outstanding⟩)
    exact ⟨entry, by simpa [different] using present, holds⟩

/-- Removing the entry of an outstanding invocation leaves its channel to nobody. -/
theorem removed {response : Option Bytes} {error : Option String}
    (follows : Follows state id rx inv (.outstanding response error)) {other : I32}
    {call : CallState}
    (present : Function.update state.calls id none other = some call) :
    call.channel ≠ some rx := by
  intro holds
  by_cases same : other = id
  · simp [same] at present
  · exact same (follows.channel_eq (by simpa [same] using present) holds)

theorem finishGuestInvocation (follows : Follows state id rx inv life) {other code : I32}
    (finish : state.finishGuestInvocation other code = .returned next) :
    Follows next id rx inv (life.step id (.finishGuestInvocation other code)) := by
  rcases ModuleState.finish_cases finish with ⟨absent, rfl⟩ | ⟨call, tx, present, holds, rfl⟩
  · -- An unknown id: nothing happens, and an outstanding invocation is known.
    cases life with
    | outstanding response error =>
      obtain ⟨own, ownPresent, _⟩ := follows.entry response error rfl
      have different : other ≠ id := by
        rintro rfl
        rw [absent] at ownPresent
        cases ownPresent
      simpa [Life.step, different] using follows
    | finished code' response error => simpa using follows
    | taken => simpa using follows
  · by_cases own : tx = rx
    · -- The channel is this invocation's, so it is outstanding and ends here.
      subst own
      obtain ⟨rfl, response, error, rfl⟩ := follows.exclusive other call present holds
      obtain ⟨call', present', held⟩ := follows.entry response error rfl
      obtain rfl : call = call' := Option.some.inj (present.symm.trans present')
      have empty := follows.silent (by simp)
      simp only [Life.step, if_true]
      refine ⟨follows.opened, ?_, by simp, by simp, ?_⟩
      · intro key entry entryPresent entryHolds
        exact absurd entryHolds (follows.removed entryPresent)
      · rintro _ _ _ ⟨rfl, rfl, rfl⟩
        refine ⟨ModuleState.statusOf code { call with channel := none }, ?_,
          CallStatus.reports_statusOf code held.request held.response held.error⟩
        simp [ModuleState.finished, empty]
    · -- Another invocation's channel: this one is framed.
      have elsewhere : ∀ response error, life = .outstanding response error → other ≠ id := by
        rintro response error outstanding rfl
        obtain ⟨call', present', held⟩ := follows.entry response error outstanding
        obtain rfl : call = call' := Option.some.inj (present.symm.trans present')
        exact own (Option.some.inj (holds.symm.trans held.channel))
      have kept : Follows (state.finished other code call tx) id rx inv life := by
        have gone := follows.remove other (by
          rintro ⟨response, error, outstanding⟩
          exact elsewhere response error outstanding)
        exact gone.frame (Nat.le_refl _)
          (state.oneshots.send_delivered_other _ (Ne.symm own))
          (fun _ entry present holds => ⟨entry, present, holds⟩)
          (fun _ _ entry _ present holds => ⟨entry, present, holds⟩)
      cases life with
      | outstanding response error =>
        simpa [Life.step, elsewhere response error rfl] using kept
      | finished code' response error => simpa using kept
      | taken => simpa using kept

theorem takeState (follows : Follows state id rx inv life) (other : I32) :
    Follows (state.takeState other).2 id rx inv (life.step id (.takeState other)) := by
  cases life with
  | outstanding response error =>
    by_cases same : other = id
    · subst same
      simp only [Life.step, if_true]
      refine ⟨follows.opened, ?_, by simp, fun _ => follows.silent (by simp), by simp⟩
      intro key entry present holds
      exact absurd holds (follows.removed present)
    · have gone := follows.remove other (fun _ => same)
      simpa [Life.step, same, ModuleState.takeState] using gone
  | finished code response error => exact follows.remove other (by simp)
  | taken => exact follows.remove other (by simp)

/-- One operation moves the state and the life of an invocation together, as
long as it does not give the id of an outstanding invocation away again. -/
theorem step (follows : Follows state id rx inv life) {op : Op}
    (applied : op.apply state = .returned next)
    (fresh : (∃ response error, life = .outstanding response error) → op.allocates →
      state.callIndex ≠ id) :
    Follows next id rx inv (life.step id op) := by
  cases op with
  | newInvocation inv' =>
    cases applied
    have open' : Follows { state with
        callIndex := state.callIndex + 1
        oneshots := state.oneshots.channel.2 } id rx inv life :=
      follows.frame (Nat.le_succ _) rfl (fun _ call present holds => ⟨call, present, holds⟩)
        (fun _ _ call _ present holds => ⟨call, present, holds⟩)
    have different : state.oneshots.opened ≠ rx := Ne.symm (Nat.ne_of_lt follows.opened)
    have inserted := open'.insert state.callIndex
      { guestRequest := some inv', channel := some state.oneshots.opened }
      (fun outstanding => fresh outstanding rfl) (by simpa using different)
    cases life <;> exact inserted
  | beginHostCall =>
    cases applied
    have advanced : Follows { state with callIndex := state.callIndex + 1 } id rx inv life :=
      follows.frame (Nat.le_refl _) rfl (fun _ call present holds => ⟨call, present, holds⟩)
        (fun _ _ call _ present holds => ⟨call, present, holds⟩)
    have inserted := advanced.insert state.callIndex {}
      (fun outstanding => fresh outstanding rfl) (by simp)
    cases life <;> exact inserted
  | recordHostResult other result =>
    cases applied
    rw [ModuleState.recordHostResult_eq]
    have stored : Follows (state.modifyCall other (ModuleState.storeHostResult result))
        id rx inv life := by
      refine follows.modify other (by intro call; cases result <;> rfl) ?_
      intro response error call _ _ holds
      cases result <;> exact ⟨holds.request, holds.response, holds.error, holds.channel⟩
    cases life <;> exact stored
  | setGuestResponse other response =>
    cases applied
    exact follows.setGuestResponse other response
  | setGuestError other error =>
    cases applied
    exact follows.setGuestError other error
  | setGuestCallComplete other code response =>
    have finished := (follows.setGuestResponse other response).finishGuestInvocation applied
    cases life with
    | outstanding response' error =>
      by_cases same : other = id <;> simpa [Life.step, same] using finished
    | finished code' response' error => simpa using finished
    | taken => simpa using finished
  | finishGuestInvocation other code => exact follows.finishGuestInvocation applied
  | takeState other =>
    cases applied
    exact follows.takeState other

/-- A run moves the state and the life of an invocation together, as long as the
counter does not come round to the invocation's id. -/
theorem run (follows : Follows state id rx inv life) {ops : List Op}
    (executed : state.run ops = .returned next) (room : state.Room id (allocations ops)) :
    Follows next id rx inv (ops.foldl (Life.step id) life) := by
  refine room.induction (motive := fun performed reached =>
    Follows reached id rx inv (performed.foldl (Life.step id) life)) executed follows ?_
  intro op _ performed before after follows applied fresh
  simpa using follows.step applied fun _ => fresh

/-- The invocation just created is outstanding, with nothing recorded. -/
theorem newInvocation (state : ModuleState) (inv : Invocation)
    (closed : ∀ id call tx, state.calls id = some call → call.channel = some tx →
      tx < state.oneshots.opened)
    (unsent : state.oneshots.delivered state.oneshots.opened = []) :
    Follows (state.newInvocation inv).2.2 state.callIndex state.oneshots.opened inv
      (.outstanding none none) where
  opened := by simp [ModuleState.newInvocation, ModuleState.fetchAdd, Oneshots.channel]
  exclusive := by
    intro other call present holds
    simp only [ModuleState.newInvocation, ModuleState.fetchAdd,
      ModuleState.insertCall_calls] at present
    split at present
    · rename_i same
      exact ⟨same, _, _, rfl⟩
    · exact absurd (closed other call _ present holds) (Nat.lt_irrefl _)
  entry := by
    rintro _ _ ⟨rfl, rfl⟩
    exact ⟨_, by simp [ModuleState.newInvocation, ModuleState.fetchAdd]; rfl,
      rfl, rfl, rfl, rfl⟩
  silent := fun _ => by
    simpa [ModuleState.newInvocation, ModuleState.fetchAdd, Oneshots.channel] using unsent
  reported := by simp

end Follows

end Wapc.Host
