import Wapc.Host.Step

/-!
# Failing unwraps

Two lines of the host can panic on a map the guest has a say in: taking the
channel of an entry in `finish_guest_invocation`, and taking back the state in
`call`. A run reaches neither as long as the guest signals
`__guest_call_response_ready` only for ids that are not host calls and not the
synchronous call in progress; both kinds of ids do crash the host.
-/

namespace Wapc.Host

open Semantics

/-- The entry under `id` is that of a host call: it was made without a request. -/
def ModuleState.IsHostCall (state : ModuleState) (id : I32) : Prop :=
  ∃ call, state.calls id = some call ∧ call.guestRequest = none

/-- In a well formed map, the entries without a channel are those of host calls. -/
theorem ModuleState.WellFormed.hasHostCall_iff {state : ModuleState}
    (wellFormed : state.WellFormed) (id : I32) : state.HasHostCall id ↔ state.IsHostCall id := by
  constructor
  · rintro ⟨call, present, hostCall⟩
    have kind := wellFormed.kinds id call present
    exact ⟨call, present, by simpa [hostCall] using kind⟩
  · rintro ⟨call, present, noRequest⟩
    have kind := wellFormed.kinds id call present
    exact ⟨call, present, by simpa [noRequest] using kind⟩

/-- In a well formed map, finishing panics exactly on host calls. -/
theorem ModuleState.WellFormed.finish_panics_iff {state : ModuleState}
    (wellFormed : state.WellFormed) (id code : I32) :
    state.finishGuestInvocation id code = .panicked ↔ state.IsHostCall id :=
  ModuleState.finish_panics_iff.trans (wellFormed.hasHostCall_iff id)

/-- Recording something in entries turns none of them into a host call. -/
theorem ModuleState.IsHostCall.of_modifyCall {state : ModuleState} {id other : I32}
    {change : CallState → CallState}
    (request : ∀ call, (change call).guestRequest = call.guestRequest)
    (hostCall : (state.modifyCall other change).IsHostCall id) : state.IsHostCall id := by
  obtain ⟨call, present, noRequest⟩ := hostCall
  rw [ModuleState.modifyCall_calls] at present
  split at present
  · rename_i same
    obtain ⟨call', found, rfl⟩ := Option.map_eq_some_iff.mp present
    exact ⟨call', same ▸ found, request call' ▸ noRequest⟩
  · exact ⟨call, present, noRequest⟩

/-- An operation that does not end `id` keeps its entry, or replaces it. -/
theorem Op.keeps_entry {state next : ModuleState} {op : Op} {id : I32}
    (applied : op.apply state = .returned next) (goesOn : ¬ op.ends id)
    (present : ∃ call, state.calls id = some call) : ∃ call, next.calls id = some call := by
  obtain ⟨call, present⟩ := present
  by_cases replaced : op.allocates ∧ state.callIndex = id
  · obtain ⟨allocates, rfl⟩ := replaced
    cases op with
    | newInvocation inv =>
      cases applied
      exact ⟨_, by simp [ModuleState.newInvocation, ModuleState.fetchAdd]; rfl⟩
    | beginHostCall =>
      cases applied
      exact ⟨_, by simp [ModuleState.beginHostCall, ModuleState.initHostCall,
        ModuleState.fetchAdd]; rfl⟩
    | _ => cases allocates
  · have changed := apply_calls applied goesOn fun allocates same => replaced ⟨allocates, same⟩
    exact ⟨op.change id call, by rw [changed, present]; rfl⟩

theorem ModuleState.run_keeps_entry {state next : ModuleState} {ops : List Op} {id : I32}
    (executed : state.run ops = .returned next) (goesOn : ∀ op ∈ ops, ¬ op.ends id)
    (present : ∃ call, state.calls id = some call) : ∃ call, next.calls id = some call :=
  run_invariant executed present fun op member _ _ present applied =>
    op.keeps_entry applied (goesOn op member) present

/-- The id of the synchronous call in progress, whose state will be taken back. -/
def Caller.syncIndex? : Caller → Option I32
  | .starting .sync index _ => some index
  | .inside .sync index _ => some index
  | .returned index _ => some index
  | _ => none

/-- What the guest must respect: it signals `__guest_call_response_ready` for no
host call and not for the synchronous call in progress; and an async entry that
traps still has its own entry in the map. -/
def GuestBehaves (ctx : Context) : Event → Prop
  | .guest (.guestResponseReady id _) =>
    ¬ ctx.module.IsHostCall id ∧ ctx.caller.syncIndex? ≠ some id
  | .exit (.trapped _) => ∀ index rx, ctx.caller = .inside .async index rx →
    ¬ ctx.module.IsHostCall index
  | _ => True

/-- Nothing has panicked, and the state of the synchronous call in progress is
in the map. -/
structure Safe (ctx : Context) : Prop where
  running : ctx.crashed = false
  wellFormed : ctx.module.WellFormed
  present : ∀ index, ctx.caller.syncIndex? = some index →
    ∃ call, ctx.module.calls index = some call

namespace Safe

variable {ctx next : Context} {event : Event}

/-- A step that does not end the call in progress keeps its state in the map. -/
theorem keeps (safe : Safe ctx) (moved : Step ctx event next)
    (same : ∀ index, next.caller.syncIndex? = some index → ctx.caller.syncIndex? = some index)
    (goesOn : ∀ index, ctx.caller.syncIndex? = some index →
      ∀ op ∈ ctx.ops event, ¬ op.ends index) :
    ∀ index, next.caller.syncIndex? = some index →
      ∃ call, next.module.calls index = some call := by
  intro index inProgress
  have before := same index inProgress
  rcases moved.run_ops with executed | ⟨_, unchanged⟩
  · exact ModuleState.run_keeps_entry executed (goesOn index before) (safe.present index before)
  · exact unchanged ▸ safe.present index before

theorem step (safe : Safe ctx) (behaves : GuestBehaves ctx event)
    (moved : Step ctx event next) : Safe next := by
  have wellFormed := moved.wellFormed safe.wellFormed
  have keeps := safe.keeps moved
  have running := safe.running
  cases moved with
  | @start mode inv free =>
    refine ⟨running, wellFormed, ?_⟩
    intro index inProgress
    have own : index = ctx.module.callIndex := by
      cases mode <;> simp [Caller.syncIndex?] at inProgress
      exact inProgress.symm
    exact ⟨_, by simp [ModuleState.newInvocation, ModuleState.fetchAdd, own]; rfl⟩
  | readyPanics frame panics =>
    exact absurd ((safe.wellFormed.finish_panics_iff _ _).mp panics) behaves.1
  | @asyncTrapPanics index rx message frame caller panics =>
    -- The entry has no channel, so it is a host call's, which the guest spares.
    have recorded := (safe.wellFormed.setGuestError index message).setGuestResponse index []
    have hostCall := (recorded.finish_panics_iff _ _).mp panics
    unfold ModuleState.setGuestResponse at hostCall
    have afterError := hostCall.of_modifyCall (by intro _; rfl)
    unfold ModuleState.setGuestError at afterError
    have before := afterError.of_modifyCall (by intro _; rfl)
    exact absurd before (behaves index rx caller)
  | finishPanics caller absent =>
    obtain ⟨call, present⟩ := safe.present _ (by rw [caller]; rfl)
    rw [absent] at present
    cases present
  | @ready holder id code module frame finished =>
    refine ⟨running, wellFormed, keeps (fun _ inProgress => inProgress) ?_⟩
    intro index inProgress op member
    have different : id ≠ index := by
      rintro rfl
      exact behaves.2 inProgress
    simp only [Context.ops, List.mem_singleton] at member
    subst member
    rintro ⟨code', finish⟩
    simp only [Op.finish?, Option.some.injEq, Prod.mk.injEq] at finish
    exact different finish.1
  | @hostCallReturns holder id result frame =>
    refine ⟨running, wellFormed, keeps (fun _ inProgress => inProgress) ?_⟩
    simp [Context.ops, frame, Op.ends, Op.finish?]
  | @handlerExit exit frame =>
    refine ⟨running, wellFormed, keeps (fun _ inProgress => inProgress) ?_⟩
    cases exit <;> simp [Context.ops, frame]
  | syncTrapped frame caller =>
    refine ⟨running, wellFormed, keeps ?_ ?_⟩
    · simp [caller, Caller.syncIndex?]
    · simp [Context.ops, frame, caller, Op.ends, Op.finish?]
  | taskRecord task =>
    refine ⟨running, wellFormed, keeps (fun _ inProgress => inProgress) ?_⟩
    simp [Context.ops, task, Op.ends, Op.finish?]
  | @enter mode index rx caller unlocked =>
    refine ⟨running, wellFormed, keeps ?_ (by simp [Context.ops])⟩
    cases mode <;> simp [caller, Caller.syncIndex?]
  | syncReturned frame caller =>
    refine ⟨running, wellFormed, keeps ?_ (by simp [Context.ops])⟩
    simp [caller, Caller.syncIndex?]
  | asyncTrapped | asyncReturned | finish | exportMissing | resolve | resolveDropped | dropFuture =>
    exact ⟨running, wellFormed, by simp [Caller.syncIndex?]⟩
  | guestResponse | guestError | hostCall | asyncHostCall =>
    refine ⟨running, wellFormed, keeps (fun _ inProgress => inProgress) ?_⟩
    simp [Context.ops, Op.ends, Op.finish?]
  | read | taskSend | receive | notify =>
    exact ⟨running, wellFormed, keeps (fun _ inProgress => inProgress) (by simp [Context.ops])⟩

end Safe

/-- In every run in which the guest behaves, no `unwrap` fails: nothing crashed,
the state that `call` is about to take back is in the map, and finishing returns
for every id that is not a host call. -/
theorem well_behaved_guest_never_crashes_host (moduleId : Nat) (events : List Event)
    (ctx : Context)
    (run : Context.machine.Steps GuestBehaves (Context.new moduleId) events ctx) :
    ctx.crashed = false ∧
      (∀ index code, ctx.caller = .returned index code →
        ∃ state, (ctx.module.takeState index).1 = some state) ∧
      (∀ id code, ¬ ctx.module.IsHostCall id →
        ∃ module, ctx.module.finishGuestInvocation id code = .returned module) := by
  have initial : Safe (Context.new moduleId) :=
    ⟨rfl, .new moduleId, by simp [Context.new, Caller.syncIndex?]⟩
  have safe : Safe ctx :=
    run.invariant initial fun safe behaves moved => safe.step behaves (Step.of_step moved).2
  refine ⟨safe.running, ?_, ?_⟩
  · intro index code caller
    exact safe.present index (by rw [caller]; rfl)
  · intro id code notHostCall
    cases result : ctx.module.finishGuestInvocation id code with
    | returned module => exact ⟨module, rfl⟩
    | trapped message => exact absurd result (ctx.module.finish_not_trapped id code message)
    | panicked => exact absurd ((safe.wellFormed.finish_panics_iff _ _).mp result) notHostCall

/-- The first condition on the guest cannot be dropped: a running guest that
signals an id crashes the host exactly when the id is that of a host call. -/
theorem Safe.signal_crashes_iff {ctx : Context} (safe : Safe ctx) {holder : Holder}
    (frame : ctx.frame = some { holder := holder, hostCall := none }) (id code : I32) :
    (∃ next, ctx.step (.guest (.guestResponseReady id code)) = some next ∧ next.crashed) ↔
      ctx.module.IsHostCall id := by
  rw [← safe.wellFormed.finish_panics_iff id code]
  constructor
  · rintro ⟨next, moved, crashed⟩
    cases (Step.of_step moved).2 with
    | ready _ finished => simp [safe.running] at crashed
    | readyPanics _ panics => exact panics
  · intro panics
    refine ⟨ctx.crash, ?_, rfl⟩
    simp [Context.step, safe.running, Context.guest, frame, panics, Context.afterOp]

/-- An async entry that records an error and traps is completed without a crash. -/
theorem trapping_entry_does_not_crash_host :
    ∃ ctx, Context.machine.run (Context.new 0)
        [.start .async ⟨"op", []⟩, .enter, .guest (.guestError 1 "e"), .exit (.trapped "t")] =
          some ctx ∧ ctx.crashed = false := by
  have created : Context.machine.Steps GuestBehaves (Context.new 0)
      [.start .async ⟨"op", []⟩] _ := .step .refl trivial rfl
  have entered : Context.machine.Steps GuestBehaves (Context.new 0)
      [.start .async ⟨"op", []⟩, .enter] _ := created.step trivial rfl
  have recorded : Context.machine.Steps GuestBehaves (Context.new 0)
      [.start .async ⟨"op", []⟩, .enter, .guest (.guestError 1 "e")] _ :=
    entered.step trivial rfl
  have trapped : Context.machine.Steps GuestBehaves (Context.new 0)
      [.start .async ⟨"op", []⟩, .enter, .guest (.guestError 1 "e"), .exit (.trapped "t")] _ :=
    recorded.step (by
      rintro index rx caller ⟨call, present, noRequest⟩
      cases caller
      cases present
      cases noRequest) rfl
  exact ⟨_, trapped.run_eq, (well_behaved_guest_never_crashes_host 0 _ _ trapped).1⟩

/-- A guest that signals the id of its own host call panics the host inside
`finish_guest_invocation`; one that signals the id of the synchronous call in
progress panics it once the engine has returned. -/
theorem guest_can_crash_host :
    (¬ ∀ events ctx, Context.machine.run (Context.new 0) events = some ctx →
      ctx.crashed = false) ∧
    (¬ ∀ events ctx id code, Context.machine.run (Context.new 0) events = some ctx →
      (ctx.module.calls id).isSome → ctx.module.finishGuestInvocation id code ≠ .panicked) ∧
    (¬ ∀ events ctx index code, Context.machine.run (Context.new 0) events = some ctx →
      ctx.caller = .returned index code → (ctx.module.takeState index).1.isSome) := by
  refine ⟨fun safe => ?_, fun safe => ?_, fun present => ?_⟩
  · exact absurd (safe [.start .sync ⟨"op", []⟩, .enter, .guest (.hostCall ⟨"", "", "", []⟩),
      .hostCallReturns (.ok []), .guest (.guestResponseReady 2 0)] _ rfl) (by decide)
  · exact absurd rfl (safe [.start .sync ⟨"op", []⟩, .enter, .guest (.hostCall ⟨"", "", "", []⟩),
      .hostCallReturns (.ok [])] _ 2 0 rfl rfl)
  · exact absurd (present [.start .sync ⟨"op", []⟩, .enter, .guest (.guestResponseReady 1 0),
      .exit (.returned 1)] _ 1 1 rfl rfl) (by decide)

end Wapc.Host
