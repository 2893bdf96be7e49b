import Mathlib.Data.List.Nodup
import Mathlib.Data.List.Perm.Basic
import Wapc.Host.Step

/-!
# Delivery of async host call results

Three parties touch the result of an async host call: its task records it and
sends a message, the channel keeps the messages in order, and the handler loop
tells the guest. `Queued` accounts for every accepted call in the tasks, the
channel and the handler; `Numbered` keeps the ids apart; `Answered` ties each
message to the one result of its callback and to the entry the guest reads.
-/

namespace Wapc.Host

open Semantics

namespace Observation

/-- The id an observation takes from the counter. -/
def allocated? : Observation → Option I32
  | .invocation id _ | .hostCall id | .accepted id => some id
  | _ => none

/-- The id of a host call of either kind. -/
def hostCall? : Observation → Option I32
  | .hostCall id | .accepted id => some id
  | _ => none

def accepted? : Observation → Option I32
  | .accepted id => some id
  | _ => none

def sent? : Observation → Option (I32 × I32)
  | .sent id code => some (id, code)
  | _ => none

def notified? : Observation → Option (I32 × I32)
  | .notified id code _ _ => some (id, code)
  | _ => none

/-- The result the callback of call `id` gave. -/
def callback? (id : I32) : Observation → Option HostResult
  | .callback other result => if other = id then some result else none
  | _ => none

end Observation

section Log

variable {α β : Type} {f : α → Option β} {x : α}

/-- A projection that does not see the last entry of a log. -/
theorem filterMap_unseen (log : List α) (unseen : f x = none) :
    (log ++ [x]).filterMap f = log.filterMap f := by
  rw [List.filterMap_append, List.filterMap_cons_none unseen, List.filterMap_nil, List.append_nil]

/-- A projection that sees the last entry of a log. -/
theorem filterMap_seen (log : List α) {y : β} (seen : f x = some y) :
    (log ++ [x]).filterMap f = log.filterMap f ++ [y] := by
  rw [List.filterMap_append, List.filterMap_cons_some seen, List.filterMap_nil]

/-- A projection that sees less gives a sublist. -/
theorem filterMap_sublist {coarse fine : α → Option β}
    (sees : ∀ x y, coarse x = some y → fine x = some y) (log : List α) :
    (log.filterMap coarse).Sublist (log.filterMap fine) := by
  induction log with
  | nil => exact .slnil
  | cons x log ih =>
    cases seen : coarse x with
    | none =>
      rw [List.filterMap_cons_none seen]
      exact ih.trans (List.Sublist.filterMap fine (List.sublist_cons_self x log))
    | some y =>
      rw [List.filterMap_cons_some seen, List.filterMap_cons_some (sees x y seen)]
      exact ih.cons_cons y

/-- A projection that does not see traps does not see how a guest entry ends. -/
theorem Exit.filterMap_log {f : Observation → Option β} (exit : Exit) (log : List Observation)
    (unseen : ∀ message, f (.trapped message) = none) :
    (exit.log log).filterMap f = log.filterMap f := by
  cases exit with
  | returned code => rfl
  | trapped message => exact filterMap_unseen log (unseen message)

end Log

/-- The messages the handler loop took out of the channel and has not passed on. -/
def Handler.pending : Handler → List (I32 × I32)
  | .received id code => [(id, code)]
  | _ => []

/-- The message a task still has to send. -/
def Task.message? : Task → Option (I32 × I32)
  | ⟨id, _, .recorded code⟩ => some (id, code)
  | _ => none

/-- The call the caller's thread is busy with. -/
def Caller.index? : Caller → Option I32
  | .starting _ index _ | .inside _ index _ | .returned index _ | .waiting index _ => some index
  | _ => none

namespace Context

variable (ctx : Context)

/-- The ids taken so far, in order. -/
def allocated : List I32 := ctx.log.filterMap Observation.allocated?

/-- The ids of the host calls made so far. -/
def hostCalls : List I32 := ctx.log.filterMap Observation.hostCall?

/-- The ids of the async host calls accepted so far. -/
def accepted : List I32 := ctx.log.filterMap Observation.accepted?

/-- The messages sent so far, in order. -/
def sent : List (I32 × I32) := ctx.log.filterMap Observation.sent?

/-- The calls of `__host_call_response_ready` made so far, in order. -/
def notified : List (I32 × I32) := ctx.log.filterMap Observation.notified?

/-- What the callback of call `id` returned so far. -/
def callbackResults (id : I32) : List HostResult :=
  ctx.log.filterMap (Observation.callback? id)

/-- The messages that were sent or will be sent next. -/
def outbox : List (I32 × I32) := ctx.tasks.filterMap Task.message? ++ ctx.sent

end Context

/-- Every message is in the channel, with the handler or notified, in the order
of sending; every accepted call has its task or its message; and the handler is
busy while it is in the guest. -/
structure Queued (ctx : Context) : Prop where
  ordered : ctx.sent = ctx.notified ++ ctx.handler.pending ++ ctx.channel.map (·.payload)
  accounted : ctx.accepted.Perm (ctx.tasks.map (·.id) ++ ctx.sent.map (·.1))
  entered : ∀ hostCall, ctx.frame = some { holder := .handler, hostCall := hostCall } →
    ctx.handler = .busy

namespace Queued

variable {ctx next : Context} {event : Event}

/-- Taking a task out of the list puts its id among those that sent a message. -/
theorem sends (n : Nat) {tasks : List Task} {task : Task} (present : tasks[n]? = some task)
    (sent : List I32) : (tasks.map (·.id) ++ sent).Perm
      ((tasks.eraseIdx n).map (·.id) ++ (sent ++ [task.id])) := by
  obtain ⟨bound, rfl⟩ := List.getElem?_eq_some_iff.mp present
  have moved := (List.getElem_cons_eraseIdx_perm bound).map (·.id)
  calc (tasks.map (·.id) ++ sent).Perm
        (tasks[n].id :: (tasks.eraseIdx n).map (·.id) ++ sent) := moved.symm.append_right sent
    _ |>.Perm ((tasks.eraseIdx n).map (·.id) ++ (tasks[n].id :: sent)) :=
        List.perm_middle.symm
    _ |>.Perm ((tasks.eraseIdx n).map (·.id) ++ (sent ++ [tasks[n].id])) :=
        (List.perm_append_singleton _ _).symm.append_left _

/-- Recording the result of a task keeps the ids of the tasks. -/
theorem set_id {n : Nat} {tasks : List Task} {task : Task} (present : tasks[n]? = some task)
    (phase : TaskPhase) : (tasks.set n { task with phase := phase }).map (·.id) =
      tasks.map (·.id) := by
  apply List.ext_getElem?
  intro m
  by_cases same : m = n
  · subst same
    obtain ⟨bound, found⟩ := List.getElem?_eq_some_iff.mp present
    simp [bound, found]
  · simp [Ne.symm same]

/-- A step that sends, takes and accepts nothing. -/
theorem frame (queued : Queued ctx) (sent : next.sent = ctx.sent)
    (notified : next.notified = ctx.notified) (accepted : next.accepted = ctx.accepted)
    (tasks : next.tasks.map (·.id) = ctx.tasks.map (·.id))
    (handler : next.handler.pending = ctx.handler.pending) (channel : next.channel = ctx.channel)
    (entered : ∀ hostCall, next.frame = some { holder := .handler, hostCall := hostCall } →
      next.handler = .busy) : Queued next where
  ordered := by
    rw [sent, notified, handler, channel]
    exact queued.ordered
  accounted := by
    rw [accepted, tasks, sent]
    exact queued.accounted
  entered := entered

/-- A task sends its message and ends. -/
theorem send (queued : Queued ctx) {n : Nat} {id code : I32} {request : HostRequest}
    (task : ctx.tasks[n]? = some ⟨id, request, .recorded code⟩)
    (tasks : next.tasks = ctx.tasks.eraseIdx n)
    (channel : next.channel = ctx.channel ++ [.ofCode id code])
    (handler : next.handler = ctx.handler) (frame : next.frame = ctx.frame)
    (log : next.log = ctx.log ++ [.sent id code]) : Queued next := by
  have sent : next.sent = ctx.sent ++ [(id, code)] := by
    rw [Context.sent, log]
    exact filterMap_seen _ rfl
  have notified : next.notified = ctx.notified := by
    rw [Context.notified, log]
    exact filterMap_unseen _ rfl
  have accepted : next.accepted = ctx.accepted := by
    rw [Context.accepted, log]
    exact filterMap_unseen _ rfl
  refine ⟨?_, ?_, ?_⟩
  · rw [sent, notified, handler, channel, queued.ordered, List.map_append, List.map_singleton,
      AsyncChannel.payload_ofCode, List.append_assoc _ (ctx.channel.map _)]
  · rw [accepted, tasks, sent, List.map_append]
    exact queued.accounted.trans (sends n task _)
  · rw [frame, handler]
    exact queued.entered

/-- The handler loop passes its message on to the guest. -/
theorem notifies (queued : Queued ctx) {id code : I32} {response : Option Bytes}
    {error : Option String} (received : ctx.handler = .received id code)
    (tasks : next.tasks = ctx.tasks) (channel : next.channel = ctx.channel)
    (handler : next.handler = .busy)
    (log : next.log = ctx.log ++ [.notified id code response error]) : Queued next := by
  have sent : next.sent = ctx.sent := by
    rw [Context.sent, log]
    exact filterMap_unseen _ rfl
  have notified : next.notified = ctx.notified ++ [(id, code)] := by
    rw [Context.notified, log]
    exact filterMap_seen _ rfl
  have accepted : next.accepted = ctx.accepted := by
    rw [Context.accepted, log]
    exact filterMap_unseen _ rfl
  refine ⟨?_, ?_, fun _ _ => handler⟩
  · rw [sent, notified, handler, channel, queued.ordered, received]
    simp only [Handler.pending, List.append_nil]
  · rw [accepted, tasks, sent]
    exact queued.accounted

/-- An accepted call gets a task. -/
theorem accepts (queued : Queued ctx) {id : I32} {request : HostRequest}
    (tasks : next.tasks = ctx.tasks ++ [⟨id, request, .running⟩])
    (channel : next.channel = ctx.channel) (handler : next.handler = ctx.handler)
    (frame : next.frame = ctx.frame) (log : next.log = ctx.log ++ [.accepted id]) :
    Queued next := by
  have sent : next.sent = ctx.sent := by
    rw [Context.sent, log]
    exact filterMap_unseen _ rfl
  have notified : next.notified = ctx.notified := by
    rw [Context.notified, log]
    exact filterMap_unseen _ rfl
  have accepted : next.accepted = ctx.accepted ++ [id] := by
    rw [Context.accepted, log]
    exact filterMap_seen _ rfl
  refine ⟨?_, ?_, ?_⟩
  · rw [sent, notified, handler, channel]
    exact queued.ordered
  · have moved := queued.accounted.append_right [id]
    rw [accepted, tasks, sent, List.map_append, List.map_singleton]
    rw [List.append_assoc] at moved ⊢
    exact moved.trans (List.perm_append_comm.append_left _)
  · rw [frame, handler]
    exact queued.entered

theorem step (queued : Queued ctx) (moved : Step ctx event next) : Queued next := by
  have entered := queued.entered
  cases moved with
  | @taskRecord n id request result task =>
    exact queued.frame (filterMap_unseen _ rfl) (filterMap_unseen _ rfl) (filterMap_unseen _ rfl)
      (set_id task _) rfl rfl entered
  | taskSend task => exact queued.send task rfl rfl rfl rfl rfl
  | receive idle waiting =>
    refine ⟨?_, queued.accounted, ?_⟩
    · have ordered := queued.ordered
      rw [idle, waiting, List.map_cons] at ordered
      simpa [Context.sent, Context.notified, Handler.pending] using ordered
    · intro hostCall frame
      rw [entered hostCall frame] at idle
      cases idle
  | notify received unlocked => exact queued.notifies received rfl rfl rfl rfl
  | asyncHostCall frame => exact queued.accepts rfl rfl rfl rfl rfl
  | @handlerExit exit frame =>
    have busy := entered none frame
    exact queued.frame (exit.filterMap_log _ fun _ => rfl) (exit.filterMap_log _ fun _ => rfl)
      (exit.filterMap_log _ fun _ => rfl) rfl (by rw [busy]; rfl) rfl (by simp)
  | hostCall frame =>
    refine queued.frame (filterMap_unseen _ rfl) (filterMap_unseen _ rfl)
      (filterMap_unseen _ rfl) rfl rfl rfl ?_
    rintro hostCall ⟨rfl⟩
    exact entered none frame
  | hostCallReturns frame =>
    refine queued.frame rfl rfl rfl rfl rfl rfl ?_
    rintro hostCall ⟨rfl⟩
    exact entered _ frame
  | start =>
    exact queued.frame (filterMap_unseen _ rfl) (filterMap_unseen _ rfl)
      (filterMap_unseen _ rfl) rfl rfl rfl entered
  | syncTrapped | asyncTrapped | asyncTrapPanics =>
    exact queued.frame (filterMap_unseen _ rfl) (filterMap_unseen _ rfl)
      (filterMap_unseen _ rfl) rfl rfl rfl (by simp)
  | enter | syncReturned | asyncReturned =>
    exact queued.frame rfl rfl rfl rfl rfl rfl (by simp)
  | _ => exact queued.frame rfl rfl rfl rfl rfl rfl entered

end Queued

/-- The first `n` ids of a context. -/
def firstIds (n : Nat) : List I32 := (List.range n).map fun k => BitVec.ofNat 32 (k + 1)

theorem firstIds_succ (n : Nat) : firstIds (n + 1) = firstIds n ++ [BitVec.ofNat 32 (n + 1)] := by
  simp [firstIds, List.range_succ]

theorem firstIds_nodup {n : Nat} (few : n < 2 ^ 32) : (firstIds n).Nodup := by
  refine List.Nodup.map_on ?_ List.nodup_range
  intro first inFirst second inSecond same
  rw [List.mem_range] at inFirst inSecond
  have equal := congrArg BitVec.toNat same
  rw [BitVec.toNat_ofNat, BitVec.toNat_ofNat, Nat.mod_eq_of_lt (by omega),
    Nat.mod_eq_of_lt (by omega)] at equal
  omega

namespace Context

variable (ctx : Context)

theorem hostCalls_sublist : ctx.hostCalls.Sublist ctx.allocated :=
  filterMap_sublist (by rintro (_ | _ | _ | _ | _ | _ | _) id seen <;> cases seen <;> rfl) ctx.log

theorem accepted_sublist : ctx.accepted.Sublist ctx.hostCalls :=
  filterMap_sublist (by rintro (_ | _ | _ | _ | _ | _ | _) id seen <;> cases seen; rfl) ctx.log

end Context

/-- The ids taken are the first ones the counter gives; the caller's id is none
of the host calls', and the id the guest is blocked on none of the accepted. -/
structure Numbered (ctx : Context) : Prop where
  counter : ctx.module.callIndex = BitVec.ofNat 32 (ctx.allocated.length + 1)
  numbered : ctx.allocated = firstIds ctx.allocated.length
  own : ∀ index, ctx.caller.index? = some index →
    index ∈ ctx.allocated ∧ index ∉ ctx.hostCalls
  blocked : ∀ holder id, ctx.frame = some { holder := holder, hostCall := some id } →
    id ∈ ctx.allocated ∧ id ∉ ctx.accepted

namespace Numbered

variable {ctx next : Context} {event : Event}

theorem nodup (numbered : Numbered ctx) (few : ctx.allocated.length < 2 ^ 32) :
    ctx.allocated.Nodup := by
  rw [numbered.numbered]
  exact firstIds_nodup few

/-- The next id was not taken before. -/
theorem fresh (numbered : Numbered ctx) (few : ctx.allocated.length + 1 < 2 ^ 32) :
    ctx.module.callIndex ∉ ctx.allocated := by
  have longer := firstIds_nodup few
  rw [firstIds_succ, ← numbered.numbered, ← numbered.counter] at longer
  intro member
  exact List.disjoint_of_nodup_append longer member (List.mem_singleton_self _)

/-- Taking the next id. -/
theorem take (numbered : Numbered ctx) {log : List I32}
    (taken : log = ctx.allocated ++ [ctx.module.callIndex]) :
    ctx.module.callIndex + 1 = BitVec.ofNat 32 (log.length + 1) ∧ log = firstIds log.length := by
  subst taken
  constructor
  · rw [numbered.counter]
    simp [BitVec.ofNat_add]
  · rw [List.length_append, List.length_singleton, firstIds_succ, ← numbered.numbered,
      ← numbered.counter]

/-- An event that takes no id leaves the counter alone. -/
theorem quiet (moved : Step ctx event next)
    (takesNone : ∀ op ∈ ctx.ops event, op.allocates = false) :
    next.module.callIndex = ctx.module.callIndex := by
  rcases moved.run_ops with executed | ⟨_, same⟩
  · exact ModuleState.run_callIndex executed takesNone
  · rw [same]

/-- A step that takes no id and gives the caller and the guest no other. -/
theorem frame (numbered : Numbered ctx)
    (counter : next.module.callIndex = ctx.module.callIndex)
    (allocated : next.allocated = ctx.allocated) (hostCalls : next.hostCalls = ctx.hostCalls)
    (accepted : next.accepted = ctx.accepted)
    (callers : ∀ index, next.caller.index? = some index → ctx.caller.index? = some index)
    (frames : ∀ holder id, next.frame = some { holder := holder, hostCall := some id } →
      ctx.frame = some { holder := holder, hostCall := some id }) : Numbered next where
  counter := by rw [counter, allocated, numbered.counter]
  numbered := by rw [allocated, ← numbered.numbered]
  own := by
    intro index busy
    rw [allocated, hostCalls]
    exact numbered.own index (callers index busy)
  blocked := by
    intro holder id blocked
    rw [allocated, accepted]
    exact numbered.blocked holder id (frames holder id blocked)

/-- A step that takes the next id. -/
theorem takes (numbered : Numbered ctx)
    (counter : next.module.callIndex = ctx.module.callIndex + 1)
    (allocated : next.allocated = ctx.allocated ++ [ctx.module.callIndex])
    (own : ∀ index, next.caller.index? = some index →
      index ∈ next.allocated ∧ index ∉ next.hostCalls)
    (blocked : ∀ holder id, next.frame = some { holder := holder, hostCall := some id } →
      id ∈ next.allocated ∧ id ∉ next.accepted) : Numbered next := by
  obtain ⟨after, first⟩ := numbered.take allocated
  exact ⟨counter.trans after, first, own, blocked⟩

/-- The caller starts an invocation under the next id. -/
theorem start (numbered : Numbered ctx) (fresh : ctx.module.callIndex ∉ ctx.hostCalls)
    (counter : next.module.callIndex = ctx.module.callIndex + 1) (frame : next.frame = ctx.frame)
    (caller : next.caller.index? = some ctx.module.callIndex) {rx : Oneshot}
    (log : next.log = ctx.log ++ [.invocation ctx.module.callIndex rx]) : Numbered next := by
  have allocated : next.allocated = ctx.allocated ++ [ctx.module.callIndex] := by
    rw [Context.allocated, log]
    exact filterMap_seen _ rfl
  have hostCalls : next.hostCalls = ctx.hostCalls := by
    rw [Context.hostCalls, log]
    exact filterMap_unseen _ rfl
  have accepted : next.accepted = ctx.accepted := by
    rw [Context.accepted, log]
    exact filterMap_unseen _ rfl
  refine numbered.takes counter allocated ?_ ?_
  · intro index busy
    rw [caller] at busy
    cases busy
    rw [allocated, hostCalls]
    exact ⟨List.mem_append_right _ (List.mem_singleton_self _), fresh⟩
  · intro holder id blocked
    rw [frame] at blocked
    obtain ⟨taken, notAsync⟩ := numbered.blocked holder id blocked
    rw [allocated, accepted]
    exact ⟨List.mem_append_left _ taken, notAsync⟩

/-- The caller's id stays apart from a new host call of either kind. -/
theorem own_beside (numbered : Numbered ctx) (fresh : ctx.module.callIndex ∉ ctx.allocated)
    (allocated : next.allocated = ctx.allocated ++ [ctx.module.callIndex])
    (hostCalls : next.hostCalls = ctx.hostCalls ++ [ctx.module.callIndex])
    (caller : next.caller = ctx.caller) :
    ∀ index, next.caller.index? = some index →
      index ∈ next.allocated ∧ index ∉ next.hostCalls := by
  intro index busy
  rw [caller] at busy
  obtain ⟨taken, apart⟩ := numbered.own index busy
  rw [allocated, hostCalls]
  refine ⟨List.mem_append_left _ taken, ?_⟩
  intro member
  rcases List.mem_append.mp member with earlier | own
  · exact apart earlier
  · exact fresh (List.mem_singleton.mp own ▸ taken)

/-- The guest makes a synchronous host call under the next id. -/
theorem hostCall (numbered : Numbered ctx) (fresh : ctx.module.callIndex ∉ ctx.allocated)
    (counter : next.module.callIndex = ctx.module.callIndex + 1) {holder : Holder}
    (frame : next.frame = some { holder := holder, hostCall := some ctx.module.callIndex })
    (caller : next.caller = ctx.caller)
    (log : next.log = ctx.log ++ [.hostCall ctx.module.callIndex]) : Numbered next := by
  have allocated : next.allocated = ctx.allocated ++ [ctx.module.callIndex] := by
    rw [Context.allocated, log]
    exact filterMap_seen _ rfl
  have hostCalls : next.hostCalls = ctx.hostCalls ++ [ctx.module.callIndex] := by
    rw [Context.hostCalls, log]
    exact filterMap_seen _ rfl
  have accepted : next.accepted = ctx.accepted := by
    rw [Context.accepted, log]
    exact filterMap_unseen _ rfl
  refine numbered.takes counter allocated
    (numbered.own_beside fresh allocated hostCalls caller) ?_
  intro holder' id blocked
  rw [frame] at blocked
  cases blocked
  rw [allocated, accepted]
  exact ⟨List.mem_append_right _ (List.mem_singleton_self _), fun member =>
    fresh (ctx.hostCalls_sublist.subset (ctx.accepted_sublist.subset member))⟩

/-- The guest makes an async host call under the next id. -/
theorem asyncHostCall (numbered : Numbered ctx) (fresh : ctx.module.callIndex ∉ ctx.allocated)
    (counter : next.module.callIndex = ctx.module.callIndex + 1) {holder : Holder}
    (frame : next.frame = some { holder := holder, hostCall := none })
    (caller : next.caller = ctx.caller)
    (log : next.log = ctx.log ++ [.accepted ctx.module.callIndex]) : Numbered next := by
  have allocated : next.allocated = ctx.allocated ++ [ctx.module.callIndex] := by
    rw [Context.allocated, log]
    exact filterMap_seen _ rfl
  have hostCalls : next.hostCalls = ctx.hostCalls ++ [ctx.module.callIndex] := by
    rw [Context.hostCalls, log]
    exact filterMap_seen _ rfl
  refine numbered.takes counter allocated
    (numbered.own_beside fresh allocated hostCalls caller) ?_
  intro holder' id blocked
  rw [frame] at blocked
  cases blocked

theorem step (numbered : Numbered ctx) (few : ctx.allocated.length + 1 < 2 ^ 32)
    (moved : Step ctx event next) : Numbered next := by
  have fresh := numbered.fresh few
  have quiet := quiet moved
  cases moved with
  | start free =>
    exact numbered.start (fun member => fresh (ctx.hostCalls_sublist.subset member)) rfl rfl rfl
      rfl
  | hostCall frame => exact numbered.hostCall fresh rfl rfl rfl rfl
  | asyncHostCall frame => exact numbered.asyncHostCall fresh rfl frame rfl rfl
  | guestResponse | guestError | ready | readyPanics | read =>
    exact numbered.frame (quiet (by simp [Context.ops, Op.allocates])) rfl rfl rfl
      (fun _ busy => busy) (fun _ _ blocked => blocked)
  | hostCallReturns frame =>
    exact numbered.frame (quiet (by simp [Context.ops, frame, Op.allocates])) rfl rfl rfl
      (fun _ busy => busy) (by simp)
  | dropFuture | exportMissing | resolve | resolveDropped =>
    exact numbered.frame rfl rfl rfl rfl (by simp [Caller.index?]) (fun _ _ blocked => blocked)
  | finish caller present =>
    exact numbered.frame (quiet (by simp [Context.ops, caller, Op.allocates])) rfl rfl rfl
      (by simp [Caller.index?]) (fun _ _ blocked => blocked)
  | finishPanics | receive =>
    exact numbered.frame rfl rfl rfl rfl (fun _ busy => busy) (fun _ _ blocked => blocked)
  | @handlerExit exit frame =>
    exact numbered.frame rfl (exit.filterMap_log _ fun _ => rfl)
      (exit.filterMap_log _ fun _ => rfl) (exit.filterMap_log _ fun _ => rfl)
      (fun _ busy => busy) (by simp)
  | enter caller unlocked | syncReturned frame caller | asyncReturned frame caller =>
    exact numbered.frame rfl rfl rfl rfl (by simp [caller, Caller.index?]) (by simp)
  | syncTrapped frame caller | asyncTrapped frame caller | asyncTrapPanics frame caller =>
    exact numbered.frame (quiet (by simp [Context.ops, frame, caller, Op.allocates]))
      (filterMap_unseen _ rfl) (filterMap_unseen _ rfl) (filterMap_unseen _ rfl)
      (by simp [caller, Caller.index?]) (by simp)
  | taskRecord task =>
    exact numbered.frame (quiet (by simp [Context.ops, task, Op.allocates]))
      (filterMap_unseen _ rfl) (filterMap_unseen _ rfl) (filterMap_unseen _ rfl)
      (fun _ busy => busy) (fun _ _ blocked => blocked)
  | taskSend task =>
    exact numbered.frame rfl (filterMap_unseen _ rfl) (filterMap_unseen _ rfl)
      (filterMap_unseen _ rfl) (fun _ busy => busy) (fun _ _ blocked => blocked)
  | notify received unlocked =>
    exact numbered.frame rfl (filterMap_unseen _ rfl) (filterMap_unseen _ rfl)
      (filterMap_unseen _ rfl) (fun _ busy => busy) (by simp)

end Numbered

/-- The entry of a host call with what `get_host_response` and `get_host_error`
give for it. -/
def ModuleState.HostEntry (state : ModuleState) (id : I32) (response : Option Bytes)
    (error : Option String) : Prop :=
  ∃ call, state.calls id = some call ∧ call.hostResponse = response ∧ call.hostError = error

namespace ModuleState.HostEntry

variable {state next : ModuleState} {id : I32} {response : Option Bytes} {error : Option String}

/-- Only recording a result for the call itself changes its entry. -/
theorem apply (entry : state.HostEntry id response error) {op : Op}
    (applied : op.apply state = .returned next) (goesOn : ¬ op.ends id)
    (fresh : op.allocates → state.callIndex ≠ id)
    (unrecorded : ∀ result, op ≠ .recordHostResult id result) :
    next.HostEntry id response error := by
  obtain ⟨call, present, rfl, rfl⟩ := entry
  have changed := Op.apply_calls applied goesOn fresh
  rw [present] at changed
  refine ⟨_, changed, ?_⟩
  cases op with
  | recordHostResult other result =>
    have different : other ≠ id := fun same => unrecorded result (same ▸ rfl)
    simp [Op.change, different]
  | setGuestResponse other value => by_cases same : other = id <;> simp [Op.change, same]
  | setGuestError other value => by_cases same : other = id <;> simp [Op.change, same]
  | _ => exact ⟨rfl, rfl⟩

theorem run (entry : state.HostEntry id response error) {ops : List Op}
    (executed : state.run ops = .returned next) (goesOn : ∀ op ∈ ops, ¬ op.ends id)
    (room : state.Room id (allocations ops))
    (unrecorded : ∀ op ∈ ops, ∀ result, op ≠ .recordHostResult id result) :
    next.HostEntry id response error := by
  refine room.induction (motive := fun _ reached => reached.HostEntry id response error) executed
    entry ?_
  intro op member _ before after entry applied fresh
  exact entry.apply applied (goesOn op member) fresh (unrecorded op member)

end ModuleState.HostEntry

/-- The guest signals `__guest_call_response_ready` for no host call. -/
def GuestSparesHostCalls (ctx : Context) : Event → Prop
  | .guest (.guestResponseReady id _) => id ∉ ctx.hostCalls
  | _ => True

theorem Context.ops_allocations (ctx : Context) (event : Event) :
    allocations (ctx.ops event) ≤ 1 := by
  cases event with
  | guest call => cases call <;> simp [Context.ops, allocations, Op.allocates]
  | exit exit =>
    cases exit with
    | returned code => simp [Context.ops, allocations]
    | trapped message =>
      simp only [Context.ops]
      split <;> simp [allocations, Op.allocates]
  | start mode inv => simp [Context.ops, allocations, Op.allocates]
  | _ =>
    simp only [Context.ops]
    try split
    all_goals simp [allocations, Op.allocates]

/-- No event ends a host call while the guest spares them. -/
theorem Numbered.spares {ctx next : Context} {event : Event} (numbered : Numbered ctx)
    (spares : GuestSparesHostCalls ctx event) (moved : Step ctx event next) {id : I32}
    (hostCall : id ∈ ctx.hostCalls) : ∀ op ∈ ctx.ops event, ¬ op.ends id := by
  have own : ∀ index, ctx.caller.index? = some index → index ≠ id := by
    rintro index busy rfl
    exact (numbered.own index busy).2 hostCall
  cases moved with
  | ready | readyPanics =>
    have different : ∀ other, other ∉ ctx.hostCalls → other ≠ id := by
      rintro other spared rfl
      exact spared hostCall
    simp [Context.ops, Op.ends, Op.finish?, different _ spares]
  | asyncTrapped frame caller | asyncTrapPanics frame caller =>
    have different := own _ (by rw [caller]; rfl)
    simp [Context.ops, frame, caller, Op.ends, Op.finish?, different]
  | finish caller | finishPanics caller =>
    have different := own _ (by rw [caller]; rfl)
    simp [Context.ops, caller, Op.ends, different]
  | syncTrapped frame caller => simp [Context.ops, frame, caller, Op.ends, Op.finish?]
  | hostCallReturns frame => simp [Context.ops, frame, Op.ends, Op.finish?]
  | @handlerExit exit frame => cases exit <;> simp [Context.ops, frame]
  | taskRecord task => simp [Context.ops, task, Op.ends, Op.finish?]
  | _ => simp [Context.ops, Op.ends, Op.finish?]

/-- The response a callback's result leaves in its entry. -/
def responseOf : HostResult → Option Bytes
  | .ok value => some value
  | .error _ => none

/-- The error text a callback's result leaves in its entry. -/
def errorOf : HostResult → Option String
  | .ok _ => none
  | .error text => some text

/-- The callback of `id` returned once, with this code, response and error. -/
def Context.Answers (ctx : Context) (id code : I32) (response : Option Bytes)
    (error : Option String) : Prop :=
  ∃ result, ctx.callbackResults id = [result] ∧ code = ModuleState.returnCode id result ∧
    response = responseOf result ∧ error = errorOf result

/-- Before its callback returns, an accepted call has an empty entry; from then
on, its message, its entry and what the guest was told are those of the result. -/
structure Answered (ctx : Context) : Prop where
  called : ∀ id, ctx.callbackResults id ≠ [] → id ∈ ctx.accepted
  running : ∀ task ∈ ctx.tasks, task.phase = .running →
    ctx.module.HostEntry task.id none none ∧ ctx.callbackResults task.id = []
  recorded : ∀ id code, (id, code) ∈ ctx.outbox → ∃ response error,
    ctx.module.HostEntry id response error ∧ ctx.Answers id code response error
  told : ∀ id code response error, .notified id code response error ∈ ctx.log →
    ctx.Answers id code response error

namespace Answered

variable {ctx next : Context} {event : Event}

/-- An event that is not the callback of an accepted call keeps its entry and
the results of its callback. -/
theorem keeps (numbered : Numbered ctx) (few : ctx.allocated.length + 1 < 2 ^ 32)
    (spares : GuestSparesHostCalls ctx event) (moved : Step ctx event next) {id : I32}
    (accepted : id ∈ ctx.accepted)
    (elsewhere : ∀ n result task, event = .taskRecord n result → ctx.tasks[n]? = some task →
      task.id ≠ id) :
    next.callbackResults id = ctx.callbackResults id ∧
      ∀ response error, ctx.module.HostEntry id response error →
        next.module.HostEntry id response error := by
  have hostCall := ctx.accepted_sublist.subset accepted
  have taken := ctx.hostCalls_sublist.subset hostCall
  constructor
  · cases moved with
    | taskRecord task =>
      have different := elsewhere _ _ _ rfl task
      exact filterMap_unseen _ (if_neg different)
    | @handlerExit exit frame => exact exit.filterMap_log _ fun _ => rfl
    | _ => first | rfl | exact filterMap_unseen _ rfl
  · intro response error entry
    rcases moved.run_ops with executed | ⟨_, same⟩
    · have different : ctx.module.callIndex ≠ id :=
        fun same => numbered.fresh few (same ▸ taken)
      refine entry.run executed (numbered.spares spares moved hostCall)
        (.soon different (ctx.ops_allocations event)) ?_
      cases moved with
      | @hostCallReturns holder other result frame =>
        have different : other ≠ id := by
          rintro rfl
          exact (numbered.blocked holder _ frame).2 accepted
        simp [Context.ops, frame, different]
      | taskRecord task =>
        have different := elsewhere _ _ _ rfl task
        simp [Context.ops, task, different]
      | @handlerExit exit frame => cases exit <;> simp [Context.ops, frame]
      | finish caller | finishPanics caller => simp [Context.ops, caller]
      | syncTrapped frame caller | asyncTrapped frame caller | asyncTrapPanics frame caller =>
        simp [Context.ops, frame, caller]
      | _ => simp [Context.ops]
    · rwa [same]

/-- A call that was answered is accepted. -/
theorem accepted_of_answers (answered : Answered ctx) {id code : I32} {response : Option Bytes}
    {error : Option String} (answers : ctx.Answers id code response error) :
    id ∈ ctx.accepted := by
  obtain ⟨result, once, _⟩ := answers
  exact answered.called id (by simp [once])

/-- A step that calls back and notifies nobody new. -/
theorem frame (answered : Answered ctx) (queued : Queued ctx)
    (kept : ∀ id ∈ ctx.accepted, next.callbackResults id = ctx.callbackResults id ∧
      ∀ response error, ctx.module.HostEntry id response error →
        next.module.HostEntry id response error)
    (accepted : ctx.accepted ⊆ next.accepted)
    (called : ∀ id, next.callbackResults id ≠ [] → ctx.callbackResults id ≠ [])
    (tasks : ∀ task ∈ next.tasks, task.phase = .running → task ∈ ctx.tasks)
    (outbox : ∀ message ∈ next.outbox, message ∈ ctx.outbox)
    (told : ∀ id code response error, .notified id code response error ∈ next.log →
      Observation.notified id code response error ∈ ctx.log) : Answered next where
  called := fun id answer => accepted (answered.called id (called id answer))
  running := by
    intro task member running
    have present := tasks task member running
    obtain ⟨entry, silent⟩ := answered.running task present running
    obtain ⟨same, keeps⟩ := kept task.id (queued.accounted.symm.subset
      (List.mem_append_left _ (List.mem_map_of_mem present)))
    exact ⟨keeps none none entry, same.trans silent⟩
  recorded := by
    intro id code member
    obtain ⟨response, error, entry, answers⟩ := answered.recorded id code (outbox _ member)
    obtain ⟨same, keeps⟩ := kept id (answered.accepted_of_answers answers)
    exact ⟨response, error, keeps response error entry, by rwa [Context.Answers, same]⟩
  told := by
    intro id code response error member
    have answers := answered.told id code response error (told id code response error member)
    obtain ⟨same, _⟩ := kept id (answered.accepted_of_answers answers)
    rwa [Context.Answers, same]

/-- A step that logs something of no concern to the calls. -/
theorem logs (answered : Answered ctx) (queued : Queued ctx)
    (kept : ∀ id ∈ ctx.accepted, next.callbackResults id = ctx.callbackResults id ∧
      ∀ response error, ctx.module.HostEntry id response error →
        next.module.HostEntry id response error)
    (tasks : next.tasks = ctx.tasks) {x : Observation} (log : next.log = ctx.log ++ [x])
    (notAccepted : x.accepted? = none) (notCallback : ∀ id, x.callback? id = none)
    (notSent : x.sent? = none) (notNotified : x.notified? = none) : Answered next := by
  have accepted : next.accepted = ctx.accepted := by
    rw [Context.accepted, log]
    exact filterMap_unseen _ notAccepted
  have results : ∀ id, next.callbackResults id = ctx.callbackResults id := by
    intro id
    rw [Context.callbackResults, log]
    exact filterMap_unseen _ (notCallback id)
  have sent : next.sent = ctx.sent := by
    rw [Context.sent, log]
    exact filterMap_unseen _ notSent
  refine answered.frame queued kept ?_ ?_ ?_ ?_ ?_
  · rw [accepted]
    exact List.Subset.refl _
  · intro id answer
    rwa [results] at answer
  · intro task member _
    rwa [tasks] at member
  · intro message member
    rwa [Context.outbox, tasks, sent] at member
  · intro id code response error member
    rw [log] at member
    rcases List.mem_append.mp member with earlier | own
    · exact earlier
    · rw [← List.mem_singleton.mp own] at notNotified
      cases notNotified

/-- Telling the guest passes on the entry that the message speaks of. -/
theorem notify (answered : Answered ctx) (queued : Queued ctx) {id code : I32}
    (received : ctx.handler = .received id code) (module : next.module = ctx.module)
    (tasks : next.tasks = ctx.tasks)
    (log : next.log = ctx.log ++
      [.notified id code (ctx.module.getHostResponse id) (ctx.module.getHostError id)]) :
    Answered next := by
  have results : ∀ id, next.callbackResults id = ctx.callbackResults id := by
    intro id
    rw [Context.callbackResults, log]
    exact filterMap_unseen _ rfl
  have accepted : next.accepted = ctx.accepted := by
    rw [Context.accepted, log]
    exact filterMap_unseen _ rfl
  have outbox : next.outbox = ctx.outbox := by
    rw [Context.outbox, Context.sent, tasks, log, filterMap_unseen _ rfl]
    rfl
  have sent : (id, code) ∈ ctx.sent := by
    rw [queued.ordered, received]
    simp [Handler.pending]
  refine ⟨?_, ?_, ?_, ?_⟩
  · simpa [results, accepted] using answered.called
  · simpa [results, module, tasks] using answered.running
  · simpa [Context.Answers, results, outbox, module] using answered.recorded
  · intro id' code' response error member
    rw [Context.Answers, results]
    rw [log] at member
    rcases List.mem_append.mp member with earlier | own
    · exact answered.told id' code' response error earlier
    · obtain ⟨response, error, ⟨call, present, rfl, rfl⟩, answers⟩ :=
        answered.recorded id code (List.mem_append_right _ sent)
      simp only [List.mem_singleton, Observation.notified.injEq] at own
      obtain ⟨rfl, rfl, rfl, rfl⟩ := own
      simpa [Context.Answers, ModuleState.getHostResponse, ModuleState.getHostError, present]
        using answers

/-- An accepted call starts with an empty entry and no result. -/
theorem accept (answered : Answered ctx) (queued : Queued ctx) {request : HostRequest}
    (kept : ∀ id ∈ ctx.accepted, next.callbackResults id = ctx.callbackResults id ∧
      ∀ response error, ctx.module.HostEntry id response error →
        next.module.HostEntry id response error)
    (fresh : ctx.module.callIndex ∉ ctx.accepted)
    (module : next.module = ctx.module.beginHostCall.2)
    (tasks : next.tasks = ctx.tasks ++ [⟨ctx.module.callIndex, request, .running⟩])
    (log : next.log = ctx.log ++ [.accepted ctx.module.callIndex]) : Answered next := by
  have results : ∀ id, next.callbackResults id = ctx.callbackResults id := by
    intro id
    rw [Context.callbackResults, log]
    exact filterMap_unseen _ rfl
  have accepted : next.accepted = ctx.accepted ++ [ctx.module.callIndex] := by
    rw [Context.accepted, log]
    exact filterMap_seen _ rfl
  have outbox : next.outbox = ctx.outbox := by
    rw [Context.outbox, Context.sent, tasks, log, filterMap_unseen _ rfl, filterMap_unseen _ rfl]
    rfl
  have silent : ctx.callbackResults ctx.module.callIndex = [] := by
    by_contra answer
    exact fresh (answered.called _ answer)
  refine ⟨?_, ?_, ?_, ?_⟩
  · intro id answer
    rw [results] at answer
    rw [accepted]
    exact List.mem_append_left _ (answered.called id answer)
  · intro task member running
    rw [results]
    rw [tasks] at member
    rcases List.mem_append.mp member with earlier | own
    · obtain ⟨entry, unanswered⟩ := answered.running task earlier running
      obtain ⟨_, keeps⟩ := kept task.id (queued.accounted.symm.subset
        (List.mem_append_left _ (List.mem_map_of_mem earlier)))
      exact ⟨keeps _ _ entry, unanswered⟩
    · rw [List.mem_singleton] at own
      subst own
      refine ⟨⟨{}, ?_, rfl, rfl⟩, silent⟩
      simp [module, ModuleState.beginHostCall, ModuleState.initHostCall, ModuleState.fetchAdd]
  · intro id code member
    rw [outbox] at member
    obtain ⟨response, error, entry, answers⟩ := answered.recorded id code member
    obtain ⟨_, keeps⟩ := kept id (answered.accepted_of_answers answers)
    exact ⟨response, error, keeps _ _ entry, by rwa [Context.Answers, results]⟩
  · intro id code response error member
    rw [Context.Answers, results]
    exact answered.told id code response error (by simpa [log] using member)

/-- A message that is sent was in the outbox before. -/
theorem sends (answered : Answered ctx) (queued : Queued ctx)
    (kept : ∀ id ∈ ctx.accepted, next.callbackResults id = ctx.callbackResults id ∧
      ∀ response error, ctx.module.HostEntry id response error →
        next.module.HostEntry id response error)
    {n : Nat} {id code : I32} {request : HostRequest}
    (task : ctx.tasks[n]? = some ⟨id, request, .recorded code⟩)
    (tasks : next.tasks = ctx.tasks.eraseIdx n) (log : next.log = ctx.log ++ [.sent id code]) :
    Answered next := by
  have accepted : next.accepted = ctx.accepted := by
    rw [Context.accepted, log]
    exact filterMap_unseen _ rfl
  have results : ∀ id, next.callbackResults id = ctx.callbackResults id := by
    intro id
    rw [Context.callbackResults, log]
    exact filterMap_unseen _ rfl
  have sent : next.sent = ctx.sent ++ [(id, code)] := by
    rw [Context.sent, log]
    exact filterMap_seen _ rfl
  refine answered.frame queued kept ?_ ?_ ?_ ?_ ?_
  · rw [accepted]
    exact List.Subset.refl _
  · intro id answer
    rwa [results] at answer
  · intro task member _
    rw [tasks] at member
    exact List.mem_of_mem_eraseIdx member
  · intro message member
    rw [Context.outbox, tasks, sent] at member
    rcases List.mem_append.mp member with waiting | sent
    · exact List.mem_append_left _
        (((List.eraseIdx_sublist _ n).filterMap Task.message?).subset waiting)
    · rcases List.mem_append.mp sent with earlier | own
      · exact List.mem_append_right _ earlier
      · obtain rfl := List.mem_singleton.mp own
        exact List.mem_append_left _
          (List.mem_filterMap.mpr ⟨_, List.mem_of_getElem? task, rfl⟩)
  · intro id code response error member
    rw [log] at member
    rcases List.mem_append.mp member with earlier | own
    · exact earlier
    · cases List.mem_singleton.mp own

/-- A task in the list after one of them changed its phase. -/
theorem mem_set {n : Nat} {tasks : List Task} {task changed : Task}
    (member : task ∈ tasks.set n changed) :
    task = changed ∨ ∃ m, m ≠ n ∧ tasks[m]? = some task := by
  obtain ⟨m, found⟩ := List.mem_iff_getElem?.mp member
  rw [List.getElem?_set] at found
  split at found
  · split at found
    · exact .inl (Option.some.inj found).symm
    · cases found
  · exact .inr ⟨m, Ne.symm ‹_›, found⟩

/-- Tasks with different ids in other places have other ids. -/
theorem id_ne_of_elsewhere {n m : Nat} {tasks : List Task} {task other : Task}
    (distinct : (tasks.map (·.id)).Nodup) (here : tasks[n]? = some task)
    (there : tasks[m]? = some other) (elsewhere : m ≠ n) : other.id ≠ task.id := by
  intro same
  have bound := (List.getElem?_eq_some_iff.mp there).1
  refine elsewhere ((List.getElem?_inj (by simpa using bound) distinct).mp ?_)
  simp [here, there, same]

/-- A task that recorded its result has one message more to send. -/
theorem outbox_record {n : Nat} {id : I32} {request : HostRequest} {code : I32}
    {result : HostResult} (tasks : next.tasks = ctx.tasks.set n ⟨id, request, .recorded code⟩)
    (log : next.log = ctx.log ++ [.callback id result]) {message : I32 × I32}
    (member : message ∈ next.outbox) : message = (id, code) ∨ message ∈ ctx.outbox := by
  simp only [Context.outbox, Context.sent, tasks, log, List.filterMap_append] at member
  rcases List.mem_append.mp member with waiting | sent
  · obtain ⟨task, found, own⟩ := List.mem_filterMap.mp waiting
    rcases mem_set found with rfl | ⟨m, _, found'⟩
    · exact .inl (Option.some.inj own).symm
    · exact .inr (List.mem_append_left _
        (List.mem_filterMap.mpr ⟨task, List.mem_of_getElem? found', own⟩))
  · exact .inr (List.mem_append_right _ (by simpa [Context.sent, Observation.sent?] using sent))

/-- Recording the result of a callback answers its call and no other. -/
theorem record (answered : Answered ctx) (queued : Queued ctx)
    (distinct : (ctx.tasks.map (·.id)).Nodup) {n : Nat} {id : I32} {request : HostRequest}
    {result : HostResult} (task : ctx.tasks[n]? = some ⟨id, request, .running⟩)
    (kept : ∀ other ∈ ctx.accepted, other ≠ id → ∀ response error,
      ctx.module.HostEntry other response error → next.module.HostEntry other response error)
    (module : next.module = (ctx.module.recordHostResult id result).2)
    (tasks : next.tasks =
      ctx.tasks.set n ⟨id, request, .recorded (ModuleState.returnCode id result)⟩)
    (log : next.log = ctx.log ++ [.callback id result]) : Answered next := by
  have present : ⟨id, request, .running⟩ ∈ ctx.tasks := List.mem_of_getElem? task
  obtain ⟨⟨call, entry, noResponse, noError⟩, silent⟩ := answered.running _ present rfl
  have accepted : next.accepted = ctx.accepted := by
    rw [Context.accepted, log]
    exact filterMap_unseen _ rfl
  have own : next.callbackResults id = [result] := by
    have seen : Observation.callback? id (.callback id result) = some result := if_pos rfl
    rw [Context.callbackResults, log, filterMap_seen _ seen]
    exact congrArg (· ++ [result]) silent
  have others : ∀ other, other ≠ id → next.callbackResults other = ctx.callbackResults other := by
    intro other different
    rw [Context.callbackResults, log]
    exact filterMap_unseen _ (if_neg (Ne.symm different))
  have answers : next.Answers id (ModuleState.returnCode id result) (responseOf result)
      (errorOf result) := ⟨result, own, rfl, rfl, rfl⟩
  have stored : next.module.HostEntry id (responseOf result) (errorOf result) := by
    refine ⟨ModuleState.storeHostResult result call, ?_, ?_, ?_⟩
    · simp [module, ModuleState.recordHostResult_eq, entry]
    · cases result <;> simp [ModuleState.storeHostResult, responseOf, noResponse]
    · cases result <;> simp [ModuleState.storeHostResult, errorOf, noError]
  have earlier : ∀ other code response error, ctx.Answers other code response error →
      other ≠ id ∧ next.Answers other code response error := by
    rintro other code response error ⟨result', once, rest⟩
    have different : other ≠ id := by
      rintro rfl
      simp [silent] at once
    exact ⟨different, result', (others other different).trans once, rest⟩
  refine ⟨?_, ?_, ?_, ?_⟩
  · intro other answer
    rw [accepted]
    by_cases same : other = id
    · subst same
      exact queued.accounted.symm.subset
        (List.mem_append_left _ (List.mem_map_of_mem present))
    · exact answered.called other (by rwa [others other same] at answer)
  · intro task' member running
    rw [tasks] at member
    rcases mem_set member with rfl | ⟨m, elsewhere, found⟩
    · cases running
    · have waiting := List.mem_of_getElem? found
      have different : task'.id ≠ id := id_ne_of_elsewhere distinct task found elsewhere
      obtain ⟨entry', unanswered⟩ := answered.running task' waiting running
      exact ⟨kept _ (queued.accounted.symm.subset
          (List.mem_append_left _ (List.mem_map_of_mem waiting))) different _ _ entry',
        (others _ different).trans unanswered⟩
  · intro other code member
    rcases outbox_record tasks log member with same | before
    · obtain ⟨rfl, rfl⟩ := Prod.mk.inj same
      exact ⟨_, _, stored, answers⟩
    · obtain ⟨response, error, entry', answers'⟩ := answered.recorded other code before
      obtain ⟨different, answers''⟩ := earlier other code response error answers'
      exact ⟨response, error,
        kept other (answered.accepted_of_answers answers') different _ _ entry', answers''⟩
  · intro other code response error member
    exact (earlier other code response error
      (answered.told other code response error (by simpa [log] using member))).2

theorem step (answered : Answered ctx) (queued : Queued ctx) (numbered : Numbered ctx)
    (few : ctx.allocated.length + 1 < 2 ^ 32) (spares : GuestSparesHostCalls ctx event)
    (moved : Step ctx event next) : Answered next := by
  have keeps := fun id (accepted : id ∈ ctx.accepted) => keeps numbered few spares moved accepted
  cases moved with
  | @taskRecord n id request result task =>
    have accepted := queued.accounted.nodup_iff.mp
      ((numbered.nodup (by omega)).sublist
        (ctx.accepted_sublist.trans ctx.hostCalls_sublist))
    refine answered.record queued accepted.of_append_left task ?_ rfl rfl rfl
    intro other member different
    refine (keeps other member ?_).2
    rintro m result' task' ⟨rfl, rfl⟩ found
    obtain rfl := Option.some.inj (task.symm.trans found)
    exact Ne.symm different
  | asyncHostCall frame =>
    exact answered.accept queued (fun id accepted => keeps id accepted (by simp))
      (fun member => numbered.fresh few
        (ctx.hostCalls_sublist.subset (ctx.accepted_sublist.subset member))) rfl rfl rfl
  | notify received unlocked => exact answered.notify queued received rfl rfl rfl
  | @handlerExit exit frame =>
    cases exit with
    | returned code =>
      exact answered.frame queued (fun id accepted => keeps id accepted (by simp))
        (fun _ member => member) (fun _ answer => answer) (fun _ member _ => member)
        (fun _ member => member) (fun _ _ _ _ member => member)
    | trapped message =>
      exact answered.logs queued (fun id accepted => keeps id accepted (by simp)) rfl rfl rfl
        (fun _ => rfl) rfl rfl
  | taskSend task =>
    exact answered.sends queued (fun id accepted => keeps id accepted (by simp)) task rfl rfl
  | start | hostCall | syncTrapped | asyncTrapped | asyncTrapPanics =>
    exact answered.logs queued (fun id accepted => keeps id accepted (by simp)) rfl rfl rfl
      (fun _ => rfl) rfl rfl
  | _ =>
    exact answered.frame queued (fun id accepted => keeps id accepted (by simp))
      (fun _ member => member) (fun _ answer => answer) (fun _ member _ => member)
      (fun _ member => member) (fun _ _ _ _ member => member)

end Answered

/-- The log only grows. -/
theorem Step.log_prefix {ctx next : Context} {event : Event} (moved : Step ctx event next) :
    ctx.log <+: next.log := by
  cases moved with
  | @handlerExit exit frame => cases exit <;> simp [Exit.log]
  | _ => first | exact List.prefix_append _ _ | exact List.prefix_rfl

/-- The three invariants hold along every run that takes fewer than `2 ^ 32 - 1` ids. -/
theorem delivery_invariants {moduleId : Nat} {events : List Event} {ctx : Context}
    (run : Context.machine.Steps GuestSparesHostCalls (Context.new moduleId) events ctx)
    (few : ctx.allocated.length + 1 < 2 ^ 32) :
    Queued ctx ∧ Numbered ctx ∧ Answered ctx := by
  induction run with
  | refl =>
    refine ⟨⟨rfl, .refl _, ?_⟩, ⟨rfl, rfl, ?_, ?_⟩, ⟨?_, ?_, ?_, ?_⟩⟩ <;>
      simp [Context.new, Caller.index?, Context.callbackResults, Context.outbox, Context.sent]
  | @step events ctx event next _ admitted transition ih =>
    have moved := (Step.of_step transition).2
    have shorter : ctx.allocated.length ≤ next.allocated.length :=
      (moved.log_prefix.filterMap Observation.allocated?).length_le
    have before : ctx.allocated.length + 1 < 2 ^ 32 := by omega
    obtain ⟨queued, numbered, answered⟩ := ih before
    exact ⟨queued.step moved, numbered.step before moved,
      answered.step queued numbered before admitted moved⟩

/-- In every run, the guest is told of an accepted async host call at most once,
in the order in which the messages were sent, and exactly once as soon as no
task is left, the channel is empty and the handler is idle. When it is told, the
error and the response it can read and the code are those of the one result of
the callback. -/
theorem async_host_results_delivered_once (moduleId : Nat) (events : List Event) (ctx : Context)
    (run : Context.machine.Steps GuestSparesHostCalls (Context.new moduleId) events ctx)
    (few : ctx.allocated.length < 2 ^ 31 - 1) :
    (ctx.notified.map (·.1)).Nodup ∧
      (∀ id ∈ ctx.notified.map (·.1), id ∈ ctx.accepted) ∧
      ctx.notified <+: ctx.sent ∧
      (ctx.tasks = [] → ctx.channel = [] → ctx.handler = .idle →
        ∀ id ∈ ctx.accepted, (ctx.notified.map (·.1)).count id = 1) ∧
      (∀ id code response error, .notified id code response error ∈ ctx.log →
        (∃ text, ctx.callbackResults id = [.error text] ∧ code = 0 ∧
          error = some text ∧ response = none) ∨
        (∃ value, ctx.callbackResults id = [.ok value] ∧ code = id ∧
          response = some value ∧ error = none)) := by
  obtain ⟨queued, numbered, answered⟩ := delivery_invariants run (by omega)
  have distinct : (ctx.tasks.map (·.id) ++ ctx.sent.map (·.1)).Nodup :=
    queued.accounted.nodup_iff.mp ((numbered.nodup (by omega)).sublist
      (ctx.accepted_sublist.trans ctx.hostCalls_sublist))
  have ordered : ctx.notified <+: ctx.sent := by
    rw [queued.ordered, List.append_assoc]
    exact List.prefix_append _ _
  have once : (ctx.notified.map (·.1)).Nodup :=
    distinct.of_append_right.sublist (ordered.sublist.map _)
  refine ⟨once, ?_, ordered, ?_, ?_⟩
  · intro id member
    exact queued.accounted.symm.subset
      (List.mem_append_right _ ((ordered.sublist.map _).subset member))
  · intro noTask noMessage idle id member
    refine List.count_eq_one_of_mem once ?_
    have all := queued.accounted.subset member
    rw [queued.ordered, noTask, noMessage, idle] at all
    simpa [Handler.pending] using all
  · intro id code response error member
    obtain ⟨result, only, rfl, rfl, rfl⟩ := answered.told id code response error member
    cases result with
    | error text => exact .inl ⟨text, only, rfl, rfl, rfl⟩
    | ok value => exact .inr ⟨value, only, rfl, rfl, rfl⟩

/-- Two accepted calls whose callbacks return in the other order. -/
def swappedResults : List Event :=
  [.start .async ⟨"op", []⟩, .enter, .guest (.asyncHostCall ⟨"", "", "a", []⟩),
    .guest (.asyncHostCall ⟨"", "", "b", []⟩), .exit (.returned 0), .taskRecord 1 (.ok [7]),
    .taskRecord 0 (.error "e"), .taskSend 1, .taskSend 0, .receive, .notify,
    .exit (.returned 0), .receive, .notify, .exit (.returned 0)]

/-- Both calls are told once, in the order of the messages. -/
theorem swapped_results_delivered_once :
    ∃ ctx, Context.machine.run (Context.new 0) swappedResults = some ctx ∧
      ctx.notified = [(3, 3), (2, 0)] ∧ (ctx.notified.map (·.1)).Nodup := by
  refine ⟨_, rfl, by decide, ?_⟩
  exact (async_host_results_delivered_once 0 swappedResults _
    (.ofRun (by simp [swappedResults, GuestSparesHostCalls]) rfl) (by decide)).1

end Wapc.Host
