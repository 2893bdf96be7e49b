import Wapc.Host.Delivery
import Wapc.Runtime.Isolation

/-!
# The id a callback gets

A host has an id of the process-wide counter, and `WapcHost::id` says that callbacks
get it. They get the number of the host call in its context instead: `do_host_call` and
`do_async_host_call` pass the id they took from the counter of the module state. The
two agree where a call happens to take as many ids as the host has in front of it.
-/

namespace Wapc.Runtime

open Semantics Host

variable {Memory : Type}

/-- How the context of a conversation can change in one step: by a step of its own, at
the beginning or the end of an entry of the guest before the context is called, or not
at all. A step can lose its message. -/
inductive ContextMove (ctx : Context) : Context → Prop where
  | same : ContextMove ctx ctx
  | step {event next} (moved : ctx.step event = some next) : ContextMove ctx next
  | lose {event next} (channel : List AsyncChannel) (moved : ctx.step event = some next) :
      ContextMove ctx { next with channel := channel }
  | enter : ContextMove ctx { ctx with frame := some Conversation.callerFrame }
  | leave (exit : Exit) : ContextMove ctx { ctx with frame := none, log := exit.log ctx.log }

/-- The conversation follows a step of its context. -/
theorem ContextMove.of_map {ctx : Context} {event : Host.Event} {next : Conversation Memory}
    {rest : Context → Conversation Memory}
    (mapped : (ctx.step event).map rest = some next) (keeps : ∀ ctx, (rest ctx).ctx = ctx) :
    ContextMove ctx next.ctx := by
  obtain ⟨after, moved, rfl⟩ := Option.map_eq_some_iff.mp mapped
  rw [keeps]
  exact .step moved

namespace Conversation

variable {host : WapcHost Memory} {conv next : Conversation Memory} {move : Move}

theorem instantiated_ctx (exit : Exit) : (conv.instantiated host exit).ctx = conv.ctx := by
  cases exit with
  | returned code =>
    simp only [instantiated]
    split <;> rfl
  | trapped message => rfl

theorem started_ctx (starters : List String) (exit : Exit) :
    (conv.started starters exit).ctx = conv.ctx := by
  cases exit <;> rfl

/-- The end of an entry of the guest. -/
theorem exit_ctx {exit : Exit} (exited : conv.exit host exit = some next) :
    ContextMove conv.ctx next.ctx := by
  unfold Conversation.exit at exited
  split at exited
  · cases exited
    rw [instantiated_ctx]
    exact .leave exit
  · cases exited
    rw [started_ctx]
    exact .leave exit
  · exact .of_map exited fun _ => rfl

/-- The running guest calls an import or ends its entry. -/
theorem run_ctx (ran : conv.run host = some next) : ContextMove conv.ctx next.ctx := by
  unfold run at ran
  split at ran
  · split at ran
    · obtain ⟨ctx, moved, rfl⟩ := Option.map_eq_some_iff.mp ran
      split <;> exact .step moved
    · exact exit_ctx ran
  · cases ran

theorem init_ctx (moved : conv.init host = some next) : ContextMove conv.ctx next.ctx := by
  unfold init at moved
  split at moved
  · cases moved
    exact .same
  · split at moved <;> cases moved
    · exact .enter
    · exact .same
  · cases moved

theorem enter_ctx (entered : conv.enter host = some next) : ContextMove conv.ctx next.ctx := by
  unfold enter at entered
  split at entered
  · split at entered
    · exact .of_map entered fun _ => rfl
    · exact .of_map entered fun _ => rfl
  · cases entered

theorem conclude_ctx {event : Host.Event} (concluded : conv.conclude event = some next) :
    ContextMove conv.ctx next.ctx := by
  unfold conclude at concluded
  split at concluded
  · exact .of_map concluded fun _ => rfl
  · cases concluded

/-- Everything a step can do to the context. -/
theorem step_ctx (stepped : conv.step host move = some next) : ContextMove conv.ctx next.ctx := by
  unfold step at stepped
  split at stepped
  · cases stepped
  · cases move with
    | create =>
      simp only [create] at stepped
      split at stepped <;> cases stepped
      exact .same
    | init => exact init_ctx stepped
    | start =>
      simp only [start] at stepped
      split at stepped
      · exact .of_map stepped fun _ => rfl
      · cases stepped
    | enter => exact enter_ctx stepped
    | run => exact run_ctx stepped
    | callbackReturns =>
      simp only [callbackReturns] at stepped
      split at stepped
      · exact .of_map stepped fun _ => rfl
      · cases stepped
    | finish => exact conclude_ctx stepped
    | resolve => exact conclude_ctx stepped
    | taskRecord n =>
      simp only [taskRecord] at stepped
      split at stepped
      · exact .of_map stepped fun _ => rfl
      · cases stepped
    | taskSend n =>
      obtain ⟨ctx, moved, rfl⟩ := Option.map_eq_some_iff.mp stepped
      simp only
      split
      · exact .lose _ moved
      · exact .step moved
    | receive =>
      simp only [receive] at stepped
      split at stepped
      · exact .of_map stepped fun _ => rfl
      · cases stepped
    | notify =>
      simp only [notify] at stepped
      split at stepped
      · split at stepped
        · exact .of_map stepped fun _ => rfl
        · cases stepped
      · cases stepped
    | drop =>
      simp only [drop] at stepped
      split at stepped <;> cases stepped
      exact .same
    | stop =>
      simp only [stop] at stepped
      split at stepped <;> cases stepped
      exact .same

end Conversation

/-- The ids a context took are the first ones, and the next one is next. -/
structure Counted (ctx : Context) : Prop where
  counter : ctx.module.callIndex = BitVec.ofNat 32 (ctx.allocated.length + 1)
  allocated : ctx.allocated = firstIds ctx.allocated.length

namespace Counted

variable {ctx next : Context} {event : Host.Event}

/-- A step that takes no id. -/
theorem frame (counted : Counted ctx) (counter : next.module.callIndex = ctx.module.callIndex)
    (allocated : next.allocated = ctx.allocated) : Counted next where
  counter := by rw [counter, allocated, counted.counter]
  allocated := by rw [allocated, ← counted.allocated]

/-- A step that takes the next id. -/
theorem take (counted : Counted ctx) (counter : next.module.callIndex = ctx.module.callIndex + 1)
    (allocated : next.allocated = ctx.allocated ++ [ctx.module.callIndex]) : Counted next where
  counter := by
    rw [counter, allocated, counted.counter]
    simp [BitVec.ofNat_add]
  allocated := by
    rw [allocated, List.length_append, List.length_singleton, firstIds_succ, ← counted.allocated,
      ← counted.counter]

theorem step (counted : Counted ctx) (moved : Step ctx event next) : Counted next := by
  have quiet := Numbered.quiet moved
  cases moved with
  | start | hostCall | asyncHostCall => exact counted.take rfl (filterMap_seen _ rfl)
  | guestResponse | guestError | ready | readyPanics | read =>
    exact counted.frame (quiet (by simp [Context.ops, Op.allocates])) rfl
  | hostCallReturns frame =>
    exact counted.frame (quiet (by simp [Context.ops, frame, Op.allocates])) rfl
  | finish caller present =>
    exact counted.frame (quiet (by simp [Context.ops, caller, Op.allocates])) rfl
  | @handlerExit exit frame => exact counted.frame rfl (exit.filterMap_log _ fun _ => rfl)
  | syncTrapped frame caller | asyncTrapped frame caller | asyncTrapPanics frame caller =>
    exact counted.frame (quiet (by simp [Context.ops, frame, caller, Op.allocates]))
      (filterMap_unseen _ rfl)
  | taskRecord task =>
    exact counted.frame (quiet (by simp [Context.ops, task, Op.allocates]))
      (filterMap_unseen _ rfl)
  | taskSend | notify => exact counted.frame rfl (filterMap_unseen _ rfl)
  | _ => exact counted.frame rfl rfl

theorem move (counted : Counted ctx) (moved : ContextMove ctx next) : Counted next := by
  cases moved with
  | same => exact counted
  | step moved => exact counted.step (Step.of_step moved).2
  | lose channel moved => exact (counted.step (Step.of_step moved).2).frame rfl rfl
  | enter => exact counted.frame rfl rfl
  | leave exit => exact counted.frame rfl (exit.filterMap_log _ fun _ => rfl)

theorem new (host : WapcHost Memory) (mode : Mode) (inv : Invocation) :
    Counted (Conversation.new host mode inv).ctx := by
  unfold Conversation.new
  split <;> exact ⟨rfl, rfl⟩

/-- The context of every conversation counts. -/
theorem of_follows {process : Process Memory} {host : Nat} {conv : Conversation Memory}
    {moves : List Move} (follows : Follows process host conv moves) : Counted conv.ctx := by
  obtain ⟨wapcHost, mode, inv, _, executed⟩ := follows
  have steps : (Conversation.machine wapcHost).Steps (fun _ _ => True) _ moves conv :=
    .ofRun (fun _ _ _ => trivial) executed
  exact steps.invariant (motive := fun conv => Counted conv.ctx) (.new wapcHost mode inv)
    fun counted _ stepped => counted.move (Conversation.step_ctx stepped)

/-- The ids that were taken before tell which id is taken. -/
theorem id_eq (counted : Counted ctx) {k : Nat} {call : Observation} {id : I32}
    (there : ctx.log[k]? = some call) (taken : call.allocated? = some id) :
    id = BitVec.ofNat 32 ((ctx.log.take k).countP (·.allocated?.isSome) + 1) := by
  obtain ⟨small, found⟩ := List.getElem?_eq_some_iff.mp there
  have split : ctx.allocated = (ctx.log.take k).filterMap Observation.allocated? ++
      id :: (ctx.log.drop (k + 1)).filterMap Observation.allocated? := by
    conv_lhs => rw [Context.allocated, ← List.take_append_drop k ctx.log,
      List.drop_eq_getElem_cons small, found, List.filterMap_append,
      List.filterMap_cons_some taken]
  rw [← List.length_filterMap_eq_countP]
  generalize (ctx.log.take k).filterMap Observation.allocated? = before at split ⊢
  have here : ctx.allocated[before.length]? = some id := by
    rw [split, List.getElem?_append_right (Nat.le_refl _), Nat.sub_self]
    rfl
  rw [counted.allocated, firstIds, List.getElem?_map] at here
  obtain ⟨position, inRange, rfl⟩ := Option.map_eq_some_iff.mp here
  obtain ⟨_, rfl⟩ := List.getElem?_eq_some_iff.mp inRange
  rw [List.getElem_range]

end Counted

/-- The id a host's callback gets in a host call. -/
def WapcHost.passed? (host : WapcHost Memory) : Observation → Option I32
  | .hostCall id => if host.syncHostcall.isSome then some id else none
  | .accepted id => if host.asyncHostcall.isSome then some id else none
  | _ => none

/-- All ids the callbacks get in one call of the host. -/
def WapcHost.callbackIds (host : WapcHost Memory) (conv : Conversation Memory) : List I32 :=
  conv.ctx.log.filterMap host.passed?

/-- An id a callback gets was taken from the counter. -/
theorem WapcHost.allocated_of_passed {host : WapcHost Memory} {call : Observation} {id : I32}
    (passed : host.passed? call = some id) : call.allocated? = some id := by
  cases call with
  | hostCall other =>
    simp only [passed?] at passed
    split at passed <;> cases passed
    rfl
  | accepted other =>
    simp only [passed?] at passed
    split at passed <;> cases passed
    rfl
  | _ => cases passed

/-- Callbacks can tell by the id they get which host the call is from. -/
structure ToldApart (process : Process Memory) : Prop where
  ids : ∀ {n host : Nat} {conv : Conversation Memory} {wapcHost : WapcHost Memory} {id : I32},
    process.made n = some (host, conv) → process.hosts[host]? = some wapcHost →
    id ∈ wapcHost.callbackIds conv → id.toInt = wapcHost.id
  apart : ∀ {n m host other : Nat} {conv conv' : Conversation Memory}
    {wapcHost wapcOther : WapcHost Memory} {id : I32},
    process.made n = some (host, conv) → process.hosts[host]? = some wapcHost →
    process.made m = some (other, conv') → process.hosts[other]? = some wapcOther →
    id ∈ wapcHost.callbackIds conv → id ∈ wapcOther.callbackIds conv' → host = other

/-- In each host call whose callback runs, the context has taken as many ids, the one
of the call included, as the id of the host says, up to the wrapping of the counter. -/
def CountsToId (host : WapcHost Memory) (log : List Observation) : Prop :=
  ∀ k call, log[k]? = some call → (host.passed? call).isSome →
    ((log.take k).countP (·.allocated?.isSome) + 1) % 2 ^ 32 = host.id

/-- `count` ids were taken from the global counter; the hosts have different ones. -/
structure Named (count : Nat) (process : Process Memory) : Prop where
  counter : process.moduleCount = count + 1
  below : ∀ host ∈ process.hosts, host.id ≤ count
  distinct : (process.hosts.map (·.id)).Nodup

/-- The event takes an id from the global counter of hosts. -/
def Event.takesModuleId : Event Memory → Bool
  | .nextId | .newHost _ _ _ => true
  | _ => false

/-- How many hosts are created, or ids taken by hand. -/
def moduleIds (events : List (Event Memory)) : Nat := events.countP (·.takesModuleId)

theorem moduleIds_snoc (events : List (Event Memory)) (event : Event Memory) :
    moduleIds (events ++ [event]) = moduleIds events + if event.takesModuleId then 1 else 0 := by
  simp [moduleIds, List.countP_append, List.countP_cons]

namespace Named

variable {count : Nat} {process next : Process Memory}

theorem new : Named 0 (Process.new : Process Memory) where
  counter := rfl
  below := by simp [Process.new]
  distinct := by simp [Process.new]

/-- An event that takes no id leaves the hosts as they are. -/
theorem frame (named : Named count process) (counter : next.moduleCount = process.moduleCount)
    (hosts : next.hosts = process.hosts) : Named count next where
  counter := counter.trans named.counter
  below := hosts ▸ named.below
  distinct := hosts ▸ named.distinct

theorem fetchAdd (named : Named count process) (few : count + 1 < 2 ^ 31) :
    Process.fetchAdd process.moduleCount = count + 1 + 1 := by
  rw [named.counter, Process.fetchAdd, Nat.mod_eq_of_lt (by omega)]

theorem nextId (named : Named count process) (few : count + 1 < 2 ^ 31) :
    Named (count + 1) { process with moduleCount := Process.fetchAdd process.moduleCount } where
  counter := named.fetchAdd few
  below := fun host member => Nat.le_succ_of_le (named.below host member)
  distinct := named.distinct

theorem newHost (named : Named count process) (few : count + 1 < 2 ^ 31) (guest : Guest Memory)
    (syncHostcall asyncHostcall : Option (HostCallback Unit)) :
    Named (count + 1) (process.newHost guest syncHostcall asyncHostcall) where
  counter := named.fetchAdd few
  below := by
    intro host member
    rcases List.mem_append.mp member with old | new
    · exact Nat.le_succ_of_le (named.below host old)
    · rw [List.mem_singleton.mp new]
      exact Nat.le_of_eq named.counter
  distinct := by
    rw [Process.newHost, List.map_append]
    refine List.nodup_append.mpr ⟨named.distinct, List.nodup_singleton _, ?_⟩
    intro id old id' new
    obtain ⟨host, member, rfl⟩ := List.mem_map.mp old
    obtain rfl : id' = process.moduleCount := by simpa using new
    have small := named.below host member
    have counter := named.counter
    omega

/-- The ids of the hosts after a run. -/
theorem run {events : List (Event Memory)}
    (executed : Process.machine.run .new events = some process) (few : moduleIds events < 2 ^ 31) :
    Named (moduleIds events) process := by
  have steps : Process.machine.Steps (fun _ _ => True) .new events process :=
    .ofRun (fun _ _ _ => trivial) executed
  clear executed
  induction steps with
  | refl => exact .new
  | @step events process event next prior _ transition ih =>
    have separate := Separate.run prior.run_eq
    rw [moduleIds_snoc] at few ⊢
    have named := ih (by omega)
    cases event with
    | nextId =>
      cases transition
      exact named.nextId few
    | newHost guest syncHostcall asyncHostcall =>
      cases transition
      exact named.newHost few guest syncHostcall asyncHostcall
    | call n host mode inv =>
      obtain ⟨_, _, called⟩ := separate.wired.of_call (Process.of_step_call transition).2
      exact named.frame called.moduleCount called.hosts
    | step n move =>
      obtain ⟨_, _, _, _, _, _, _, moved⟩ := separate.wired.of_move transition
      exact named.frame moved.moduleCount moved.hosts

/-- Hosts with one id are one host. -/
theorem injective (named : Named count process) {host other : Nat}
    {wapcHost wapcOther : WapcHost Memory} (there : process.hosts[host]? = some wapcHost)
    (there' : process.hosts[other]? = some wapcOther) (same : wapcHost.id = wapcOther.id) :
    host = other := by
  have small : host < (process.hosts.map (·.id)).length := by
    rw [List.length_map]
    exact (List.getElem?_eq_some_iff.mp there).1
  refine (List.getElem?_inj small named.distinct).mp ?_
  rw [List.getElem?_map, List.getElem?_map, there, there']
  exact congrArg some same

end Named

/-- A small number is the value of an id exactly when the id is that number. -/
theorem toInt_ofNat_eq_iff {count id : Nat} (small : id < 2 ^ 31) :
    (BitVec.ofNat 32 count).toInt = id ↔ count % 2 ^ 32 = id := by
  rw [BitVec.toInt_eq_toNat_cond, BitVec.toNat_ofNat]
  split <;> omega

/-- Callbacks get the id of the host in one call exactly when its host calls count up
to it. -/
theorem callbackIds_iff {conv : Conversation Memory} {host : WapcHost Memory}
    (counted : Counted conv.ctx) (small : host.id < 2 ^ 31) :
    (∀ id ∈ host.callbackIds conv, id.toInt = host.id) ↔ CountsToId host conv.ctx.log := by
  constructor
  · intro ids k call there passed
    obtain ⟨id, passed⟩ := Option.isSome_iff_exists.mp passed
    have member : id ∈ host.callbackIds conv :=
      List.mem_filterMap.mpr ⟨call, List.mem_of_getElem? there, passed⟩
    have value := ids id member
    rw [counted.id_eq there (WapcHost.allocated_of_passed passed)] at value
    exact (toInt_ofNat_eq_iff small).mp value
  · intro counts id member
    obtain ⟨call, member, passed⟩ := List.mem_filterMap.mp member
    obtain ⟨k, there⟩ := List.getElem?_of_mem member
    rw [counted.id_eq there (WapcHost.allocated_of_passed passed)]
    exact (toInt_ofNat_eq_iff small).mpr (counts k call there (by rw [passed]; rfl))

/-- Callbacks can tell the hosts apart after a run exactly when all host calls count up
to the id of their host. -/
theorem told_apart_iff (events : List (Event Memory)) (process : Process Memory)
    (executed : Process.machine.run .new events = some process)
    (few : moduleIds events < 2 ^ 31) :
    ToldApart process ↔ ∀ (n host : Nat) (conv : Conversation Memory) (wapcHost : WapcHost Memory),
      process.made n = some (host, conv) → process.hosts[host]? = some wapcHost →
      CountsToId wapcHost conv.ctx.log := by
  have separate := Separate.run executed
  have named := Named.run executed few
  have small : ∀ {host : Nat} {wapcHost : WapcHost Memory},
      process.hosts[host]? = some wapcHost → wapcHost.id < 2 ^ 31 := by
    intro host wapcHost there
    exact Nat.lt_of_le_of_lt (named.below _ (List.mem_of_getElem? there)) few
  constructor
  · intro apart n host conv wapcHost made there
    exact (callbackIds_iff (.of_follows (separate.follows made)) (small there)).mp
      fun id member => apart.ids made there member
  · intro counts
    have ids : ∀ {n host : Nat} {conv : Conversation Memory} {wapcHost : WapcHost Memory}
        {id : I32}, process.made n = some (host, conv) → process.hosts[host]? = some wapcHost →
        id ∈ wapcHost.callbackIds conv → id.toInt = wapcHost.id := by
      intro n host conv wapcHost id made there member
      exact (callbackIds_iff (.of_follows (separate.follows made)) (small there)).mpr
        (counts n host conv wapcHost made there) id member
    refine ⟨ids, ?_⟩
    intro n m host other conv conv' wapcHost wapcOther id made there made' there' member member'
    refine named.injective there there' ?_
    have first := ids made there member
    have second := ids made' there' member'
    omega

/-- A guest that makes one host call in each guest call. -/
def hostCallingGuest : Guest (List Action) where
  exports := fun name => name = "__guest_call" || name = "__host_call_response_ready"
  instantiate := .ok []
  enter := fun _ entry =>
    match entry with
    | .guestCall _ _ _ => [.call (.hostCall ⟨"", "", "whoami", []⟩)]
    | _ => []
  next := fun actions => actions.headD (.exit (.returned 0))
  resume := fun actions _ => actions.tail

/-- A host of this guest, whose callback answers with nothing. -/
def hostCallingHost : Event (List Action) :=
  .newHost hostCallingGuest (some fun _ _ _ => (.ok [], ())) none

/-- The moves of a call up to the host call. -/
def untilHostCall : List Move := [.run, .create, .init, .init, .init, .start, .enter, .run]

/-- The second host makes one call, and its callback gets 2. -/
def secondHostCalls : List (Event (List Action)) :=
  hostCallingHost :: hostCallingHost :: .call 0 1 .sync ⟨"ask", []⟩ ::
    untilHostCall.map (.step 0 ·)

/-- A single call of the second host is told from the first. -/
theorem second_host_told_apart :
    ∃ process, Process.machine.run .new secondHostCalls = some process ∧ ToldApart process := by
  obtain ⟨process, executed⟩ :
      ∃ process, Process.machine.run .new secondHostCalls = some process := ⟨_, rfl⟩
  refine ⟨process, executed, (told_apart_iff secondHostCalls process executed (by decide)).mpr ?_⟩
  intro n host conv wapcHost made there
  have calls : ((Process.machine.run .new secondHostCalls).map (·.calls.length)) = some 1 := rfl
  have logs : ((Process.machine.run .new secondHostCalls).bind (·.made 0)).map
      (fun call => (call.1, call.2.ctx.log)) = some (1, [.invocation 1 0, .hostCall 2]) := rfl
  have ids : ((Process.machine.run .new secondHostCalls).bind (·.hosts[1]?)).map (·.id) =
      some 2 := rfl
  rw [executed] at calls logs ids
  have small := Process.small_of_made made
  obtain rfl : n = 0 := by
    have length : process.calls.length = 1 := by simpa using calls
    omega
  simp only [Option.bind_some, made, Option.map_some, Option.some.injEq, Prod.mk.injEq] at logs
  obtain ⟨rfl, log⟩ := logs
  simp only [Option.bind_some, there, Option.map_some, Option.some.injEq] at ids
  rw [CountsToId, log, ids]
  intro k call found passed
  match k with
  | 0 =>
    cases found
    cases passed
  | 1 => rfl
  | k + 2 => cases found

/-- Two hosts whose guests each make one host call. -/
def bothHostsCall : List (Event (List Action)) :=
  hostCallingHost :: hostCallingHost :: .call 0 0 .sync ⟨"ask", []⟩ ::
    .call 1 1 .sync ⟨"ask", []⟩ ::
    untilHostCall.flatMap fun move => [.step 0 move, .step 1 move]

/-- Two hosts that share a callback both give it the id 2. -/
theorem hosts_share_callback_ids :
    ¬ ∀ (events : List (Event (List Action))) (process : Process (List Action)),
      Process.machine.run .new events = some process → moduleIds events < 2 ^ 31 →
      ToldApart process := by
  intro always
  obtain ⟨process, executed⟩ :
      ∃ process, Process.machine.run .new bothHostsCall = some process := ⟨_, rfl⟩
  have apart := always bothHostsCall process executed (by decide)
  have seen : ∀ n < 2, ∃ conv wapcHost, process.made n = some (n, conv) ∧
      process.hosts[n]? = some wapcHost ∧ 2 ∈ wapcHost.callbackIds conv := by
    have ids : ∀ n < 2, (Process.machine.run .new bothHostsCall).bind (fun reached =>
        (reached.made n).bind fun call => reached.hosts[n]?.map fun wapcHost =>
          (call.1, wapcHost.callbackIds call.2)) = some (n, [2]) := by
      intro n small
      match n with
      | 0 => rfl
      | 1 => rfl
    intro n small
    have found := ids n small
    rw [executed, Option.bind_some] at found
    obtain ⟨⟨host, conv⟩, made, rest⟩ := Option.bind_eq_some_iff.mp found
    obtain ⟨wapcHost, there, same⟩ := Option.map_eq_some_iff.mp rest
    obtain ⟨rfl, passed⟩ := Prod.mk.inj same
    exact ⟨conv, wapcHost, made, there, by rw [passed]; exact List.mem_singleton_self 2⟩
  obtain ⟨_, _, made, there, first⟩ := seen 0 (by decide)
  obtain ⟨_, _, made', there', second⟩ := seen 1 (by decide)
  exact absurd (apart.apart made there made' there' first second) (by decide)

end Wapc.Runtime
