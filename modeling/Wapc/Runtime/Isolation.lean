import Wapc.Runtime.Process
import Wapc.Semantics.Records

/-!
# Calls are isolated from each other

Every call allocates its own cells, and its parties have handles of these cells and of
no others. So a step of one call changes nothing of another one, and what a call does
among others it also does in a process in which it is the only call.
-/

namespace Wapc.Runtime

open Semantics Host

variable {Memory : Type}

/-- The handles of the cells that belong to call `n`. -/
def ownHandles (n : Nat) : Handles := ⟨n, n, n⟩

/-- A cell of each kind was allocated for each call, and its parties have the handles
of those. -/
structure Wired (process : Process Memory) : Prop where
  states : process.states.length = process.calls.length
  stores : process.stores.length = process.calls.length
  channels : process.channels.length = process.calls.length
  handles : ∀ {n : Nat} {call : Call}, process.calls[n]? = some call →
    ∀ party, call.handles party = ownHandles n
  hosts : ∀ {n : Nat} {call : Call}, process.calls[n]? = some call →
    ∃ host, process.hosts[call.host]? = some host

namespace Process

variable {process next : Process Memory} {n other : Nat} {call : Call}
  {conv : Conversation Memory}

/-- A call gets the next number. -/
theorem of_step_call {host : Nat} {mode : Mode} {inv : Invocation}
    (moved : process.step (.call n host mode inv) = some next) :
    n = process.calls.length ∧ process.call host mode inv = some next :=
  Option.ite_none_right_eq_some.mp moved

/-- A conversation is gathered from the three cells its party has handles of. -/
theorem gather_eq_some {party : Party} :
    process.gather call party = some conv ↔
      ∃ module store channel, process.states[(call.handles party).state]? = some module ∧
        process.stores[(call.handles party).store]? = some store ∧
        process.channels[(call.handles party).channel]? = some channel ∧
        call.conversation module store channel = conv := by
  unfold gather
  constructor
  · intro gathered
    split at gathered
    · rename_i module store channel atState atStore atChannel
      cases gathered
      exact ⟨module, store, channel, atState, atStore, atChannel, rfl⟩
    · cases gathered
  · rintro ⟨module, store, channel, atState, atStore, atChannel, rfl⟩
    simp only [atState, atStore, atChannel]

theorem made_eq_some {host : Nat} :
    process.made n = some (host, conv) ↔
      ∃ call, process.calls[n]? = some call ∧ call.host = host ∧
        process.gather call .context = some conv := by
  unfold made
  constructor
  · intro made
    obtain ⟨call, found, rest⟩ := Option.bind_eq_some_iff.mp made
    obtain ⟨conv', gathered, same⟩ := Option.map_eq_some_iff.mp rest
    cases same
    exact ⟨call, found, rfl, gathered⟩
  · rintro ⟨call, found, rfl, gathered⟩
    simp [found, gathered]

theorem small_of_made {host : Nat} (made : process.made n = some (host, conv)) :
    n < process.calls.length := by
  obtain ⟨call, found, _⟩ := made_eq_some.mp made
  exact (List.getElem?_eq_some_iff.mp found).1

/-- A record whose cells hold its conversation is a call with this conversation. -/
theorem made_of_record {host : Nat} {handles : Party → Handles} {contextId : Option Nat}
    (found : process.calls[n]? = some (conv.record host handles contextId))
    (state : process.states[(handles .context).state]? = some conv.ctx.module)
    (store : process.stores[(handles .context).store]? = some conv.store)
    (channel : process.channels[(handles .context).channel]? = some conv.ctx.channel) :
    process.made n = some (host, conv) :=
  made_eq_some.mpr ⟨_, found, rfl, gather_eq_some.mpr
    ⟨_, _, _, state, store, channel, Call.record_conversation ..⟩⟩

end Process

namespace Wired

variable {process next : Process Memory} {n other : Nat} {call : Call}
  {conv : Conversation Memory} {move : Move}

theorem new : Wired (Process.new : Process Memory) where
  states := rfl
  stores := rfl
  channels := rfl
  handles := by simp [Process.new]
  hosts := by simp [Process.new]

/-- All parties of a call see the same conversation. -/
theorem gather_party (wired : Wired process) (found : process.calls[n]? = some call)
    (party : Party) : process.gather call party = process.gather call .context := by
  unfold Process.gather
  rw [wired.handles found party, wired.handles found .context]

/-- Each call has a conversation. -/
theorem gathered (wired : Wired process) (found : process.calls[n]? = some call) :
    ∃ conv, process.gather call .context = some conv := by
  obtain ⟨small, _⟩ := List.getElem?_eq_some_iff.mp found
  have state : n < process.states.length := wired.states ▸ small
  have store : n < process.stores.length := wired.stores ▸ small
  have channel : n < process.channels.length := wired.channels ▸ small
  refine ⟨_, Process.gather_eq_some.mpr ⟨process.states[n], process.stores[n],
    process.channels[n], ?_, ?_, ?_, rfl⟩⟩ <;>
  · rw [wired.handles found]
    exact List.getElem?_eq_getElem _

/-- A call that was made has a conversation on one of the hosts. -/
theorem made (wired : Wired process) (small : n < process.calls.length) :
    ∃ host wapcHost conv, process.made n = some (host, conv) ∧
      process.hosts[host]? = some wapcHost := by
  obtain ⟨call, found⟩ : ∃ call, process.calls[n]? = some call :=
    ⟨_, List.getElem?_eq_getElem small⟩
  obtain ⟨conv, gathered⟩ := wired.gathered found
  obtain ⟨host, there⟩ := wired.hosts found
  exact ⟨call.host, host, conv, Process.made_eq_some.mpr ⟨call, found, rfl, gathered⟩, there⟩

end Wired

section Counting

variable (process : Process Memory) (call : Call) (move : Move)

@[simp] theorem Process.countContext_moduleCount :
    (process.countContext move).moduleCount = process.moduleCount := by
  cases move <;> rfl

@[simp] theorem Process.countContext_hosts :
    (process.countContext move).hosts = process.hosts := by
  cases move <;> rfl

@[simp] theorem Process.countContext_states :
    (process.countContext move).states = process.states := by
  cases move <;> rfl

@[simp] theorem Process.countContext_stores :
    (process.countContext move).stores = process.stores := by
  cases move <;> rfl

@[simp] theorem Process.countContext_channels :
    (process.countContext move).channels = process.channels := by
  cases move <;> rfl

@[simp] theorem Process.countContext_calls :
    (process.countContext move).calls = process.calls := by
  cases move <;> rfl

@[simp] theorem Process.nameContext_handles :
    (process.nameContext call move).handles = call.handles := by
  cases move <;> rfl

@[simp] theorem Process.nameContext_host :
    (process.nameContext call move).host = call.host := by
  cases move <;> rfl

end Counting

/-- What a step of call `n` does to a process: the call gets a new conversation, and
nothing else changes but the ids of contexts. -/
structure Moved (process next : Process Memory) (n host : Nat) (conv : Conversation Memory) :
    Prop where
  wired : Wired next
  moduleCount : next.moduleCount = process.moduleCount
  hosts : next.hosts = process.hosts
  length : next.calls.length = process.calls.length
  own : next.made n = some (host, conv)
  others : ∀ other, other ≠ n → next.made other = process.made other

namespace Wired

variable {process next : Process Memory} {n : Nat} {call : Call} {conv : Conversation Memory}
  {move : Move}

/-- Writing a conversation back changes this call alone. -/
theorem scatter (wired : Wired process) (found : process.calls[n]? = some call) (move : Move)
    (party : Party) (conv : Conversation Memory) :
    Moved process ((process.countContext move).scatter n (process.nameContext call move) party conv)
      n call.host conv := by
  obtain ⟨small, _⟩ := List.getElem?_eq_some_iff.mp found
  have own := wired.handles found
  refine ⟨?_, ?_, ?_, ?_, ?_, ?_⟩
  · constructor
    · simp [Process.scatter, wired.states]
    · simp [Process.scatter, wired.stores]
    · simp [Process.scatter, wired.channels]
    · intro m call' there party'
      simp only [Process.scatter, Process.countContext_calls, List.getElem?_set] at there
      split at there
      · rename_i same
        subst same
        cases there
        simpa [Conversation.record] using own party'
      · exact wired.handles there party'
    · intro m call' there
      simp only [Process.scatter, Process.countContext_calls, List.getElem?_set] at there
      split at there
      · rename_i same
        subst same
        cases there
        simpa [Conversation.record, Process.scatter] using wired.hosts found
      · simpa [Process.scatter] using wired.hosts there
  · simp [Process.scatter]
  · simp [Process.scatter]
  · simp [Process.scatter]
  · have found' : ((process.countContext move).scatter n (process.nameContext call move) party
        conv).calls[n]? = some (conv.record call.host (process.nameContext call move).handles
          (process.nameContext call move).contextId) := by
      simp only [Process.scatter, Process.countContext_calls, Process.nameContext_host]
      exact List.getElem?_set_self small
    refine Process.made_of_record found' ?_ ?_ ?_
    · simp [Process.scatter, own, ownHandles, wired.states, small]
    · simp [Process.scatter, own, ownHandles, wired.stores, small]
    · simp [Process.scatter, own, ownHandles, wired.channels, small]
  · intro other different
    unfold Process.made
    simp only [Process.scatter, Process.countContext_calls,
      List.getElem?_set_ne (Ne.symm different)]
    cases there : process.calls[other]? with
    | none => rfl
    | some call' =>
      simp [Process.gather, own, wired.handles there, ownHandles, Ne.symm different]

/-- A step of a call is a step of its conversation. -/
theorem move_eq (wired : Wired process) {host : Nat} {wapcHost : WapcHost Memory}
    (made : process.made n = some (host, conv)) (there : process.hosts[host]? = some wapcHost) :
    ∃ call, process.calls[n]? = some call ∧ call.host = host ∧ ∀ move,
      process.move n move = (conv.step wapcHost move).map
        ((process.countContext move).scatter n (process.nameContext call move) move.party) := by
  obtain ⟨call, found, rfl, gathered⟩ := Process.made_eq_some.mp made
  refine ⟨call, found, rfl, fun move => ?_⟩
  unfold Process.move
  simp only [found, there, wired.gather_party found move.party, gathered]

/-- Everything a step of a call can do. -/
theorem of_move (wired : Wired process) (moved : process.move n move = some next) :
    ∃ host wapcHost conv conv', process.made n = some (host, conv) ∧
      process.hosts[host]? = some wapcHost ∧ conv.step wapcHost move = some conv' ∧
      Moved process next n host conv' := by
  have small : n < process.calls.length := by
    by_contra large
    rw [Process.move, List.getElem?_eq_none (Nat.le_of_not_lt large)] at moved
    cases moved
  obtain ⟨host, wapcHost, conv, made, there⟩ := wired.made small
  obtain ⟨call, found, rfl, steps⟩ := wired.move_eq made there
  rw [steps] at moved
  obtain ⟨conv', stepped, rfl⟩ := Option.map_eq_some_iff.mp moved
  exact ⟨call.host, wapcHost, conv, conv', made, there, stepped, wired.scatter found _ _ conv'⟩

/-- A step of the conversation is a step of its call. -/
theorem exists_move (wired : Wired process) {host : Nat} {wapcHost : WapcHost Memory}
    {conv' : Conversation Memory} (made : process.made n = some (host, conv))
    (there : process.hosts[host]? = some wapcHost)
    (stepped : conv.step wapcHost move = some conv') :
    ∃ next, process.move n move = some next ∧ Moved process next n host conv' := by
  obtain ⟨call, found, rfl, steps⟩ := wired.move_eq made there
  refine ⟨_, ?_, wired.scatter found move move.party conv'⟩
  rw [steps, stepped]
  rfl

/-- A new host is nothing to the calls made so far. -/
theorem newHost (wired : Wired process) (guest : Guest Memory)
    (syncHostcall asyncHostcall : Option (HostCallback Unit)) :
    Wired (process.newHost guest syncHostcall asyncHostcall) where
  states := wired.states
  stores := wired.stores
  channels := wired.channels
  handles := wired.handles
  hosts := by
    intro n call found
    obtain ⟨host, there⟩ := wired.hosts found
    exact ⟨host, List.getElem?_append_left (List.getElem?_eq_some_iff.mp there).1 ▸ there⟩

/-- A manual `next_id` as well. -/
theorem nextId (wired : Wired process) (moduleCount : Nat) :
    Wired { process with moduleCount := moduleCount } where
  states := wired.states
  stores := wired.stores
  channels := wired.channels
  handles := wired.handles
  hosts := wired.hosts

end Wired

/-- What a call of a host does to a process: it adds a fresh conversation. -/
structure Called (process next : Process Memory) (host : Nat) (conv : Conversation Memory) :
    Prop where
  wired : Wired next
  moduleCount : next.moduleCount = process.moduleCount
  hosts : next.hosts = process.hosts
  length : next.calls.length = process.calls.length + 1
  own : next.made process.calls.length = some (host, conv)
  others : ∀ other, other ≠ process.calls.length → next.made other = process.made other

namespace Wired

variable {process next : Process Memory} {host : Nat} {mode : Mode} {inv : Invocation}

/-- The cells of a call are new. -/
theorem fresh (wired : Wired process) : process.fresh = ownHandles process.calls.length := by
  rw [Process.fresh, wired.states, wired.stores, wired.channels]
  rfl

/-- A call gets cells of its own. -/
theorem of_call (wired : Wired process) (called : process.call host mode inv = some next) :
    ∃ wapcHost, process.hosts[host]? = some wapcHost ∧
      Called process next host (.new wapcHost mode inv) := by
  obtain ⟨wapcHost, there, rfl⟩ := Option.map_eq_some_iff.mp called
  refine ⟨wapcHost, there, ?_, rfl, rfl, ?_, ?_, ?_⟩
  · constructor
    · simp [wired.states]
    · simp [wired.stores]
    · simp [wired.channels]
    · intro n call found party
      rcases getElem?_snoc found with before | ⟨rfl, rfl⟩
      · exact wired.handles before party
      · exact wired.fresh
    · intro n call found
      rcases getElem?_snoc found with before | ⟨rfl, rfl⟩
      · exact wired.hosts before
      · exact ⟨wapcHost, there⟩
  · simp
  · refine Process.made_of_record List.getElem?_concat_length ?_ ?_ ?_
    · simp [wired.fresh, ownHandles, ← wired.states]
    · simp [wired.fresh, ownHandles, ← wired.stores]
    · simp [wired.fresh, ownHandles, ← wired.channels]
  · intro other different
    unfold Process.made
    rcases Nat.lt_or_ge other process.calls.length with old | new
    · rw [List.getElem?_append_left old]
      cases found : process.calls[other]? with
      | none => rfl
      | some call =>
        simp only [Option.bind_some, Process.gather, wired.handles found, ownHandles]
        rw [List.getElem?_append_left (wired.states ▸ old),
          List.getElem?_append_left (wired.stores ▸ old),
          List.getElem?_append_left (wired.channels ▸ old)]
    · rw [List.getElem?_eq_none new, List.getElem?_append_right new, List.getElem?_eq_none]
      · rfl
      · rw [List.length_singleton]
        omega

end Wired

/-- What a process would be if call `n` had been the only one. -/
structure Alone (n : Nat) (process alone : Process Memory) : Prop where
  wired : Wired process
  wiredAlone : Wired alone
  moduleCount : alone.moduleCount = process.moduleCount
  hosts : alone.hosts = process.hosts
  length : alone.calls.length = if n < process.calls.length then 1 else 0
  same : alone.made 0 = process.made n

/-- The events that are left if call `n` is the only one: those of the call, and those
of no call. -/
def onlyCall (n : Nat) : Event Memory → Option (Event Memory)
  | .call m host mode inv => if m = n then some (.call 0 host mode inv) else none
  | .step m move => if m = n then some (.step 0 move) else none
  | event => some event

theorem of_onlyCall_call {n m host : Nat} {mode : Mode} {inv : Invocation} {event : Event Memory}
    (named : onlyCall n (.call m host mode inv) = some event) :
    m = n ∧ .call 0 host mode inv = event := by
  simpa only [onlyCall, Option.ite_none_right_eq_some, Option.some.injEq] using named

theorem of_onlyCall_step {n m : Nat} {move : Move} {event : Event Memory}
    (named : onlyCall n (.step m move) = some event) : m = n ∧ .step 0 move = event := by
  simpa only [onlyCall, Option.ite_none_right_eq_some, Option.some.injEq] using named

namespace Alone

variable {process next alone : Process Memory} {n host : Nat} {conv : Conversation Memory}

theorem new (n : Nat) : Alone n (Process.new : Process Memory) .new where
  wired := .new
  wiredAlone := .new
  moduleCount := rfl
  hosts := rfl
  length := rfl
  same := by
    simp [Process.made, Process.new]

/-- Steps of other calls are nothing to the call. -/
theorem otherMove (same : Alone n process alone) {m : Nat} (different : m ≠ n)
    (moved : Moved process next m host conv) : Alone n next alone where
  wired := moved.wired
  wiredAlone := same.wiredAlone
  moduleCount := same.moduleCount.trans moved.moduleCount.symm
  hosts := same.hosts.trans moved.hosts.symm
  length := moved.length ▸ same.length
  same := same.same.trans (moved.others n (Ne.symm different)).symm

/-- So are other calls that are made. -/
theorem otherCall (same : Alone n process alone) (different : process.calls.length ≠ n)
    (called : Called process next host conv) : Alone n next alone where
  wired := called.wired
  wiredAlone := same.wiredAlone
  moduleCount := same.moduleCount.trans called.moduleCount.symm
  hosts := same.hosts.trans called.hosts.symm
  length := by
    rw [called.length, same.length]
    congr 1
    exact propext ⟨fun small => by omega, fun small => by omega⟩
  same := same.same.trans (called.others n (Ne.symm different)).symm

/-- The call takes the same steps alone. -/
theorem ownMove (same : Alone n process alone) {move : Move}
    (moved : process.move n move = some next) :
    ∃ next', alone.move 0 move = some next' ∧ Alone n next next' := by
  obtain ⟨host, wapcHost, conv, conv', made, there, stepped, moved⟩ := same.wired.of_move moved
  obtain ⟨next', moved', effect⟩ := same.wiredAlone.exists_move (same.same.trans made)
    (same.hosts ▸ there) stepped
  refine ⟨next', moved', moved.wired, effect.wired, ?_, ?_, ?_, effect.own.trans moved.own.symm⟩
  · rw [effect.moduleCount, moved.moduleCount, same.moduleCount]
  · rw [effect.hosts, moved.hosts, same.hosts]
  · rw [effect.length, moved.length, same.length]

/-- The call is made alone with the same conversation. -/
theorem ownCall (same : Alone process.calls.length process alone) {mode : Mode} {inv : Invocation}
    (called : process.call host mode inv = some next) :
    ∃ next', alone.call host mode inv = some next' ∧ Alone process.calls.length next next' := by
  obtain ⟨wapcHost, there, called⟩ := same.wired.of_call called
  have none : alone.calls.length = 0 := by simpa using same.length
  obtain ⟨next', called'⟩ : ∃ next', alone.call host mode inv = some next' := by
    simp [Process.call, same.hosts, there]
  obtain ⟨wapcHost', there', effect⟩ := same.wiredAlone.of_call called'
  have sameHost : wapcHost' = wapcHost := by
    rw [same.hosts, there] at there'
    exact (Option.some.inj there').symm
  subst sameHost
  have own := effect.own
  rw [none] at own
  refine ⟨next', called', called.wired, effect.wired, ?_, ?_, ?_, own.trans called.own.symm⟩
  · rw [effect.moduleCount, called.moduleCount, same.moduleCount]
  · rw [effect.hosts, called.hosts, same.hosts]
  · rw [effect.length, called.length, none]
    simp

/-- The events of a call, in a process that makes only this call. -/
theorem projects (n : Nat) :
    Projects Process.machine Process.machine (@onlyCall Memory n) (Alone n) where
  own := by
    intro process event next alone name same named moved
    cases event with
    | nextId =>
      cases named
      cases moved
      refine ⟨_, rfl, same.wired.nextId _, same.wiredAlone.nextId _, ?_, same.hosts, same.length,
        same.same⟩
      simp [same.moduleCount]
    | newHost guest syncHostcall asyncHostcall =>
      cases named
      cases moved
      refine ⟨_, rfl, same.wired.newHost _ _ _, same.wiredAlone.newHost _ _ _, ?_, ?_,
        same.length, same.same⟩
      · simp [Process.newHost, same.moduleCount]
      · simp [Process.newHost, same.moduleCount, same.hosts]
    | call m host mode inv =>
      obtain ⟨rfl, rfl⟩ := of_onlyCall_call named
      obtain ⟨rfl, called⟩ := Process.of_step_call moved
      obtain ⟨next', called', kept⟩ := same.ownCall called
      have none : alone.calls.length = 0 := by simpa using same.length
      refine ⟨next', ?_, kept⟩
      simp only [Process.machine, Process.step, none]
      exact called'
    | step m move =>
      obtain ⟨rfl, rfl⟩ := of_onlyCall_step named
      exact same.ownMove moved
  other := by
    intro process event next alone same named moved
    cases event with
    | nextId => cases named
    | newHost guest syncHostcall asyncHostcall => cases named
    | call m host mode inv =>
      obtain ⟨rfl, called⟩ := Process.of_step_call moved
      obtain ⟨_, _, called⟩ := same.wired.of_call called
      refine same.otherCall ?_ called
      rintro rfl
      simp [onlyCall] at named
    | step m move =>
      obtain ⟨_, _, _, _, _, _, _, moved⟩ := same.wired.of_move moved
      refine same.otherMove ?_ moved
      rintro rfl
      simp [onlyCall] at named

end Alone

/-- The steps of call `n`. -/
def movesOf (n : Nat) : Event Memory → Option Move
  | .step m move => if m = n then some move else none
  | _ => none

/-- The conversation `conv` is where the moves lead in a fresh conversation of one of
the hosts. -/
def Follows (process : Process Memory) (host : Nat) (conv : Conversation Memory)
    (moves : List Move) : Prop :=
  ∃ wapcHost mode inv, process.hosts[host]? = some wapcHost ∧
    (Conversation.machine wapcHost).run (.new wapcHost mode inv) moves = some conv

namespace Follows

variable {process next : Process Memory} {host : Nat} {conv conv' : Conversation Memory}
  {moves : List Move} {wapcHost : WapcHost Memory}

/-- The hosts that are there stay. -/
theorem mono (follows : Follows process host conv moves)
    (kept : ∀ {wapcHost},
      process.hosts[host]? = some wapcHost → next.hosts[host]? = some wapcHost) :
    Follows next host conv moves := by
  obtain ⟨wapcHost, mode, inv, there, executed⟩ := follows
  exact ⟨wapcHost, mode, inv, kept there, executed⟩

theorem step (follows : Follows process host conv moves)
    (there : process.hosts[host]? = some wapcHost) {move : Move}
    (stepped : conv.step wapcHost move = some conv') :
    Follows process host conv' (moves ++ [move]) := by
  obtain ⟨wapcHost', mode, inv, there', executed⟩ := follows
  cases there.symm.trans there'
  refine ⟨wapcHost, mode, inv, there, ?_⟩
  rw [Machine.run_append, executed]
  change (Conversation.machine wapcHost).run conv [move] = some conv'
  exact Option.bind_eq_some_iff.mpr ⟨conv', stepped, rfl⟩

end Follows

/-- A process that is wired, and in which every call follows its own moves. -/
structure Separate (process : Process Memory) (events : List (Event Memory)) : Prop where
  wired : Wired process
  follows : ∀ {n host conv}, process.made n = some (host, conv) →
    Follows process host conv (events.filterMap (movesOf n))
  silent : ∀ {n}, process.calls.length ≤ n → events.filterMap (movesOf n) = []

namespace Separate

variable {process next : Process Memory} {events : List (Event Memory)} {event : Event Memory}

theorem new : Separate (Process.new : Process Memory) [] where
  wired := .new
  follows := by simp [Process.made, Process.new]
  silent := fun _ => rfl

/-- An event that is no step of a call only adds hosts. -/
theorem grow (separate : Separate process events) (wired : Wired next)
    (noMove : ∀ n, movesOf n event = none)
    (hosts : ∀ {host : Nat} {wapcHost : WapcHost Memory}, process.hosts[host]? = some wapcHost →
      next.hosts[host]? = some wapcHost)
    (made : ∀ n, next.made n = process.made n)
    (length : next.calls.length = process.calls.length) :
    Separate next (events ++ [event]) where
  wired := wired
  follows := by
    intro n host conv there
    rw [List.filterMap_append, List.filterMap_cons_none (noMove n), List.filterMap_nil,
      List.append_nil]
    exact (separate.follows (made n ▸ there)).mono hosts
  silent := by
    intro n large
    rw [List.filterMap_append, List.filterMap_cons_none (noMove n), List.filterMap_nil,
      List.append_nil]
    exact separate.silent (length ▸ large)

/-- A call that is made starts a conversation. -/
theorem call (separate : Separate process events) {n host : Nat} {mode : Mode} {inv : Invocation}
    (called : process.call host mode inv = some next) :
    Separate next (events ++ [.call n host mode inv]) := by
  obtain ⟨wapcHost, there, called⟩ := separate.wired.of_call called
  have quiet : ∀ m, (events ++ [Event.call n host mode inv]).filterMap (movesOf m) =
      events.filterMap (movesOf m) := by
    intro m
    simp [movesOf]
  refine ⟨called.wired, ?_, ?_⟩
  · intro m host' conv made
    rw [quiet m]
    by_cases own : m = process.calls.length
    · subst own
      cases called.own.symm.trans made
      refine ⟨wapcHost, mode, inv, called.hosts ▸ there, ?_⟩
      rw [separate.silent (Nat.le_refl _)]
      rfl
    · rw [called.others m own] at made
      exact (separate.follows made).mono fun kept => called.hosts ▸ kept
  · intro m large
    rw [quiet m]
    exact separate.silent (by rw [called.length] at large; omega)

/-- A step of a call is the next move of its conversation. -/
theorem move (separate : Separate process events) {n : Nat} {move : Move}
    (moved : process.move n move = some next) : Separate next (events ++ [.step n move]) := by
  obtain ⟨host, wapcHost, conv, conv', made, there, stepped, moved⟩ :=
    separate.wired.of_move moved
  have small := Process.small_of_made made
  have elsewhere : ∀ m, m ≠ n → (events ++ [Event.step n move]).filterMap (movesOf m) =
      events.filterMap (movesOf m) := by
    intro m different
    simp [movesOf, Ne.symm different]
  refine ⟨moved.wired, ?_, ?_⟩
  · intro m host' conv'' there'
    by_cases own : m = n
    · subst own
      cases moved.own.symm.trans there'
      have follows : Follows next host conv' (events.filterMap (movesOf m) ++ [move]) :=
        ((separate.follows made).step there stepped).mono fun kept => moved.hosts ▸ kept
      simpa [List.filterMap_append, movesOf] using follows
    · rw [moved.others m own] at there'
      rw [elsewhere m own]
      exact (separate.follows there').mono fun kept => moved.hosts ▸ kept
  · intro m large
    rw [moved.length] at large
    rw [elsewhere m (by omega)]
    exact separate.silent large

/-- One event of the process. -/
theorem step (separate : Separate process events)
    (transition : Process.machine.step process event = some next) :
    Separate next (events ++ [event]) := by
  cases event with
  | nextId =>
    cases transition
    exact separate.grow (separate.wired.nextId _) (fun _ => rfl) id (fun _ => rfl) rfl
  | newHost guest syncHostcall asyncHostcall =>
    cases transition
    refine separate.grow (separate.wired.newHost _ _ _) (fun _ => rfl) ?_ (fun _ => rfl) rfl
    intro host wapcHost there
    exact List.getElem?_append_left (List.getElem?_eq_some_iff.mp there).1 ▸ there
  | call n host mode inv => exact separate.call (Process.of_step_call transition).2
  | step n move => exact separate.move transition

/-- Every run of a process keeps its calls separate. -/
theorem run (executed : Process.machine.run .new events = some process) :
    Separate process events := by
  have steps : Process.machine.Steps (fun _ _ => True) .new events process :=
    .ofRun (fun _ _ _ => trivial) executed
  clear executed
  induction steps with
  | refl => exact .new
  | step _ _ transition ih => exact ih.step transition

end Separate

/-- Calls are isolated from each other. In every run of a process, with any hosts,
guests and interleaving, the moves of a call lead from a fresh module state and a fresh
instance to its conversation, and they do so in the process in which it is the only
call; there it has the same result. -/
theorem calls_are_isolated (events : List (Event Memory)) (process : Process Memory)
    (executed : Process.machine.run .new events = some process) (n : Nat)
    (called : n < process.calls.length) :
    ∃ host conv alone, process.made n = some (host, conv) ∧
      Follows process host conv (events.filterMap (movesOf n)) ∧
      Process.machine.run .new (events.filterMap (onlyCall n)) = some alone ∧
      alone.calls.length = 1 ∧ alone.hosts = process.hosts ∧
      alone.made 0 = process.made n ∧ alone.result 0 = process.result n := by
  have separate := Separate.run executed
  obtain ⟨host, wapcHost, conv, made, _⟩ := separate.wired.made called
  obtain ⟨alone, ran, same⟩ := (Alone.projects n).run (.new n) executed
  refine ⟨host, conv, alone, made, separate.follows made, ran, ?_, same.hosts, same.same, ?_⟩
  · rw [same.length, if_pos called]
  · rw [Process.result, Process.result, Process.conversation, Process.conversation, same.same]

/-- A guest that counts its calls in its memory and answers with the count. -/
def countingGuest : Guest (UInt8 × List Action) where
  exports := fun name => name = "__guest_call" || name = "__host_call_response_ready"
  instantiate := .ok (0, [])
  enter := fun (count, _) entry =>
    match entry with
    | .guestCall id _ _ =>
      (count + 1, [.call (.guestResponse id [count + 1]), .exit (.returned 1)])
    | _ => (count, [])
  next := fun (_, actions) => actions.headD (.exit (.returned 0))
  resume := fun (count, actions) _ => (count, actions.tail)

/-- Two calls of one host, each step of the first followed by one of the second. -/
def twoCalls : List (Event (UInt8 × List Action)) :=
  [.newHost countingGuest none none, .call 0 0 .sync ⟨"count", []⟩,
    .call 1 0 .sync ⟨"count", []⟩] ++
    [Move.run, .create, .init, .init, .init, .start, .enter, .run, .run, .finish].flatMap
      fun move => [.step 0 move, .step 1 move]

/-- The second call counts from the start. -/
theorem second_call_is_isolated :
    ∃ alone, Process.machine.run .new (twoCalls.filterMap (onlyCall 1)) = some alone ∧
      alone.result 0 = some (.ok [1]) := by
  obtain ⟨_, _, alone, _, _, ran, _, _, _, same⟩ :=
    calls_are_isolated twoCalls _ rfl 1 (by decide)
  exact ⟨alone, ran, same⟩

end Wapc.Runtime
