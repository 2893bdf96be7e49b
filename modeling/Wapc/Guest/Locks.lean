import Wapc.Host.ModuleState
import Wapc.Semantics.Guards
import Wapc.Semantics.Histories

/-!
# The SDK's locks

The three tables of the SDK are behind mutexes that are not re-entrant, and user code runs
in the middle of its functions: a handler inside `__guest_call`, which keeps `REGISTRY`
locked until the handler is done, and tasks inside `exhaust_tasks`. A thread is the stack
of these frames. It never waits for itself exactly as long as nothing is registered with
`register_function` while a handler runs.
-/

namespace Wapc.Guest

open Semantics Guards Host

/-- The mutexes `REGISTRY`, `ASYNC_REGISTRY` and `ASYNC_HOST_CALLS`. -/
inductive Mutex where
  | registry
  | asyncRegistry
  | asyncHostCalls
deriving DecidableEq, Repr

/-- Code that is not the SDK's: the guest's start function, a handler up to the rendering
of its error, or one poll of a task. -/
inductive UserCode where
  | init
  | handler
  | task
deriving DecidableEq, Repr

/-- What the SDK's functions do besides locking. -/
inductive SdkAct where
  | user (code : UserCode)
  | host
  | insertFunction (name : Bytes)
  | insertAsyncFunction (name : Bytes)
  | dispatch (operation : Bytes)
  | insertCall (index : I32)
  | removeCall (id : I32)
  | countCalls
  | runWhile
  | setDispatcher
  | getDispatcher
  | spawn
deriving DecidableEq, Repr

abbrev SdkCode := List (Instr Mutex SdkAct)

abbrev SdkFrame := Frame Mutex SdkAct

/-! ### The SDK's functions -/

def registerFunctionCode (name : Bytes) : SdkCode :=
  [.lock .registry, .act (.insertFunction name), .unlock .registry]

def registerAsyncFunctionCode (name : Bytes) : SdkCode :=
  [.lock .asyncRegistry, .act (.insertAsyncFunction name), .unlock .asyncRegistry]

def registerDispatcherCode : SdkCode := [.act .setDispatcher]

/-- The call, and the length and the bytes of its response or of its error. -/
def hostCallCode : SdkCode := [.act .host, .act .host, .act .host]

/-- The guard is bound to a name and lives to the end of the function. -/
def asyncHostCallCode (index : I32) : SdkCode :=
  [.lock .asyncHostCalls, .act (.insertCall index), .act .host, .unlock .asyncHostCalls]

/-- The condition of the loop, whose guard is gone at the end of its statement. -/
def exhaustTasksCode : SdkCode :=
  [.lock .asyncHostCalls, .act .countCalls, .unlock .asyncHostCalls, .act .runWhile]

/-- The guard is a temporary of the scrutinee and lives as long as the `match`. -/
def guestCallCode (operation : Bytes) : SdkCode :=
  [.act .host, .lock .registry, .act (.dispatch operation), .act .host, .unlock .registry]

def hostCallResponseReadyCode (id : I32) : SdkCode :=
  [.lock .asyncHostCalls, .act (.removeCall id), .unlock .asyncHostCalls] ++ exhaustTasksCode

def asyncGuestCallCode : SdkCode :=
  [.act .host, .act .getDispatcher, .act .spawn] ++ exhaustTasksCode

def userCode (code : UserCode) : SdkCode := [.act (.user code)]

/-- The functions that user code calls. -/
inductive Api where
  | registerFunction (name : Bytes)
  | registerAsyncFunction (name : Bytes)
  | registerDispatcher
  | hostCall
  | asyncHostCall
  | exhaustTasks
  | spawn
deriving DecidableEq, Repr

namespace Api

/-- The code of a function; host calls take this number. -/
def code (index : I32) : Api → SdkCode
  | registerFunction name => registerFunctionCode name
  | registerAsyncFunction name => registerAsyncFunctionCode name
  | registerDispatcher => registerDispatcherCode
  | hostCall => hostCallCode
  | asyncHostCall => asyncHostCallCode index
  | exhaustTasks => exhaustTasksCode
  | spawn => [.act .spawn]

/-- Both kinds of host calls take a number, before anything else. -/
def fetchAdd (index : I32) : Api → I32
  | hostCall | asyncHostCall => index + 1
  | _ => index

end Api

/-- The exports that the host calls. -/
inductive Export where
  | wapcInit
  | guestCall (operation : Bytes)
  | asyncGuestCall
  | hostCallResponseReady (id : I32)
deriving DecidableEq, Repr

def Export.code : Export → SdkCode
  | wapcInit => userCode .init
  | guestCall operation => guestCallCode operation
  | asyncGuestCall => asyncGuestCallCode
  | hostCallResponseReady id => hostCallResponseReadyCode id

/-- The SDK's statics as far as its control depends on them, the number of unfinished tasks,
and the `num_in_flight` that a condition has read. -/
structure SdkStatics where
  registry : List Bytes
  asyncRegistry : List Bytes
  dispatcher : Bool
  asyncHostCalls : List I32
  callNum : I32
  tasks : Nat
  numInFlight : Nat

/-- The guest's only thread. Guards of frames that trapped are never dropped. -/
structure GuestThread where
  statics : SdkStatics
  frames : List SdkFrame
  leaked : List Mutex

/-- The host enters; user code calls the SDK, or returns; user code or an import panics; the
SDK goes on, or its loop polls a task. A task's poll may finish the task. -/
inductive ThreadEvent where
  | enter (entry : Export)
  | call (api : Api)
  | leave (finished : Bool)
  | panic
  | advance
  | poll
deriving DecidableEq, Repr

namespace GuestThread

def new : GuestThread := ⟨⟨[], [], false, [], 0, 0, 0⟩, [], []⟩

variable (overflowChecks : Bool) (thread : GuestThread)

/-- The instance stops in the middle of its code. -/
def trap : GuestThread :=
  { thread with frames := [], leaked := thread.leaked ++ thread.frames.flatMap (·.held) }

/-- `tasks_count() - num_in_flight > 0`; without overflow checks the difference wraps. -/
def loopCondition : Option Bool :=
  if thread.statics.numInFlight ≤ thread.statics.tasks then
    some (0 < thread.statics.tasks - thread.statics.numInFlight)
  else if overflowChecks then none
  else some true

/-- The top frame does something, and `frame` is what it becomes. -/
def perform (act : SdkAct) (frame : SdkFrame) (below : List SdkFrame) : Option GuestThread :=
  let statics := thread.statics
  let next := { thread with frames := frame :: below }
  match act with
  | .user _ => none
  | .host => some next
  | .insertFunction name =>
    some { next with statics := { statics with registry := name :: statics.registry } }
  | .insertAsyncFunction name =>
    some { next with statics := { statics with asyncRegistry := name :: statics.asyncRegistry } }
  | .dispatch operation =>
    if operation ∈ statics.registry then
      some { next with frames := ⟨[], userCode .handler⟩ :: frame :: below }
    else some next
  | .insertCall index =>
    some { next with statics := { statics with
      asyncHostCalls := index :: statics.asyncHostCalls.filter (· ≠ index) } }
  | .removeCall id =>
    if id ∈ statics.asyncHostCalls then
      some { next with statics := { statics with
        asyncHostCalls := statics.asyncHostCalls.filter (· ≠ id) } }
    else some thread.trap
  | .countCalls =>
    some { next with statics := { statics with numInFlight := statics.asyncHostCalls.length } }
  | .runWhile =>
    match thread.loopCondition overflowChecks with
    | some true =>
      some { next with frames := ⟨frame.held, exhaustTasksCode ++ frame.code⟩ :: below }
    | some false => some next
    | none => some thread.trap
  | .setDispatcher => some { next with statics := { statics with dispatcher := true } }
  | .getDispatcher => if statics.dispatcher then some next else some thread.trap
  | .spawn => some { next with statics := { statics with tasks := statics.tasks + 1 } }

/-- The SDK's code goes on. A lock that is not free is waited for, for ever. -/
def advance : Option GuestThread :=
  match thread.frames with
  | [] => none
  | ⟨_, []⟩ :: below => some { thread with frames := below }
  | ⟨held, .lock mutex :: code⟩ :: below =>
    if Holds thread.frames mutex ∨ mutex ∈ thread.leaked then none
    else some { thread with frames := ⟨mutex :: held, code⟩ :: below }
  | ⟨held, .unlock mutex :: code⟩ :: below =>
    some { thread with frames := ⟨held.erase mutex, code⟩ :: below }
  | ⟨held, .act act :: code⟩ :: below => thread.perform overflowChecks act ⟨held, code⟩ below

/-- The executor polls a task, and then the condition is evaluated again. -/
def poll : Option GuestThread :=
  match thread.frames with
  | ⟨held, .act .runWhile :: code⟩ :: below =>
    if thread.loopCondition overflowChecks = some true ∧ 0 < thread.statics.tasks then
      some { thread with frames :=
        ⟨[], userCode .task⟩ :: ⟨held, exhaustTasksCode ++ code⟩ :: below }
    else none
  | _ => none

/-- User code calls the SDK. -/
def call (api : Api) : Option GuestThread :=
  match thread.frames with
  | ⟨_, .act (.user _) :: _⟩ :: _ =>
    let index := thread.statics.callNum
    some { thread with
      statics := { thread.statics with callNum := api.fetchAdd index }
      frames := ⟨[], api.code index⟩ :: thread.frames }
  | _ => none

/-- User code returns to the frame below it. -/
def leave (finished : Bool) : Option GuestThread :=
  match thread.frames with
  | ⟨_, .act (.user code) :: _⟩ :: below =>
    let done := code = .task ∧ finished = true
    some { thread with
      statics := { thread.statics with
        tasks := if done then thread.statics.tasks - 1 else thread.statics.tasks }
      frames := below }
  | _ => none

/-- The host enters only when no code of the guest is running. -/
def enter (entry : Export) : Option GuestThread :=
  match thread.frames with
  | [] => some { thread with frames := [⟨[], entry.code⟩] }
  | _ :: _ => none

def step : ThreadEvent → Option GuestThread
  | .enter entry => thread.enter entry
  | .call api => thread.call api
  | .leave finished => thread.leave finished
  | .panic =>
    match thread.frames with
    | ⟨_, .act (.user _) :: _⟩ :: _ | ⟨_, .act .host :: _⟩ :: _ => some thread.trap
    | _ => none
  | .advance => thread.advance overflowChecks
  | .poll => thread.poll overflowChecks

/-- The guest's thread as a machine. -/
def machine : Machine GuestThread ThreadEvent := ⟨step overflowChecks⟩

/-- In a run the guest never tries to take a lock that one of its frames holds. -/
def NeverDeadlocks (events : List ThreadEvent) : Prop :=
  (machine overflowChecks).Throughout (fun thread => ¬ Deadlocked thread.frames) new events

/-- A handler is running; the tasks it polls with `exhaust_tasks` run inside it. -/
def InHandler : Prop := ∃ held rest, ⟨held, .act (.user .handler) :: rest⟩ ∈ thread.frames

/-- Nothing is registered with `register_function` while a handler runs. -/
def RegistersOutside (thread : GuestThread) (event : ThreadEvent) (_ : GuestThread) : Prop :=
  ∀ name, event = .call (.registerFunction name) → ¬ thread.InHandler

variable {overflowChecks} {thread next : GuestThread} {event : ThreadEvent}

/-- What an event does to the stack. -/
inductive Moves : List SdkFrame → ThreadEvent → List SdkFrame → Prop where
  | enter (entry : Export) : Moves [] (.enter entry) [⟨[], entry.code⟩]
  | call {held user code below} (api : Api) (index : I32) :
      Moves (⟨held, .act (.user user) :: code⟩ :: below) (.call api)
        (⟨[], api.code index⟩ :: ⟨held, .act (.user user) :: code⟩ :: below)
  | leave {frame below} (finished : Bool) : Moves (frame :: below) (.leave finished) below
  | panic {frames} : Moves frames .panic []
  | trap {frames} : Moves frames .advance []
  | returns {frame below} : Moves (frame :: below) .advance below
  | lock {held mutex code below} :
      Moves (⟨held, .lock mutex :: code⟩ :: below) .advance (⟨mutex :: held, code⟩ :: below)
  | unlock {held mutex code below} :
      Moves (⟨held, .unlock mutex :: code⟩ :: below) .advance (⟨held.erase mutex, code⟩ :: below)
  | act {held act code below} (sdk : ∀ user, act ≠ .user user) :
      Moves (⟨held, .act act :: code⟩ :: below) .advance (⟨held, code⟩ :: below)
  | dispatch {held operation code below} :
      Moves (⟨held, .act (.dispatch operation) :: code⟩ :: below) .advance
        (⟨[], userCode .handler⟩ :: ⟨held, code⟩ :: below)
  | again {held code below} :
      Moves (⟨held, .act .runWhile :: code⟩ :: below) .advance
        (⟨held, exhaustTasksCode ++ code⟩ :: below)
  | poll {held code below} :
      Moves (⟨held, .act .runWhile :: code⟩ :: below) .poll
        (⟨[], userCode .task⟩ :: ⟨held, exhaustTasksCode ++ code⟩ :: below)

theorem perform_moves {act : SdkAct} {held : List Mutex} {code : SdkCode} {below : List SdkFrame}
    (performs : thread.perform overflowChecks act ⟨held, code⟩ below = some next) :
    Moves (⟨held, .act act :: code⟩ :: below) .advance next.frames := by
  cases act with
  | user user => cases performs
  | dispatch operation =>
    simp only [perform] at performs
    split at performs
    · cases performs
      exact .dispatch
    · cases performs
      exact .act (by simp)
  | removeCall id =>
    simp only [perform] at performs
    split at performs
    · cases performs
      exact .act (by simp)
    · cases performs
      exact .trap
  | runWhile =>
    simp only [perform] at performs
    split at performs
    · cases performs
      exact .again
    · cases performs
      exact .act (by simp)
    · cases performs
      exact .trap
  | getDispatcher =>
    simp only [perform] at performs
    split at performs
    · cases performs
      exact .act (by simp)
    · cases performs
      exact .trap
  | host => cases performs; exact .act (by simp)
  | insertFunction name => cases performs; exact .act (by simp)
  | insertAsyncFunction name => cases performs; exact .act (by simp)
  | insertCall index => cases performs; exact .act (by simp)
  | countCalls => cases performs; exact .act (by simp)
  | setDispatcher => cases performs; exact .act (by simp)
  | spawn => cases performs; exact .act (by simp)

theorem advance_moves (advances : thread.advance overflowChecks = some next) :
    Moves thread.frames .advance next.frames := by
  simp only [advance] at advances
  split at advances
  · cases advances
  · rename_i frames
    cases advances
    rw [frames]
    exact .returns
  · rename_i held mutex code below frames
    split at advances
    · cases advances
    · cases advances
      rw [frames]
      exact .lock
  · rename_i held mutex code below frames
    cases advances
    rw [frames]
    exact .unlock
  · rename_i held act code below frames
    rw [frames]
    exact perform_moves advances

theorem step_moves (transition : (machine overflowChecks).step thread event = some next) :
    Moves thread.frames event next.frames := by
  change step overflowChecks thread event = some next at transition
  cases event with
  | advance => exact advance_moves transition
  | enter entry =>
    simp only [step, enter] at transition
    split at transition
    · rename_i frames
      cases transition
      rw [frames]
      exact .enter entry
    · cases transition
  | call api =>
    simp only [step, call] at transition
    split at transition
    · rename_i held user code below frames
      cases transition
      rw [frames]
      exact .call api _
    · cases transition
  | leave finished =>
    simp only [step, leave] at transition
    split at transition
    · rename_i frames
      cases transition
      rw [frames]
      exact .leave finished
    · cases transition
  | panic =>
    simp only [step] at transition
    split at transition
    · cases transition
      exact .panic
    · cases transition
      exact .panic
    · cases transition
  | poll =>
    simp only [step, poll] at transition
    split at transition
    · rename_i held code below frames
      split at transition
      · cases transition
        rw [frames]
        exact .poll
      · cases transition
    · cases transition

/-- What the SDK's code holds where it runs user code: `__guest_call` keeps its guard, and
so a handler runs above a frame that has it. -/
def permits (below : Mutex → Prop) : SdkAct → List Mutex → Prop
  | .user .handler, held => held = [] ∧ below .registry
  | .user _, held => held = []
  | .dispatch _, held => held = [.registry]
  | .runWhile, held => held = []
  | _, _ => True

/-- A frame that called another holds at most `REGISTRY`, and that for a handler. -/
def Called (frame caller : SdkFrame) : Prop :=
  ∀ mutex ∈ caller.held, mutex = .registry ∧ frame = ⟨[], userCode .handler⟩

/-- The stacks that a run has before it deadlocks. -/
structure SoundStack (frames : List SdkFrame) : Prop where
  safe : Safe permits frames
  chain : frames.IsChain Called

theorem soundStack_nil : SoundStack [] := ⟨trivial, .nil⟩

section Stack

variable {frame top : SdkFrame} {below frames : List SdkFrame} {mutex : Mutex}

theorem SoundStack.tail (sound : SoundStack (frame :: below)) : SoundStack below :=
  ⟨sound.safe.2, sound.chain.of_cons⟩

/-- Only `REGISTRY` is held below the top, and only around a handler. -/
theorem SoundStack.holds_below (sound : SoundStack (top :: below)) (holds : Holds below mutex) :
    mutex = .registry ∧ (⟨[], userCode .handler⟩ : SdkFrame) ∈ top :: below := by
  obtain ⟨frame, member, rfl, rfl⟩ := holds_of_isChain
    (fun frame mutex => mutex = .registry ∧ frame = ⟨[], userCode .handler⟩)
    (fun called lock member => called lock member) sound.chain holds
  exact ⟨rfl, member⟩

/-- A handler runs above a frame that holds `REGISTRY`. -/
theorem SoundStack.holds_of_handler (sound : SoundStack frames) {held : List Mutex} {rest : SdkCode}
    (member : ⟨held, .act (.user .handler) :: rest⟩ ∈ frames) : Holds frames .registry := by
  obtain ⟨above, below, rfl⟩ := List.append_of_mem member
  obtain ⟨⟨_, frame, lower, has⟩, _⟩ := sound.safe.split
  exact ⟨frame, by simp [lower], has⟩

/-- Another frame in the place of the top one, which is not a handler. -/
theorem SoundStack.replace (sound : SoundStack (top :: below))
    (other : top ≠ ⟨[], userCode .handler⟩) (safe : Safe permits (frame :: below)) :
    SoundStack (frame :: below) := by
  refine ⟨safe, ?_⟩
  cases below with
  | nil => exact .singleton frame
  | cons caller below =>
    obtain ⟨called, rest⟩ := List.isChain_cons_cons.mp sound.chain
    refine List.isChain_cons_cons.mpr ⟨fun mutex member => ?_, rest⟩
    exact absurd (called mutex member).2 other

/-- A frame above one that holds nothing. -/
theorem SoundStack.push {code caller : SdkCode} (sound : SoundStack (⟨[], caller⟩ :: below))
    (guarded : Guarded permits (Holds (⟨[], caller⟩ :: below)) [] code) :
    SoundStack (⟨[], code⟩ :: ⟨[], caller⟩ :: below) := by
  refine ⟨sound.safe.push guarded, List.isChain_cons_cons.mpr ⟨?_, sound.chain⟩⟩
  intro mutex member
  cases member

end Stack

/-! ### The code of the SDK is guarded -/

section Code

variable {below : Mutex → Prop}

theorem exhaustTasksCode_guarded {code : SdkCode} (free : ¬ below .asyncHostCalls)
    (rest : Guarded permits below [] code) :
    Guarded permits below [] (exhaustTasksCode ++ code) :=
  ⟨free, by simp, trivial, rfl, rest⟩

theorem api_guarded (api : Api) (index : I32) (registry : ∀ name,
    api = .registerFunction name → ¬ below .registry) (asyncRegistry : ¬ below .asyncRegistry)
    (asyncHostCalls : ¬ below .asyncHostCalls) :
    Guarded permits below [] (api.code index) := by
  cases api with
  | registerFunction name => exact ⟨registry name rfl, by simp, trivial, trivial⟩
  | registerAsyncFunction name => exact ⟨asyncRegistry, by simp, trivial, trivial⟩
  | registerDispatcher => exact ⟨trivial, trivial⟩
  | hostCall => exact ⟨trivial, trivial, trivial, trivial⟩
  | asyncHostCall => exact ⟨asyncHostCalls, by simp, trivial, trivial, trivial⟩
  | exhaustTasks => exact exhaustTasksCode_guarded asyncHostCalls trivial
  | spawn => exact ⟨trivial, trivial⟩

theorem export_guarded (entry : Export) (free : ∀ mutex, ¬ below mutex) :
    Guarded permits below [] entry.code := by
  have loop : Guarded permits below [] exhaustTasksCode :=
    (exhaustTasksCode_guarded (free .asyncHostCalls) trivial :
      Guarded permits below [] (exhaustTasksCode ++ []))
  cases entry with
  | wapcInit => exact ⟨rfl, trivial⟩
  | guestCall operation => exact ⟨trivial, free .registry, by simp, rfl, trivial, trivial⟩
  | asyncGuestCall => exact ⟨trivial, trivial, trivial, loop⟩
  | hostCallResponseReady id => exact ⟨free .asyncHostCalls, by simp, trivial, loop⟩

end Code

/-- The loop starts again; it holds nothing when it does. -/
theorem SoundStack.again {held : List Mutex} {code : SdkCode} {below : List SdkFrame}
    (sound : SoundStack (⟨held, .act .runWhile :: code⟩ :: below)) :
    held = [] ∧ SoundStack (⟨[], exhaustTasksCode ++ code⟩ :: below) := by
  obtain ⟨rfl, safe⟩ := sound.safe.act
  have free : ¬ Holds below .asyncHostCalls :=
    fun holds => absurd (sound.holds_below holds).1 (by simp)
  exact ⟨rfl, sound.replace (by simp [userCode])
    ⟨exhaustTasksCode_guarded free safe.1, safe.2⟩⟩

/-- The stack stays sound, unless a handler registers. -/
theorem SoundStack.step (sound : SoundStack thread.frames)
    (outside : RegistersOutside thread event next)
    (transition : (machine overflowChecks).step thread event = some next) :
    SoundStack next.frames := by
  have moves := step_moves transition
  unfold RegistersOutside InHandler at outside
  generalize thread.frames = before at sound outside moves
  generalize next.frames = after at moves
  cases moves with
  | enter entry =>
    exact ⟨sound.safe.push (export_guarded entry not_holds_nil), .singleton _⟩
  | @call held user code below api index =>
    have idle : held = [] := by
      have permitted := sound.safe.1.1
      cases user with
      | handler => exact permitted.1
      | init => exact permitted
      | task => exact permitted
    subst idle
    have registry : ∀ {mutex}, Holds (⟨[], .act (.user user) :: code⟩ :: below) mutex →
        mutex = .registry ∧ (⟨[], userCode .handler⟩ : SdkFrame) ∈
          ⟨[], .act (.user user) :: code⟩ :: below := by
      intro mutex holds
      exact sound.holds_below (((holds_cons _ _ _).mp holds).resolve_left (by simp))
    refine sound.push (api_guarded api index ?_ ?_ ?_)
    · rintro name rfl holds
      exact outside name rfl ⟨[], [], (registry holds).2⟩
    · exact fun holds => absurd (registry holds).1 (by simp)
    · exact fun holds => absurd (registry holds).1 (by simp)
  | leave finished => exact sound.tail
  | panic => exact soundStack_nil
  | trap => exact soundStack_nil
  | returns => exact sound.tail
  | lock => exact sound.replace (by simp [userCode]) sound.safe.lock
  | unlock => exact sound.replace (by simp [userCode]) sound.safe.unlock
  | act sdk => exact sound.replace (by simp [userCode, sdk .handler]) sound.safe.act.2
  | @dispatch held operation code below =>
    obtain ⟨rfl, safe⟩ := sound.safe.act
    have caller : SoundStack (⟨[.registry], code⟩ :: below) :=
      sound.replace (by simp [userCode]) safe
    refine ⟨caller.safe.push ⟨⟨rfl, by simp⟩, trivial⟩, ?_⟩
    refine List.isChain_cons_cons.mpr ⟨fun mutex member => ⟨?_, rfl⟩, caller.chain⟩
    exact List.mem_singleton.mp member
  | again =>
    obtain ⟨rfl, again⟩ := sound.again
    exact again
  | poll =>
    obtain ⟨rfl, again⟩ := sound.again
    exact again.push ⟨rfl, trivial⟩

/-- A handler that registers waits for the lock of the `__guest_call` it runs in. -/
theorem SoundStack.deadlocks (sound : SoundStack thread.frames) (inHandler : thread.InHandler)
    {name : Bytes}
    (transition :
      (machine overflowChecks).step thread (.call (.registerFunction name)) = some next) :
    Deadlocked next.frames := by
  obtain ⟨held, rest, member⟩ := inHandler
  have holds := sound.holds_of_handler member
  have moves := step_moves transition
  generalize thread.frames = before at holds moves
  generalize next.frames = after at moves
  cases moves with
  | call api index =>
    exact ⟨.registry, [], _, _, rfl, (holds_cons _ _ _).mpr (.inr holds)⟩

/-- A step that does not deadlock registers nothing in a handler. -/
theorem SoundStack.registersOutside (sound : SoundStack thread.frames)
    (free : ¬ Deadlocked next.frames)
    (transition : (machine overflowChecks).step thread event = some next) :
    RegistersOutside thread event next := by
  rintro name rfl inHandler
  exact free (sound.deadlocks inHandler transition)

/-- The SDK never waits for its own locks exactly in the runs in which `register_function` is
not called while a handler of `__guest_call` runs. -/
theorem never_deadlocks_iff (overflowChecks : Bool) (events : List ThreadEvent) :
    NeverDeadlocks overflowChecks events ↔
      (machine overflowChecks).Along RegistersOutside new events := by
  constructor
  · intro never
    have free : (machine overflowChecks).Along (fun _ _ next => ¬ Deadlocked next.frames) new
        events := fun _ _ _ _ within executed transition =>
      (never.along within executed transition).2
    have sound : (machine overflowChecks).Throughout (fun thread => SoundStack thread.frames) new
        events :=
      free.throughout soundStack_nil fun sound admitted transition =>
        sound.step (sound.registersOutside admitted transition) transition
    intro before event state next within executed transition
    exact (sound.along within executed transition).1.registersOutside
      (free before event state next within executed transition) transition
  · intro outside
    have sound : (machine overflowChecks).Throughout (fun thread => SoundStack thread.frames) new
        events :=
      outside.throughout soundStack_nil fun sound admitted transition =>
        sound.step admitted transition
    exact fun before state within executed =>
      (sound before state within executed).safe.not_deadlocked

/-- The guest registers a handler when it starts, and the handler registers another. -/
def registeringHandler : List ThreadEvent :=
  [.enter .wapcInit, .call (.registerFunction [1]), .advance, .advance, .advance, .advance,
    .leave false, .enter (.guestCall [1]), .advance, .advance, .advance,
    .call (.registerFunction [2])]

theorem registering_handler_deadlocks :
    ¬ ∀ overflowChecks events, NeverDeadlocks overflowChecks events := by
  intro never
  obtain ⟨final, held, code, below, executed, frames, holds⟩ :
      ∃ final held code below, (machine false).run new registeringHandler = some final ∧
        final.frames = ⟨held, .lock .registry :: code⟩ :: below ∧ Holds final.frames .registry :=
    ⟨_, _, _, _, rfl, rfl, by decide⟩
  exact never false registeringHandler registeringHandler final (List.prefix_refl _) executed
    ⟨.registry, held, code, below, frames, holds⟩

end GuestThread
end Wapc.Guest
