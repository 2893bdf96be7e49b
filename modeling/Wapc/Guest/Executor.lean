import Mathlib.Data.List.Flatten
import Mathlib.Data.List.Nodup
import Mathlib.Data.List.Perm.Basic
import Mathlib.Data.List.Perm.Subperm
import Wapc.Host.ModuleState
import Wapc.Semantics.Machine

/-!
# The guest's task loop

`exhaust_tasks` polls the tasks of the guest's executor while `tasks_count()` minus the
size of `ASYNC_HOST_CALLS` is positive, which stands for the tasks that are not suspended
on a host call. The executor polls runnable tasks and counts unfinished ones; a task is
woken when a call it awaits is answered, or when its sender is dropped. Tasks await host
calls and nothing else, and it is they who make them: no task awaits another one, and
`async_host_call` is not called outside of a poll. `Sound` is what every run keeps.
-/

namespace Wapc.Guest

open Semantics

/-- A task of the executor. A suspended task awaits futures of host calls, and only of
these; they are numbered in the order they were made. -/
inductive AsyncTask where
  | runnable
  | suspended (waits : List Nat)
  | finished
deriving DecidableEq, Repr

namespace AsyncTask

def unfinished : AsyncTask → Bool
  | .finished => false
  | _ => true

def isRunnable : AsyncTask → Bool
  | .runnable => true
  | _ => false

def isSuspended : AsyncTask → Bool
  | .suspended _ => true
  | _ => false

/-- The calls a task awaits. -/
def waits : AsyncTask → List Nat
  | .suspended waits => waits
  | _ => []

/-- Call `k` is answered or given up. -/
def wake (k : Nat) (task : AsyncTask) : AsyncTask :=
  if k ∈ task.waits then .runnable else task

end AsyncTask

/-- The future of an `async_host_call`. One that was refused is ready at once. -/
structure HostFuture where
  accepted : Bool
  alive : Bool
deriving DecidableEq, Repr

/-- The statics of the SDK and the tasks of its executor. `asyncHostCalls` has the
sender of a call under its index; `polling` is the task that is being polled. -/
structure Executor where
  callNum : I32
  asyncHostCalls : List (I32 × Nat)
  futures : List HostFuture
  tasks : List AsyncTask
  looping : Bool
  polling : Option Nat

/-- `asyncGuestCall` and `hostCallResponseReady` are entries of the host, `poll` and
`leave` belong to `run_while`, and the others are what a polled task does. -/
inductive ExecutorEvent where
  | asyncGuestCall
  | hostCallResponseReady (id : I32)
  | poll (n : Nat)
  | leave
  | asyncHostCall (accepted : Bool)
  | hostCall
  | dropFuture (k : Nat)
  | spawn
  | suspend (waits : List Nat)
  | yieldNow
  | finish
deriving DecidableEq, Repr

namespace Executor

def new : Executor where
  callNum := 0
  asyncHostCalls := []
  futures := []
  tasks := []
  looping := false
  polling := none

variable (overflowChecks : Bool) (exec : Executor)

/-- The calls whose sender is in the table. -/
def unanswered : List Nat := exec.asyncHostCalls.map (·.2)

/-- The calls that tasks await. -/
def waited : List Nat := exec.tasks.flatMap (·.waits)

/-- A call is unanswered, and no task awaits it. -/
def Loose (k : Nat) : Prop := k ∈ exec.unanswered ∧ k ∉ exec.waited

instance (k : Nat) : Decidable (exec.Loose k) := inferInstanceAs (Decidable (_ ∧ _))

/-- `tasks_count()`. -/
def tasksCount : Nat := exec.tasks.countP (·.unfinished)

/-- The condition of `exhaust_tasks`; without overflow checks the difference wraps. -/
def loopCondition : Outcome Bool :=
  if exec.asyncHostCalls.length ≤ exec.tasksCount then
    .returned (0 < exec.tasksCount - exec.asyncHostCalls.length)
  else if overflowChecks then .trapped "attempt to subtract with overflow"
  else .returned true

/-- Take the sender under `id` out of the table. Sending on it wakes the task that awaits
the call, and so does dropping it. -/
def evict (id : I32) : Executor :=
  match exec.asyncHostCalls.find? (·.1 = id) with
  | some entry => { exec with
      asyncHostCalls := exec.asyncHostCalls.filter (·.1 ≠ id)
      tasks := exec.tasks.map (·.wake entry.2) }
  | none => exec

/-- `__async_guest_call` spawns a task and runs the loop. -/
def asyncGuestCall : Option Executor :=
  if exec.looping then none
  else some { exec with tasks := exec.tasks ++ [.runnable], looping := true }

/-- `__host_call_response_ready`; the host answers calls it accepted. -/
def hostCallResponseReady (id : I32) : Option Executor :=
  if exec.looping then none
  else match exec.asyncHostCalls.find? (·.1 = id) with
    | some entry =>
      if exec.futures[entry.2]?.any (·.accepted) then some { exec.evict id with looping := true }
      else none
    | none => none

/-- The loop goes on with a runnable task. -/
def poll (n : Nat) : Option Executor :=
  if exec.looping ∧ exec.polling = none ∧ exec.loopCondition overflowChecks = .returned true ∧
      exec.tasks[n]? = some .runnable then
    some { exec with polling := some n }
  else none

def leave : Option Executor :=
  if exec.looping ∧ exec.polling = none ∧ exec.loopCondition overflowChecks = .returned false then
    some { exec with looping := false }
  else none

/-- `async_host_call`: the sender replaces one that is still there under this index. -/
def asyncHostCall (accepted : Bool) : Option Executor :=
  match exec.polling with
  | some _ => some { exec.evict exec.callNum with
      callNum := exec.callNum + 1
      asyncHostCalls := (exec.evict exec.callNum).asyncHostCalls ++
        [(exec.callNum, exec.futures.length)]
      futures := exec.futures ++ [⟨accepted, true⟩] }
  | none => none

/-- `host_call` takes its number from the same counter. -/
def hostCall : Option Executor :=
  match exec.polling with
  | some _ => some { exec with callNum := exec.callNum + 1 }
  | none => none

/-- The polled task drops a future that no task awaits. -/
def dropFuture (k : Nat) : Option Executor :=
  match exec.polling, exec.futures[k]? with
  | some _, some future =>
    if future.alive ∧ k ∉ exec.waited then
      some { exec with futures := exec.futures.set k { future with alive := false } }
    else none
  | _, _ => none

def spawn : Option Executor :=
  match exec.polling with
  | some _ => some { exec with tasks := exec.tasks ++ [.runnable] }
  | none => none

/-- A future is pending, and no other task awaits it. -/
def Pending (k : Nat) : Prop := exec.Loose k ∧ exec.futures[k]? = some ⟨true, true⟩

instance (k : Nat) : Decidable (exec.Pending k) := inferInstanceAs (Decidable (_ ∧ _))

/-- The polled task awaits one or more pending futures. -/
def suspend (waits : List Nat) : Option Executor :=
  match exec.polling with
  | some n =>
    if waits ≠ [] ∧ waits.Nodup ∧ ∀ k ∈ waits, exec.Pending k then
      some { exec with tasks := exec.tasks.set n (.suspended waits), polling := none }
    else none
  | none => none

/-- The polled task is to be polled again. -/
def yieldNow : Option Executor :=
  match exec.polling with
  | some _ => some { exec with polling := none }
  | none => none

def finish : Option Executor :=
  match exec.polling with
  | some n => some { exec with tasks := exec.tasks.set n .finished, polling := none }
  | none => none

def step : ExecutorEvent → Option Executor
  | .asyncGuestCall => exec.asyncGuestCall
  | .hostCallResponseReady id => exec.hostCallResponseReady id
  | .poll n => exec.poll overflowChecks n
  | .leave => exec.leave overflowChecks
  | .asyncHostCall accepted => exec.asyncHostCall accepted
  | .hostCall => exec.hostCall
  | .dropFuture k => exec.dropFuture k
  | .spawn => exec.spawn
  | .suspend waits => exec.suspend waits
  | .yieldNow => exec.yieldNow
  | .finish => exec.finish

/-- The guest's executor as a machine. -/
def machine : Machine Executor ExecutorEvent := ⟨step overflowChecks⟩

end Executor

/-- A woken task awaits nothing any more. -/
theorem AsyncTask.waits_wake (k : Nat) (task : AsyncTask) :
    (task.wake k).waits = if k ∈ task.waits then [] else task.waits := by
  unfold AsyncTask.wake
  split <;> rfl

/-- One task of a list is replaced, and the others stay. -/
theorem set_perm {tasks : List AsyncTask} {n : Nat} {task : AsyncTask}
    (found : tasks[n]? = some task) :
    ∃ rest, tasks.Perm (task :: rest) ∧ ∀ other, (tasks.set n other).Perm (other :: rest) := by
  obtain ⟨bound, rfl⟩ := List.getElem?_eq_some_iff.mp found
  exact ⟨tasks.eraseIdx n, (List.getElem_cons_eraseIdx_perm bound).symm,
    fun other => List.set_perm_cons_eraseIdx bound other⟩

namespace Executor

variable {overflowChecks : Bool} {exec next : Executor} {event : ExecutorEvent}

/-- What each event does, and when. -/
inductive Effect (overflowChecks : Bool) (exec : Executor) : ExecutorEvent → Executor → Prop where
  | asyncGuestCall (outside : exec.looping = false) :
      Effect overflowChecks exec .asyncGuestCall
        { exec with tasks := exec.tasks ++ [.runnable], looping := true }
  | hostCallResponseReady {id : I32} {entry : I32 × Nat} (outside : exec.looping = false)
      (found : exec.asyncHostCalls.find? (·.1 = id) = some entry) :
      Effect overflowChecks exec (.hostCallResponseReady id) { exec.evict id with looping := true }
  | poll {n : Nat} (looping : exec.looping) (runnable : exec.tasks[n]? = some .runnable) :
      Effect overflowChecks exec (.poll n) { exec with polling := some n }
  | leave (idle : exec.polling = none) :
      Effect overflowChecks exec .leave { exec with looping := false }
  | asyncHostCall {n : Nat} {accepted : Bool} (polling : exec.polling = some n) :
      Effect overflowChecks exec (.asyncHostCall accepted) { exec.evict exec.callNum with
        callNum := exec.callNum + 1
        asyncHostCalls := (exec.evict exec.callNum).asyncHostCalls ++
          [(exec.callNum, exec.futures.length)]
        futures := exec.futures ++ [⟨accepted, true⟩] }
  | hostCall {n : Nat} (polling : exec.polling = some n) :
      Effect overflowChecks exec .hostCall { exec with callNum := exec.callNum + 1 }
  | dropFuture {n k : Nat} {future : HostFuture} (polling : exec.polling = some n) :
      Effect overflowChecks exec (.dropFuture k)
        { exec with futures := exec.futures.set k { future with alive := false } }
  | spawn {n : Nat} (polling : exec.polling = some n) :
      Effect overflowChecks exec .spawn { exec with tasks := exec.tasks ++ [.runnable] }
  | suspend {n : Nat} {waits : List Nat} (polling : exec.polling = some n)
      (awaits : waits ≠ []) (once : waits.Nodup) (pending : ∀ k ∈ waits, exec.Pending k) :
      Effect overflowChecks exec (.suspend waits)
        { exec with tasks := exec.tasks.set n (.suspended waits), polling := none }
  | yieldNow {n : Nat} (polling : exec.polling = some n) :
      Effect overflowChecks exec .yieldNow { exec with polling := none }
  | finish {n : Nat} (polling : exec.polling = some n) :
      Effect overflowChecks exec .finish
        { exec with tasks := exec.tasks.set n .finished, polling := none }

theorem step_cases (transition : exec.step overflowChecks event = some next) :
    Effect overflowChecks exec event next := by
  cases event with
  | asyncGuestCall =>
    simp only [step, asyncGuestCall, Option.ite_none_left_eq_some, Option.some.injEq] at transition
    obtain ⟨outside, rfl⟩ := transition
    exact .asyncGuestCall (by simpa using outside)
  | hostCallResponseReady id =>
    simp only [step, hostCallResponseReady, Option.ite_none_left_eq_some] at transition
    obtain ⟨outside, entered⟩ := transition
    split at entered
    next entry found =>
      simp only [Option.ite_none_right_eq_some, Option.some.injEq] at entered
      obtain ⟨-, rfl⟩ := entered
      exact .hostCallResponseReady (by simpa using outside) found
    next => cases entered
  | poll n =>
    simp only [step, poll, Option.ite_none_right_eq_some, Option.some.injEq] at transition
    obtain ⟨⟨looping, -, -, runnable⟩, rfl⟩ := transition
    exact .poll looping runnable
  | leave =>
    simp only [step, leave, Option.ite_none_right_eq_some, Option.some.injEq] at transition
    obtain ⟨⟨-, idle, -⟩, rfl⟩ := transition
    exact .leave idle
  | dropFuture k =>
    simp only [step, dropFuture] at transition
    split at transition
    next polling _ =>
      simp only [Option.ite_none_right_eq_some, Option.some.injEq] at transition
      obtain ⟨-, rfl⟩ := transition
      exact .dropFuture polling
    next => cases transition
  | suspend waits =>
    simp only [step, suspend] at transition
    split at transition
    next polling =>
      simp only [Option.ite_none_right_eq_some, Option.some.injEq] at transition
      obtain ⟨⟨awaits, once, pending⟩, rfl⟩ := transition
      exact .suspend polling awaits once pending
    next => cases transition
  | asyncHostCall accepted =>
    simp only [step, asyncHostCall] at transition
    split at transition
    next polling => cases transition; exact .asyncHostCall polling
    next => cases transition
  | hostCall =>
    simp only [step, hostCall] at transition
    split at transition
    next polling => cases transition; exact .hostCall polling
    next => cases transition
  | spawn =>
    simp only [step, spawn] at transition
    split at transition
    next polling => cases transition; exact .spawn polling
    next => cases transition
  | yieldNow =>
    simp only [step, yieldNow] at transition
    split at transition
    next polling => cases transition; exact .yieldNow polling
    next => cases transition
  | finish =>
    simp only [step, finish] at transition
    split at transition
    next polling => cases transition; exact .finish polling
    next => cases transition

/-- What holds in every state: table entries are distinct calls, each awaited call is in
the table and has one task that awaits it, and only a runnable task is polled. -/
structure Sound (exec : Executor) : Prop where
  keys : (exec.asyncHostCalls.map (·.1)).Nodup
  calls : exec.unanswered.Nodup
  made : ∀ k ∈ exec.unanswered, k < exec.futures.length
  waitedOnce : exec.waited.Nodup
  waitedPending : ∀ k ∈ exec.waited, k ∈ exec.unanswered
  suspended : ∀ task ∈ exec.tasks, task.isSuspended → task.waits ≠ []
  polled : ∀ n, exec.polling = some n → exec.looping ∧ exec.tasks[n]? = some .runnable

theorem mem_unanswered {k : Nat} :
    k ∈ exec.unanswered ↔ ∃ id, (id, k) ∈ exec.asyncHostCalls := by
  simp [unanswered]

theorem mem_waited {k : Nat} : k ∈ exec.waited ↔ ∃ task ∈ exec.tasks, k ∈ task.waits := by
  simp [waited]

/-- What `evict` does when the index is in the table. -/
theorem evict_of_found {id : I32} {entry : I32 × Nat}
    (found : exec.asyncHostCalls.find? (·.1 = id) = some entry) :
    exec.evict id = { exec with
      asyncHostCalls := exec.asyncHostCalls.filter (·.1 ≠ id)
      tasks := exec.tasks.map (·.wake entry.2) } := by
  simp only [evict, found]

theorem evict_of_absent {id : I32} (absent : exec.asyncHostCalls.find? (·.1 = id) = none) :
    exec.evict id = exec := by
  simp only [evict, absent]

@[simp] theorem evict_polling (id : I32) : (exec.evict id).polling = exec.polling := by
  unfold evict
  split <;> rfl

@[simp] theorem evict_looping (id : I32) : (exec.evict id).looping = exec.looping := by
  unfold evict
  split <;> rfl

@[simp] theorem evict_futures (id : I32) : (exec.evict id).futures = exec.futures := by
  unfold evict
  split <;> rfl

/-- The index is free after `evict`. -/
theorem evict_free (id : I32) : id ∉ (exec.evict id).asyncHostCalls.map (·.1) := by
  cases found : exec.asyncHostCalls.find? (·.1 = id) with
  | none =>
    rw [evict_of_absent found]
    simpa [List.find?_eq_none] using fun k present => List.find?_eq_none.mp found (id, k) present
  | some entry => simp [evict_of_found found]

/-- `evict` takes one call out of the table. -/
theorem Sound.mem_unanswered_evict (sound : exec.Sound) {id : I32} {entry : I32 × Nat}
    (found : exec.asyncHostCalls.find? (·.1 = id) = some entry) {k : Nat} :
    k ∈ (exec.evict id).unanswered ↔ k ∈ exec.unanswered ∧ k ≠ entry.2 := by
  have member := List.mem_of_find?_eq_some found
  have key : entry.1 = id := by simpa using List.find?_some found
  rw [evict_of_found found, mem_unanswered, mem_unanswered]
  constructor
  · rintro ⟨other, kept⟩
    obtain ⟨present, differs⟩ := List.mem_filter.mp kept
    refine ⟨⟨other, present⟩, fun same => ?_⟩
    have equal : (other, k) = entry :=
      List.inj_on_of_nodup_map sound.calls present member same
    exact (of_decide_eq_true differs) (equal ▸ key)
  · rintro ⟨⟨other, present⟩, differs⟩
    refine ⟨other, List.mem_filter.mpr ⟨present, decide_eq_true fun same => ?_⟩⟩
    have equal : (other, k) = entry :=
      List.inj_on_of_nodup_map sound.keys present member (same.trans key.symm)
    exact differs (congrArg Prod.snd equal)

/-- A call is awaited after `evict` when a task that does not wake up awaits it. -/
theorem mem_waited_evict {id : I32} {entry : I32 × Nat}
    (found : exec.asyncHostCalls.find? (·.1 = id) = some entry) {k : Nat} :
    k ∈ (exec.evict id).waited ↔ ∃ task ∈ exec.tasks, k ∈ task.waits ∧ entry.2 ∉ task.waits := by
  rw [evict_of_found found, mem_waited]
  simp only [List.mem_map, exists_exists_and_eq_and, AsyncTask.waits_wake]
  refine exists_congr fun task => and_congr_right fun _ => ?_
  split <;> simp_all

/-- Waking tasks only shortens what is awaited. -/
theorem waited_evict_sublist (id : I32) : (exec.evict id).waited.Sublist exec.waited := by
  cases found : exec.asyncHostCalls.find? (·.1 = id) with
  | none => rw [evict_of_absent found]
  | some entry =>
    rw [evict_of_found found, waited, waited, List.flatMap_map]
    refine List.Sublist.flatMap_right _ fun task _ => ?_
    rw [AsyncTask.waits_wake]
    split
    · exact List.nil_sublist _
    · exact .refl _

theorem asyncHostCalls_evict_sublist (id : I32) :
    (exec.evict id).asyncHostCalls.Sublist exec.asyncHostCalls := by
  unfold evict
  split
  · exact List.filter_sublist
  · exact .refl _

namespace Sound

variable (sound : exec.Sound)

include sound

theorem evict (id : I32) : (exec.evict id).Sound where
  keys := ((asyncHostCalls_evict_sublist id).map _).nodup sound.keys
  calls := ((asyncHostCalls_evict_sublist id).map _).nodup sound.calls
  made k member := by
    rw [evict_futures]
    exact sound.made k (((asyncHostCalls_evict_sublist id).map _).subset member)
  waitedOnce := (waited_evict_sublist id).nodup sound.waitedOnce
  waitedPending k member := by
    cases found : exec.asyncHostCalls.find? (·.1 = id) with
    | none =>
      rw [evict_of_absent found] at member ⊢
      exact sound.waitedPending k member
    | some entry =>
      obtain ⟨task, present, awaits, stays⟩ := (mem_waited_evict found).mp member
      refine (sound.mem_unanswered_evict found).mpr ⟨?_, fun same => stays (same ▸ awaits)⟩
      exact sound.waitedPending k (mem_waited.mpr ⟨task, present, awaits⟩)
  suspended task member := by
    cases found : exec.asyncHostCalls.find? (·.1 = id) with
    | none =>
      rw [evict_of_absent found] at member
      exact sound.suspended task member
    | some entry =>
      rw [evict_of_found found] at member
      obtain ⟨before, present, rfl⟩ := List.mem_map.mp member
      unfold AsyncTask.wake
      split
      · exact fun suspended => absurd suspended Bool.false_ne_true
      · exact sound.suspended before present
  polled n polling := by
    rw [evict_polling] at polling
    obtain ⟨looping, runnable⟩ := sound.polled n polling
    refine ⟨by simpa using looping, ?_⟩
    cases found : exec.asyncHostCalls.find? (·.1 = id) with
    | none => rwa [evict_of_absent found]
    | some entry => simp [evict_of_found found, runnable, AsyncTask.wake, AsyncTask.waits]

/-- A new call goes into the table under an index that is free. -/
theorem insert {id callNum : I32} {future : HostFuture}
    (free : id ∉ exec.asyncHostCalls.map (·.1)) :
    ({ exec with
      callNum := callNum
      asyncHostCalls := exec.asyncHostCalls ++ [(id, exec.futures.length)]
      futures := exec.futures ++ [future] } : Executor).Sound where
  keys := by
    rw [List.map_append]
    exact sound.keys.append (List.nodup_singleton _) (by simpa using free)
  calls := by
    rw [unanswered, List.map_append]
    refine sound.calls.append (List.nodup_singleton _)
      (List.disjoint_singleton.mpr fun present => ?_)
    exact Nat.lt_irrefl _ (sound.made _ present)
  made k member := by
    rw [unanswered, List.map_append, List.mem_append] at member
    rw [List.length_append]
    rcases member with old | fresh
    · exact Nat.lt_add_right _ (sound.made k old)
    · rw [List.mem_singleton.mp fresh]
      exact Nat.lt_succ_self _
  waitedOnce := sound.waitedOnce
  waitedPending k member := by
    rw [unanswered, List.map_append]
    exact List.mem_append_left _ (sound.waitedPending k member)
  suspended := sound.suspended
  polled := sound.polled

/-- Another task is spawned. -/
theorem spawn {looping : Bool} (stays : exec.looping → looping) :
    ({ exec with tasks := exec.tasks ++ [.runnable], looping := looping } : Executor).Sound where
  keys := sound.keys
  calls := sound.calls
  made := sound.made
  waitedOnce := by simpa [waited, AsyncTask.waits] using sound.waitedOnce
  waitedPending k member := sound.waitedPending k (by simpa [waited, AsyncTask.waits] using member)
  suspended task member := by
    rcases List.mem_append.mp member with old | fresh
    · exact sound.suspended task old
    · rw [List.mem_singleton.mp fresh]
      exact fun suspended => absurd suspended Bool.false_ne_true
  polled n polling := by
    obtain ⟨running, runnable⟩ := sound.polled n polling
    obtain ⟨bound, _⟩ := List.getElem?_eq_some_iff.mp runnable
    exact ⟨stays running, by rwa [List.getElem?_append_left bound]⟩

/-- The polled task awaited nothing, so what its new status awaits comes on top. -/
theorem waited_set {n : Nat} (polling : exec.polling = some n) (other : AsyncTask) :
    ((exec.tasks.set n other).flatMap (·.waits)).Perm (other.waits ++ exec.waited) := by
  obtain ⟨rest, before, after⟩ := set_perm (sound.polled n polling).2
  have unchanged : exec.waited.Perm (rest.flatMap (·.waits)) := before.flatMap_right _
  exact ((after other).flatMap_right _).trans (unchanged.symm.append_left _)

/-- The polled task gives up the processor with a new status. -/
theorem settle {n : Nat} (polling : exec.polling = some n) {other : AsyncTask}
    (once : other.waits.Nodup) (loose : ∀ k ∈ other.waits, exec.Loose k)
    (awaits : other.isSuspended → other.waits ≠ []) :
    ({ exec with tasks := exec.tasks.set n other, polling := none } : Executor).Sound where
  keys := sound.keys
  calls := sound.calls
  made := sound.made
  waitedOnce := by
    rw [waited, (sound.waited_set polling other).nodup_iff]
    exact once.append sound.waitedOnce fun k new old => (loose k new).2 old
  waitedPending k member := by
    rw [waited, (sound.waited_set polling other).mem_iff, List.mem_append] at member
    rcases member with new | old
    · exact (loose k new).1
    · exact sound.waitedPending k old
  suspended task member := by
    rcases List.mem_or_eq_of_mem_set member with old | rfl
    · exact sound.suspended task old
    · exact awaits
  polled := nofun

/-- Whoever is polled when the loop is entered or left, the tasks and the table stay. -/
theorem turn {looping : Bool} {polling : Option Nat}
    (polled : ∀ n, polling = some n → looping ∧ exec.tasks[n]? = some .runnable) :
    ({ exec with looping := looping, polling := polling } : Executor).Sound :=
  ⟨sound.keys, sound.calls, sound.made, sound.waitedOnce, sound.waitedPending, sound.suspended,
    polled⟩

/-- No task is polled outside of the loop. -/
theorem idle (outside : exec.looping = false) : exec.polling = none := by
  cases polling : exec.polling with
  | none => rfl
  | some n => exact absurd (sound.polled n polling).1 (by simp [outside])

theorem step (transition : exec.step overflowChecks event = some next) : next.Sound := by
  cases step_cases transition with
  | asyncGuestCall => exact sound.spawn fun _ => rfl
  | @hostCallResponseReady id _ outside =>
    refine (sound.evict id).turn fun n polling => ?_
    rw [evict_polling, sound.idle outside] at polling
    cases polling
  | poll looping runnable =>
    refine sound.turn fun m polling => ?_
    cases polling
    exact ⟨looping, runnable⟩
  | leave idle => exact sound.turn fun n polling => by cases idle.symm.trans polling
  | asyncHostCall => simpa using (sound.evict exec.callNum).insert (evict_free exec.callNum)
  | hostCall => exact { sound with }
  | dropFuture =>
    refine { sound with made := fun k member => ?_ }
    rw [List.length_set]
    exact sound.made k member
  | spawn => exact sound.spawn id
  | suspend polling awaits once pending =>
    exact sound.settle polling once (fun k member => (pending k member).1) fun _ => awaits
  | yieldNow => exact sound.turn nofun
  | finish polling =>
    exact sound.settle polling .nil nofun (fun suspended => absurd suspended Bool.false_ne_true)

end Sound

end Executor
end Wapc.Guest
