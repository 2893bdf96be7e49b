import Wapc.Guest.Executor

/-!
# The stop condition of the task loop

The condition of `exhaust_tasks` is right between two polls if the table has one entry for
each suspended task; tasks are suspended on host calls only. Runs that await host calls
one by one keep it that way (`Prompt`). A call that no task awaits is an entry too many:
the loop then stops before its tasks finish, or the difference underflows.
-/

namespace Wapc.Guest.Executor

open Semantics

variable (overflowChecks : Bool) (exec : Executor)

/-- The loop is between two polls, where it evaluates its condition. -/
def Evaluates : Prop := exec.looping ∧ exec.polling = none

/-- The task is suspended on a host call that is not answered. -/
def OnHostCall (task : AsyncTask) : Prop := ∃ k ∈ task.waits, k ∈ exec.unanswered

/-- The condition of the loop is right: the difference does not underflow, it is
positive exactly when some unfinished task is not suspended on an unanswered host call,
and then there is a task to poll. -/
structure StopsRight : Prop where
  fits : exec.asyncHostCalls.length ≤ exec.tasksCount
  exact : exec.loopCondition overflowChecks = .returned true ↔
    ∃ task ∈ exec.tasks, task.unfinished ∧ ¬ exec.OnHostCall task
  polls : exec.loopCondition overflowChecks = .returned true → .runnable ∈ exec.tasks

/-- A run from here reaches an evaluation of the condition that is wrong. -/
def GoesWrong : Prop :=
  ∃ later finish, (machine overflowChecks).run exec later = some finish ∧
    finish.Evaluates ∧ ¬ finish.StopsRight overflowChecks

/-- Host calls are awaited one by one: a call is accepted, and when its task makes
another one, yields or finishes, the task was suspended on it. -/
def Awaits : ExecutorEvent → Prop
  | .asyncHostCall accepted => accepted ∧ ∀ k, ¬ exec.Loose k
  | .yieldNow | .finish => ∀ k, ¬ exec.Loose k
  | _ => True

variable {overflowChecks} {exec} {next : Executor} {event : ExecutorEvent}

/-- The tasks that are suspended. -/
def suspendedCount (exec : Executor) : Nat := exec.tasks.countP (·.isSuspended)

/-- The tasks that the executor can poll. -/
def runnableCount (exec : Executor) : Nat := exec.tasks.countP (·.isRunnable)

theorem tasksCount_eq : exec.tasksCount = exec.suspendedCount + exec.runnableCount := by
  unfold tasksCount suspendedCount runnableCount
  induction exec.tasks with
  | nil => rfl
  | cons task tasks ih =>
    simp only [List.countP_cons, ih]
    cases task <;>
      simp [AsyncTask.unfinished, AsyncTask.isSuspended, AsyncTask.isRunnable] <;> omega

theorem runnable_mem : .runnable ∈ exec.tasks ↔ 0 < exec.runnableCount := by
  rw [runnableCount, List.countP_pos_iff]
  constructor
  · exact fun member => ⟨_, member, rfl⟩
  · rintro ⟨task, member, isRunnable⟩
    cases task with
    | runnable => exact member
    | suspended | finished => cases isRunnable

theorem unanswered_length : exec.unanswered.length = exec.asyncHostCalls.length :=
  List.length_map _

/-- Suspended tasks that await at least one call each are no more than the calls. -/
theorem countP_isSuspended_le {tasks : List AsyncTask}
    (awaits : ∀ task ∈ tasks, task.isSuspended → task.waits ≠ []) :
    tasks.countP (·.isSuspended) ≤ (tasks.flatMap (·.waits)).length := by
  induction tasks with
  | nil => exact Nat.le_refl _
  | cons task tasks ih =>
    have others := ih fun other member => awaits other (List.mem_cons_of_mem _ member)
    have first := awaits task List.mem_cons_self
    rw [List.countP_cons, List.flatMap_cons, List.length_append]
    split
    next isSuspended =>
      have := List.length_pos_iff.mpr (first isSuspended)
      omega
    next => omega

/-- Suspended tasks that await one call each are as many as the calls. -/
theorem length_waits_eq {tasks : List AsyncTask}
    (single : ∀ task ∈ tasks, task.isSuspended → task.waits.length = 1) :
    (tasks.flatMap (·.waits)).length = tasks.countP (·.isSuspended) := by
  induction tasks with
  | nil => rfl
  | cons task tasks ih =>
    have others := ih fun other member => single other (List.mem_cons_of_mem _ member)
    have first := single task List.mem_cons_self
    rw [List.countP_cons, List.flatMap_cons, List.length_append, others]
    cases task with
    | suspended waits =>
      have := first rfl
      simp only [AsyncTask.isSuspended, if_true]
      omega
    | runnable | finished => simp [AsyncTask.isSuspended, AsyncTask.waits]

theorem Sound.waited_subperm (sound : exec.Sound) : exec.waited.Subperm exec.unanswered :=
  sound.waitedOnce.subperm sound.waitedPending

theorem Sound.suspendedCount_le_length (sound : exec.Sound) :
    exec.suspendedCount ≤ exec.asyncHostCalls.length := by
  rw [← unanswered_length]
  exact Nat.le_trans (countP_isSuspended_le sound.suspended) sound.waited_subperm.length_le

/-- A loose call is an entry of the table for which no task is suspended. -/
theorem Sound.suspendedCount_lt (sound : exec.Sound) {k : Nat} (loose : exec.Loose k) :
    exec.suspendedCount < exec.asyncHostCalls.length := by
  have more : (k :: exec.waited).Subperm exec.unanswered := by
    refine (sound.waitedOnce.cons loose.2).subperm fun j member => ?_
    rcases List.mem_cons.mp member with rfl | awaits
    · exact loose.1
    · exact sound.waitedPending j awaits
  have length := more.length_le
  rw [unanswered_length, List.length_cons] at length
  exact Nat.lt_of_lt_of_le (Nat.lt_succ_of_le (countP_isSuspended_le sound.suspended)) length

/-- The tasks that are not suspended on an unanswered host call are the runnable ones. -/
theorem Sound.progress_iff (sound : exec.Sound) :
    (∃ task ∈ exec.tasks, task.unfinished ∧ ¬ exec.OnHostCall task) ↔ 0 < exec.runnableCount := by
  rw [← runnable_mem]
  constructor
  · rintro ⟨task, member, unfinished, free⟩
    cases task with
    | runnable => exact member
    | suspended waits =>
      obtain ⟨k, awaits⟩ := List.exists_mem_of_ne_nil _ (sound.suspended _ member rfl)
      exact absurd ⟨k, awaits, sound.waitedPending k (mem_waited.mpr ⟨_, member, awaits⟩)⟩ free
    | finished => cases unfinished
  · exact fun member => ⟨_, member, rfl, fun ⟨_, awaits, _⟩ => List.not_mem_nil awaits⟩

/-- The loop's condition is right when the table has one entry for each suspended task,
and by luck when runnable tasks outnumber the other entries. -/
theorem Sound.stopsRight_iff (sound : exec.Sound) :
    exec.StopsRight overflowChecks ↔
      exec.asyncHostCalls.length = exec.suspendedCount ∨
        exec.asyncHostCalls.length < exec.suspendedCount + exec.runnableCount := by
  have least := sound.suspendedCount_le_length
  have condition (fits : exec.asyncHostCalls.length ≤ exec.tasksCount) :
      exec.loopCondition overflowChecks = .returned true ↔
        exec.asyncHostCalls.length < exec.suspendedCount + exec.runnableCount := by
    rw [loopCondition, if_pos fits, tasksCount_eq, Outcome.returned.injEq, decide_eq_true_eq]
    exact Nat.sub_pos_iff_lt
  constructor
  · intro right
    have fits := right.fits
    have exact := (condition fits).symm.trans (right.exact.trans sound.progress_iff)
    rw [tasksCount_eq] at fits
    omega
  · intro counts
    have fits : exec.asyncHostCalls.length ≤ exec.tasksCount := by
      rw [tasksCount_eq]
      omega
    have positive : exec.loopCondition overflowChecks = .returned true ↔
        0 < exec.runnableCount := by
      rw [condition fits]
      omega
    exact ⟨fits, positive.trans sound.progress_iff.symm, fun goes =>
      runnable_mem.mpr (positive.mp goes)⟩

/-- What awaiting calls one by one keeps: a suspended task awaits one call, the polled
task has at most one that no task awaits, and between two polls there is none. -/
structure Prompt (exec : Executor) : Prop where
  single : ∀ task ∈ exec.tasks, task.isSuspended → task.waits.length = 1
  settled : exec.polling = none → ∀ k, ¬ exec.Loose k
  latest : ∀ j k, exec.Loose j → exec.Loose k → j = k

namespace Prompt

variable (sound : exec.Sound) (prompt : exec.Prompt)

include prompt

/-- An answered call wakes the one task that awaited it, and that awaited nothing else. -/
theorem loose_evict (sound : exec.Sound) {id : I32} {k : Nat}
    (loose : (exec.evict id).Loose k) : exec.Loose k := by
  cases found : exec.asyncHostCalls.find? (·.1 = id) with
  | none => rwa [evict_of_absent found] at loose
  | some entry =>
    obtain ⟨unanswered, free⟩ := loose
    obtain ⟨present, other⟩ := (sound.mem_unanswered_evict found).mp unanswered
    refine ⟨present, fun awaited => free ?_⟩
    obtain ⟨task, member, awaits⟩ := mem_waited.mp awaited
    have suspended : task.isSuspended := by
      cases task with
      | suspended => rfl
      | runnable | finished => cases awaits
    obtain ⟨only, alone⟩ := List.length_eq_one_iff.mp (prompt.single task member suspended)
    refine (mem_waited_evict found).mpr ⟨task, member, awaits, fun woken => other ?_⟩
    rw [alone, List.mem_singleton] at awaits woken
    rw [awaits, woken]

theorem evict (sound : exec.Sound) {id : I32} : (exec.evict id).Prompt where
  single task member := by
    unfold Executor.evict at member
    split at member
    · obtain ⟨before, present, rfl⟩ := List.mem_map.mp member
      unfold AsyncTask.wake
      split
      · exact fun suspended => absurd suspended Bool.false_ne_true
      · exact prompt.single before present
    · exact prompt.single task member
  settled idle k loose := by
    rw [evict_polling] at idle
    exact prompt.settled idle k (prompt.loose_evict sound loose)
  latest j k first second :=
    prompt.latest j k (prompt.loose_evict sound first) (prompt.loose_evict sound second)

/-- A new call is the only one that is loose. -/
theorem insert {id callNum : I32} {future : HostFuture} (polling : exec.polling ≠ none)
    (tight : ∀ k, ¬ exec.Loose k) :
    ({ exec with
      callNum := callNum
      asyncHostCalls := exec.asyncHostCalls ++ [(id, exec.futures.length)]
      futures := exec.futures ++ [future] } : Executor).Prompt := by
  have fresh (k : Nat)
      (present : k ∈ (exec.asyncHostCalls ++ [(id, exec.futures.length)]).map (·.2))
      (free : k ∉ exec.waited) : k = exec.futures.length := by
    rw [List.map_append, List.mem_append] at present
    rcases present with old | new
    · exact absurd ⟨old, free⟩ (tight k)
    · exact List.mem_singleton.mp new
  refine ⟨prompt.single, fun idle => absurd idle polling, fun j k first second => ?_⟩
  rw [fresh j first.1 first.2, fresh k second.1 second.2]

/-- Polled or not, the calls that are loose are the same. -/
theorem turn {looping : Bool} {polling : Option Nat}
    (settled : polling = none → ∀ k, ¬ exec.Loose k) :
    ({ exec with looping := looping, polling := polling } : Executor).Prompt :=
  ⟨prompt.single, settled, prompt.latest⟩

theorem spawn {looping : Bool} :
    ({ exec with tasks := exec.tasks ++ [.runnable], looping := looping } : Executor).Prompt := by
  have loose (k : Nat) :
      ({ exec with tasks := exec.tasks ++ [.runnable], looping := looping } : Executor).Loose k ↔
        exec.Loose k := by
    simp [Loose, unanswered, waited, AsyncTask.waits]
  refine ⟨fun task member => ?_, fun idle k => ?_, fun j k => ?_⟩
  · rcases List.mem_append.mp member with old | fresh
    · exact prompt.single task old
    · rw [List.mem_singleton.mp fresh]
      exact fun suspended => absurd suspended Bool.false_ne_true
  · rw [loose]
    exact prompt.settled idle k
  · rw [loose, loose]
    exact prompt.latest j k

/-- The polled task settles with a status under which no call is loose. -/
theorem settle (sound : exec.Sound) {n : Nat} (polling : exec.polling = some n) {other : AsyncTask}
    (single : other.isSuspended → other.waits.length = 1)
    (awaited : ∀ k, exec.Loose k → k ∈ other.waits) :
    ({ exec with tasks := exec.tasks.set n other, polling := none } : Executor).Prompt := by
  have tight (k : Nat) :
      ¬ ({ exec with tasks := exec.tasks.set n other, polling := none } : Executor).Loose k := by
    rintro ⟨unanswered, free⟩
    rw [waited, (sound.waited_set polling other).mem_iff, List.mem_append, not_or] at free
    exact free.1 (awaited k ⟨unanswered, free.2⟩)
  refine ⟨fun task member => ?_, fun _ => tight, fun j k loose => absurd loose (tight j)⟩
  rcases List.mem_or_eq_of_mem_set member with old | rfl
  · exact prompt.single task old
  · exact single

theorem step (sound : exec.Sound) (admitted : exec.Awaits event)
    (transition : exec.step overflowChecks event = some next) : next.Prompt := by
  cases step_cases transition with
  | asyncGuestCall => exact prompt.spawn
  | @hostCallResponseReady id _ outside =>
    have evicted : (exec.evict id).Prompt := prompt.evict sound
    exact evicted.turn fun _ k loose =>
      prompt.settled (sound.idle outside) k (prompt.loose_evict sound loose)
  | @poll n => exact prompt.turn fun idle => absurd idle (Option.some_ne_none n)
  | leave idle => exact prompt.turn prompt.settled
  | @asyncHostCall n accepted polling =>
    have evicted : (exec.evict exec.callNum).Prompt := prompt.evict sound
    have tight (k : Nat) : ¬ (exec.evict exec.callNum).Loose k := fun loose =>
      admitted.2 k (prompt.loose_evict sound loose)
    simpa using evicted.insert (by simp [polling]) tight
  | hostCall => exact ⟨prompt.single, prompt.settled, prompt.latest⟩
  | dropFuture => exact ⟨prompt.single, prompt.settled, prompt.latest⟩
  | spawn => exact prompt.spawn
  | @suspend n waits polling awaits once pending =>
    obtain ⟨k, rest, rfl⟩ := List.exists_cons_of_ne_nil awaits
    have first := (pending k List.mem_cons_self).1
    have only : rest = [] := by
      refine List.eq_nil_iff_forall_not_mem.mpr fun j member => ?_
      have second := (pending j (List.mem_cons_of_mem _ member)).1
      exact (List.nodup_cons.mp once).1 (prompt.latest k j first second ▸ member)
    subst only
    refine prompt.settle sound polling (fun _ => rfl) fun j loose => ?_
    exact List.mem_singleton.mpr (prompt.latest j k loose first)
  | yieldNow => exact prompt.turn fun _ => admitted
  | finish polling =>
    exact prompt.settle sound polling (fun suspended => absurd suspended Bool.false_ne_true)
      fun k loose => absurd loose (admitted k)

/-- Between two polls the table has one entry for each suspended task. -/
theorem length_eq (sound : exec.Sound) (idle : exec.polling = none) :
    exec.asyncHostCalls.length = exec.suspendedCount := by
  have covered : exec.unanswered ⊆ exec.waited := fun k member => by
    by_contra free
    exact prompt.settled idle k ⟨member, free⟩
  have length := (sound.calls.subperm covered).length_le
  rw [unanswered_length] at length
  have most : exec.waited.length = exec.suspendedCount := length_waits_eq prompt.single
  exact Nat.le_antisymm (most ▸ length) sound.suspendedCount_le_length

end Prompt

theorem sound_new : new.Sound where
  keys := .nil
  calls := .nil
  made := nofun
  waitedOnce := .nil
  waitedPending := nofun
  suspended := nofun
  polled := nofun

theorem prompt_new : new.Prompt :=
  ⟨nofun, fun _ _ loose => List.not_mem_nil loose.1,
    fun _ _ loose => absurd loose.1 List.not_mem_nil⟩

/-- Runs that await calls one by one keep both invariants. -/
theorem invariants {events : List ExecutorEvent}
    (run : (machine overflowChecks).Steps Awaits .new events exec) : exec.Sound ∧ exec.Prompt :=
  Machine.Steps.invariant (motive := fun exec => exec.Sound ∧ exec.Prompt) ⟨sound_new, prompt_new⟩
    (fun kept admitted transition =>
      ⟨kept.1.step transition, kept.2.step kept.1 admitted transition⟩) run

/-- A runnable task finishes: the others stay as they are. -/
theorem finish_counts {n : Nat} (runnable : exec.tasks[n]? = some .runnable) :
    let finished : Executor := { exec with tasks := exec.tasks.set n .finished, polling := none }
    finished.suspendedCount = exec.suspendedCount ∧
      finished.runnableCount + 1 = exec.runnableCount := by
  obtain ⟨rest, before, after⟩ := set_perm runnable
  constructor
  · rw [suspendedCount, suspendedCount, (after .finished).countP_eq, before.countP_eq]
    rfl
  · rw [runnableCount, runnableCount, (after .finished).countP_eq, before.countP_eq]
    simp [AsyncTask.isRunnable]

theorem GoesWrong.of_step (transition : exec.step overflowChecks event = some next)
    (wrong : next.GoesWrong overflowChecks) : exec.GoesWrong overflowChecks := by
  obtain ⟨later, finish, run, right⟩ := wrong
  have first : (machine overflowChecks).step exec event = some next := transition
  refine ⟨event :: later, finish, ?_, right⟩
  rw [Machine.run_cons, first]
  exact run

/-- With an entry too many in the table the tasks are polled until those that are left
are too few for the condition. -/
theorem Sound.goesWrong (sound : exec.Sound) (evaluates : exec.Evaluates)
    (uncovered : exec.suspendedCount < exec.asyncHostCalls.length) :
    exec.GoesWrong overflowChecks := by
  induction count : exec.runnableCount generalizing exec with
  | zero =>
    refine ⟨[], exec, rfl, evaluates, fun right => ?_⟩
    have := sound.stopsRight_iff.mp right
    omega
  | succ remaining ih =>
    by_cases goes : exec.asyncHostCalls.length < exec.suspendedCount + exec.runnableCount
    · have right : exec.StopsRight overflowChecks := sound.stopsRight_iff.mpr (.inr goes)
      have condition := right.exact.mpr (sound.progress_iff.mpr (by omega))
      obtain ⟨n, runnable⟩ := List.mem_iff_getElem?.mp (right.polls condition)
      have polled : exec.step overflowChecks (.poll n) = some { exec with polling := some n } :=
        if_pos ⟨evaluates.1, evaluates.2, condition, runnable⟩
      have finished : ({ exec with polling := some n } : Executor).step overflowChecks .finish =
        some { exec with tasks := exec.tasks.set n .finished, polling := none } := rfl
      obtain ⟨suspended, fewer⟩ := finish_counts runnable
      refine .of_step polled (.of_step finished (ih ((sound.step polled).step finished)
        ⟨evaluates.1, rfl⟩ ?_ ?_))
      · exact Nat.lt_of_le_of_lt (Nat.le_of_eq suspended) uncovered
      · exact Nat.succ.inj (fewer.trans count)
    · refine ⟨[], exec, rfl, evaluates, fun right => ?_⟩
      have := sound.stopsRight_iff.mp right
      omega

/-- A call that no task awaits leads to a wrong condition, when its task finishes. -/
theorem Sound.goesWrong_of_loose (sound : exec.Sound) (looping : exec.looping) {k : Nat}
    (loose : exec.Loose k) : exec.GoesWrong overflowChecks := by
  have uncovered := sound.suspendedCount_lt loose
  cases polling : exec.polling with
  | none => exact sound.goesWrong ⟨looping, polling⟩ uncovered
  | some n =>
    have finished : exec.step overflowChecks .finish =
        some { exec with tasks := exec.tasks.set n .finished, polling := none } := by
      simp only [Executor.step, finish, polling]
    obtain ⟨suspended, -⟩ := finish_counts (sound.polled n polling).2
    exact .of_step finished ((sound.step finished).goesWrong ⟨looping, rfl⟩
      (Nat.lt_of_le_of_lt (Nat.le_of_eq suspended) uncovered))

/-- A step that is not admitted leaves a call that no task awaits. -/
theorem Sound.loose_of_not_awaits (sound : exec.Sound)
    (transition : exec.step overflowChecks event = some next) (hasty : ¬ exec.Awaits event) :
    next.looping ∧ ∃ k, next.Loose k := by
  cases step_cases transition with
  | @asyncHostCall n _ polling =>
    refine ⟨by simpa using (sound.polled n polling).1, exec.futures.length, ?_, fun awaited => ?_⟩
    · simp [unanswered]
    · have old := (waited_evict_sublist exec.callNum).subset awaited
      exact Nat.lt_irrefl _ (sound.made _ (sound.waitedPending _ old))
  | @yieldNow n polling =>
    obtain ⟨k, loose⟩ := not_forall_not.mp hasty
    exact ⟨(sound.polled n polling).1, k, loose⟩
  | @finish n polling =>
    obtain ⟨k, unanswered, free⟩ := not_forall_not.mp hasty
    refine ⟨(sound.polled n polling).1, k, unanswered, fun awaited => free ?_⟩
    exact (sound.waited_set polling .finished).mem_iff.mp awaited
  | _ => exact absurd trivial hasty

/-- The condition of `exhaust_tasks` is right in every state of a run in which calls are
accepted and awaited one by one, and each step that breaks this can make it wrong. -/
theorem stop_condition_right (overflowChecks : Bool) {events : List ExecutorEvent}
    {exec : Executor} (run : (machine overflowChecks).Steps Awaits .new events exec) :
    (exec.Evaluates → exec.StopsRight overflowChecks) ∧
      ∀ event next, exec.step overflowChecks event = some next → ¬ exec.Awaits event →
        next.GoesWrong overflowChecks := by
  obtain ⟨sound, prompt⟩ := invariants run
  constructor
  · intro evaluates
    exact sound.stopsRight_iff.mpr (.inl (prompt.length_eq sound evaluates.2))
  · intro event next transition hasty
    obtain ⟨looping, k, loose⟩ := sound.loose_of_not_awaits transition hasty
    exact (sound.step transition).goesWrong_of_loose looping loose

/-- A task makes a call and is suspended on it: the loop stops. -/
theorem one_call_awaited :
    ∃ exec, (machine true).run .new [.asyncGuestCall, .poll 0, .asyncHostCall true, .suspend [0]] =
      some exec ∧ exec.StopsRight true := by
  have run : (machine true).Steps Awaits .new
      [.asyncGuestCall, .poll 0, .asyncHostCall true, .suspend [0]] _ :=
    .step (.step (.step (.step .refl trivial rfl) trivial rfl)
      ⟨rfl, fun _ loose => List.not_mem_nil loose.1⟩ rfl) trivial rfl
  exact ⟨_, run.run_eq, (stop_condition_right true run).1 ⟨rfl, rfl⟩⟩

/-- A task makes two calls and awaits both: the difference underflows. -/
theorem two_calls_underflow :
    ¬ ∀ overflowChecks events exec, (machine overflowChecks).run .new events = some exec →
      exec.Evaluates → exec.StopsRight overflowChecks := by
  intro always
  have right := always true
    [.asyncGuestCall, .poll 0, .asyncHostCall true, .asyncHostCall true, .suspend [0, 1]] _ rfl
    ⟨rfl, rfl⟩
  exact absurd right.fits (by decide)

end Wapc.Guest.Executor
