import Mathlib.Data.List.Forall2
import Mathlib.Logic.Function.Basic
import Wapc.Semantics.Outcome
import Wapc.Semantics.Traces

/-!
# Directories of WASI contexts

Every call context of a module gets a store with directories that were opened beforehand. All
hosts of a process open them through one table, which keeps each directory under its path. The
file system may change between any two steps and contexts may be made on any number of threads;
a path means one directory to all of them.
-/

namespace Wapc.Provider.Wasi

open Semantics

/-- `WasiParams`. -/
structure WasiParams where
  argv : List String
  mapDirs : List (String × String)
  envVars : List (String × String)
  preopenedDirs : List String

def WasiParams.default : WasiParams := ⟨[], [], [], []⟩

/-- What the operating system and the builder of contexts answer at some time; errors are kept
as their texts. A clone of a handle refers to the same directory. -/
structure Os {Dir Directory : Type} (refers : Dir → Directory) where
  openAmbientDir : String → Except String Dir
  tryClone : Dir → Except String Dir
  args : List String → Except String Unit
  envs : List (String × String) → Except String Unit
  preopenedDir : String → Except String Unit
  refers_tryClone : ∀ dir copy, tryClone dir = .ok copy → refers copy = refers dir

/-- What was built into a `WasiCtx`. -/
structure WasiCtx (Dir : Type) where
  args : List String
  envs : List (String × String)
  preopened : List (String × Dir)

section Functions

variable {Dir Directory : Type} {refers : Dir → Directory} (os : Os refers)

/-- `OPEN_DIRECTORIES`. -/
abbrev Directories (Dir : Type) := String → Option Dir

/-- `get_dir`: its result and the table after it. -/
def getDir (path : String) (directories : Directories Dir) :
    Except String Dir × Directories Dir :=
  match directories path with
  | some dir => (os.tryClone dir, directories)
  | none =>
    match os.openAmbientDir path with
    | .error error => (.error error, directories)
    | .ok dir =>
      match os.tryClone dir with
      | .error error => (.error error, directories)
      | .ok copy => (.ok dir, Function.update directories path (some copy))

/-- What `compute_preopen_dirs` opens, in order: names of the guest and paths of the host. -/
def preopenDirs (params : WasiParams) : List (String × String) :=
  params.preopenedDirs.map (fun path => (path, path)) ++ params.mapDirs

/-- The clone of a directory that a context gets. -/
def preopen (entry : String × Dir) : Except String (String × Dir) := do
  let copy ← os.tryClone entry.2
  os.preopenedDir entry.1
  return (entry.1, copy)

def initCtx (preopened : List (String × Dir)) (params : WasiParams) :
    Except String (WasiCtx Dir) := do
  os.args params.argv
  os.envs params.envVars
  let preopened ← preopened.mapM (preopen os)
  return ⟨params.argv, params.envVars, preopened⟩

end Functions

/-! ### Contexts in the making -/

/-- A call of `init_wasi` that is opening directories. -/
structure Opening (Dir : Type) where
  params : WasiParams
  left : List (String × String)
  preopened : List (String × Dir)

/-- The table, and what the threads of the process are doing. -/
structure Process (Thread Dir : Type) where
  directories : Directories Dir
  threads : Thread → Option (Opening Dir)

/-- `new_store` is called, goes on to its next directory, and builds the context. Another
thread may go on in between, as the table is locked for one directory at a time. -/
inductive Event (Thread : Type) {Dir Directory : Type} (refers : Dir → Directory) where
  | newStore (thread : Thread) (wasiParams : Option WasiParams)
  | next (thread : Thread) (os : Os refers)
  | build (thread : Thread) (os : Os refers)

section Machine

variable {Thread Dir Directory : Type} [DecidableEq Thread] {refers : Dir → Directory}

def step (process : Process Thread Dir) : Event Thread refers → Option (Process Thread Dir)
  | .newStore thread wasiParams =>
    match process.threads thread with
    | some _ => none
    | none =>
      let params := wasiParams.getD .default
      some ⟨process.directories, Function.update process.threads thread
        (some ⟨params, preopenDirs params, []⟩)⟩
  | .next thread os =>
    match process.threads thread with
    | some ⟨params, (name, path) :: left, preopened⟩ =>
      some (match getDir os path process.directories with
        | (.ok dir, directories) => ⟨directories, Function.update process.threads thread
            (some ⟨params, left, preopened ++ [(name, dir)]⟩)⟩
        | (.error _, directories) => ⟨directories, Function.update process.threads thread none⟩)
    | _ => none
  | .build thread _ =>
    match process.threads thread with
    | some ⟨_, [], _⟩ =>
      some ⟨process.directories, Function.update process.threads thread none⟩
    | _ => none

def machine : Machine (Process Thread Dir) (Event Thread refers) := ⟨step⟩

/-- The process before its first context. -/
def Process.start : Process Thread Dir := ⟨fun _ => none, fun _ => none⟩

/-- The contexts that are handed out, and the texts of the errors in their place. -/
def results (process : Process Thread Dir) :
    Event Thread refers → List (WasiParams × Except String (WasiCtx Dir))
  | .newStore _ _ => []
  | .next thread os =>
    match process.threads thread with
    | some ⟨params, (_, path) :: _, _⟩ =>
      match (getDir os path process.directories).1 with
      | .ok _ => []
      | .error error => [(params, .error ("Error exposing directories with WASI: " ++ error))]
    | _ => []
  | .build thread os =>
    match process.threads thread with
    | some ⟨params, [], preopened⟩ =>
      [(params, (initCtx os preopened params).mapError ("Initialization failed: " ++ ·))]
    | _ => []

/-- The paths that the file system is asked for. -/
def asked (process : Process Thread Dir) : Event Thread refers → List String
  | .next thread _ =>
    match process.threads thread with
    | some ⟨_, (_, path) :: _, _⟩ =>
      match process.directories path with
      | some _ => []
      | none => [path]
    | _ => []
  | _ => []

end Machine

/-! ### The table -/

section Table

variable {Dir Directory : Type} {refers : Dir → Directory} {os : Os refers}
  {directories later : Directories Dir} {path : String}

/-- What is in one table is in the other. -/
def Within (directories later : Directories Dir) : Prop :=
  ∀ path dir, directories path = some dir → later path = some dir

/-- What `get_dir` can do: fail, clone what is in the table, or open a directory and keep it. -/
theorem getDir_cases (os : Os refers) (path : String) (directories : Directories Dir) :
    (∃ error, getDir os path directories = (.error error, directories)) ∨
      (∃ kept dir, directories path = some kept ∧ refers dir = refers kept ∧
        getDir os path directories = (.ok dir, directories)) ∨
      ∃ dir kept, directories path = none ∧ refers kept = refers dir ∧
        getDir os path directories =
          (.ok dir, Function.update directories path (some kept)) := by
  unfold getDir
  cases cached : directories path with
  | some kept =>
    cases cloned : os.tryClone kept with
    | error error => exact .inl ⟨error, by simp only [cloned]⟩
    | ok dir =>
      have same := os.refers_tryClone kept dir cloned
      exact .inr (.inl ⟨kept, dir, rfl, same, by simp only [cloned]⟩)
  | none =>
    cases os.openAmbientDir path with
    | error error => exact .inl ⟨error, rfl⟩
    | ok dir =>
      cases cloned : os.tryClone dir with
      | error error => exact .inl ⟨error, by simp only [cloned]⟩
      | ok kept =>
        have same := os.refers_tryClone dir kept cloned
        exact .inr (.inr ⟨dir, kept, rfl, same, by simp only [cloned]⟩)

/-- `get_dir` adds at most a directory under a path that had none. -/
theorem getDir_within (os : Os refers) (path : String) (directories : Directories Dir) :
    Within directories (getDir os path directories).2 := by
  intro other dir found
  rcases getDir_cases os path directories with ⟨_, got⟩ | ⟨_, _, _, _, got⟩ | ⟨_, _, none, _, got⟩
  · rwa [got]
  · rwa [got]
  · have apart : other ≠ path := by
      rintro rfl
      rw [none] at found
      cases found
    rw [got]
    exact (Function.update_of_ne apart _ _).trans found

/-- A handle has the name that was asked for, and refers to the directory in the table. -/
def Kept (refers : Dir → Directory) (directories : Directories Dir) (entry : String × Dir)
    (asked : String × String) : Prop :=
  entry.1 = asked.1 ∧ (directories asked.2).map refers = some (refers entry.2)

theorem Kept.mono {entry : String × Dir} {asked : String × String}
    (within : Within directories later) (kept : Kept refers directories entry asked) :
    Kept refers later entry asked := by
  obtain ⟨named, same⟩ := kept
  obtain ⟨dir, found, refer⟩ := Option.map_eq_some_iff.mp same
  exact ⟨named, by rw [within _ _ found, Option.map_some, refer]⟩

theorem getDir_kept {name : String} {dir : Dir}
    (got : getDir os path directories = (.ok dir, later)) :
    Kept refers later (name, dir) (name, path) := by
  refine ⟨rfl, ?_⟩
  rcases getDir_cases os path directories with
    ⟨_, failed⟩ | ⟨kept, _, cached, same, found⟩ | ⟨_, kept, _, same, opened⟩
  · rw [failed] at got
    cases got
  · rw [found] at got
    cases got
    rw [cached, Option.map_some, same]
  · rw [opened] at got
    cases got
    rw [Function.update_self, Option.map_some, same]

/-- The clones of a context are what was opened for it. -/
theorem preopen_kept {entries clones : List (String × Dir)} {askeds : List (String × String)}
    (kept : List.Forall₂ (Kept refers directories) entries askeds)
    (cloned : entries.mapM (preopen os) = .ok clones) :
    List.Forall₂ (Kept refers directories) clones askeds := by
  induction kept generalizing clones with
  | nil =>
    cases cloned
    exact .nil
  | @cons entry asked entries askeds kept _ ih =>
    rw [List.mapM_cons] at cloned
    obtain ⟨clone, first, cloned⟩ := bind_eq_ok.mp cloned
    obtain ⟨others, rest, cloned⟩ := bind_eq_ok.mp cloned
    cases cloned
    obtain ⟨copy, copied, first⟩ := bind_eq_ok.mp first
    obtain ⟨_, _, first⟩ := bind_eq_ok.mp first
    cases first
    have same := os.refers_tryClone entry.2 copy copied
    exact .cons ⟨kept.1, kept.2.trans (congrArg some same.symm)⟩ (ih rest)

/-- A context has the arguments and variables of its parameters, and a directory for each name
that is opened for them. -/
structure Accounts (refers : Dir → Directory) (directories : Directories Dir)
    (params : WasiParams) (ctx : WasiCtx Dir) : Prop where
  args : ctx.args = params.argv
  envs : ctx.envs = params.envVars
  preopened : List.Forall₂ (Kept refers directories) ctx.preopened (preopenDirs params)

theorem Accounts.mono {params : WasiParams} {ctx : WasiCtx Dir} (within : Within directories later)
    (accounts : Accounts refers directories params ctx) : Accounts refers later params ctx where
  args := accounts.args
  envs := accounts.envs
  preopened := accounts.preopened.imp fun _ _ => Kept.mono within

theorem Accounts.found {params : WasiParams} {ctx : WasiCtx Dir} {name path : String}
    (accounts : Accounts refers directories params ctx)
    (member : (name, path) ∈ preopenDirs params) : ∃ dir, directories path = some dir := by
  obtain ⟨index, inside, at_⟩ := List.getElem_of_mem member
  have kept := accounts.preopened.get (by simpa [accounts.preopened.length_eq] using inside) inside
  rw [List.get_eq_getElem, List.get_eq_getElem, at_] at kept
  obtain ⟨dir, found, -⟩ := Option.map_eq_some_iff.mp kept.2
  exact ⟨dir, found⟩

theorem initCtx_accounts {params : WasiParams} {preopened : List (String × Dir)}
    {ctx : WasiCtx Dir}
    (kept : List.Forall₂ (Kept refers directories) preopened (preopenDirs params))
    (built : initCtx os preopened params = .ok ctx) : Accounts refers directories params ctx := by
  obtain ⟨_, _, built⟩ := bind_eq_ok.mp built
  obtain ⟨_, _, built⟩ := bind_eq_ok.mp built
  obtain ⟨clones, cloned, built⟩ := bind_eq_ok.mp built
  cases built
  exact ⟨rfl, rfl, preopen_kept kept cloned⟩

end Table

/-! ### Runs -/

section Runs

variable {Thread Dir Directory : Type} [DecidableEq Thread] {refers : Dir → Directory}
  {process next : Process Thread Dir} {event : Event Thread refers}

/-- What a step does and hands out. -/
inductive Moves (process : Process Thread Dir) : Event Thread refers → Process Thread Dir →
    List (WasiParams × Except String (WasiCtx Dir)) → Prop where
  | newStore {thread wasiParams} :
    Moves process (.newStore thread wasiParams) ⟨process.directories,
      Function.update process.threads thread
        (some ⟨wasiParams.getD .default, preopenDirs (wasiParams.getD .default), []⟩)⟩ []
  | opened {thread os params name path left preopened dir directories}
    (reached : process.threads thread = some ⟨params, (name, path) :: left, preopened⟩)
    (got : getDir os path process.directories = (.ok dir, directories)) :
    Moves process (.next thread os) ⟨directories, Function.update process.threads thread
      (some ⟨params, left, preopened ++ [(name, dir)]⟩)⟩ []
  | failed {thread os params name path left preopened error directories}
    (reached : process.threads thread = some ⟨params, (name, path) :: left, preopened⟩)
    (got : getDir os path process.directories = (.error error, directories)) :
    Moves process (.next thread os) ⟨directories, Function.update process.threads thread none⟩
      [(params, .error ("Error exposing directories with WASI: " ++ error))]
  | built {thread os params preopened}
    (reached : process.threads thread = some ⟨params, [], preopened⟩) :
    Moves process (.build thread os)
      ⟨process.directories, Function.update process.threads thread none⟩
      [(params, (initCtx os preopened params).mapError ("Initialization failed: " ++ ·))]

theorem moves_of_step (moved : step process event = some next) :
    Moves process event next (results process event) := by
  cases event with
  | newStore thread wasiParams =>
    cases free : process.threads thread with
    | some _ => simp [step, free] at moved
    | none =>
      simp only [step, free, Option.some.injEq] at moved
      rw [← moved]
      exact .newStore
  | next thread os =>
    rcases reached : process.threads thread with _ | ⟨params, _ | ⟨⟨name, path⟩, left⟩, preopened⟩
    · simp [step, reached] at moved
    · simp [step, reached] at moved
    · cases got : getDir os path process.directories with
      | mk result directories =>
        cases result with
        | error error =>
          simp only [step, reached, got, Option.some.injEq] at moved
          simp only [results, reached, got, ← moved]
          exact .failed reached got
        | ok dir =>
          simp only [step, reached, got, Option.some.injEq] at moved
          simp only [results, reached, got, ← moved]
          exact .opened reached got
  | build thread os =>
    rcases reached : process.threads thread with _ | ⟨params, _ | ⟨entry, left⟩, preopened⟩
    · simp [step, reached] at moved
    · simp only [step, reached, Option.some.injEq] at moved
      simp only [results, reached, ← moved]
      exact .built reached
    · simp [step, reached] at moved

theorem Moves.within {output : List (WasiParams × Except String (WasiCtx Dir))}
    (moves : Moves process event next output) : Within process.directories next.directories := by
  have kept : ∀ {os : Os refers} {path result directories},
      getDir os path process.directories = (result, directories) →
        Within process.directories directories := by
    intro os path result directories got
    have within := getDir_within os path process.directories
    rwa [got] at within
  cases moves with
  | newStore => exact fun _ _ found => found
  | opened _ got => exact kept got
  | failed _ got => exact kept got
  | built _ => exact fun _ _ found => found

/-- What is being opened, and what was handed out, is in the table. -/
structure Accounted (refers : Dir → Directory) (process : Process Thread Dir)
    (output : List (WasiParams × Except String (WasiCtx Dir))) : Prop where
  opening : ∀ thread opening, process.threads thread = some opening → ∃ before,
    preopenDirs opening.params = before ++ opening.left ∧
      List.Forall₂ (Kept refers process.directories) opening.preopened before
  built : ∀ params ctx, (params, .ok ctx) ∈ output →
    Accounts refers process.directories params ctx

variable {output handed : List (WasiParams × Except String (WasiCtx Dir))}

/-- A thread stops or starts anew, or goes on to what is accounted for. -/
theorem Accounted.update (accounted : Accounted refers process output)
    {directories : Directories Dir} (within : Within process.directories directories)
    (thread : Thread) {now : Option (Opening Dir)}
    (own : ∀ opening, now = some opening → ∃ before,
      preopenDirs opening.params = before ++ opening.left ∧
        List.Forall₂ (Kept refers directories) opening.preopened before)
    (built : ∀ params ctx, (params, .ok ctx) ∈ handed →
      Accounts refers process.directories params ctx) :
    Accounted refers ⟨directories, Function.update process.threads thread now⟩
      (output ++ handed) where
  opening := by
    intro other opening at_
    by_cases same : other = thread
    · subst same
      exact own opening (by simpa using at_)
    · obtain ⟨before, all, kept⟩ := accounted.opening other opening
        (by simpa [Function.update_of_ne same] using at_)
      exact ⟨before, all, kept.imp fun _ _ => Kept.mono within⟩
  built := by
    intro params ctx member
    rcases List.mem_append.mp member with earlier | now
    · exact (accounted.built params ctx earlier).mono within
    · exact (built params ctx now).mono within

theorem Accounted.moves (accounted : Accounted refers process output)
    (moves : Moves process event next handed) : Accounted refers next (output ++ handed) := by
  have within := moves.within
  cases moves with
  | newStore =>
    refine accounted.update within _ ?_ (by simp)
    rintro _ ⟨⟩
    exact ⟨[], rfl, .nil⟩
  | @opened thread os params name path left preopened dir directories reached got =>
    refine accounted.update within _ ?_ (by simp)
    rintro _ ⟨⟩
    obtain ⟨before, all, kept⟩ := accounted.opening thread _ reached
    refine ⟨before ++ [(name, path)], by simpa using all, ?_⟩
    exact List.rel_append (kept.imp fun _ _ => Kept.mono within) (.cons (getDir_kept got) .nil)
  | failed =>
    refine accounted.update within _ (by simp) (by simp)
  | @built thread os params preopened reached =>
    refine accounted.update within _ (by simp) ?_
    intro params' ctx member
    obtain ⟨before, all, kept⟩ := accounted.opening thread _ reached
    rw [List.append_nil] at all
    rw [← all] at kept
    cases built : initCtx os preopened params with
    | error error => simp [built, Except.mapError] at member
    | ok ctx' =>
      simp only [built, Except.mapError, List.mem_singleton, Prod.mk.injEq,
        Except.ok.injEq] at member
      obtain ⟨rfl, rfl⟩ := member
      exact initCtx_accounts kept built

theorem accounted_of_run {events : List (Event Thread refers)} {finish : Process Thread Dir}
    (executed : machine.run .start events = some finish) :
    Accounted refers finish (machine.trace results .start events) := by
  refine Machine.trace_invariant ⟨?_, by simp⟩ ?_ executed
  · intro thread opening started
    cases started
  · intro process event next output accounted moved
    exact accounted.moves (moves_of_step moved)

/-- However threads and a changing file system interleave, there is one directory for each path
of the host that all contexts have under the names they asked for, in order and none left out. -/
theorem contexts_share_directories {events : List (Event Thread refers)}
    {finish : Process Thread Dir} (executed : machine.run .start events = some finish) :
    ∃ directories : String → Option Directory, ∀ params ctx,
      (params, .ok ctx) ∈ machine.trace results .start events →
        ctx.args = params.argv ∧ ctx.envs = params.envVars ∧
          ctx.preopened.map (fun entry => (entry.1, some (refers entry.2))) =
            (preopenDirs params).map fun asked => (asked.1, directories asked.2) := by
  refine ⟨fun path => (finish.directories path).map refers, ?_⟩
  intro params ctx handed
  have accounts := (accounted_of_run executed).built params ctx handed
  refine ⟨accounts.args, accounts.envs, ?_⟩
  rw [← List.forall₂_eq_eq_eq, List.forall₂_map_left_iff, List.forall₂_map_right_iff]
  exact accounts.preopened.imp fun _ _ kept => Prod.ext kept.1 kept.2.symm

omit [DecidableEq Thread] in
/-- The file system is asked only for what is not in the table. -/
theorem absent_of_asked {path : String} (asks : path ∈ asked process event) :
    process.directories path = none := by
  cases event with
  | newStore thread wasiParams => cases asks
  | build thread os => cases asks
  | next thread os =>
    rcases reached : process.threads thread with _ | ⟨params, _ | ⟨⟨name, other⟩, left⟩, preopened⟩
    · simp [asked, reached] at asks
    · simp [asked, reached] at asks
    · cases cached : process.directories other with
      | some _ => simp [asked, reached, cached] at asks
      | none =>
        simp only [asked, reached, cached, List.mem_singleton] at asks
        rw [asks, cached]

/-- A system on which every path is this directory; handles are numbered. -/
def pointingTo (directory : String) : Os (Prod.fst : String × Nat → String) where
  openAmbientDir := fun _ => .ok (directory, 0)
  tryClone := fun dir => .ok (dir.1, dir.2 + 1)
  args := fun _ => .ok ()
  envs := fun _ => .ok ()
  preopenedDir := fun _ => .ok ()
  refers_tryClone := by
    rintro dir _ ⟨⟩
    rfl

/-- A context for the directory `/data` is made while it is one directory. -/
def sharing : List (Event Bool (Prod.fst : String × Nat → String)) :=
  [.newStore true (some ⟨[], [], [], ["/data"]⟩), .next true (pointingTo "old"),
    .build true (pointingTo "old")]

/-- Another context maps the same path when it is another directory. -/
def sharingLater : List (Event Bool (Prod.fst : String × Nat → String)) :=
  [.newStore false (some ⟨[], [("/", "/data")], [], []⟩), .next false (pointingTo "new"),
    .build false (pointingTo "new")]

theorem sharing_shares : ∃ directories : String → Option String, ∀ params ctx,
    (params, .ok ctx) ∈ machine.trace results .start (sharing ++ sharingLater) →
      ctx.args = params.argv ∧ ctx.envs = params.envVars ∧
        ctx.preopened.map (fun entry => (entry.1, some entry.2.1)) =
          (preopenDirs params).map fun asked => (asked.1, directories asked.2) := by
  have executed : (machine.run .start (sharing ++ sharingLater)).isSome := by decide
  obtain ⟨finish, executed⟩ := Option.isSome_iff_exists.mp executed
  exact contexts_share_directories executed

/-- From the first context on, the file system is not asked again for the paths of its
directories: what they are stays, whatever becomes of the paths. -/
theorem opened_once {events later : List (Event Thread refers)} {middle finish : Process Thread Dir}
    (executed : machine.run .start events = some middle)
    (continued : machine.run middle later = some finish) :
    ∀ params ctx, (params, .ok ctx) ∈ machine.trace results .start events →
      ∀ name path, (name, path) ∈ preopenDirs params →
        path ∉ machine.trace asked middle later := by
  intro params ctx handed name path member
  have accounts := (accounted_of_run executed).built params ctx handed
  obtain ⟨dir, found⟩ := accounts.found member
  have still : finish.directories path = some dir ∧ path ∉ machine.trace asked middle later := by
    refine Machine.trace_invariant (motive := fun (process : Process Thread Dir) output =>
      process.directories path = some dir ∧ path ∉ output) ⟨found, by simp⟩ ?_ continued
    rintro process event next output ⟨found, never⟩ moved
    refine ⟨(moves_of_step moved).within _ _ found, ?_⟩
    rw [List.mem_append, not_or]
    refine ⟨never, fun asks => ?_⟩
    rw [absent_of_asked asks] at found
    cases found
  exact still.2

theorem sharing_opened_once : ∃ middle, machine.run .start sharing = some middle ∧
    "/data" ∉ machine.trace asked middle sharingLater := by
  have executed : (machine.run .start sharing).isSome := by decide
  obtain ⟨middle, executed⟩ := Option.isSome_iff_exists.mp executed
  have both : (machine.run .start (sharing ++ sharingLater)).isSome := by decide
  obtain ⟨finish, both⟩ := Option.isSome_iff_exists.mp both
  rw [Machine.run_append, executed, Option.bind_some] at both
  refine ⟨middle, executed, ?_⟩
  exact opened_once executed both ⟨[], [], [], ["/data"]⟩ ⟨[], [], [("/data", ("old", 1))]⟩
    (by rw [List.mem_iff_getElem]; exact ⟨0, by decide, rfl⟩) "/data" "/data" (by decide)

end Runs
end Wapc.Provider.Wasi
