import Wapc.Provider.Linker
import Wapc.Runtime.Conversation

/-!
# Modules that the providers take

A module is linked with the functions of a provider under their names, and their types must be
those of its imports. The wasmtime provider defines its functions and needs each import to be
among them. The wasm3 provider looks for an import to link each of its functions to, and does
without most of them. Its functions know no ids of calls, so their types are different ones.
-/

namespace Wapc.Provider

open Semantics

/-- A function that is defined or imported, under the name of a module and its own. -/
structure Definition where
  moduleName : String
  name : String
  type : FuncType
deriving DecidableEq, Repr

/-- What a module imports and exports. -/
structure WasmModule where
  imports : List Definition
  exports : List (String × FuncType)

/-- The type of the first function under these names. -/
def definedType (definitions : List Definition) (moduleName name : String) : Option FuncType :=
  (definitions.find? fun found => found.moduleName = moduleName ∧ found.name = name).map (·.type)

/-- `HOST_NAMESPACE`. -/
def hostNamespace : String := "wapc"

/-- An export is found under its name and with its type. -/
def WasmModule.exportsFunction (module : WasmModule) (name : String) (type : FuncType) : Bool :=
  module.exports.lookup name = some type

/-! ### The wasmtime provider -/

namespace Wasmtime

/-- Why there is no context. -/
inductive ContextError where
  | alreadyDefined (name : String)
  | unresolved
  | start (error : String)
  | hostResponseReadyNotFound
deriving DecidableEq, Repr

def hostDefinition (hostExport : HostExports) : Definition :=
  ⟨hostNamespace, hostExport.asRef, hostExport.funcType⟩

/-- `linker.func_new`, which refuses a name that is taken. -/
def funcNew (linker : List Definition) (new : Definition) : Except ContextError (List Definition) :=
  if (definedType linker new.moduleName new.name).isSome then .error (.alreadyDefined new.name)
  else .ok (linker ++ [new])

def addToLinker (linker : List Definition) : Except ContextError (List Definition) :=
  (HostExports.all.map hostDefinition).foldlM funcNew linker

/-- `linker.instantiate`, in which the start function of the module may trap. -/
def instantiate {Instance : Type} (linker : List Definition) (module : WasmModule)
    (start : Except String Instance) : Except ContextError Instance :=
  if module.imports.all fun wanted =>
      definedType linker wanted.moduleName wanted.name = some wanted.type then
    start.mapError .start
  else .error .unresolved

/-- `WasmtimeCallContext::new`. -/
def newContext {Instance : Type} (linker : List Definition) (module : WasmModule)
    (start : Except String Instance) : Except ContextError Instance := do
  let linker ← addToLinker linker
  let context ← instantiate linker module start
  if module.exportsFunction "__host_call_response_ready" ⟨[.i32, .i32], []⟩ then return context
  else .error .hostResponseReadyNotFound

theorem definedType_append {linker : List Definition} {new : Definition} {moduleName name : String}
    {type : FuncType} (found : definedType linker moduleName name = some type) :
    definedType (linker ++ [new]) moduleName name = some type := by
  unfold definedType at found ⊢
  obtain ⟨definition, first, typed⟩ := Option.map_eq_some_iff.mp found
  rw [List.find?_append, first, Option.some_or, Option.map_some, typed]

/-- A function that was defined is found, and nothing takes the place of another. -/
theorem definedType_of_foldlM {linker final news : List Definition}
    (added : news.foldlM funcNew linker = .ok final) :
    (∀ moduleName name type, definedType linker moduleName name = some type →
      definedType final moduleName name = some type) ∧
      ∀ new ∈ news, definedType final new.moduleName new.name = some new.type := by
  induction news generalizing linker with
  | nil =>
    cases added
    simp
  | cons new news ih =>
    rw [List.foldlM_cons] at added
    obtain ⟨next, defined, added⟩ := bind_eq_ok.mp added
    obtain ⟨older, newer⟩ := ih added
    unfold funcNew at defined
    split at defined
    · cases defined
    · rename_i free
      cases defined
      have own : definedType (linker ++ [new]) new.moduleName new.name = some new.type := by
        rw [Bool.not_eq_true, Option.isSome_eq_false_iff, Option.isNone_iff_eq_none] at free
        unfold definedType at free ⊢
        rw [List.find?_append, Option.map_eq_none_iff.mp free]
        simp
      refine ⟨fun moduleName name type found => older _ _ _ (definedType_append found), ?_⟩
      rw [List.forall_mem_cons]
      exact ⟨older _ _ _ own, newer⟩

theorem newContext_imports {Instance : Type} {linker : List Definition} {module : WasmModule}
    {start : Except String Instance} {context : Instance}
    (made : newContext linker module start = .ok context) (hostExport : HostExports)
    {type : FuncType} (wanted : ⟨hostNamespace, hostExport.asRef, type⟩ ∈ module.imports) :
    type = hostExport.funcType := by
  obtain ⟨final, added, made⟩ := bind_eq_ok.mp made
  obtain ⟨instance_, instantiated, -⟩ := bind_eq_ok.mp made
  have own : definedType final hostNamespace hostExport.asRef = some hostExport.funcType :=
    (definedType_of_foldlM added).2 (hostDefinition hostExport)
      (List.mem_map_of_mem (by cases hostExport <;> decide))
  unfold instantiate at instantiated
  split at instantiated
  · rename_i all
    have resolved := of_decide_eq_true (List.all_eq_true.mp all _ wanted)
    rw [own] at resolved
    exact (Option.some.inj resolved).symm
  · cases instantiated

end Wasmtime

/-! ### The wasm3 provider -/

namespace Wasm3

/-- A function that is linked, and the error where it must be. -/
structure Closure where
  definition : Definition
  required : Option String

def closure (name : String) (params results : Nat) (required : Option String) : Closure :=
  ⟨⟨hostNamespace, name, ⟨.replicate params .i32, .replicate results .i32⟩⟩, required⟩

/-- The functions that `init` links, in its order. -/
def closures : List Closure :=
  [closure "__host_call" 8 1 none,
    closure "__guest_request" 2 0
      (some "Module did not import __guest_request - will not work with waPC"),
    closure "__console_log" 2 0 none,
    closure "__host_response" 1 0 none,
    closure "__host_response_len" 0 1 none,
    closure "__guest_response" 2 0 (some "Module did not import __guest_response"),
    closure "__guest_error" 2 0 (some "Module did not import __guest_error"),
    closure "__host_error" 1 0 none,
    closure "__host_error_len" 0 1 none,
    ⟨⟨"wasi_unstable", "fd_write", ⟨.replicate 4 .i32, [.i32]⟩⟩, none⟩]

section Init

variable {Inner : Type} (module : WasmModule)

/-- `link_closure` finds an import of the type of the closure. -/
def linksClosure (closure : Closure) : Bool :=
  definedType module.imports closure.definition.moduleName closure.definition.name =
    some closure.definition.type

/-- Link a closure, or do without it. -/
def linkClosure (linked : List Closure) (closure : Closure) : Except String (List Closure) :=
  if linksClosure module closure then .ok (linked ++ [closure])
  else
    match closure.required with
    | some error => .error error
    | none => .ok linked

/-- Call a start function if it is there. -/
def callStarter (start : String → Inner → Except String Inner) (inner : Inner)
    (starter : String) : Except String Inner :=
  if module.exportsFunction starter ⟨[], []⟩ then
    (start starter inner).mapError fun error =>
      "Failed during starter initialization '" ++ starter ++ "': " ++ error
  else .ok inner

/-- `init`: the closures that were linked and the runtime that is kept. -/
def init (load : Except String Inner) (start : String → Inner → Except String Inner) :
    Except String (List Closure × Inner) := do
  let inner ← load.mapError ("WASM3: " ++ ·)
  let linked ← closures.foldlM (linkClosure module) []
  if module.exportsFunction "__guest_call" ⟨[.i32, .i32], [.i32]⟩ then
    let inner ← Runtime.requiredStarts.foldlM (callStarter module start) inner
    return (linked, inner)
  else .error "Could not find __guest_call function in WebAssembly module"

/-! ### Modules that are taken -/

variable {module} {load : Except String Inner} {start : String → Inner → Except String Inner}

/-- Linking goes through where all that is required links, and links all that does. -/
theorem linkClosures_eq_ok_iff {closures before linked : List Closure} :
    closures.foldlM (linkClosure module) before = .ok linked ↔
      (∀ closure ∈ closures, closure.required.isSome → linksClosure module closure) ∧
        linked = before ++ closures.filter (linksClosure module ·) := by
  induction closures generalizing before with
  | nil =>
    constructor
    · rintro ⟨⟩
      simp
    · rintro ⟨-, rfl⟩
      simp
      rfl
  | cons closure closures ih =>
    rw [List.foldlM_cons, bind_eq_ok, List.forall_mem_cons]
    by_cases links : linksClosure module closure
    · simp [linkClosure, links, ih]
    · cases required : closure.required with
      | none => simp [linkClosure, links, required, ih]
      | some error => simp [linkClosure, links, required]

theorem linking_of_init {linked : List Closure} {final : Inner}
    (done : init module load start = .ok (linked, final)) :
    closures.foldlM (linkClosure module) [] = .ok linked := by
  obtain ⟨inner, -, done⟩ := bind_eq_ok.mp done
  obtain ⟨linked, linking, done⟩ := bind_eq_ok.mp done
  split at done
  · obtain ⟨final, -, done⟩ := bind_eq_ok.mp done
    cases done
    exact linking
  · cases done

end Init

/-- What a closure is linked to is an import of its type. -/
theorem imports_of_linksClosure {module : WasmModule} {closure : Closure}
    (links : linksClosure module closure) : closure.definition ∈ module.imports := by
  obtain ⟨found, at_, typed⟩ := Option.map_eq_some_iff.mp (of_decide_eq_true links)
  have named := List.find?_some at_
  rw [decide_eq_true_eq] at named
  have same : found = closure.definition := by
    rw [Definition.mk.injEq]
    exact ⟨named.1, named.2, typed⟩
  exact same ▸ List.mem_of_find?_eq_some at_

end Wasm3

/-- No module is taken by both providers, whatever it contains and whatever else the linker
defines: one passes ids of calls to the functions that the other needs without. -/
theorem providers_take_different_modules {Instance Inner : Type} (linker : List Definition)
    (module : WasmModule) (instantiated : Except String Instance) (load : Except String Inner)
    (start : String → Inner → Except String Inner) :
    (∃ error, Wasmtime.newContext linker module instantiated = .error error) ∨
      ∃ error, Wasm3.init module load start = .error error := by
  cases made : Wasmtime.newContext linker module instantiated with
  | error error => exact .inl ⟨error, rfl⟩
  | ok context =>
    right
    cases done : Wasm3.init module load start with
    | error error => exact ⟨error, rfl⟩
    | ok result =>
      obtain ⟨linked, kept⟩ := result
      have linking := Wasm3.linking_of_init done
      let request := Wasm3.closure "__guest_request" 2 0
        (some "Module did not import __guest_request - will not work with waPC")
      have member : request ∈ Wasm3.closures := .tail _ (.head _)
      have links := (Wasm3.linkClosures_eq_ok_iff.mp linking).1 request member rfl
      have wanted := Wasm3.imports_of_linksClosure links
      have twice := Wasmtime.newContext_imports made .guestRequest wanted
      exact absurd twice (by decide)

/-- A guest that answers calls; what a provider asks of it has these types. -/
def answering (imported : FuncType) (entry : String × FuncType) : WasmModule where
  imports := ["__guest_request", "__guest_response", "__guest_error"].map
    (⟨hostNamespace, ·, imported⟩)
  exports := [entry]

example : Wasmtime.newContext [] (answering ⟨[.i32, .i32, .i32], []⟩
    ("__host_call_response_ready", ⟨[.i32, .i32], []⟩)) (.ok ()) = .ok () := rfl

example : (Wasm3.init (answering ⟨[.i32, .i32], []⟩ ("__guest_call", ⟨[.i32, .i32], [.i32]⟩))
    (.ok ()) fun _ inner => .ok inner).isOk := rfl

end Wapc.Provider
