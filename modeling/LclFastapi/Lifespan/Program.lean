import LclFastapi.Lib.ExitStack
import LclFastapi.Middleware.RequestContext
import LclFastapi.Routes

/-!
# The lifespan of an API worker (`LclFastAPI.worker_lifespan` of `service.py`)

`worker_lifespan` as a program with a state and exceptions. Its two exit stacks are those of
`Lib/ExitStack.lean`.

* `Op`: the calls into the rest of the package, into the native library and into the application.
  `Outside` says what each does. Any of them may raise whenever it is called; a cancellation is an
  exception. The operations of the application (`Op.user`) may also change the routes.
* The yield is the operation `serve`: what is thrown into the lifespan is what `serve` raises.
* `Process`: what the scopes of the package bind. A token of a context variable is the value before.
* `trace` is history: what has been acquired, released and called. `held` reads it as a stack, and
  fails where something is called without what it needs, or released out of order. An exit that
  raises has released nothing for certain (`Event.failed`).
* Of `self.health_sampler`, which stays, only its presence is kept. Left out: `self.openapi_schema`,
  and the callback `publish`, whose thread is in `Health/Teardown.lean`.

`Unwinding.lean` shows that the lifespan releases what it acquires, however it ends.
-/

namespace LclFastapi.Lifespan

open Lib.ExitStack
open Lib.Proc (final)
open Config (Settings settings_from_frame)
open Routes (Route register_internal_routes register_documentation)

/-! ## Operations and resources -/

/-- What the lifespan holds while it runs. -/
inductive Resource where
  /-- `configuration_frame`. -/
  | frame
  /-- The binding of `CONFIG_FRAME`. -/
  | binding
  /-- `use_logger_handler`. -/
  | logger
  /-- `background_log_routing`. -/
  | routing
  /-- `suppress_server_access_logs`. -/
  | access
  /-- `worker_runtime`. -/
  | runtime
  /-- `use_file_control`. -/
  | control
  /-- `use_service_verbose`, for the whole lifespan. -/
  | verbose
  /-- `self.health_sampler.stop` on the stack. -/
  | sampler
  /-- The business lifespan. -/
  | business
  /-- `self.background_manager.stop` on the stack. -/
  | manager
  deriving DecidableEq

/-- What the worker's runtime and the settings tell the lifespan. -/
structure WorkerRuntime where
  worker_id : Int
  /-- `int(str(runtime.service["configured_workers"]))`, where it does not raise. -/
  configured_workers : Option Int
  deriving DecidableEq

/-- The controller of file diagnostics, by the process that it was made for. -/
structure FileVerboseControl where
  pid : Nat
  deriving DecidableEq

/-- The calls that leave the lifespan. -/
inductive Op where
  /-- `Path(configured).resolve` in a thread. -/
  | resolve
  | open_frame
  | close_frame
  | settings_from_frame
  | worker_policies
  /-- From `resolve_logger_config` to the last `resolve_log_directories`. -/
  | logger_config
  | open_logger
  | close_logger
  /-- `install_service_formatters` and `install_verbose_output`. -/
  | install
  | open_runtime
  | close_runtime
  | file_control
  | get_logger
  /-- `current_file_control().snapshot().enabled`. -/
  | snapshot
  | open_verbose
  | close_verbose
  /-- `SnowflakeGenerator(...)`. -/
  | generator
  | sampler_start
  | sampler_stop
  | business_enter
  | business_exit
  | journal
  | manager_start
  | manager_stop
  /-- The yield. -/
  | serve
  deriving DecidableEq

/-- The settings that `settings_from_frame` accepts. -/
abbrev Accepted := {settings : Settings //
  ∃ get urlsplit resolve, settings_from_frame get urlsplit resolve = .ok settings}

/-- What an operation returns. -/
abbrev Op.Out : Op → Type
  | open_frame => Nat
  | settings_from_frame => Accepted
  | open_runtime => WorkerRuntime
  | file_control => FileVerboseControl
  | snapshot => Bool
  | close_frame | close_logger | close_runtime | business_exit => Bool
  | _ => Unit

/-- The operations that run code of the application. -/
def Op.user : Op → Bool
  | business_enter | business_exit | manager_start | manager_stop | serve => true
  | _ => false

/-! ## History -/

/-- What the business code and the background workers run on. -/
def serving : List Resource :=
  [.sampler, .verbose, .control, .runtime, .access, .routing, .logger, .binding, .frame]

/-- What has to be there for an operation. -/
def Op.needs : Op → List Resource
  | resolve | open_frame | close_frame | snapshot | open_verbose | close_verbose => []
  | settings_from_frame | worker_policies | logger_config => [.binding, .frame]
  | open_logger | close_logger => [.binding, .frame]
  | install | get_logger => [.logger]
  | open_runtime | close_runtime => [.access, .routing, .logger]
  | file_control | generator => [.runtime, .logger]
  | sampler_start | sampler_stop => [.verbose, .control, .runtime, .logger]
  | business_enter | business_exit | journal | manager_start | manager_stop | serve => serving

/-- One entry of the history. -/
inductive Event where
  | acquired (r : Resource)
  /-- The exit has returned. -/
  | released (r : Resource)
  /-- The exit has raised. -/
  | failed (r : Resource)
  | called (op : Op)
  deriving DecidableEq

/-- What is held after an event. -/
def Event.next (held : List Resource) : Event → Option (List Resource)
  | acquired r => if r ∈ held then none else some (r :: held)
  | released r | failed r => if held.head? = some r then some held.tail else none
  | called op => if op.needs ⊆ held then some held else none

/-- What is held after a trace, where everything was acquired once and left in order. -/
def held (trace : List Event) : Option (List Resource) := trace.foldlM Event.next []

/-! ## States -/

/-- The exceptions that the lifespan raises or passes on. -/
inductive Exc (ε : Type) where
  /-- Of an operation. -/
  | outside (e : ε)
  | valueError (message : String)
  | runtimeError (message : String)
  /-- `LclStateError` of the native library. -/
  | stateError
  /-- Of `str.encode`, of `int`, or of the registration of a route. -/
  | other (message : String)

/-- What the scopes of the package bind in this process. -/
structure Process where
  CONFIG_FRAME : Option Nat
  FILE_VERBOSE_CONTEXT : Option Bool
  active_control : Option FileVerboseControl
  /-- The flags `disabled` of loggers. -/
  disabled : String → Bool
  /-- Whether a native logger runtime is active. -/
  logger : Bool
  /-- How many `WorkerLogFilter`s its handler has. -/
  worker_filters : Nat

/-- `self.worker_requests`, in what requests read of it. -/
structure RequestRuntime where
  frame : Nat
  worker_id : Int
  header : Middleware.Bytes
  verbose : Bool

/-- The attributes of the application that a lifespan sets. -/
structure Attributes where
  worker_identity : Option WorkerRuntime
  worker_requests : Option RequestRuntime
  /-- `self.background_manager is not None`. -/
  background_manager : Bool
  /-- `self.health_sampler is not None`. -/
  health_sampler : Bool

/-- The state of a lifespan. -/
structure World (σ : Type) where
  outside : σ
  trace : List Event
  process : Process
  attributes : Attributes
  /-- `self.router.routes`. -/
  routes : List Route
  title : String
  version : String

/-- The surroundings of a lifespan. -/
structure Outside (ε σ : Type) where
  config_path : Option String
  /-- `os.environ.get("LCL_FASTAPI_CONFIG")`. -/
  environ : Option String
  getpid : Nat
  /-- `self.business_lifespan is not None`. -/
  business_lifespan : Bool
  /-- Whether `self.background_workers` has any. -/
  background_workers : Bool
  compile_path : String → Render.Result Unit
  /-- What an operation does; an exit gets what is in flight. -/
  run : (op : Op) → Option (Exc ε) → σ × List Route → Except ε op.Out × σ × List Route

/-- A part of the lifespan. -/
abbrev M (ε σ : Type) := EStateM (Exc ε) (World σ)

variable {ε σ : Type} (x : Outside ε σ)

/-- One more entry of the history. -/
def record (event : Event) : M ε σ Unit := modify fun w => { w with trace := w.trace ++ [event] }

/-- An operation has been called, with what it leaves behind. -/
def World.after (w : World σ) (op : Op) (answer : σ × List Route) : World σ :=
  { w with
    outside := answer.1
    trace := w.trace ++ [.called op]
    routes := if op.user then answer.2 else w.routes }

/-- An operation, called with what is in flight. -/
def raised (op : Op) (inFlight : Option (Exc ε)) : M ε σ op.Out := do
  let w ← get
  let answer := x.run op inFlight (w.outside, w.routes)
  set (w.after op answer.2)
  match answer.1 with
  | .ok a => return a
  | .error e => throw (.outside e)

/-- An operation, called with nothing in flight. -/
def call (op : Op) : M ε σ op.Out := raised x op none

/-- An operation that other code of the package is, where it does not raise. -/
def ofResult {α : Type} : Render.Result α → M ε σ α
  | .ok a => pure a
  | .error message => throw (.other message)

/-! ## Scopes -/

/-- A `with` statement of the lifespan. -/
abbrev Scope (ε σ β : Type) := ContextManager (Exc ε) (World σ) β

/-- The history of a scope on the stack. -/
def acquiring {β : Type} (r : Resource) (cm : Scope ε σ β) : Scope ε σ β where
  enter := do
    let b ← cm.enter
    record (.acquired r)
    return b
  exit b raised := do
    let suppressed ← tryCatch (cm.exit b raised) fun e => do
      record (.failed r)
      throw e
    record (.released r)
    return suppressed

/-- A scope of the package that binds something in the process, and restores it. -/
def binding (bind : Process → Process) (restore : Process → Process → Process) :
    Scope ε σ Process where
  enter := do
    let w ← get
    set { w with process := bind w.process }
    return w.process
  exit old _ := do
    modify fun w => { w with process := restore old w.process }
    return false

/-- `push_async_callback`. -/
def pushed (op : Op) : Scope ε σ Unit where
  enter := pure ()
  exit _ _ := do
    let _ ← call x op
    return false

/-- `configuration_frame(...)` of the native library. -/
def configuration_frame : Scope ε σ Nat where
  enter := call x .open_frame
  exit _ inFlight := raised x .close_frame inFlight

/-- `CONFIG_FRAME.set(frame)`, and `CONFIG_FRAME.reset` on the stack. -/
def config_binding (frame : Nat) : Scope ε σ Process :=
  binding (fun p => { p with CONFIG_FRAME := some frame })
    fun old p => { p with CONFIG_FRAME := old.CONFIG_FRAME }

/-- `use_logger_handler(...)` of the native library. It binds the runtime, and unbinds it even where
its end raises. -/
def use_logger_handler : Scope ε σ Bool where
  enter := do
    let _ ← call x .open_logger
    let w ← get
    modify fun v => { v with process.logger := true }
    return w.process.logger
  exit old inFlight :=
    tryFinally (raised x .close_logger inFlight) do
      modify fun w => { w with process.logger := old }

/-- A `WorkerLogFilter` on the handler, where there are background workers. -/
def background_log_routing (enabled : Bool) : Scope ε σ Process :=
  binding (fun p => { p with worker_filters := p.worker_filters + enabled.toNat })
    fun _ p => { p with worker_filters := p.worker_filters - enabled.toNat }

/-- The two loggers of `suppress_server_access_logs`. -/
def accessLoggers : List String := ["uvicorn.access", "gunicorn.access"]

/-- The access loggers of the servers are disabled, and get their flags back. -/
def suppress_server_access_logs : Scope ε σ Process :=
  binding (fun p => { p with disabled := fun n => n ∈ accessLoggers || p.disabled n })
    fun old p => { p with
      disabled := fun n => if n ∈ accessLoggers then old.disabled n else p.disabled n }

/-- The worker's lease, state and watcher: `Runtime/WorkerScope.lean`. -/
def worker_runtime : Scope ε σ WorkerRuntime where
  enter := call x .open_runtime
  exit _ inFlight := raised x .close_runtime inFlight

/-- The control that this process reads the file policy from. -/
def use_file_control (control : FileVerboseControl) : Scope ε σ Process :=
  binding (fun p => { p with active_control := some control })
    fun old p => { p with active_control := old.active_control }

/-- The value that `use_service_verbose` pins. -/
def file_policy (cli_verbose : Bool) : M ε σ Bool := do
  let w ← get
  if w.process.active_control.any (·.pid = x.getpid) then call x .snapshot else pure cli_verbose

/-- `current_runtime()` of the native library. -/
def current_runtime : M ε σ Unit := do
  let w ← get
  if w.process.logger then pure () else throw .stateError

/-- The context variable of the file policy is set. -/
def setVerbose (v : Option Bool) (w : World σ) : World σ :=
  { w with process.FILE_VERBOSE_CONTEXT := v }

/-- The token, and the start of `use_verbose`. If that raises, the `finally` runs. -/
def pin (file_enabled : Bool) : M ε σ (Option Bool) := do
  let w ← get
  modify (setVerbose (some file_enabled))
  tryCatch (call x .open_verbose) fun e => do
    modify (setVerbose w.process.FILE_VERBOSE_CONTEXT)
    throw e
  return w.process.FILE_VERBOSE_CONTEXT

/-- The file policy of the moment is pinned, and native diagnostics are on. -/
def use_service_verbose (cli_verbose : Bool) : Scope ε σ (Option Bool) where
  enter := do
    let file_enabled ← file_policy x cli_verbose
    current_runtime
    pin x file_enabled
  exit old inFlight := do
    tryFinally (discard (raised x .close_verbose inFlight)) (modify (setVerbose old))
    return false

/-- The lifespan of the application. -/
def business_lifespan : Scope ε σ Unit where
  enter := call x .business_enter
  exit _ inFlight := raised x .business_exit inFlight

/-! ## The lifespan -/

/-- `s.encode("ascii")`. -/
def encode_ascii (s : String) : M ε σ Middleware.Bytes :=
  if s.toList.all (·.toNat < 128) then pure (Middleware.encode s)
  else throw (.other "'ascii' codec can't encode character")

/-- `HealthSampler(...)`. -/
def HealthSampler (interval : ℚ) : M ε σ Unit :=
  if 0 < interval then pure ()
  else throw (.valueError "sampling interval must be positive and finite")

/-- `int(str(runtime.service["configured_workers"])) != 1`. -/
def require_one_worker : Option Int → M ε σ Unit
  | none => throw (.other "invalid literal for int() with base 10")
  | some n =>
    if n = 1 then pure ()
    else throw (.runtimeError "background workers require one effective API worker")

/-- The application's own lifespan is entered, where it has one. -/
def enter_business (settings : Settings) : StackM (Exc ε) (World σ) (Option Unit) :=
  if x.business_lifespan then
    StackM.within (use_service_verbose x settings.verbose)
      (StackM.enter_context (acquiring .business (business_lifespan x)))
  else pure none

/-- The manager is made, pushed and started, where there are background workers. -/
def start_background (runtime : WorkerRuntime) : StackM (Exc ε) (World σ) Unit :=
  if x.background_workers then do
    StackM.lift (require_one_worker runtime.configured_workers)
    StackM.lift (call x .journal)
    StackM.lift (modify fun w => { w with attributes.background_manager := true })
    StackM.enter_context (acquiring .manager (pushed x .manager_stop))
    StackM.lift (call x .manager_start)
  else pure ()

/-- The body of the business stack. -/
def business (runtime : WorkerRuntime) (settings : Settings) :
    StackM (Exc ε) (World σ) Unit := do
  let _ ← enter_business x settings
  start_background x runtime
  StackM.lift (call x .serve)

/-- `with use_service_verbose(logger, settings.verbose)` around the end of the business stack. -/
def leaving (settings : Settings) (unwinding : M ε σ (Option Unit)) : M ε σ (Option Unit) := do
  return (← (use_service_verbose x settings.verbose).within fun _ => unwinding).join

/-- The `try` of the lifespan. -/
def serveApplication (runtime : WorkerRuntime) (settings : Settings) : M ε σ Unit := do
  let _ ← call x .sampler_start
  modify fun w => { w with title := settings.app_name, version := settings.app_version }
  let routes ← ofResult (register_internal_routes x.compile_path settings (← get).routes)
  modify fun w => { w with routes }
  let routes ← ofResult (register_documentation x.compile_path settings (← get).routes)
  modify fun w => { w with routes }
  -- `business.__aenter__` returns the stack
  let _ ← (use_service_verbose x settings.verbose).within fun _ => pure ()
  let _ ← closing (leaving x settings) (business x runtime settings)

/-- The `finally` of the lifespan. -/
def clear (original_routes : List Route) (w : World σ) : World σ :=
  { w with
    attributes.background_manager := false
    attributes.worker_requests := none
    attributes.worker_identity := none
    routes := original_routes }

/-- From `self.worker_identity = runtime` to `self.health_sampler = HealthSampler(...)`. -/
def assign (frame : Nat) (runtime : WorkerRuntime) (settings : Settings) : M ε σ Unit := do
  modify fun w => { w with attributes.worker_identity := some runtime }
  call x .generator
  let header ← encode_ascii settings.id_header.toLower
  modify fun w => { w with
    attributes.worker_requests := some ⟨frame, runtime.worker_id, header, settings.verbose⟩ }
  HealthSampler settings.sample_interval_seconds
  modify fun w => { w with attributes.health_sampler := true }

/-- The body of the outer stack. -/
def resources (original_routes : List Route) : StackM (Exc ε) (World σ) Unit := do
  let frame ← StackM.enter_context (acquiring .frame (configuration_frame x))
  let _ ← StackM.enter_context (acquiring .binding (config_binding frame))
  let settings ← StackM.lift (call x .settings_from_frame)
  StackM.lift (call x .worker_policies)
  StackM.lift (call x .logger_config)
  let _ ← StackM.enter_context (acquiring .logger (use_logger_handler x))
  StackM.lift (call x .install)
  let _ ← StackM.enter_context (acquiring .routing (background_log_routing x.background_workers))
  let _ ← StackM.enter_context (acquiring .access suppress_server_access_logs)
  let runtime ← StackM.enter_context (acquiring .runtime (worker_runtime x))
  let control ← StackM.lift (call x .file_control)
  let _ ← StackM.enter_context (acquiring .control (use_file_control control))
  StackM.lift (call x .get_logger)
  let _ ← StackM.enter_context (acquiring .verbose (use_service_verbose x settings.val.verbose))
  StackM.lift (assign x frame runtime settings.val)
  StackM.enter_context (acquiring .sampler (pushed x .sampler_stop))
  StackM.lift <| tryFinally (serveApplication x runtime settings.val)
    (modify (clear original_routes))

/-- `self.config_path or os.environ.get("LCL_FASTAPI_CONFIG")`. -/
def configured : M ε σ Unit :=
  if x.config_path.isSome || x.environ.any (· ≠ "") then pure ()
  else throw (.runtimeError "configuration path is required; use lcl-fastapi serve")

/-- The context manager that the application is constructed with. -/
def worker_lifespan : M ε σ (Option Unit) := do
  configured x
  call x .resolve
  let w ← get
  exitStack (resources x w.routes)

end LclFastapi.Lifespan
