import Mathlib.Data.List.Basic

/-!
# Request events (`middleware/request_logging.py`, `middleware/static_logging.py`)

What `log_request_event` hands to the logger at the two boundaries of a request, and the
classification of static GET requests it depends on.

* `safe_repr`, the rendering of the native library, and the formatted duration are parameters.
* What `route.matches` finds is data of the route: a function of the scopes of the mounts around it.
-/

namespace LclFastapi.Middleware

/-! ## Exceptions and scopes -/

/-- What `isinstance` tells of an exception. -/
inductive ErrorClass where
  /-- `LclValidationError`, `LclStateError`, `LclUtilityError`. -/
  | native
  /-- Any other `Exception`. -/
  | exception
  /-- A `BaseException` that is no `Exception`, such as a cancellation. -/
  | base
  deriving DecidableEq

/-- An exception object. -/
structure Exc where
  /-- `id(error)`. -/
  id : Nat
  cls : ErrorClass
  /-- `type(error).__name__`. -/
  name : String
  code : String
  deriving DecidableEq

/-- What the framework reads of an ASGI scope, but for its state. -/
structure Scope where
  type : String
  method : String
  path : String
  client : Option (String × Int)
  deriving DecidableEq

/-! ## Static routes -/

/-- The scope that a match adds. -/
structure Child where
  /-- `isinstance(child.get("endpoint"), StaticFiles)`. -/
  static_files : Bool
  path : String

/-- What `route.matches` does. -/
inductive Matched where
  | NONE
  | PARTIAL
  | FULL (child : Child)
  | raised (e : Exc)

/-- A route, as the middleware looks at it. -/
inductive Route where
  /-- `mounts`: it is a `Mount` or a `Host`. -/
  | mk (mounts : Bool) (found : List Child → Matched) (routes : List Route)

mutual

/-- One pass of the loop of `matches_static`: the result, if the loop ends there. -/
def Route.pass : Route → List Child → Option (Except Exc Bool)
  | .mk mounts found routes, scope =>
    match found scope with
    | .FULL child =>
      if child.static_files then some (.ok true)
      else if mounts then some (matches_static routes (scope ++ [child]))
      else some (.ok false)
    | .NONE | .PARTIAL => none
    | .raised e => some (.error e)

/-- `matches_static(routes, scope)`. -/
def matches_static : List Route → List Child → Except Exc Bool
  | [], _ => .ok false
  | route :: routes, scope =>
    match route.pass scope with
    | some result => result
    | none => matches_static routes scope

end

/-- `is_static_get(router, scope)`. -/
def is_static_get (router : List Route) (scope : Scope) : Except Exc Bool :=
  if scope.method ≠ "GET" then .ok false
  else
    match matches_static router [] with
    | .error e => if e.cls = .base then .error e else .ok false
    | result => result

/-! ## Events -/

/-- `log_context.http_request_description`. -/
def http_request_description (safe_repr : String → String) (scope : Scope) : String :=
  let address :=
    match scope.client with
    | none => "unknown"
    | some (host, port) => if host.contains ':' then s!"[{host}]:{port}" else s!"{host}:{port}"
  s!"HTTP {scope.method} {safe_repr scope.path} from {safe_repr address}"

/-- A record handed to `logger.info`, with the status of the boundary it reports. -/
structure Event where
  status_code : Option Int
  message : String
  deriving DecidableEq

/-- The event of `log_request_event`; a static resource has none at its start. -/
def request_event (safe_repr : String → String) (duration_ms : String) (scope : Scope)
    (status_code : Option Int) (failure_detail : String) (static_resource : Bool) :
    Option Event :=
  let request := http_request_description safe_repr scope
  match status_code with
  | none => if static_resource then none else some ⟨none, s!"REST API Started: {request}"⟩
  | some status =>
    let message :=
      if static_resource then s!"Static Resource({status}): {request}"
      else s!"REST API Completed({status}): {request} [duration_ms={duration_ms}]"
    some ⟨some status,
      if failure_detail = "" then message else s!"{message} [{failure_detail.trimAscii}]"⟩

/-- The completion of every request has an event, which reports its status. -/
theorem request_event_completed (safe_repr : String → String) (duration_ms : String)
    (scope : Scope) (status : Int) (failure_detail : String) (static_resource : Bool) :
    ∃ message, request_event safe_repr duration_ms scope (some status) failure_detail
      static_resource = some ⟨some status, message⟩ :=
  ⟨_, rfl⟩

theorem status_of_started {safe_repr : String → String} {duration_ms : String} {scope : Scope}
    {failure_detail : String} {static_resource : Bool} {event : Event}
    (h : request_event safe_repr duration_ms scope none failure_detail static_resource =
      some event) : event.status_code = none := by
  unfold request_event at h
  split at h
  · simp only [Option.ite_none_left_eq_some, Option.some.injEq] at h
    rw [← h.2]
  · cases ‹none = some _›

end LclFastapi.Middleware
