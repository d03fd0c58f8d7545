import LclFastapi.Lib.Dict
import LclFastapi.Lib.Proc
import LclFastapi.Middleware.RequestLogging

/-!
# The request boundary (`middleware/request_context.py`)

`RequestContextMiddleware.__call__` around a downstream application, as a program with a state and
exceptions.

* `App` is everything a downstream application can do in one request: it reads and writes the
  context variables, the scope and the state mapping of the scope, it sends messages and sees
  whether the send raised, and it returns or raises. A cancellation is an exception.
* What the surroundings answer (the server's `send`, the logger, the verbose scopes of the native
  library) is `Surroundings`. A `send` and an `info` may raise, depending on all calls before.
* The state mapping of the server and the copy made by the middleware are two objects
  (`StateRef`); `scope["state"]` is one of them.
* `produced`, `sent` and `logged` are history: what the application has sent, and what the server
  and the logger have been called with, each with the context variables at that moment.

**Headline:** `request_boundary`. `unrecorded_start`: a rejected request whose start event cannot
be recorded attempts no 503.
-/

namespace LclFastapi.Middleware

open Lib (Dict)
open Lib.Proc (final attempt Keeps)

/-! ## Messages and bindings -/

/-- `bytes`. -/
abbrev Bytes := List UInt8

/-- A header: its name and its value. -/
abbrev Header := Bytes × Bytes

/-- `bytes.lower`. -/
def lower (name : Bytes) : Bytes := name.map fun c => if 65 ≤ c ∧ c ≤ 90 then c + 32 else c

/-- `str.encode("ascii")`. -/
def encode (s : String) : Bytes := s.toList.map fun c => UInt8.ofNat c.toNat

/-- An ASGI message; `fields` are its other entries. -/
inductive Message where
  /-- `http.response.start`. -/
  | start (status : Int) (headers : Option (List Header)) (fields : List (String × Bytes))
  | other (type : String) (fields : List (String × Bytes))
  deriving DecidableEq

/-- `RequestContext`. -/
structure RequestContext where
  request_id : String
  method : String
  path : String
  started_ns : Nat
  deriving DecidableEq

/-- A value of `REPORTED_HTTP_FAILURE`. -/
inductive Report where
  | reported (request_id : Option String) (error : Nat)
  | confirmed (error : Nat)
  deriving DecidableEq

/-- The context variables. A `Frame` is its identity, and so is the scope. -/
structure Vars where
  REQUEST_CONTEXT : Option RequestContext
  CONFIG_FRAME : Option Nat
  REQUEST_SCOPE : Option Nat
  FILE_VERBOSE_CONTEXT : Option Bool
  REPORTED_HTTP_FAILURE : Option Report

/-- A value of a state mapping: a string, or some other object. -/
inductive Value where
  | text (s : String)
  | object (id : Nat)
  deriving DecidableEq

/-- A Python mapping. -/
abbrev Mapping := Dict String Value

/-- The mapping that `scope["state"]` is. -/
inductive StateRef where
  | server
  | own

/-! ## Applications -/

/-- What an application can read and write. -/
structure View where
  vars : Vars
  scope : Scope
  state : Mapping

/-- A downstream application in one request. -/
inductive App where
  | act (f : View → View) (next : View → App)
  /-- `await send(message)`, and what follows when it returns or raises. -/
  | send (message : Message) (next : Option Exc → App)
  | ret
  | raise (e : Exc)

/-- An application that sends some messages. -/
def App.respond : List Message → App
  | [] => .ret
  | message :: messages =>
    .send message fun
      | none => respond messages
      | some e => .raise e

/-- `RequestRuntime`. -/
structure RequestRuntime where
  frame : Nat
  /-- What `generator.next_id()` does. -/
  next_id : Except Exc Nat
  header : Bytes
  verbose : Bool
  header_lower : lower header = header

/-- `RequestContextMiddleware`. -/
structure RequestContextMiddleware where
  app : App
  /-- `self.runtime()`. -/
  runtime : Except Exc RequestRuntime
  /-- `self.router.routes`. -/
  router : List Route

/-- What the code outside does when it is called. -/
structure Surroundings where
  /-- What the server's `send` raises, after the messages before. -/
  send : List Message → Message → Option Exc
  /-- What `logger.info` raises, after the events before. -/
  info : List Event → Event → Option Exc
  /-- The identity of the scope. -/
  scope : Nat
  started_ns : Nat
  /-- `f"{duration_ms:.3f}"` at the completion. -/
  duration_ms : String
  safe_repr : String → String
  /-- `current_file_control().snapshot().enabled`, if there is a control. -/
  file_enabled : Option Bool
  /-- What `current_runtime()`, and the start and the end of `use_verbose`, raise. -/
  current_runtime : Option Exc
  use_verbose : Option Exc
  end_verbose : Option Exc
  /-- The headers and the body of a `JSONResponse` with this detail. -/
  raw_headers : String → List Header
  body : String → Bytes

/-! ## States -/

/-- The state of a request, with its history. -/
structure World where
  vars : Vars
  scope : Scope
  state_ref : Option StateRef
  server_state : Mapping
  own_state : Mapping
  status_code : Int
  failure_detail : String
  static_resource : Bool
  produced : List Message
  sent : List (Message × Vars)
  logged : List (Event × Vars)

/-- Programs of a request. -/
abbrev Proc := EStateM Exc World

namespace World

/-- `scope.get("state", {})`. -/
def state (w : World) : Mapping :=
  match w.state_ref with
  | none => Dict.empty
  | some .server => w.server_state
  | some .own => w.own_state

/-- The mapping that `scope["state"]` is gets new contents. -/
def setState (w : World) (state : Mapping) : World :=
  match w.state_ref with
  | none => w
  | some .server => { w with server_state := state }
  | some .own => { w with own_state := state }

/-- What the application sees. -/
def view (w : World) : View := ⟨w.vars, w.scope, w.state⟩

/-- The application has changed it. -/
def setView (w : World) (v : View) : World :=
  { w with vars := v.vars, scope := v.scope }.setState v.state

/-- `scope["state"] = dict(scope.get("state", {}))`. -/
def copyState (w : World) : World := { w with own_state := w.state, state_ref := some .own }

end World

/-! ## The program -/

/-- An exception, if there is one. -/
def raise? : Option Exc → Proc Unit
  | none => pure ()
  | some e => throw e

variable (x : Surroundings)

/-- The server's `send`. -/
def send (message : Message) : Proc Unit := do
  let w ← get
  set { w with sent := w.sent ++ [(message, w.vars)] }
  raise? (x.send (w.sent.map Prod.fst) message)

/-- `runtime.logger.info`. -/
def info (event : Event) : Proc Unit := do
  let w ← get
  set { w with logged := w.logged ++ [(event, w.vars)] }
  raise? (x.info (w.logged.map Prod.fst) event)

/-- `log_request_event(...)`. -/
def log_request_event (status_code : Option Int) (failure_detail : String)
    (static_resource : Bool) : Proc Unit := do
  let w ← get
  match request_event x.safe_repr x.duration_ms w.scope status_code failure_detail
    static_resource with
  | none => pure ()
  | some event => info x event

/-- `await self.app(scope, receive, send)`. -/
def serve (send : Message → Proc Unit) : App → Proc Unit
  | .act f next => do
    let w ← get
    set (w.setView (f w.view))
    serve send (next (f w.view))
  | .send message next => do
    let raised ← attempt (send message)
    serve send (next raised)
  | .ret => pure ()
  | .raise e => throw e

/-- `JSONResponse({"detail": detail}, status_code=status)`. -/
def JSONResponse (detail : String) (status_code : Int) : App :=
  .respond [.start status_code (some (x.raw_headers detail)) [],
    .other "http.response.body" [("body", x.body detail)]]

/-- `send_response`. -/
def send_response (runtime : RequestRuntime) (context : RequestContext) (message : Message) :
    Proc Unit := do
  modify fun w => { w with produced := w.produced ++ [message] }
  match message with
  | .start status headers fields =>
    modify fun w => { w with status_code := status }
    let headers := (headers.getD []).filter fun h => lower h.1 ≠ runtime.header
    send x (.start status (some (headers ++ [(runtime.header, encode context.request_id)])) fields)
  | message => send x message

/-- `with use_service_verbose(runtime.logger, cli_verbose)`. -/
def use_service_verbose (cli_verbose : Bool) (body : Proc Unit) : Proc Unit := do
  let w ← get
  raise? x.current_runtime
  modify fun w => { w with
    vars.FILE_VERBOSE_CONTEXT := some (x.file_enabled.getD cli_verbose) }
  try
    raise? x.use_verbose
    try body
    finally raise? x.end_verbose
  finally
    modify fun w' => { w' with vars.FILE_VERBOSE_CONTEXT := w.vars.FILE_VERBOSE_CONTEXT }

namespace RequestContextMiddleware

variable (m : RequestContextMiddleware)

/-- The statements before the `try`. -/
def bind (runtime : RequestRuntime) (w : World) : World :=
  let w := { w with vars := { w.vars with
    REPORTED_HTTP_FAILURE := none
    REQUEST_CONTEXT := none
    CONFIG_FRAME := some runtime.frame
    REQUEST_SCOPE := some x.scope } }
  let w := w.copyState
  let w := w.setState (w.state.erase "request_id")
  { w with status_code := 500, failure_detail := "", static_resource := false }

/-- The body of the `try`. -/
def handle (runtime : RequestRuntime) : Proc Unit := do
  let w ← get
  match is_static_get m.router w.scope with
  | .error e => throw e
  | .ok static_resource =>
    modify fun w => { w with static_resource := static_resource }
    match runtime.next_id with
    | .error error =>
      if error.cls = .native then
        modify fun w => { w with
          status_code := 503
          failure_detail :=
            s!"id_generation_error={error.name} id_generation_code={error.code} " }
        log_request_event x none "" static_resource
        serve (send x) (JSONResponse x "Request ID generation unavailable" 503)
      else throw error
    | .ok id =>
      let request_id := toString id
      let context : RequestContext := ⟨request_id, w.scope.method, w.scope.path, x.started_ns⟩
      modify fun w => { w with vars.REQUEST_CONTEXT := some context }
      modify fun w => w.setState (w.state.set "request_id" (.text request_id))
      log_request_event x none "" static_resource
      use_service_verbose x runtime.verbose (serve (send_response x runtime context) m.app)

/-- `except BaseException as error`. -/
def report (error : Exc) : Proc Unit := do
  modify fun w =>
    let expected :=
      Report.reported (w.vars.REQUEST_CONTEXT.map RequestContext.request_id) error.id
    let reported := w.vars.REPORTED_HTTP_FAILURE = some expected
    { w with
      vars.REPORTED_HTTP_FAILURE := if reported then some (.confirmed error.id) else none }
  throw error

/-- The resets at the end. -/
def reset (tokens : Vars) (w : World) : World :=
  { w with vars := { w.vars with
    CONFIG_FRAME := tokens.CONFIG_FRAME
    REQUEST_CONTEXT := tokens.REQUEST_CONTEXT
    REQUEST_SCOPE := tokens.REQUEST_SCOPE } }

/-- `RequestContextMiddleware.__call__`. -/
def call : Proc Unit := do
  let entry ← get
  if entry.scope.type ≠ "http" then serve (send x) m.app
  else
    match m.runtime with
    | .error e => throw e
    | .ok runtime =>
      modify (bind x runtime)
      try m.handle x runtime
      catch error => report error
      finally
        try
          let w ← get
          log_request_event x (some w.status_code) w.failure_detail w.static_resource
        finally modify (reset entry.vars)

end RequestContextMiddleware

/-! ## Single calls -/

variable {x : Surroundings} {w : World}

@[simp] theorem final_raise? (o : Option Exc) : final (raise? o) w = w := by
  cases o <;> rfl

/-- A call of the server is attempted, whether it raises or not. -/
theorem final_send (message : Message) :
    final (send x message) w = { w with sent := w.sent ++ [(message, w.vars)] } :=
  final_raise? _

theorem final_info (event : Event) :
    final (info x event) w = { w with logged := w.logged ++ [(event, w.vars)] } :=
  final_raise? _

/-- What the server is given for a message of the application. -/
def forward (runtime : RequestRuntime) (context : RequestContext) : Message → Message
  | .start status headers fields =>
    .start status
      (some (((headers.getD []).filter fun h => lower h.1 ≠ runtime.header) ++
        [(runtime.header, encode context.request_id)])) fields
  | message => message

/-- The status that a message starts a response with. -/
def Message.status? : Message → Option Int
  | .start status _ _ => some status
  | .other _ _ => none

theorem final_send_response (runtime : RequestRuntime) (context : RequestContext)
    (message : Message) :
    final (send_response x runtime context message) w =
      { w with
        produced := w.produced ++ [message]
        status_code := message.status?.getD w.status_code
        sent := w.sent ++ [(forward runtime context message, w.vars)] } := by
  cases message with
  | start status headers fields => exact final_send _
  | other type fields => exact final_send _

theorem final_log {status_code : Option Int} {failure_detail : String} {static_resource : Bool}
    {event : Event}
    (h : request_event x.safe_repr x.duration_ms w.scope status_code failure_detail
      static_resource = some event) :
    final (log_request_event x status_code failure_detail static_resource) w =
      { w with logged := w.logged ++ [(event, w.vars)] } := by
  unfold log_request_event
  rw [Lib.Proc.final_get_bind, h]
  exact final_info event

/-! ## Invariants of the body -/

variable {I : World → Prop}

/-- An application keeps what its own actions and its messages keep. -/
theorem serve_keeps {send : Message → Proc Unit} (hact : ∀ w v, I w → I (w.setView v))
    (hsend : ∀ message, Keeps I (send message)) (app : App) : Keeps I (serve send app) := by
  induction app with
  | act f next ih => exact .get_bind fun w h => ih (f w.view) _ (hact w _ h)
  | send message next ih => exact .bind (.attempt (hsend message)) ih
  | ret => exact .pure
  | raise e => exact .throw

/-- A list of messages is sent without any other action. -/
theorem respond_keeps {send : Message → Proc Unit} (hsend : ∀ message, Keeps I (send message))
    (messages : List Message) : Keeps I (serve send (.respond messages)) := by
  induction messages with
  | nil => exact .pure
  | cons message messages ih =>
    refine .bind (.attempt (hsend message)) fun raised => ?_
    cases raised with
    | none => exact ih
    | some e => exact .throw

/-- The start event, if any, is the only event. -/
theorem log_start_keeps (static_resource : Bool)
    (h : ∀ w event, event.status_code = none → I w →
      I { w with logged := w.logged ++ [(event, w.vars)] }) :
    Keeps I (log_request_event x none "" static_resource) := by
  intro w hI
  cases hevent : request_event x.safe_repr x.duration_ms w.scope none "" static_resource with
  | none =>
    unfold log_request_event
    rw [Lib.Proc.final_get_bind, hevent]
    exact hI
  | some event =>
    rw [final_log hevent]
    exact h w event (status_of_started hevent) hI

theorem use_service_verbose_keeps {body : Proc Unit} (cli_verbose : Bool)
    (hvars : ∀ (w : World) value, I w → I { w with vars.FILE_VERBOSE_CONTEXT := value })
    (hbody : Keeps I body) : Keeps I (use_service_verbose x cli_verbose body) := by
  have hraise (o : Option Exc) : Keeps I (raise? o) := fun w h => by rwa [final_raise?]
  refine .get_bind fun w => ?_
  refine Keeps.bind (hraise _) (fun _ => .bind (.modify fun w h => hvars w _ h) fun _ => ?_) w
  exact .tryFinally (.bind (hraise _) fun _ => .tryFinally hbody (hraise _))
    (.modify fun w' h => hvars w' _ h)

/-! ## A request that is served -/

/-- The last status of the response starts among some messages. -/
def lastStatus (messages : List Message) : Option Int :=
  (messages.filterMap Message.status?).getLast?

theorem lastStatus_append (messages : List Message) (message : Message) :
    lastStatus (messages ++ [message]) = message.status?.or (lastStatus messages) := by
  unfold lastStatus
  rw [List.filterMap_append, List.getLast?_append]
  cases h : message.status? <;> simp [h]

theorem setView_own (h : w.state_ref = some .own) (v : View) :
    w.setView v = { w with vars := v.vars, scope := v.scope, own_state := v.state } := by
  unfold World.setView World.setState
  simp only [h]

variable {server_state : Mapping} {runtime : RequestRuntime} {context : RequestContext}

/-- What the server is to be given for a message of the application. A response start has one
header of the configured name, with the identity; all else is unchanged. -/
def Forwarded (header id : Bytes) (message message' : Message) : Prop :=
  match message with
  | .start status headers fields =>
    ∃ headers', message' = .start status (some headers') fields ∧
      headers'.filter (fun h => lower h.1 = header) = [(header, id)] ∧
      headers'.filter (fun h => lower h.1 ≠ header) =
        (headers.getD []).filter fun h => lower h.1 ≠ header
  | message => message' = message

theorem forwarded_forward (message : Message) :
    Forwarded runtime.header (encode context.request_id) message
      (forward runtime context message) := by
  cases message with
  | start status headers fields =>
    refine ⟨_, rfl, ?_, ?_⟩
    · simp [List.filter_append, runtime.header_lower]
    · simp [List.filter_append, runtime.header_lower]
  | other type fields => rfl

/-- No start event reports a status, and the mapping of the server is not written. -/
structure Running (server_state : Mapping) (w : World) : Prop where
  server : w.server_state = server_state
  own : w.state_ref = some .own
  started : ∀ p ∈ w.logged, p.1.status_code = none

/-- The completion is the only event with a status. -/
theorem Running.statuses (h : Running server_state w) (status : Int) (message : String)
    (vars : Vars) :
    (w.logged ++ [((⟨some status, message⟩ : Event), vars)]).filterMap
      (fun p => p.1.status_code) = [status] := by
  have hnil : w.logged.filterMap (fun p => p.1.status_code) = [] :=
    List.filterMap_eq_nil_iff.mpr h.started
  rw [List.filterMap_append, hnil]
  rfl

/-- What holds in the body of the `try` under an identity. -/
structure Serving (runtime : RequestRuntime) (context : RequestContext) (server_state : Mapping)
    (w : World) : Prop extends Running server_state w where
  sent : w.sent.map Prod.fst = w.produced.map (forward runtime context)
  status : w.status_code = (lastStatus w.produced).getD 500

theorem Running.setView (h : Running server_state w) (v : View) :
    Running server_state (w.setView v) := by
  rw [setView_own h.own]
  exact ⟨h.server, h.own, h.started⟩

theorem Running.logged (h : Running server_state w) {event : Event}
    (hevent : event.status_code = none) :
    Running server_state { w with logged := w.logged ++ [(event, w.vars)] } where
  server := h.server
  own := h.own
  started := by
    rw [List.forall_mem_append]
    exact ⟨h.started, List.forall_mem_singleton.mpr hevent⟩

theorem Serving.setView (h : Serving runtime context server_state w) (v : View) :
    Serving runtime context server_state (w.setView v) := by
  have hrunning := h.toRunning.setView v
  rw [setView_own h.own] at hrunning ⊢
  exact ⟨hrunning, h.sent, h.status⟩

theorem Serving.reported {value : Option Report}
    (h : Serving runtime context server_state w) :
    Serving runtime context server_state { w with vars.REPORTED_HTTP_FAILURE := value } :=
  ⟨⟨h.server, h.own, h.started⟩, h.sent, h.status⟩

theorem send_response_keeps (message : Message) :
    Keeps (Serving runtime context server_state) (send_response x runtime context message) := by
  intro w h
  rw [final_send_response]
  refine ⟨⟨h.server, h.own, h.started⟩, ?_, ?_⟩
  · simp only [List.map_append, h.sent, List.map_cons, List.map_nil]
  · simp only [lastStatus_append, h.status]
    cases message.status? <;> rfl

/-- The rest of the body, once the identity is bound. -/
theorem serving_keeps (m : RequestContextMiddleware) (static_resource : Bool) :
    Keeps (Serving runtime context server_state) (do
      log_request_event x none "" static_resource
      use_service_verbose x runtime.verbose (serve (send_response x runtime context) m.app)) := by
  refine .bind (log_start_keeps static_resource fun w event hevent h =>
    ⟨h.toRunning.logged hevent, h.sent, h.status⟩) fun _ => ?_
  refine use_service_verbose_keeps _ (fun w value h =>
    ⟨⟨h.server, h.own, h.started⟩, h.sent, h.status⟩) ?_
  exact serve_keeps (fun w v h => h.setView v) send_response_keeps m.app

/-! ## A request that is rejected -/

/-- What holds in the body after the generator has failed. -/
structure Rejecting (server_state : Mapping) (w : World) : Prop extends Running server_state w where
  logged_unbound : ∀ p ∈ w.logged, p.2.REQUEST_CONTEXT = none
  sent_unbound : ∀ p ∈ w.sent, p.2.REQUEST_CONTEXT = none
  unbound : w.vars.REQUEST_CONTEXT = none
  state : w.own_state.get? "request_id" = none
  status : w.status_code = 503
  produced : w.produced = []

theorem Rejecting.reported {value : Option Report} (h : Rejecting server_state w) :
    Rejecting server_state { w with vars.REPORTED_HTTP_FAILURE := value } :=
  ⟨⟨h.server, h.own, h.started⟩, h.logged_unbound, h.sent_unbound, h.unbound, h.state, h.status,
    h.produced⟩

theorem send_keeps_rejecting (message : Message) :
    Keeps (Rejecting server_state) (send x message) := by
  intro w h
  rw [final_send]
  refine { h with sent_unbound := ?_ }
  rw [List.forall_mem_append]
  exact ⟨h.sent_unbound, List.forall_mem_singleton.mpr h.unbound⟩

theorem rejecting_keeps (static_resource : Bool) (messages : List Message) :
    Keeps (Rejecting server_state) (do
      log_request_event x none "" static_resource
      serve (send x) (.respond messages)) := by
  refine .bind (log_start_keeps static_resource fun w event hevent h => ?_) fun _ =>
    respond_keeps send_keeps_rejecting messages
  refine { h with toRunning := h.toRunning.logged hevent, logged_unbound := ?_ }
  rw [List.forall_mem_append]
  exact ⟨h.logged_unbound, List.forall_mem_singleton.mpr h.unbound⟩

/-- The first message is attempted, and stays the first. -/
theorem respond_attempts (message : Message) (messages : List Message) (h : w.sent = []) :
    (final (serve (send x) (.respond (message :: messages))) w).sent.head?.map Prod.fst =
      some message := by
  let I (w : World) : Prop := w.sent.head?.map Prod.fst = some message
  have hsend (message' : Message) : Keeps I (send x message') := by
    intro w hw
    obtain ⟨p, hp, hmessage⟩ := Option.map_eq_some_iff.mp hw
    rw [final_send]
    show (w.sent ++ _).head?.map Prod.fst = _
    rw [List.head?_append, hp]
    exact congrArg some hmessage
  have hfirst : I (final (attempt (send x message)) w) := by
    rw [Lib.Proc.final_attempt, final_send]
    show (w.sent ++ _).head?.map Prod.fst = _
    rw [h]
    rfl
  refine Keeps.after (I := I) hfirst fun raised => ?_
  cases raised with
  | none => exact respond_keeps hsend messages
  | some e => exact .throw

/-! ## The whole request -/

/-- A request that arrives with these context variables, scope and state, if any. -/
def World.enter (vars : Vars) (scope : Scope) (state : Option Mapping) : World where
  vars := vars
  scope := scope
  state_ref := state.map fun _ => .server
  server_state := state.getD Dict.empty
  own_state := Dict.empty
  status_code := 0
  failure_detail := ""
  static_resource := false
  produced := []
  sent := []
  logged := []

namespace RequestContextMiddleware

variable (m : RequestContextMiddleware) (x : Surroundings)

/-- How a request ends. -/
def served (vars : Vars) (scope : Scope) (state : Option Mapping) : World :=
  final (m.call x) (.enter vars scope state)

/-- The classification of a request and the outcome of the generator, if it is asked. -/
def allocation (runtime : RequestRuntime) (scope : Scope) : Option (Bool × Except Exc Nat) :=
  match is_static_get m.router scope with
  | .ok static_resource => some (static_resource, runtime.next_id)
  | .error _ => none

/-- The generator is asked, and fails with a native error. -/
def rejects (runtime : RequestRuntime) (scope : Scope) : Bool :=
  match m.allocation runtime scope with
  | some (_, .error e) => e.cls = .native
  | _ => false

/-- The start event, if the request has one, is recorded without an error. -/
def start_recorded (scope : Scope) (static_resource : Bool) : Prop :=
  ∀ event, request_event x.safe_repr x.duration_ms scope none "" static_resource = some event →
    x.info [] event = none

/-- The state at the `finally`. -/
def ended (runtime : RequestRuntime) (w : World) : World :=
  final (tryCatch (m.handle x runtime) report) (bind x runtime w)

variable {m x}

theorem final_call (hhttp : w.scope.type = "http") (hruntime : m.runtime = .ok runtime) :
    final (m.call x) w = reset w.vars (final (do
      let w ← get
      log_request_event x (some w.status_code) w.failure_detail w.static_resource)
      (m.ended x runtime w)) := by
  unfold call
  rw [Lib.Proc.final_get_bind, if_neg (not_not_intro hhttp), hruntime]
  simp only [Lib.Proc.final_modify_bind, Lib.Proc.final_tryFinally, Lib.Proc.final_modify]
  rfl

/-- One completion event is attempted. -/
theorem final_completion (w : World) :
    ∃ message, final (do
      let w ← get
      log_request_event x (some w.status_code) w.failure_detail w.static_resource) w =
        { w with logged := w.logged ++ [(⟨some w.status_code, message⟩, w.vars)] } := by
  obtain ⟨message, hmessage⟩ := request_event_completed x.safe_repr x.duration_ms w.scope
    w.status_code w.failure_detail w.static_resource
  exact ⟨message, final_log hmessage⟩

/-- What the body brings about is there at the `finally`. -/
theorem ended_of {I : World → Prop}
    (hvars : ∀ (w : World) value, I w → I { w with vars.REPORTED_HTTP_FAILURE := value })
    (h : I (final (m.handle x runtime) (bind x runtime w))) : I (m.ended x runtime w) :=
  Keeps.handled h fun _ => .bind (.modify fun w h => hvars w _ h) fun _ => .throw

section Handle

variable {static_resource : Bool} {id : Nat} {e : Exc}

theorem handle_unclassified (h : is_static_get m.router w.scope = .error e) :
    final (m.handle x runtime) w = w := by
  unfold handle
  rw [Lib.Proc.final_get_bind, h]
  rfl

theorem handle_rejected (h : is_static_get m.router w.scope = .ok static_resource)
    (hid : runtime.next_id = .error e) (he : e.cls = .native) :
    m.handle x runtime w =
      (do
        log_request_event x none "" static_resource
        serve (send x) (JSONResponse x "Request ID generation unavailable" 503) : Proc Unit)
        { w with
          static_resource := static_resource
          status_code := 503
          failure_detail := s!"id_generation_error={e.name} id_generation_code={e.code} " } := by
  unfold handle
  rw [Lib.Proc.get_bind_apply, h]
  simp only [Lib.Proc.modify_bind_apply, hid, if_pos he]

theorem handle_failed (h : is_static_get m.router w.scope = .ok static_resource)
    (hid : runtime.next_id = .error e) (he : e.cls ≠ .native) :
    final (m.handle x runtime) w = { w with static_resource := static_resource } := by
  unfold handle
  rw [Lib.Proc.final_get_bind, h]
  simp only [Lib.Proc.final_modify_bind, hid, if_neg he, Lib.Proc.final_throw]

theorem handle_allocated (h : is_static_get m.router w.scope = .ok static_resource)
    (hid : runtime.next_id = .ok id) (hown : w.state_ref = some .own) :
    ∃ context : RequestContext, context.request_id = toString id ∧
      final (m.handle x runtime) w =
        final (do
          log_request_event x none "" static_resource
          use_service_verbose x runtime.verbose (serve (send_response x runtime context) m.app))
          { w with
            static_resource := static_resource
            vars.REQUEST_CONTEXT := some context
            own_state := w.own_state.set "request_id" (.text (toString id)) } := by
  refine ⟨⟨toString id, w.scope.method, w.scope.path, x.started_ns⟩, rfl, ?_⟩
  unfold handle
  rw [Lib.Proc.final_get_bind, h]
  simp only [Lib.Proc.final_modify_bind, hid, World.setState, World.state, hown]

end Handle

variable {vars : Vars} {scope : Scope} {state : Option Mapping}

variable (runtime x vars scope state) in
theorem bind_serving (context : RequestContext) :
    Serving runtime context (state.getD Dict.empty) (bind x runtime (.enter vars scope state)) where
  server := rfl
  own := rfl
  started := List.forall_mem_nil _
  sent := rfl
  status := rfl

variable (x vars state)

/-- A request that is not rejected. -/
theorem handle_serving (h : m.rejects runtime scope = false) :
    ∃ context, (∀ static_resource id,
        m.allocation runtime scope = some (static_resource, .ok id) →
          context.request_id = toString id) ∧
      Serving runtime context (state.getD Dict.empty)
        (final (m.handle x runtime) (bind x runtime (.enter vars scope state))) := by
  have hstart := bind_serving runtime x vars scope state
  cases hstatic : is_static_get m.router scope with
  | error e =>
    refine ⟨⟨"", "", "", 0⟩, ?_, ?_⟩
    · simp [allocation, hstatic]
    · rw [handle_unclassified hstatic]
      exact hstart _
  | ok static_resource =>
    cases hid : runtime.next_id with
    | error e =>
      have he : e.cls ≠ .native := by simpa [rejects, allocation, hstatic, hid] using h
      refine ⟨⟨"", "", "", 0⟩, ?_, ?_⟩
      · simp [allocation, hstatic, hid]
      · rw [handle_failed hstatic hid he]
        obtain ⟨⟨hserver, hown, hstarted⟩, hsent, hstatus⟩ := hstart ⟨"", "", "", 0⟩
        exact ⟨⟨hserver, hown, hstarted⟩, hsent, hstatus⟩
    | ok id =>
      obtain ⟨context, hcontext, hhandle⟩ := handle_allocated (x := x)
        (w := bind x runtime (.enter vars scope state)) hstatic hid rfl
      refine ⟨context, ?_, ?_⟩
      · simp only [allocation, hstatic, hid, Option.some.injEq, Prod.mk.injEq, Except.ok.injEq]
        rintro _ _ ⟨-, rfl⟩
        exact hcontext
      · rw [hhandle]
        obtain ⟨⟨hserver, hown, hstarted⟩, hsent, hstatus⟩ := hstart context
        exact serving_keeps m static_resource _ ⟨⟨hserver, hown, hstarted⟩, hsent, hstatus⟩

variable {static_resource : Bool} {e : Exc}

variable (static_resource) in
/-- The start event is attempted; the body goes on if it was recorded. -/
theorem log_start (hlogged : w.logged = []) :
    (start_recorded x w.scope static_resource →
      ∃ w', log_request_event x none "" static_resource w = .ok () w' ∧ w'.sent = w.sent) ∧
    (¬ start_recorded x w.scope static_resource →
      ∃ e w', log_request_event x none "" static_resource w = .error e w' ∧
        w'.sent = w.sent) := by
  have hlog : log_request_event x none "" static_resource w =
      (match request_event x.safe_repr x.duration_ms w.scope none "" static_resource with
      | none => (pure () : Proc Unit)
      | some event => info x event) w := rfl
  have hinfo (event : Event) : info x event w =
      raise? (x.info [] event) { w with logged := w.logged ++ [(event, w.vars)] } := by
    show raise? (x.info (w.logged.map Prod.fst) event) _ = _
    rw [hlogged]
    rfl
  rw [hlog]
  unfold start_recorded
  cases request_event x.safe_repr x.duration_ms w.scope none "" static_resource with
  | none => exact ⟨fun _ => ⟨w, rfl, rfl⟩, fun h => absurd nofun h⟩
  | some event =>
    simp only [Option.some.injEq, forall_eq', hinfo]
    constructor
    · intro h
      rw [h]
      exact ⟨_, rfl, rfl⟩
    · intro h
      obtain ⟨e, he⟩ := Option.ne_none_iff_exists'.mp h
      rw [he]
      exact ⟨e, _, rfl, rfl⟩

theorem allocation_eq {outcome : Except Exc Nat}
    (h : m.allocation runtime scope = some (static_resource, outcome)) :
    is_static_get m.router scope = .ok static_resource ∧ runtime.next_id = outcome := by
  unfold allocation at h
  split at h
  · rename_i hstatic
    obtain ⟨rfl, hid⟩ := Prod.mk.inj (Option.some.inj h)
    exact ⟨hstatic, hid⟩
  · cases h

/-- The messages of a request that is rejected: a 503 first, if its start has been recorded. -/
def Refusal (x : Surroundings) (scope : Scope) (static_resource : Bool)
    (sent : List (Message × Vars)) : Prop :=
  (start_recorded x scope static_resource → sent.head?.map Prod.fst =
    some (.start 503 (some (x.raw_headers "Request ID generation unavailable")) [])) ∧
  (¬ start_recorded x scope static_resource → sent = [])

/-- A request that is rejected. -/
theorem handle_rejecting
    (h : m.allocation runtime scope = some (static_resource, .error e)) (he : e.cls = .native) :
    ∃ w', final (m.handle x runtime) (bind x runtime (.enter vars scope state)) = w' ∧
      Rejecting (state.getD Dict.empty) w' ∧ Refusal x scope static_resource w'.sent := by
  obtain ⟨hstatic, hid⟩ := allocation_eq h
  have hhandle := handle_rejected (x := x) (w := bind x runtime (.enter vars scope state))
    hstatic hid he
  refine ⟨_, rfl, ?_⟩
  rw [Lib.Proc.final_congr hhandle]
  generalize hw : ({ bind x runtime (World.enter vars scope state) with
    static_resource := static_resource
    status_code := 503
    failure_detail := _ } : World) = w
  have hrejecting : Rejecting (state.getD Dict.empty) w := by
    rw [← hw]
    refine ⟨⟨rfl, rfl, List.forall_mem_nil _⟩, List.forall_mem_nil _, List.forall_mem_nil _, rfl,
      ?_, rfl, rfl⟩
    show (Dict.erase _ "request_id").get? "request_id" = none
    rw [Dict.get?_erase, if_pos rfl]
  have hscope : w.scope = scope := by rw [← hw]; rfl
  have hsent : w.sent = [] := by rw [← hw]; rfl
  have hlogged : w.logged = [] := by rw [← hw]; rfl
  obtain ⟨hok, herror⟩ := log_start x static_resource hlogged
  rw [hscope] at hok herror
  refine ⟨rejecting_keeps static_resource _ w hrejecting, fun h => ?_, fun h => ?_⟩
  · obtain ⟨w', hlog, hsent'⟩ := hok h
    rw [Lib.Proc.final_bind_ok _ hlog]
    exact respond_attempts _ _ (hsent'.trans hsent)
  · obtain ⟨e, w', hlog, hsent'⟩ := herror h
    rw [Lib.Proc.final_bind_error _ hlog]
    exact hsent'.trans hsent

/-- A request that is rejected does not reach the application. -/
theorem served_app (hhttp : scope.type = "http") (hruntime : m.runtime = .ok runtime)
    (h : m.allocation runtime scope = some (static_resource, .error e)) (he : e.cls = .native)
    (app : App) :
    { m with app := app }.served x vars scope state = m.served x vars scope state := by
  obtain ⟨hstatic, hid⟩ := allocation_eq h
  have hhandle : { m with app := app }.handle x runtime
      (bind x runtime (.enter vars scope state)) =
        m.handle x runtime (bind x runtime (.enter vars scope state)) := by
    rw [handle_rejected hstatic hid he, handle_rejected hstatic hid he]
  have hended : { m with app := app }.ended x runtime (.enter vars scope state) =
      m.ended x runtime (.enter vars scope state) :=
    Lib.Proc.final_tryCatch_congr hhandle
  have hcall := final_call (x := x) (m := m) (w := .enter vars scope state) hhttp hruntime
  have hcall' := final_call (x := x) (m := { m with app := app }) (w := .enter vars scope state)
    hhttp hruntime
  unfold served
  rw [hcall, hcall', hended]

/-- What `__call__` does after the body. -/
theorem served_eq (hhttp : scope.type = "http") (hruntime : m.runtime = .ok runtime) :
    ∃ message, m.served x vars scope state = reset vars
      { m.ended x runtime (.enter vars scope state) with
        logged := (m.ended x runtime (.enter vars scope state)).logged ++
          [(⟨some (m.ended x runtime (.enter vars scope state)).status_code, message⟩,
            (m.ended x runtime (.enter vars scope state)).vars)] } := by
  obtain ⟨message, hmessage⟩ := final_completion (x := x)
    (m.ended x runtime (.enter vars scope state))
  refine ⟨message, ?_⟩
  rw [← hmessage]
  exact final_call (w := .enter vars scope state) hhttp hruntime

theorem served_of_error (hhttp : scope.type = "http") (hruntime : m.runtime = .error e) :
    m.served x vars scope state = .enter vars scope state := by
  have hentry : ¬ (World.enter vars scope state).scope.type ≠ "http" := not_not_intro hhttp
  unfold served call
  rw [Lib.Proc.final_get_bind, if_neg hentry, hruntime]
  rfl

theorem rejects_iff : m.rejects runtime scope = true ↔
    ∃ static_resource e, m.allocation runtime scope = some (static_resource, .error e) ∧
      e.cls = .native := by
  unfold rejects
  constructor
  · intro h
    split at h
    · exact ⟨_, _, ‹_›, of_decide_eq_true h⟩
    · cases h
  · rintro ⟨static_resource, e, h, he⟩
    rw [h]
    exact decide_eq_true he

theorem ended_serving (h : m.rejects runtime scope = false) :
    ∃ context, (∀ static_resource id,
        m.allocation runtime scope = some (static_resource, .ok id) →
          context.request_id = toString id) ∧
      Serving runtime context (state.getD Dict.empty)
        (m.ended x runtime (.enter vars scope state)) := by
  obtain ⟨context, hcontext, hhandle⟩ := handle_serving x vars state h
  exact ⟨context, hcontext, ended_of (fun w value h => h.reported) hhandle⟩

theorem ended_rejecting (h : m.allocation runtime scope = some (static_resource, .error e))
    (he : e.cls = .native) :
    ∃ w', m.ended x runtime (.enter vars scope state) = w' ∧
      Rejecting (state.getD Dict.empty) w' ∧ Refusal x scope static_resource w'.sent := by
  obtain ⟨w', hhandle, hrejecting, hrefusal⟩ := handle_rejecting x vars state h he
  obtain ⟨hend, hsent⟩ :=
    ended_of (I := fun w => Rejecting (state.getD Dict.empty) w ∧ w.sent = w'.sent)
      (fun w value h => ⟨h.1.reported, h.2⟩) (by rw [hhandle]; exact ⟨hrejecting, rfl⟩)
  refine ⟨_, rfl, hend, ?_⟩
  rw [hsent]
  exact hrefusal

theorem ended_running :
    Running (state.getD Dict.empty) (m.ended x runtime (.enter vars scope state)) := by
  cases hrejects : m.rejects runtime scope with
  | false =>
    obtain ⟨context, -, hserving⟩ := ended_serving x vars state hrejects
    exact hserving.toRunning
  | true =>
    obtain ⟨static_resource, e, h, he⟩ := rejects_iff.mp hrejects
    obtain ⟨w', hended, hrejecting, -⟩ := ended_rejecting x vars state h he
    exact hended ▸ hrejecting.toRunning

/-! ### The parts of the boundary -/

section Parts

variable (hhttp : scope.type = "http")
include hhttp

theorem served_restores :
    ((m.served x vars scope state).vars.REQUEST_CONTEXT = vars.REQUEST_CONTEXT ∧
        (m.served x vars scope state).vars.CONFIG_FRAME = vars.CONFIG_FRAME ∧
        (m.served x vars scope state).vars.REQUEST_SCOPE = vars.REQUEST_SCOPE) ∧
      (m.served x vars scope state).server_state = state.getD Dict.empty := by
  cases hruntime : m.runtime with
  | error e =>
    rw [served_of_error x vars state hhttp hruntime]
    exact ⟨⟨rfl, rfl, rfl⟩, rfl⟩
  | ok runtime =>
    obtain ⟨message, hserved⟩ := served_eq x vars state hhttp hruntime
    rw [hserved]
    exact ⟨⟨rfl, rfl, rfl⟩, (ended_running x vars state).server⟩

theorem served_forwards {id : Nat} (hruntime : m.runtime = .ok runtime)
    (h : m.allocation runtime scope = some (static_resource, .ok id)) :
    List.Forall₂ (Forwarded runtime.header (encode (toString id)))
      (m.served x vars scope state).produced
      ((m.served x vars scope state).sent.map Prod.fst) := by
  obtain ⟨message, hserved⟩ := served_eq x vars state hhttp hruntime
  have hrejects : m.rejects runtime scope = false := by simp [rejects, h]
  obtain ⟨context, hcontext, hserving⟩ := ended_serving x vars state hrejects
  rw [hserved]
  show List.Forall₂ _ (m.ended x runtime _).produced ((m.ended x runtime _).sent.map Prod.fst)
  rw [hserving.sent, ← hcontext static_resource id h]
  exact List.forall₂_map_right_iff.mpr (List.forall₂_same.mpr fun message _ =>
    forwarded_forward message)

theorem served_rejected (hruntime : m.runtime = .ok runtime)
    (h : m.allocation runtime scope = some (static_resource, .error e)) (he : e.cls = .native) :
    ∃ w, m.served x vars scope state = w ∧ Refusal x scope static_resource w.sent ∧
      (∀ p ∈ w.sent, p.2.REQUEST_CONTEXT = none) ∧
      (∀ p ∈ w.logged, p.2.REQUEST_CONTEXT = none) ∧ w.state.get? "request_id" = none := by
  obtain ⟨message, hserved⟩ := served_eq x vars state hhttp hruntime
  obtain ⟨w', hended, hrejecting, hrefusal⟩ := ended_rejecting x vars state h he
  rw [hended] at hserved
  refine ⟨_, hserved, hrefusal, hrejecting.sent_unbound, ?_, ?_⟩
  · intro p hp
    rcases List.mem_append.mp hp with hp | hp
    · exact hrejecting.logged_unbound p hp
    · rw [List.mem_singleton.mp hp]
      exact hrejecting.unbound
  · have hstate : w'.state = w'.own_state := by
      unfold World.state
      rw [hrejecting.own]
    exact (congrArg (fun state => state.get? "request_id") hstate).trans hrejecting.state

theorem served_completes (hruntime : m.runtime = .ok runtime) :
    (m.served x vars scope state).logged.filterMap (fun p => p.1.status_code) =
      [if m.rejects runtime scope then 503
        else (lastStatus (m.served x vars scope state).produced).getD 500] := by
  obtain ⟨message, hserved⟩ := served_eq x vars state hhttp hruntime
  have hstatus : (m.ended x runtime (.enter vars scope state)).status_code =
      if m.rejects runtime scope then 503
      else (lastStatus (m.ended x runtime (.enter vars scope state)).produced).getD 500 := by
    cases hrejects : m.rejects runtime scope with
    | false =>
      obtain ⟨context, -, hserving⟩ := ended_serving x vars state hrejects
      exact hserving.status
    | true =>
      obtain ⟨static_resource, e, h, he⟩ := rejects_iff.mp hrejects
      obtain ⟨w', hended, hrejecting, -⟩ := ended_rejecting x vars state h he
      rw [hended]
      exact hrejecting.status
  rw [hserved]
  exact ((ended_running x vars state).statuses _ message _).trans (congrArg (fun n => [n]) hstatus)

end Parts

variable (m scope) in
/-- **The request boundary.** The bindings are restored and the state of the server is not written,
whatever happens. With a runtime: under an identity each message reaches the server, in order,
with that identity on the response starts; a request that is rejected does not reach the
application, binds no identity, and attempts a 503 if the start event has been recorded; and one
completion event is attempted. -/
theorem request_boundary (hhttp : scope.type = "http") (w : World)
    (hw : m.served x vars scope state = w) :
    (w.vars.REQUEST_CONTEXT = vars.REQUEST_CONTEXT ∧ w.vars.CONFIG_FRAME = vars.CONFIG_FRAME ∧
        w.vars.REQUEST_SCOPE = vars.REQUEST_SCOPE) ∧
      w.server_state = state.getD Dict.empty ∧
      ∀ runtime, m.runtime = .ok runtime →
        (∀ static_resource id, m.allocation runtime scope = some (static_resource, .ok id) →
          List.Forall₂ (Forwarded runtime.header (encode (toString id))) w.produced
            (w.sent.map Prod.fst)) ∧
        (∀ static_resource e, m.allocation runtime scope = some (static_resource, .error e) →
          e.cls = .native →
            (∀ app, { m with app := app }.served x vars scope state = w) ∧
            (start_recorded x scope static_resource → w.sent.head?.map Prod.fst =
              some (.start 503 (some (x.raw_headers "Request ID generation unavailable")) [])) ∧
            (¬ start_recorded x scope static_resource → w.sent = []) ∧
            (∀ p ∈ w.sent, p.2.REQUEST_CONTEXT = none) ∧
            (∀ p ∈ w.logged, p.2.REQUEST_CONTEXT = none) ∧
            w.state.get? "request_id" = none) ∧
        w.logged.filterMap (fun p => p.1.status_code) =
          [if m.rejects runtime scope then 503 else (lastStatus w.produced).getD 500] := by
  subst hw
  obtain ⟨hvars, hserver⟩ := served_restores x vars state hhttp
  refine ⟨hvars, hserver, fun runtime hruntime => ⟨?_, ?_, ?_⟩⟩
  · intro static_resource id h
    exact served_forwards x vars state hhttp hruntime h
  · intro static_resource e h he
    obtain ⟨w, rfl, hrefusal, hunbound⟩ := served_rejected x vars state hhttp hruntime h he
    exact ⟨served_app x vars state hhttp hruntime h he, hrefusal.1, hrefusal.2, hunbound⟩
  · exact served_completes x vars state hhttp hruntime

end RequestContextMiddleware

/-! ## Two requests -/

namespace Requests

/-- A request of `/orders`. -/
def scope : Scope := ⟨"http", "POST", "/orders", some ("127.0.0.1", 4000)⟩

/-- Nothing is bound. -/
def vars : Vars := ⟨none, none, none, none, none⟩

/-- The configured header. -/
def header : Bytes := encode "x-request-id"

/-- A runtime of the worker. -/
def requestRuntime (next_id : Except Exc Nat) : RequestRuntime where
  frame := 1
  next_id := next_id
  header := header
  verbose := false
  header_lower := by decide

/-- A downstream application that answers with a request id of its own. -/
def answer : App :=
  .respond [.start 201 (some [(encode "X-Request-ID", encode "1"), (encode "vary", [])]) [],
    .other "http.response.body" []]

/-- The middleware of an application that answers. -/
def middleware (next_id : Except Exc Nat) : RequestContextMiddleware where
  app := answer
  runtime := .ok (requestRuntime next_id)
  router := []

/-- A server that takes every message, and a logger that answers `logger` to every event. -/
def surroundings (logger : Option Exc) : Surroundings where
  send _ _ := none
  info _ _ := logger
  scope := 1
  started_ns := 0
  duration_ms := "0.000"
  safe_repr s := s
  file_enabled := none
  current_runtime := none
  use_verbose := none
  end_verbose := none
  raw_headers _ := []
  body _ := []

/-- An error of the native library. -/
def stateError (id : Nat) : Exc := ⟨id, .native, "LclStateError", "E41"⟩

theorem request_boundary_answer :
    List.Forall₂ (Forwarded header (encode "7"))
        ((middleware (.ok 7)).served (surroundings none) vars scope none).produced
        (((middleware (.ok 7)).served (surroundings none) vars scope none).sent.map Prod.fst) ∧
      ((middleware (.ok 7)).served (surroundings none) vars scope none).logged.filterMap
        (fun p => p.1.status_code) = [201] := by
  obtain ⟨-, -, h⟩ := RequestContextMiddleware.request_boundary (middleware (.ok 7))
    (surroundings none) vars scope none rfl _ rfl
  obtain ⟨hforwarded, -, hstatus⟩ := h (requestRuntime (.ok 7)) rfl
  exact ⟨hforwarded false 7 rfl, hstatus⟩

example : ((middleware (.ok 7)).served (surroundings none) vars scope none).sent.map Prod.fst =
    [.start 201 (some [(encode "vary", []), (header, encode "7")]) [],
      .other "http.response.body" []] := rfl

/-- The generator and the logger fail: no 503 is attempted. -/
theorem unrecorded_start : ¬ ∀ (m : RequestContextMiddleware) (x : Surroundings) (vars : Vars)
    (scope : Scope) (state : Option Mapping) (runtime : RequestRuntime) (static_resource : Bool)
    (e : Exc), scope.type = "http" → m.runtime = .ok runtime →
      m.allocation runtime scope = some (static_resource, .error e) → e.cls = .native →
        ∃ p ∈ (m.served x vars scope state).sent, p.1.status? = some 503 := by
  intro h
  obtain ⟨p, hp, -⟩ := h (middleware (.error (stateError 1))) (surroundings (some (stateError 2)))
    vars scope none (requestRuntime (.error (stateError 1))) false (stateError 1) rfl rfl rfl rfl
  exact absurd hp List.not_mem_nil

end Requests

end LclFastapi.Middleware
