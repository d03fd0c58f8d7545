import LclFastapi.Runtime.ControlSecret

/-!
# Whole-service shutdown (`runtime/worker.py`, `runtime/windows.py`, `runtime/common.py`)

The service scopes of `Service`, closed by those who read and write beside them: workers that enter
`worker_runtime`, their shutdown endpoint (`service.py`) and `request_shutdown`, their bridge to
Uvicorn, the master's own markers, and the `stop` command. Every file operation and liveness test
is a step.

* `Step.service` is a step of a master's scope, or of the kernel. A worker, a request or a command
  takes no step once its process is not live.
* Any local program may send any token to a worker (`Step.accept`, `Step.refuse` with no client),
  and any other program may answer the `stop` command on the recorded port (`Step.elsewhere`).
* `request_shutdown` has two callers: the endpoint, and the publication pump after a journal failure
  (`Step.background`).
* The lease and the observation of a worker are left out. Any of its operations may raise
  (`Step.leave`).
* `os.kill` reaches whichever process has the pid by then (`Step.signal`).

`refines`: every step is one of the service scopes with markers of known starts, so what is proved
of these under arbitrary publishing holds here.
-/

namespace LclFastapi.Runtime.Shutdown

open Lib (Identity Processes Run)
open Service (Start Files ofStart KnownBy Names Secret serviceId?)

/-! ## Workers -/

/-- `WorkerRuntime`, as far as a shutdown uses it. -/
structure WorkerRuntime where
  service : Record
  control_token : String
  deriving DecidableEq

/-- Where `watch_worker_shutdown` is. -/
inductive Watcher where
  /-- Not started: the service does not run under Uvicorn. -/
  | off
  /-- About to read `reload.json`. -/
  | reload
  /-- About to read `shutdown.json`. -/
  | shutdown
  /-- `should_exit` is set. -/
  | done
  deriving DecidableEq

/-- Where a process is in `worker_runtime`. -/
inductive Scope where
  | outside
  /-- `runtime.json` has been read. -/
  | read (service : Record)
  /-- The recorded master is live; about to read the token. -/
  | verified (service : Record)
  /-- In the body. -/
  | running (runtime : WorkerRuntime) (watcher : Watcher)

/-- Where a call of `request_shutdown` is. -/
inductive Phase where
  | scheduled
  /-- `runtime.json` has been read again. -/
  | read (current : Record)
  /-- It is the worker's own record, and live. -/
  | verified (current : Record)
  /-- The marker is published. -/
  | marked (current : Record)
  | over_
  deriving DecidableEq

/-- One call of `request_shutdown`. -/
structure Task where
  process : Identity
  runtime : WorkerRuntime
  phase : Phase

/-- `shutdown_requested`, on a worker's record. -/
def shutdownRequested (file : Stored) (service : Record) : Prop :=
  ∃ sid, service.get "service_id" = some sid ∧
    (((readState file).get "service_id").getD .null).pyEq sid = true

/-- The record has the pid and the creation time of the worker `w`. -/
def NamesWorker (record : Record) (w : Identity) : Prop :=
  ∃ p c, record.get "pid" = some p ∧ p.pyEq (.int w.pid) = true ∧
    record.get "process_create_time" = some c ∧ c.pyEq (.float w.created) = true

/-- The test of `reload.json` in the worker `w`. -/
def retire (file : Stored) (service : Record) (w : Identity) : Prop :=
  shutdownRequested file service ∧ NamesWorker (readState file) w

/-- `service["runtime"] == name`. -/
def runtimeIs (service : Record) (name : String) : Bool :=
  match service.get "runtime" with
  | some v => v.pyEq (.str name)
  | none => false

/-! ## The stop command -/

/-- How `stop` ends. -/
inductive Outcome where
  /-- It returns: the master is gone. -/
  | stopped
  /-- `RuntimeError("no verified running service")`. -/
  | notRunning
  /-- The response was not 202. -/
  | refused (status : Nat)
  | timeout
  /-- The token or the listener could not be reached. -/
  | failed
  deriving DecidableEq

/-- Where a process is in `stop`. -/
inductive Stop where
  | idle
  | read (record : Record)
  | verified (record : Record)
  /-- In `send_shutdown`. -/
  | sending (record : Record) (token : String)
  | answered (record : Record) (status : Nat)
  /-- About to test whether the master is live. -/
  | waiting (record : Record) (deadline : ℚ)
  /-- The master was live; about to compare the time. -/
  | polled (record : Record) (deadline : ℚ)
  | over_ (record : Record) (outcome : Outcome)

/-- `float(str(record["graceful_timeout_seconds"]))`. -/
def gracefulTimeout? (record : Record) : Option ℚ :=
  (record.get "graceful_timeout_seconds").bind creationTime?

/-! ## States -/

/-- The service, its workers, their requests and the stop commands. -/
structure State where
  service : Service.State
  scope : Identity → Scope
  task : Nat → Option Task
  stop : Identity → Stop
  /-- `time.monotonic()`. -/
  now : ℚ

/-- No worker, no request and no command yet. -/
structure Init (s : State) : Prop where
  service : Service.Init s.service
  scope : ∀ w, s.scope w = .outside
  task : ∀ n, s.task n = none
  stop : ∀ c, s.stop c = .idle

namespace State

variable (s : State)

/-- The files of the service. -/
def files : Files := s.service.files

/-- The exact process lives. -/
def live (p : Identity) : Bool := s.service.os.live p

/-- The files change, and nothing else. -/
def withFiles (f : Files) : State := { s with service := { s.service with files := f } }

/-- The scope of worker `w` is now `scope`. -/
def withScope (w : Identity) (scope : Scope) : State :=
  { s with scope := Function.update s.scope w scope }

/-- Request `n` is now `task`. -/
def withTask (n : Nat) (task : Task) : State :=
  { s with task := Function.update s.task n (some task) }

/-- The stop command of `c` is now `stop`. -/
def withStop (c : Identity) (stop : Stop) : State :=
  { s with stop := Function.update s.stop c stop }

/-- The client of a request has its response; `none` is any other program. -/
def answer (client : Option Identity) (status : Nat) : State :=
  match client with
  | none => s
  | some c =>
    match s.stop c with
    | .sending record _ => s.withStop c (.answered record status)
    | _ => s

end State

/-- The client sends this token. -/
def Sends (s : State) (supplied : String) (client : Option Identity) : Prop :=
  ∀ c, client = some c → s.live c = true ∧ ∃ record, s.stop c = .sending record supplied

/-- What a step does. -/
inductive Label where
  | service (l : Service.Label)
  /-- The target or an observation is published. -/
  | publish
  | worker (w : Identity)
  /-- The endpoint answers 202 and schedules the call `n`. -/
  | accept (w : Identity) (n : Nat) (supplied : String) (client : Option Identity)
  /-- The endpoint answers 403. -/
  | refuse (w : Identity) (client : Option Identity)
  /-- The publication pump makes the call `n`. -/
  | background (w : Identity) (n : Nat)
  | task (n : Nat)
  /-- The call `n` publishes the marker. -/
  | mark (n : Nat)
  /-- The call `n` signals the process that has the master's pid. -/
  | signal (n : Nat) (target : Identity)
  /-- `terminate_all` of the master. -/
  | terminate (p : Identity)
  /-- The hot-reload watcher of the master publishes `reload.json`. -/
  | retire (p : Identity) (record : Record)
  /-- `watch_shutdown` of the master sets `should_exit`. -/
  | woken (p : Identity)
  /-- The bridge of a worker sets `should_exit` for `reload.json`. -/
  | retired (w : Identity)
  /-- The bridge of a worker sets `should_exit` for `shutdown.json`. -/
  | stopped (w : Identity)
  | stop (c : Identity)
  /-- The command has its response. -/
  | answered (c : Identity)
  /-- `TimeoutError`. -/
  | timeout (c : Identity)
  | tick

/-! ## Steps -/

/-- The steps of all parties. -/
inductive Step : State → Label → State → Prop
  /-- A step of a master's scope, or of the kernel. -/
  | service (s : State) (l : Service.Label) (t : Service.State)
      (h : Service.Step s.service l t) (hl : l ≠ .other) :
      Step s (.service l) { s with service := t }
  | publish (s : State) (control : Stored) (observations : String → Stored) :
      Step s .publish
        (s.withFiles { s.files with control := control, observations := observations })
  /-- `service = read_state(directory / "runtime.json")`. -/
  | enter (s : State) (w : Identity) (hl : s.live w = true) (hw : s.scope w = .outside) :
      Step s (.worker w) (s.withScope w (.read (readState s.files.runtime)))
  | verify (s : State) (w : Identity) (service : Record) (hl : s.live w = true)
      (hw : s.scope w = .read service) (hlive : isLive s.service.os service = true) :
      Step s (.worker w) (s.withScope w (.verified service))
  /-- The runtime is built with the token, and Uvicorn's bridge is started. -/
  | run (s : State) (w : Identity) (service : Record) (token : Service.Token)
      (hl : s.live w = true) (hw : s.scope w = .verified service)
      (ht : s.files.token = some token) :
      Step s (.worker w)
        (s.withScope w
          (.running ⟨service, token.content⟩
            (if runtimeIs service "uvicorn" then .reload else .off)))
  /-- The scope ends, or one of its operations raises. -/
  | leave (s : State) (w : Identity) (hl : s.live w = true) :
      Step s (.worker w) (s.withScope w .outside)
  /-- `shutdown` with the worker's token. -/
  | accept (s : State) (w : Identity) (n : Nat) (runtime : WorkerRuntime) (watcher : Watcher)
      (client : Option Identity) (hl : s.live w = true)
      (hw : s.scope w = .running runtime watcher) (hn : s.task n = none)
      (hc : Sends s runtime.control_token client) :
      Step s (.accept w n runtime.control_token client)
        ((s.withTask n ⟨w, runtime, .scheduled⟩).answer client 202)
  /-- `shutdown` with another token, or outside the body. -/
  | refuse (s : State) (w : Identity) (supplied : String) (client : Option Identity)
      (hl : s.live w = true)
      (hw : ∀ runtime watcher, s.scope w = .running runtime watcher →
        supplied ≠ runtime.control_token)
      (hc : Sends s supplied client) :
      Step s (.refuse w client) (s.answer client 403)
  /-- The failure callback of the background manager. -/
  | background (s : State) (w : Identity) (n : Nat) (runtime : WorkerRuntime) (watcher : Watcher)
      (hl : s.live w = true) (hw : s.scope w = .running runtime watcher) (hn : s.task n = none) :
      Step s (.background w n) (s.withTask n ⟨w, runtime, .scheduled⟩)
  /-- `current = read_state(self.directory / "runtime.json")`. -/
  | current (s : State) (n : Nat) (task : Task) (hn : s.task n = some task)
      (hl : s.live task.process = true) (hp : task.phase = .scheduled) :
      Step s (.task n) (s.withTask n { task with phase := .read (readState s.files.runtime) })
  /-- The current record is the worker's own, and live. -/
  | same (s : State) (n : Nat) (task : Task) (current : Record) (hn : s.task n = some task)
      (hl : s.live task.process = true) (hp : task.phase = .read current)
      (hsame : current.pyEq task.runtime.service = true)
      (hlive : isLive s.service.os current = true) :
      Step s (.task n) (s.withTask n { task with phase := .verified current })
  /-- The identity has changed, or an operation raises. -/
  | abandon (s : State) (n : Nat) (task : Task) (hn : s.task n = some task)
      (hl : s.live task.process = true) :
      Step s (.task n) (s.withTask n { task with phase := .over_ })
  /-- `atomic_write(self.directory / "shutdown.json", ...)`. -/
  | mark (s : State) (n : Nat) (task : Task) (current : Record) (sid : Value)
      (hn : s.task n = some task) (hl : s.live task.process = true)
      (hp : task.phase = .verified current) (hsid : current.get "service_id" = some sid) :
      Step s (.mark n)
        ((s.withFiles { s.files with shutdown := .object [("service_id", sid)] }).withTask n
          { task with phase := .marked current })
  /-- `os.kill(int(str(current["pid"])), signal.SIGTERM)` under Gunicorn. -/
  | signal (s : State) (n : Nat) (task : Task) (current : Record) (master target : Identity)
      (hn : s.task n = some task) (hl : s.live task.process = true)
      (hp : task.phase = .marked current) (hr : runtimeIs task.runtime.service "gunicorn" = true)
      (hm : recordIdentity? current = some master) (ht : target.pid = master.pid)
      (htl : s.live target = true) :
      Step s (.signal n target) (s.withTask n { task with phase := .over_ })
  /-- `terminate_all`. -/
  | terminate (s : State) (p : Identity) (st : Start) (hpc : s.service.pc p = .serving)
      (hs : s.service.start p = some st) (hr : runtimeIs st.identity "uvicorn" = true) :
      Step s (.terminate p)
        (s.withFiles
          { s.files with shutdown := .object [("service_id", .str st.service_id)] })
  /-- `atomic_write(... "reload.json", worker)`, for a worker that names this start. -/
  | retire (s : State) (p : Identity) (st : Start) (record : Record)
      (hpc : s.service.pc p = .serving) (hs : s.service.start p = some st)
      (hr : runtimeIs st.identity "uvicorn" = true) (hown : OfService (.str st.service_id) record) :
      Step s (.retire p record) (s.withFiles { s.files with reload := .object record })
  | woken (s : State) (p : Identity) (st : Start) (hpc : s.service.pc p = .serving)
      (hs : s.service.start p = some st) (hr : runtimeIs st.identity "uvicorn" = true)
      (hreq : Service.shutdownRequested s.files st) :
      Step s (.woken p) s
  | retired (s : State) (w : Identity) (runtime : WorkerRuntime) (hl : s.live w = true)
      (hw : s.scope w = .running runtime .reload)
      (hreq : Shutdown.retire s.files.reload runtime.service w) :
      Step s (.retired w) (s.withScope w (.running runtime .done))
  | stays (s : State) (w : Identity) (runtime : WorkerRuntime) (hl : s.live w = true)
      (hw : s.scope w = .running runtime .reload)
      (hreq : ¬ Shutdown.retire s.files.reload runtime.service w) :
      Step s (.worker w) (s.withScope w (.running runtime .shutdown))
  | stopped (s : State) (w : Identity) (runtime : WorkerRuntime) (hl : s.live w = true)
      (hw : s.scope w = .running runtime .shutdown)
      (hreq : shutdownRequested s.files.shutdown runtime.service) :
      Step s (.stopped w) (s.withScope w (.running runtime .done))
  | again (s : State) (w : Identity) (runtime : WorkerRuntime) (hl : s.live w = true)
      (hw : s.scope w = .running runtime .shutdown)
      (hreq : ¬ shutdownRequested s.files.shutdown runtime.service) :
      Step s (.worker w) (s.withScope w (.running runtime .reload))
  /-- `record = read_state(settings.state_dir / "runtime.json")`. -/
  | record (s : State) (c : Identity) (hl : s.live c = true) (hc : s.stop c = .idle) :
      Step s (.stop c) (s.withStop c (.read (readState s.files.runtime)))
  | running (s : State) (c : Identity) (record : Record) (hl : s.live c = true)
      (hc : s.stop c = .read record) (hlive : isLive s.service.os record = true) :
      Step s (.stop c) (s.withStop c (.verified record))
  | notRunning (s : State) (c : Identity) (record : Record) (hl : s.live c = true)
      (hc : s.stop c = .read record) (hlive : isLive s.service.os record = false) :
      Step s (.stop c) (s.withStop c (.over_ record .notRunning))
  | token (s : State) (c : Identity) (record : Record) (token : Service.Token)
      (hl : s.live c = true) (hc : s.stop c = .verified record)
      (ht : s.files.token = some token) :
      Step s (.stop c) (s.withStop c (.sending record token.content))
  /-- The token, the listener or the response is missing. -/
  | unreachable (s : State) (c : Identity) (record : Record) (hl : s.live c = true)
      (hc : s.stop c = .verified record ∨ ∃ token, s.stop c = .sending record token) :
      Step s (.stop c) (s.withStop c (.over_ record .failed))
  /-- Another program listens on the recorded port. -/
  | elsewhere (s : State) (c : Identity) (record : Record) (token : String) (status : Nat)
      (hl : s.live c = true) (hc : s.stop c = .sending record token) :
      Step s (.stop c) (s.withStop c (.answered record status))
  | refused (s : State) (c : Identity) (record : Record) (status : Nat) (hl : s.live c = true)
      (hc : s.stop c = .answered record status) (hne : status ≠ 202) :
      Step s (.stop c) (s.withStop c (.over_ record (.refused status)))
  /-- `deadline = time.monotonic() + ...`. -/
  | deadline (s : State) (c : Identity) (record : Record) (graceful : ℚ) (hl : s.live c = true)
      (hc : s.stop c = .answered record 202) (hg : gracefulTimeout? record = some graceful) :
      Step s (.answered c) (s.withStop c (.waiting record (s.now + graceful)))
  | exited (s : State) (c : Identity) (record : Record) (deadline : ℚ) (hl : s.live c = true)
      (hc : s.stop c = .waiting record deadline) (hlive : isLive s.service.os record = false) :
      Step s (.stop c) (s.withStop c (.over_ record .stopped))
  | poll (s : State) (c : Identity) (record : Record) (deadline : ℚ) (hl : s.live c = true)
      (hc : s.stop c = .waiting record deadline) (hlive : isLive s.service.os record = true) :
      Step s (.stop c) (s.withStop c (.polled record deadline))
  | timeout (s : State) (c : Identity) (record : Record) (deadline : ℚ) (hl : s.live c = true)
      (hc : s.stop c = .polled record deadline) (hd : deadline ≤ s.now) :
      Step s (.timeout c) (s.withStop c (.over_ record .timeout))
  /-- `asyncio.sleep(0.05)`. -/
  | sleep (s : State) (c : Identity) (record : Record) (deadline : ℚ) (hl : s.live c = true)
      (hc : s.stop c = .polled record deadline) (hd : s.now < deadline) :
      Step s (.stop c) (s.withStop c (.waiting record deadline))
  | tick (s : State) (now : ℚ) (hnow : s.now ≤ now) : Step s .tick { s with now := now }

/-! ## The service scopes below -/

/-- What the service scopes see of a step. -/
def Label.part : Label → Service.Label
  | .service l => l
  | _ => .other

variable {s s' : State} {l : Label} {w : Identity} {n : Nat} {record : Record} {st : Start}

@[simp] theorem withTask_service (s : State) (n : Nat) (task : Task) :
    (s.withTask n task).service = s.service := rfl

@[simp] theorem answer_service (s : State) (client : Option Identity) (status : Nat) :
    (s.answer client status).service = s.service := by
  unfold State.answer
  split
  · rfl
  · split <;> rfl

@[simp] theorem answer_scope (s : State) (client : Option Identity) (status : Nat) :
    (s.answer client status).scope = s.scope := by
  unfold State.answer
  split
  · rfl
  · split <;> rfl

@[simp] theorem answer_task (s : State) (client : Option Identity) (status : Nat) :
    (s.answer client status).task = s.task := by
  unfold State.answer
  split
  · rfl
  · split <;> rfl

theorem withTask_answer_stop (s : State) (n : Nat) (task : Task) (client : Option Identity)
    (status : Nat) :
    ((s.withTask n task).answer client status).stop = (s.answer client status).stop := by
  cases client with
  | none => rfl
  | some c =>
    have hstop : (s.withTask n task).stop c = s.stop c := rfl
    simp only [State.answer, hstop]
    split <;> rfl

/-- What a step of others changes of the service scopes: no record, no token. -/
theorem service_cases (h : Step s l s') :
    (∃ lab, l = .service lab ∧ Service.Step s.service lab s'.service) ∨
    ∃ f : Files, s'.service = { s.service with files := f } ∧ f.runtime = s.files.runtime ∧
      f.token = s.files.token := by
  cases h with
  | service lab t h => exact .inl ⟨lab, rfl, h⟩
  | publish | mark | terminate | retire => exact .inr ⟨_, rfl, rfl, rfl⟩
  | accept | refuse => exact .inr ⟨s.service.files, by simp [State.withTask], rfl, rfl⟩
  | _ => exact .inr ⟨s.service.files, rfl, rfl, rfl⟩

/-! ## Records in hand -/

/-- The record that a worker has read. -/
def Scope.record? : Scope → Option Record
  | .outside => none
  | .read service | .verified service => some service
  | .running runtime _ => some runtime.service

/-- The record that a request has read. -/
def Phase.record? : Phase → Option Record
  | .scheduled | .over_ => none
  | .read current | .verified current | .marked current => some current

/-- The record that a stop command has read. -/
def Stop.record? : Stop → Option Record
  | .idle => none
  | .read record | .verified record | .sending record _ | .answered record _ | .waiting record _
  | .polled record _ | .over_ record _ => some record

/-- A worker, a request or a command has the record. -/
def Held (s : State) (record : Record) : Prop :=
  (∃ w, (s.scope w).record? = some record) ∨
  (∃ n task, s.task n = some task ∧
    (task.runtime.service = record ∨ task.phase.record? = some record)) ∨
  ∃ c, (s.stop c).record? = some record

theorem Held.scope {w : Identity} (h : (s.scope w).record? = some record) : Held s record :=
  .inl ⟨w, h⟩

theorem Held.task {task : Task} (h : s.task n = some task)
    (hr : task.runtime.service = record ∨ task.phase.record? = some record) : Held s record :=
  .inr (.inl ⟨n, task, h, hr⟩)

theorem Held.stop {c : Identity} (h : (s.stop c).record? = some record) : Held s record :=
  .inr (.inr ⟨c, h⟩)

theorem Held.of_withScope {scope : Scope} (h : Held (s.withScope w scope) record) :
    Held s record ∨ scope.record? = some record := by
  rcases h with ⟨v, hv⟩ | h
  · by_cases he : v = w
    · subst he
      exact .inr (by simpa [State.withScope] using hv)
    · exact .inl (.scope (w := v) (by simpa [State.withScope, he] using hv))
  · exact .inl (.inr h)

theorem Held.of_withTask {task : Task} (h : Held (s.withTask n task) record) :
    Held s record ∨ task.runtime.service = record ∨ task.phase.record? = some record := by
  rcases h with h | ⟨m, task', hm, hr⟩ | h
  · exact .inl (.inl h)
  · by_cases he : m = n
    · subst he
      obtain rfl : task = task' := by simpa [State.withTask] using hm
      exact .inr hr
    · exact .inl (.task (n := m) (by simpa [State.withTask, he] using hm) hr)
  · exact .inl (.inr (.inr h))

theorem Held.of_withStop {c : Identity} {stop : Stop} (h : Held (s.withStop c stop) record) :
    Held s record ∨ stop.record? = some record := by
  rcases h with h | h | ⟨v, hv⟩
  · exact .inl (.inl h)
  · exact .inl (.inr (.inl h))
  · by_cases he : v = c
    · subst he
      exact .inr (by simpa [State.withStop] using hv)
    · exact .inl (.stop (c := v) (by simpa [State.withStop, he] using hv))

theorem Held.of_answer {client : Option Identity} {status : Nat}
    (h : Held (s.answer client status) record) : Held s record := by
  cases client with
  | none => exact h
  | some c =>
    simp only [State.answer] at h
    split at h
    · rename_i hc
      exact h.of_withStop.elim id fun h => .stop (c := c) (by rw [hc]; exact h)
    · exact h

/-- A record comes from `runtime.json`. -/
theorem held_step (h : Step s l s') (hr : Held s' record) :
    Held s record ∨ record = readState s.files.runtime := by
  cases h with
  | service | publish | terminate | retire | woken | tick => exact .inl hr
  | enter w =>
    rcases hr.of_withScope with h | h
    · exact .inl h
    · exact .inr (Option.some.inj h).symm
  | verify w service hl hw | run w service token hl hw =>
    exact .inl (hr.of_withScope.elim id fun h => .scope (w := w) (by rw [hw]; exact h))
  | retired w runtime hl hw | stays w runtime hl hw | stopped w runtime hl hw
  | again w runtime hl hw =>
    exact .inl (hr.of_withScope.elim id fun h => .scope (w := w) (by rw [hw]; exact h))
  | leave w => exact .inl (hr.of_withScope.elim id nofun)
  | accept w n runtime watcher client hl hw =>
    rcases hr.of_answer.of_withTask with h | rfl | h
    · exact .inl h
    · exact .inl (.scope (w := w) (by rw [hw]; rfl))
    · exact absurd h nofun
  | refuse w supplied client => exact .inl hr.of_answer
  | background w n runtime watcher hl hw =>
    rcases hr.of_withTask with h | rfl | h
    · exact .inl h
    · exact .inl (.scope (w := w) (by rw [hw]; rfl))
    · exact absurd h nofun
  | current n task hn =>
    rcases hr.of_withTask with h | h | h
    · exact .inl h
    · exact .inl (.task hn (.inl h))
    · exact .inr (Option.some.inj h).symm
  | same n task current hn hl hp =>
    exact .inl (hr.of_withTask.elim id fun h =>
      .task hn (h.imp_right fun h => by rw [hp]; exact h))
  | mark n task current sid hn hl hp =>
    exact .inl (hr.of_withTask.elim id fun h =>
      .task hn (h.imp_right fun h => by rw [hp]; exact h))
  | abandon n task hn | signal n task _ _ _ hn =>
    exact .inl (hr.of_withTask.elim id fun h => .task hn (h.imp_right nofun))
  | record c =>
    rcases hr.of_withStop with h | h
    · exact .inl h
    · exact .inr (Option.some.inj h).symm
  | unreachable c record hl hc =>
    refine .inl (hr.of_withStop.elim id fun h => .stop (c := c) ?_)
    rcases hc with hc | ⟨token, hc⟩ <;> rw [hc] <;> exact h
  | running c _ hl hc | notRunning c _ hl hc | token c _ _ hl hc | elsewhere c _ _ _ hl hc
  | refused c _ _ hl hc | deadline c _ _ hl hc | exited c _ _ hl hc | poll c _ _ hl hc
  | timeout c _ _ hl hc | sleep c _ _ hl hc =>
    exact .inl (hr.of_withStop.elim id fun h => .stop (c := c) (by rw [hc]; exact h))

theorem serviceId_iff {file : Stored} {sid : String} :
    serviceId? file = some sid ↔ (readState file).get "service_id" = some (.str sid) := by
  unfold serviceId?
  split
  · rename_i id h
    rw [h, Option.some.injEq, Option.some.injEq, Value.str.injEq]
  · rename_i h
    exact ⟨nofun, fun hid => absurd hid (h sid)⟩

/-- Files and records in hand carry no future `service_id`. -/
structure Known (s : State) : Prop where
  service : Service.Inv s.service
  markers : Service.Markers s.service
  held : ∀ record, Held s record → KnownBy s.service.ids (.object record)

theorem Init.known (h : Init s) : Known s where
  service := h.service.inv
  markers := ⟨h.service.shutdown, h.service.reload⟩
  held record hr := by
    rcases hr with ⟨w, hw⟩ | ⟨n, task, hn, -⟩ | ⟨c, hc⟩
    · rw [h.scope w] at hw
      exact absurd hw nofun
    · exact absurd ((h.task n).symm.trans hn) nofun
    · rw [h.stop c] at hc
      exact absurd hc nofun

/-- **The scopes of the masters are those of `Service`**, with others that publish markers. -/
theorem refines (hk : Known s) (h : Step s l s') :
    Service.Step s.service l.part s'.service := by
  have other (f : Files) (hr : f.runtime = s.files.runtime) (ht : f.token = s.files.token)
      (hp : f.pid = s.files.pid) (hs : KnownBy s.service.ids f.shutdown)
      (hl : KnownBy s.service.ids f.reload) :
      Service.Step s.service .other { s.service with files := f } := by
    obtain ⟨runtime, token, shutdown, reload, control, observations, pid⟩ := f
    obtain rfl : runtime = s.service.files.runtime := hr
    obtain rfl : token = s.service.files.token := ht
    obtain rfl : pid = s.service.files.pid := hp
    exact .other _ shutdown reload control observations hs hl
  have same : Service.Step s.service .other s.service :=
    other s.service.files rfl rfl rfl hk.markers.1 hk.markers.2
  have hids {p : Identity} {st : Start} (hs : s.service.start p = some st) :
      st.service_id ∈ s.service.ids := hk.service.who.ids p st hs
  cases h with
  | service lab t h => exact h
  | publish => exact other _ rfl rfl rfl hk.markers.1 hk.markers.2
  | mark n task current sid hn hl hp hsid =>
    refine other _ rfl rfl rfl (fun id hid => ?_) hk.markers.2
    refine hk.held current (.task hn (.inr (by rw [hp]; rfl))) id ?_
    have hget : Record.get [("service_id", sid)] "service_id" = some (.str id) :=
      serviceId_iff.mp hid
    rw [serviceId_iff]
    show Record.get current "service_id" = some (.str id)
    rw [hsid, ← hget]
    simp [Record.get]
  | terminate p st hpc hs =>
    exact other _ rfl rfl rfl (fun id hid => Option.some.inj hid ▸ hids hs) hk.markers.2
  | retire p st record hpc hs hr hown =>
    refine other _ rfl rfl rfl hk.markers.1 fun id hid => ?_
    have hrecord : ofStart (.object record) st := hown
    rw [Service.ofStart_iff] at hrecord
    exact Option.some.inj (hrecord.symm.trans hid) ▸ hids hs
  | accept | refuse =>
    simp only [answer_service]
    exact same
  | _ => exact same

theorem known_step (hk : Known s) (h : Step s l s') : Known s' := by
  have hstep := refines hk h
  refine ⟨Service.inv_step hk.service hstep, Service.markers_step hk.markers hstep,
    fun record hr sid hsid => Service.ids_step hstep ?_⟩
  rcases held_step h hr with hr | rfl
  · exact hk.held record hr sid hsid
  · exact hk.service.known sid hsid

section Runs

variable (r : Run Step) {i : Nat}

theorem Run.known (h0 : Init (r.state 0)) (hi : i ≤ r.length) : Known (r.state i) :=
  r.invariant h0.known (fun _ _ _ h hk => known_step hk h) i hi

end Runs

end LclFastapi.Runtime.Shutdown
