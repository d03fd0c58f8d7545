import LclFastapi.Background.Logging
import LclFastapi.Middleware.RequestContext

/-!
# Diagnostics policy (`verbose/policy.py`, `verbose/sink.py`, `log_context.py`)

The way of one record from its producer to the sinks: the handler's level, `DiagnosticFilter`, the
routing filter of `background/logging.py`, then `accepts` of each sink.

* `Producer` is what the producing execution's context variables hold. Two executions that differ
  in the pinned file policy differ in `FILE_VERBOSE_CONTEXT` only (`Producer.pin`).
* An exception is its identity, `id(error)`.
* A record keeps everything that neither the filters nor the file sinks read in `rest`. The console
  is a function of the record (`Console`) that shows no file-only record and does not look at the
  captured file policy.
* An ordinary record (`Ordinary`) carries neither marker and no captured policy.

**Headline:** `file_policy_independent`. `native_decision_fails`: a runtime duplicate of a reported
failure, and an ordinary record that carries a captured policy, are rejected where the native sink
accepts them.
-/

namespace LclFastapi.Verbose

open Background (FileSink LogRecord WorkerPolicy sourceFilter diagnosticAccepts)
open Lib (Dict)
open Middleware (Report RequestContext)

/-! ## Records -/

/-- What `log_metadata` attaches to a record. -/
structure LogMetadata where
  request_id : Option String
  request_method : Option String
  request_path : Option String
  api_handler : Option String
  worker_name : Option String
  worker_attempt : Option Nat
  lcl_execution_identity : Option String

/-- The attributes read by the filters and the sinks; an absent flag is `false`. -/
structure Record (α : Type*) where
  name : String
  levelno : Int
  /-- The exception of `exc_info`. -/
  exc_info : Option Nat
  lcl_source_name : Option String
  lclang_verbose : Bool
  lcl_framework_verbose : Bool
  lcl_business_record : Bool
  lclang_compact : Bool
  lclang_file_only : Bool
  lcl_file_verbose : Option Bool
  metadata : LogMetadata
  rest : α

variable {α : Type*}

/-- What the routing filter and the file sinks read of a record. -/
def Record.routing (r : Record α) : LogRecord :=
  ⟨r.name, r.levelno, r.lcl_source_name, r.metadata.request_id, r.lcl_file_verbose⟩

/-- `verbose` in `DiagnosticFilter.filter`. -/
def Record.verbose (r : Record α) : Bool := r.lclang_verbose || r.lcl_framework_verbose

/-- An ordinary record: no marker, no captured policy. -/
def Ordinary (r : Record α) : Prop := r.verbose = false ∧ r.lcl_file_verbose = none

/-! ## Producers -/

/-- What `log_metadata` reads of `REQUEST_SCOPE`; `api_handler` is `callable_path(endpoint)`. -/
structure RequestScope where
  method : String
  path : String
  api_handler : String

/-- `WorkerIdentity`. -/
structure WorkerIdentity where
  name : String
  attempt : Nat
  handler : String

/-- The context variables of the producing execution. -/
structure Producer where
  REQUEST_CONTEXT : Option RequestContext
  REQUEST_SCOPE : Option RequestScope
  WORKER_LOG_CONTEXT : Option WorkerIdentity
  FILE_VERBOSE_CONTEXT : Option Bool
  REPORTED_HTTP_FAILURE : Option Report

/-- The same execution with another pinned file policy. -/
def Producer.pin (c : Producer) (policy : Option Bool) : Producer :=
  { c with FILE_VERBOSE_CONTEXT := policy }

/-- `log_metadata()`. -/
def log_metadata (c : Producer) : LogMetadata where
  request_id := match c.REQUEST_CONTEXT, c.REQUEST_SCOPE with
    | some context, _ => some context.request_id
    | none, some _ => some "unavailable"
    | none, none => none
  request_method := (c.REQUEST_CONTEXT.map RequestContext.method).or
    (c.REQUEST_SCOPE.map RequestScope.method)
  request_path := (c.REQUEST_CONTEXT.map RequestContext.path).or
    (c.REQUEST_SCOPE.map RequestScope.path)
  api_handler := (c.REQUEST_SCOPE.map RequestScope.api_handler).filter fun path => path ≠ ""
  worker_name := c.WORKER_LOG_CONTEXT.map WorkerIdentity.name
  worker_attempt := c.WORKER_LOG_CONTEXT.map WorkerIdentity.attempt
  lcl_execution_identity := c.WORKER_LOG_CONTEXT.map fun w =>
    s!"[Worker {w.name}] attempt={w.attempt} handler={w.handler}"

/-- `selected.__dict__.update(values)`. -/
def LogMetadata.update (old values : LogMetadata) : LogMetadata where
  request_id := values.request_id.or old.request_id
  request_method := values.request_method.or old.request_method
  request_path := values.request_path.or old.request_path
  api_handler := values.api_handler.or old.api_handler
  worker_name := values.worker_name.or old.worker_name
  worker_attempt := values.worker_attempt.or old.worker_attempt
  lcl_execution_identity := values.lcl_execution_identity.or old.lcl_execution_identity

/-! ## The filter -/

/-- The loggers the native handler takes over. -/
def DEFAULT_TAKEOVER_LOGGERS : List String :=
  ["fastapi", "uvicorn", "uvicorn.error", "uvicorn.access", "gunicorn", "gunicorn.error",
    "gunicorn.access"]

/-- The filter of the handler. -/
structure DiagnosticFilter where
  level : Int
  cli_verbose : Bool

/-- A runtime record of the failure that the request boundary has confirmed as reported. -/
def duplicates (c : Producer) (r : Record α) : Bool :=
  (r.name == "uvicorn.error" || r.name == "gunicorn.error") &&
    match r.exc_info with
    | some error => c.REPORTED_HTTP_FAILURE == some (.confirmed error)
    | none => false

namespace DiagnosticFilter

variable (f : DiagnosticFilter)

/-- The copy with its source name and its identity. -/
def detach (c : Producer) (r : Record α) : Record α :=
  let selected := { r with lcl_source_name := some (r.lcl_source_name.getD r.name) }
  let selected :=
    if selected.lcl_business_record then selected
    else { selected with
      metadata := selected.metadata.update (log_metadata c)
      lclang_compact := selected.lclang_compact || decide (r.name ∈ DEFAULT_TAKEOVER_LOGGERS) }
  { selected with name := selected.metadata.request_id.getD selected.name }

/-- The value of `file_enabled`. -/
def file_enabled (c : Producer) : Bool := c.FILE_VERBOSE_CONTEXT.getD f.cli_verbose

/-- `DiagnosticFilter.filter`: the selected copy, and the context afterwards. -/
def filter (c : Producer) (r : Record α) : Option (Record α) × Producer :=
  if duplicates c r then (none, { c with REPORTED_HTTP_FAILURE := none })
  else if !r.verbose && decide (r.levelno < f.level) then (none, c)
  else
    let selected := detach c r
    if r.verbose then
      let selected := { selected with lcl_file_verbose := some (f.file_enabled c) }
      if !f.cli_verbose && !f.file_enabled c then (none, c)
      else if !f.cli_verbose then (some { selected with lclang_file_only := true }, c)
      else (some selected, c)
    else (some selected, c)

end DiagnosticFilter

/-! ## The writer -/

/-- `logging.DEBUG`. -/
def DEBUG : Int := 10

/-- The routing filter, installed behind `DiagnosticFilter`. -/
def Record.routed (policies : Dict String WorkerPolicy) (worker : Option String) (r : Record α) :
    Record α :=
  let selected := Background.routed policies worker r.routing
  { r with name := selected.name, lcl_source_name := selected.lcl_source_name }

/-- The handler after `install_verbose_output`, in a service with these workers, called in the role
`worker`: what it enqueues. -/
structure Output where
  /-- `int(config.level)`. -/
  level : Int
  cli_verbose : Bool
  policies : Dict String WorkerPolicy
  worker : Option String

namespace Output

variable (o : Output)

/-- `runtime.handler.level`. -/
def handlerLevel : Int := min o.level DEBUG

/-- The filter of the handler. -/
def filter : DiagnosticFilter := ⟨o.level, o.cli_verbose⟩

/-- What the handler puts into its queue. -/
def enqueue (c : Producer) (r : Record α) : Option (Record α) :=
  if o.handlerLevel ≤ r.levelno then
    (o.filter.filter c r).1.map (Record.routed o.policies o.worker)
  else none

/-- A file sink, wrapped in `DiagnosticFileSink`, receives the record. -/
def reaches (c : Producer) (r : Record α) (sink : FileSink) : Bool :=
  match o.enqueue c r with
  | some selected => diagnosticAccepts sink selected.routing
  | none => false

/-- The stable source name of a record. -/
def source (r : Record α) : String := (r.routed o.policies o.worker).routing.source

/-- The native decision on a name, with the original global threshold. -/
def native (sink : FileSink) (r : Record α) : Bool :=
  decide (o.level ≤ r.levelno) && sink.accepts { r.routing with name := o.source r }

end Output

/-- The native console sink: what it shows of a record it is given, if anything. -/
structure Console (α : Type*) where
  output : Record α → Option String
  file_only : ∀ r, r.lclang_file_only = true → output r = none
  /-- Nothing that renders a record reads its captured file policy. -/
  untagged : ∀ r policy, output { r with lcl_file_verbose := policy } = output r

/-- What the console shows of a record of this producer. -/
def Console.shows (console : Console α) (o : Output) (c : Producer) (r : Record α) :
    Option String :=
  (o.enqueue c r).bind console.output

/-! ## One record -/

section Filter

variable {f : DiagnosticFilter} {c : Producer} {r : Record α}

theorem confirmed_of_duplicates (h : duplicates c r = true) :
    ∃ error, r.exc_info = some error ∧ c.REPORTED_HTTP_FAILURE = some (.confirmed error) := by
  unfold duplicates at h
  cases he : r.exc_info with
  | none => simp [he] at h
  | some error =>
    rw [he, Bool.and_eq_true] at h
    exact ⟨error, rfl, beq_iff_eq.mp h.2⟩

theorem filter_duplicate (h : duplicates c r = true) :
    f.filter c r = (none, { c with REPORTED_HTTP_FAILURE := none }) := by
  simp [DiagnosticFilter.filter, h]

/-- Every other record leaves the context as it is. -/
theorem filter_context (h : duplicates c r = false) : (f.filter c r).2 = c := by
  simp only [DiagnosticFilter.filter, h, Bool.false_eq_true, if_false]
  split_ifs <;> rfl

theorem filter_ordinary (h : duplicates c r = false) (hv : r.verbose = false) :
    (f.filter c r).1 =
      if f.level ≤ r.levelno then some (DiagnosticFilter.detach c r) else none := by
  by_cases hl : r.levelno < f.level
  · simp [DiagnosticFilter.filter, h, hv, hl, Int.not_le.mpr hl]
  · simp [DiagnosticFilter.filter, h, hv, hl, Int.not_lt.mp hl]

variable (f c r) in
/-- The copy of a diagnostic record, with the captured policy. -/
def DiagnosticFilter.tagged : Record α :=
  { detach c r with
    lcl_file_verbose := some (f.file_enabled c)
    lclang_file_only := !f.cli_verbose || (detach c r).lclang_file_only }

/-- What becomes of a diagnostic record: it is tagged, or dropped when neither output wants it. -/
theorem filter_verbose (h : duplicates c r = false) (hv : r.verbose = true) :
    (f.filter c r).1 = if f.cli_verbose || f.file_enabled c then some (f.tagged c r) else none := by
  cases hc : f.cli_verbose <;> cases he : f.file_enabled c <;>
    simp [DiagnosticFilter.filter, DiagnosticFilter.tagged, h, hv, hc, he]

end Filter

section Routing

variable {policies : Dict String WorkerPolicy} {worker : Option String} {r s : Record α}

/-- Routing makes of a record's source name what it makes of any other record's. -/
theorem routed_source (h : r.routing.source = s.routing.source) :
    (r.routed policies worker).routing.source = (s.routed policies worker).routing.source := by
  unfold Record.routed Background.routed
  split
  · exact h
  · exact (Background.workerLogFilter_source worker r.routing).trans
      (h ▸ (Background.workerLogFilter_source worker s.routing).symm)

@[simp] theorem detach_source (c : Producer) :
    (DiagnosticFilter.detach c r).routing.source = r.routing.source := by
  unfold DiagnosticFilter.detach
  cases r.lcl_business_record <;> rfl

theorem detach_admission (c : Producer) :
    (DiagnosticFilter.detach c r).levelno = r.levelno ∧
      (DiagnosticFilter.detach c r).lcl_file_verbose = r.lcl_file_verbose := by
  unfold DiagnosticFilter.detach
  cases r.lcl_business_record <;> exact ⟨rfl, rfl⟩

/-- Routing does not read the captured policy. -/
theorem routed_tag (policy : Option Bool) :
    ({ r with lcl_file_verbose := policy } : Record α).routed policies worker =
      { r.routed policies worker with lcl_file_verbose := policy } := by
  unfold Record.routed Background.routed
  split <;> rfl

end Routing

namespace Output

variable {o : Output} {c : Producer} {r : Record α} {p q : Option Bool} {sink : FileSink}

theorem enqueue_duplicate (h : duplicates c r = true) : o.enqueue c r = none := by
  unfold enqueue
  rw [filter_duplicate h]
  exact ite_self _

/-- The lowered level of the handler lets every ordinary record pass that the original one does. -/
theorem enqueue_ordinary (h : duplicates c r = false) (hv : r.verbose = false) :
    o.enqueue c r =
      if o.level ≤ r.levelno then some ((DiagnosticFilter.detach c r).routed o.policies o.worker)
      else none := by
  unfold enqueue
  rw [filter_ordinary h hv]
  by_cases hl : o.level ≤ r.levelno
  · have hhandler : o.handlerLevel ≤ r.levelno := Int.le_trans (Int.min_le_left _ _) hl
    have hfilter : o.filter.level ≤ r.levelno := hl
    simp [hl, hhandler, hfilter]
  · have hfilter : ¬ o.filter.level ≤ r.levelno := hl
    simp [hl, hfilter]

theorem enqueue_verbose (h : duplicates c r = false) (hv : r.verbose = true)
    (hl : o.handlerLevel ≤ r.levelno) :
    o.enqueue c r =
      if o.cli_verbose || o.filter.file_enabled c then
        some ((o.filter.tagged c r).routed o.policies o.worker)
      else none := by
  unfold enqueue
  rw [if_pos hl, filter_verbose h hv, apply_ite (Option.map _)]
  rfl

/-! ## The sinks -/

/-- What the console shows of a diagnostic record, from the launch-time policy alone. -/
theorem shows_verbose (console : Console α) (h : duplicates c r = false) (hv : r.verbose = true)
    (hl : o.handlerLevel ≤ r.levelno) :
    console.shows o c r =
      if o.cli_verbose then
        console.output ((DiagnosticFilter.detach c r).routed o.policies o.worker)
      else none := by
  unfold Console.shows
  rw [enqueue_verbose h hv hl]
  cases hc : o.cli_verbose with
  | true =>
    have htag : (o.filter.tagged c r).routed o.policies o.worker =
        { (DiagnosticFilter.detach c r).routed o.policies o.worker with
          lcl_file_verbose := some (o.filter.file_enabled c) } := by
      rw [← routed_tag]
      unfold DiagnosticFilter.tagged filter
      rw [hc]
      rfl
    simp [htag, console.untagged]
  | false =>
    have honly : ((o.filter.tagged c r).routed o.policies o.worker).lclang_file_only = true := by
      show (!o.cli_verbose || _) = true
      simp [hc]
    cases o.filter.file_enabled c <;> simp [console.file_only _ honly]

/-- **The console**: whatever is pinned, it shows the same. -/
theorem shows_pin (console : Console α) :
    console.shows o (c.pin p) r = console.shows o (c.pin q) r := by
  cases h : duplicates c r with
  | true =>
    unfold Console.shows
    rw [enqueue_duplicate (c := c.pin p) h, enqueue_duplicate (c := c.pin q) h]
  | false =>
    cases hv : r.verbose with
    | false =>
      unfold Console.shows
      rw [enqueue_ordinary (c := c.pin p) h hv, enqueue_ordinary (c := c.pin q) h hv]
      rfl
    | true =>
      by_cases hl : o.handlerLevel ≤ r.levelno
      · rw [shows_verbose (c := c.pin p) console h hv hl,
          shows_verbose (c := c.pin q) console h hv hl]
        rfl
      · simp [Console.shows, enqueue, hl]

/-- A record without markers is treated alike under every policy. -/
theorem reaches_pin (hv : r.verbose = false) :
    o.reaches (c.pin p) r sink = o.reaches (c.pin q) r sink := by
  unfold reaches
  cases h : duplicates c r with
  | true => rw [enqueue_duplicate (c := c.pin p) h, enqueue_duplicate (c := c.pin q) h]
  | false =>
    rw [enqueue_ordinary (c := c.pin p) h hv, enqueue_ordinary (c := c.pin q) h hv]
    rfl

/-- **A file sink, on an ordinary record**: the native decision. -/
theorem reaches_ordinary (h : duplicates c r = false) (ho : Ordinary r) :
    o.reaches c r sink = o.native sink r := by
  obtain ⟨hv, htag⟩ := ho
  have hsource : ((DiagnosticFilter.detach c r).routed o.policies o.worker).routing.source =
      o.source r := routed_source (detach_source c)
  obtain ⟨hlevelno, hverbose⟩ := detach_admission (r := r) c
  have hadmitted : Background.Admitted sink.level
      ((DiagnosticFilter.detach c r).routed o.policies o.worker).routing ↔
        sink.level ≤ r.levelno := by
    rw [Background.admitted_untagged (hverbose.trans htag)]
    show sink.level ≤ (DiagnosticFilter.detach c r).levelno ↔ _
    rw [hlevelno]
  unfold reaches
  rw [enqueue_ordinary h hv, Bool.eq_iff_iff]
  by_cases hl : o.level ≤ r.levelno
  · rw [if_pos hl]
    dsimp only
    rw [Background.diagnosticAccepts_iff, hadmitted, hsource]
    unfold native FileSink.accepts
    rw [Bool.and_eq_true, Bool.and_eq_true, decide_eq_true_iff, decide_eq_true_iff]
    exact (and_iff_right hl).symm
  · simp [native, hl]

/-- A file sink, on a record without markers that carries a captured policy: that policy. -/
theorem reaches_captured (h : duplicates c r = false) (hv : r.verbose = false) {policy : Bool}
    (htag : r.lcl_file_verbose = some policy) :
    o.reaches c r sink = true ↔
      o.level ≤ r.levelno ∧ policy = true ∧
        sourceFilter sink.logger_names (o.source r) = true := by
  have hsource : ((DiagnosticFilter.detach c r).routed o.policies o.worker).routing.source =
      o.source r := routed_source (detach_source c)
  have hadmitted : Background.Admitted sink.level
      ((DiagnosticFilter.detach c r).routed o.policies o.worker).routing ↔ policy = true :=
    Background.admitted_tagged ((detach_admission c).2.trans htag)
  unfold reaches
  rw [enqueue_ordinary h hv]
  by_cases hl : o.level ≤ r.levelno
  · rw [if_pos hl]
    dsimp only
    rw [Background.diagnosticAccepts_iff, hadmitted, hsource]
    exact (and_iff_right hl).symm
  · simp [hl]

/-- **A file sink, on a diagnostic record**: the pinned policy and the source filter. -/
theorem reaches_verbose (h : duplicates c r = false) (hv : r.verbose = true)
    (hl : o.handlerLevel ≤ r.levelno) :
    o.reaches c r sink = true ↔
      c.FILE_VERBOSE_CONTEXT.getD o.cli_verbose = true ∧
        sourceFilter sink.logger_names (o.source r) = true := by
  have hsource : ((o.filter.tagged c r).routed o.policies o.worker).routing.source =
      o.source r := routed_source (detach_source c)
  have hadmitted : Background.Admitted sink.level
      ((o.filter.tagged c r).routed o.policies o.worker).routing ↔
        c.FILE_VERBOSE_CONTEXT.getD o.cli_verbose = true := Iff.rfl
  unfold reaches
  rw [enqueue_verbose h hv hl]
  by_cases hany : (o.cli_verbose || o.filter.file_enabled c) = true
  · rw [if_pos hany]
    dsimp only
    rw [Background.diagnosticAccepts_iff, hadmitted, hsource]
  · have hoff : ¬ c.FILE_VERBOSE_CONTEXT.getD o.cli_verbose = true := fun he =>
      hany (by rw [Bool.or_eq_true]; exact .inr he)
    simp [hany, hoff]

end Output

/-- **File diagnostics do not interfere with other output.** Whatever two policies are pinned, the
console shows the same of a record, and every file sink decides the same on a record without
markers: what the native sink would at the original threshold, if the record is ordinary, and by the
policy the record carries, if it does. A diagnostic record reaches the file sinks whose source
filter accepts it, at any threshold of theirs, exactly when the pinned policy is enabled. The
runtime duplicates of a reported failure, which are kept from every sink, are the one exception to
the last two. -/
theorem file_policy_independent (o : Output) (c : Producer) (r : Record α) :
    (∀ (console : Console α) p q, console.shows o (c.pin p) r = console.shows o (c.pin q) r) ∧
      (r.verbose = false → ∀ p q sink, o.reaches (c.pin p) r sink = o.reaches (c.pin q) r sink) ∧
      (duplicates c r = false →
        (Ordinary r → ∀ p sink, o.reaches (c.pin p) r sink = o.native sink r) ∧
        (r.verbose = false → ∀ policy, r.lcl_file_verbose = some policy → ∀ p sink,
          (o.reaches (c.pin p) r sink = true ↔
            o.level ≤ r.levelno ∧ policy = true ∧
              sourceFilter sink.logger_names (o.source r) = true)) ∧
        (r.verbose = true → o.handlerLevel ≤ r.levelno → ∀ p sink,
          (o.reaches (c.pin p) r sink = true ↔
            p.getD o.cli_verbose = true ∧
              sourceFilter sink.logger_names (o.source r) = true))) ∧
      (duplicates c r = true → ∀ p sink, o.reaches (c.pin p) r sink = false) := by
  refine ⟨fun console p q => Output.shows_pin console, fun hv p q sink => Output.reaches_pin hv,
    fun h => ⟨fun ho p sink => ?_, fun hv policy htag p sink => ?_, fun hv hl p sink => ?_⟩,
    fun h p sink => ?_⟩
  · exact Output.reaches_ordinary (c := c.pin p) h ho
  · exact Output.reaches_captured (c := c.pin p) h hv htag
  · exact Output.reaches_verbose (c := c.pin p) h hv hl
  · unfold Output.reaches
    rw [Output.enqueue_duplicate (c := c.pin p) h]

/-! ## A service at INFO, with a console policy of its own -/

namespace Policies

/-- A service without workers, at `INFO`, whose console admits no diagnostics. -/
def output : Output := ⟨20, false, Dict.empty, none⟩

/-- A request whose failure has been reported. -/
def producer : Producer := ⟨none, none, none, none, some (.confirmed 7)⟩

/-- A record, by what the filters read of it. -/
def record (name : String) (levelno : Int) (exc_info : Option Nat) (lclang_verbose : Bool)
    (lcl_file_verbose : Option Bool) : Record Unit :=
  ⟨name, levelno, exc_info, none, lclang_verbose, false, false, false, false, lcl_file_verbose,
    ⟨none, none, none, none, none, none, none⟩, ()⟩

/-- A sink that accepts every record. -/
def sink : FileSink := ⟨0, []⟩

/-- Two records that the native sink accepts at the original threshold and the sink does not
receive: the duplicate of a reported failure, and an ordinary record with a captured policy. -/
theorem native_decision_fails :
    (output.native sink (record "uvicorn.error" 40 (some 7) false none) = true ∧
        output.reaches producer (record "uvicorn.error" 40 (some 7) false none) sink = false) ∧
      output.native sink (record "business" 40 none false (some false)) = true ∧
        output.reaches producer (record "business" 40 none false (some false)) sink = false := by
  decide

/-- A native diagnostic below the sink's threshold, under an enabled policy. -/
theorem file_policy_independent_debug :
    output.reaches (producer.pin (some true)) (record "business" 10 none true none)
      ⟨30, ["business"]⟩ = true :=
  ((file_policy_independent output producer (record "business" 10 none true none)).2.2.1 rfl).2.2
    rfl (by decide) (some true) ⟨30, ["business"]⟩ |>.mpr ⟨rfl, by decide⟩

end Policies

end LclFastapi.Verbose
