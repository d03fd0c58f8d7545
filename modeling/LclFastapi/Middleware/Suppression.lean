import LclFastapi.Lib.Run
import LclFastapi.Verbose.Policy
import Mathlib.Tactic.IntervalCases

/-!
# Suppression of runtime duplicates (`errors.py`, `verbose/policy.py`)

The protocol of `REPORTED_HTTP_FAILURE` in one execution context, as a transition system: a request
clears it, a report whose logging succeeds sets it to the pair of its request and its exception, the
middleware makes a pair that belongs to the exception it catches into the exception alone, and
`DiagnosticFilter` drops one runtime record of that exception and clears it.

* An exception is its identity, and no two exceptions of a run share one.
* `report_error` is called while the body of a request runs, for any exception and any request id,
  any number of times; `handle_uncaught_exception` calls it at most twice (`handle_steps`).
* `Step.ended`: recording the completion may raise, and then this exception escapes instead.
* `Step.refused`: `self.runtime()` raises before anything is cleared.
* A record, of any logger, may be filtered at any moment.

**Headline:** `duplicate_suppressed`. `replaced_dropped`: the dropped record need not be of the
exception that escaped.
-/

namespace LclFastapi.Middleware.Suppression

open Lib (Run Since)
open Lib.Proc (final)
open Verbose (DiagnosticFilter Producer Record duplicates)

/-! ## Reports -/

/-- `report_error`; `logged` when `context.logger.error` returns. -/
def report_error (logged : Bool) (request_id : Option String) (error : Nat)
    (v : Option Report) : Option Report :=
  if logged then some (.reported request_id error) else v

/-- What the custom callback does: `failed` covers a result that is not a `Response`. -/
inductive Callback where
  | response
  | failed (error : Nat)
  /-- A `BaseException` outside `Exception` propagates. -/
  | base

/-- `handle_uncaught_exception`; `logged` tells of the callback's failure and of `err`. -/
def handle_uncaught_exception (handler : Option Callback) (logged : Bool × Bool)
    (request_id : Option String) (err : Nat) (v : Option Report) : Option Report :=
  match handler with
  | none => report_error logged.2 request_id err v
  | some .response | some .base => v
  | some (.failed error) =>
    report_error logged.2 request_id err (report_error logged.1 request_id error v)

/-- What `except BaseException as error` makes of the variable. -/
def confirm (request_id : Option String) (error : Nat) (v : Option Report) : Option Report :=
  if v = some (.reported request_id error) then some (.confirmed error) else none

/-- The handler of the request boundary. -/
theorem report_eq_confirm (e : Exc) (w : World) :
    (final (RequestContextMiddleware.report e) w).vars.REPORTED_HTTP_FAILURE =
      confirm (w.vars.REQUEST_CONTEXT.map RequestContext.request_id) e.id
        w.vars.REPORTED_HTTP_FAILURE := rfl

/-- The entry of the request boundary. -/
theorem bind_clears (x : Surroundings) (runtime : RequestRuntime) (w : World) :
    (RequestContextMiddleware.bind x runtime w).vars.REPORTED_HTTP_FAILURE = none := by
  unfold RequestContextMiddleware.bind World.copyState World.setState
  rfl

/-! ## One context -/

/-- Where the middleware is. -/
inductive PC where
  /-- Between requests. -/
  | idle
  /-- In the `try`, with the id of `REQUEST_CONTEXT`. -/
  | body (request_id : Option String)
  /-- In the `finally`, with the exception that left the body. -/
  | leaving (escaping : Option Nat)

/-- The context of the task, and where the middleware is. -/
structure State where
  REPORTED_HTTP_FAILURE : Option Report
  pc : PC

/-- The steps. -/
inductive Label where
  | start
  /-- `self.runtime()` raises `error`. -/
  | refused (error : Nat)
  | bound
  | report (request_id : Option String) (error : Nat) (logged : Bool)
  /-- The body raises `error`. -/
  | caught (error : Nat)
  | returned
  /-- The request ends; `raised` by the completion record, `escaped` from the request. -/
  | ended (raised escaped : Option Nat)
  /-- A record with this exception; `dropped` as a duplicate. -/
  | record (error : Option Nat) (dropped : Bool)

variable {α : Type}

variable (α) in
/-- The steps of a task that serves requests. -/
inductive Step : State → Label → State → Prop
  | start (s : State) (hpc : s.pc = .idle) : Step s .start ⟨none, .body none⟩
  | refused (s : State) (error : Nat) (hpc : s.pc = .idle) : Step s (.refused error) s
  | bound (s : State) (request_id : String) (hpc : s.pc = .body none) :
      Step s .bound { s with pc := .body (some request_id) }
  | report (s : State) (current request_id : Option String) (error : Nat) (logged : Bool)
      (hpc : s.pc = .body current) :
      Step s (.report request_id error logged)
        { s with REPORTED_HTTP_FAILURE :=
            report_error logged request_id error s.REPORTED_HTTP_FAILURE }
  | caught (s : State) (current : Option String) (error : Nat) (hpc : s.pc = .body current) :
      Step s (.caught error) ⟨confirm current error s.REPORTED_HTTP_FAILURE, .leaving (some error)⟩
  | returned (s : State) (current : Option String) (hpc : s.pc = .body current) :
      Step s .returned { s with pc := .leaving none }
  | ended (s : State) (escaping raised : Option Nat) (hpc : s.pc = .leaving escaping) :
      Step s (.ended raised (raised.or escaping)) { s with pc := .idle }
  | record (s : State) (f : DiagnosticFilter) (c : Producer) (r : Record α)
      (hc : c.REPORTED_HTTP_FAILURE = s.REPORTED_HTTP_FAILURE) :
      Step s (.record r.exc_info (duplicates c r))
        { s with REPORTED_HTTP_FAILURE := (f.filter c r).2.REPORTED_HTTP_FAILURE }

/-- A new task. -/
def Init (s : State) : Prop := s = ⟨none, .idle⟩

/-- `handle_uncaught_exception` makes its calls of `report_error`, one after the other. -/
theorem handle_steps {s : State} {current : Option String} (hpc : s.pc = .body current)
    (handler : Option Callback) (logged : Bool × Bool) (request_id : Option String) (err : Nat) :
    Relation.ReflTransGen (fun a b => ∃ l, Step α a l b) s
      { s with REPORTED_HTTP_FAILURE :=
          handle_uncaught_exception handler logged request_id err s.REPORTED_HTTP_FAILURE } := by
  match handler with
  | none => exact .single ⟨_, .report s current request_id err logged.2 hpc⟩
  | some .response | some .base => exact .refl
  | some (.failed error) =>
    exact .tail (.single ⟨_, .report s current request_id error logged.1 hpc⟩)
      ⟨_, .report _ current request_id err logged.2 hpc⟩

/-- The filter drops what the variable holds. -/
theorem Step.dropped {s s' : State} {error : Option Nat} (h : Step α s (.record error true) s') :
    ∃ e, error = some e ∧ s.REPORTED_HTTP_FAILURE = some (.confirmed e) := by
  generalize hd : true = dropped at h
  cases h with
  | record f c r hc =>
    obtain ⟨e, he, hv⟩ := Verbose.confirmed_of_duplicates hd.symm
    exact ⟨e, he, hc ▸ hv⟩

/-! ## What a run shows -/

section Runs

variable (r : Run (Step α))

/-- The last report whose logging succeeded was of `error`, in the most recent request. -/
def Reported (error : Nat) : Nat → Prop :=
  Since (fun p => ∃ request_id, r.label p = .report request_id error true)
    fun m => r.label m ≠ .start ∧ ∀ request_id e, r.label m ≠ .report request_id e true

/-- `error` was caught in the most recent request, as the one last reported; no record has been
dropped since, and only an exception of the completion record escaped in its place. -/
def Confirmed (error : Nat) : Nat → Prop :=
  Since (fun q => r.label q = .caught error ∧ Reported r error q)
    fun m => r.label m ≠ .start ∧ (∀ e, r.label m ≠ .record e true) ∧
      ∀ raised escaped, r.label m = .ended raised escaped → escaped = raised.or (some error)

/-- What the variable tells of the run so far. -/
structure Told (i : Nat) (s : State) : Prop where
  reported : ∀ request_id e, s.REPORTED_HTTP_FAILURE = some (.reported request_id e) →
    Reported r e i
  confirmed : ∀ e, s.REPORTED_HTTP_FAILURE = some (.confirmed e) →
    Confirmed r e i ∧ (s.pc = .idle ∨ s.pc = .leaving (some e))

variable {r} {i j e : Nat}

/-- In the body of a request nothing is confirmed. -/
theorem Told.unconfirmed {s : State} {current : Option String} (ht : Told r i s)
    (hpc : s.pc = .body current) : s.REPORTED_HTTP_FAILURE ≠ some (.confirmed e) := by
  intro he
  rcases (ht.confirmed e he).2 with h | h <;> rw [hpc] at h <;> cases h

theorem Told.step {s s' : State} {l : Label} (ht : Told r i s) (hl : r.label i = l)
    (h : Step α s l s') : Told r (i + 1) s' := by
  have stays (hquiet : r.label i ≠ .start ∧ ∀ request_id e, r.label i ≠ .report request_id e true) :
      ∀ request_id e, s.REPORTED_HTTP_FAILURE = some (.reported request_id e) →
        Reported r e (i + 1) :=
    fun request_id e he => (ht.reported request_id e he).succ hquiet
  cases h with
  | start hpc => exact ⟨nofun, nofun⟩
  | refused error hpc =>
    exact ⟨stays (by simp [hl]),
      fun e he => ⟨(ht.confirmed e he).1.succ (by simp [hl]), (ht.confirmed e he).2⟩⟩
  | bound request_id hpc =>
    exact ⟨stays (by simp [hl]),
      fun e he => absurd he (ht.unconfirmed hpc)⟩
  | returned current hpc =>
    exact ⟨stays (by simp [hl]),
      fun e he => absurd he (ht.unconfirmed hpc)⟩
  | report current request_id error logged hpc =>
    cases logged with
    | true =>
      refine ⟨fun request_id' e he => ?_, nofun⟩
      obtain ⟨rfl, rfl⟩ : request_id = request_id' ∧ error = e := by
        simpa [report_error] using he
      exact .now ⟨request_id, hl⟩
    | false =>
      exact ⟨stays (by simp [hl]),
        fun e he => absurd he (ht.unconfirmed hpc)⟩
  | caught current error hpc =>
    by_cases hv : s.REPORTED_HTTP_FAILURE = some (.reported current error)
    · -- the pair is of this request and this exception
      refine ⟨fun request_id e he => ?_, fun e he => ?_⟩ <;> simp only [confirm, hv, if_true] at he
      · exact absurd he (by simp)
      · obtain rfl : error = e := by simpa using he
        exact ⟨.now ⟨hl, ht.reported current error hv⟩, .inr rfl⟩
    · refine ⟨fun request_id e he => ?_, fun e he => ?_⟩ <;> simp [confirm, hv] at he
  | ended escaping raised hpc =>
    refine ⟨stays (by simp [hl]),
      fun e he => ⟨(ht.confirmed e he).1.succ ⟨by simp [hl], by simp [hl], ?_⟩, .inl rfl⟩⟩
    intro raised' escaped' hended
    obtain ⟨rfl, rfl⟩ : raised = raised' ∧ raised.or escaping = escaped' := by
      simpa [hl] using hended
    rcases (ht.confirmed e he).2 with h | h <;> rw [hpc] at h
    · cases h
    · rw [PC.leaving.inj h]
  | record f c r hc =>
    cases hd : duplicates c r with
    | true =>
      rw [Verbose.filter_duplicate hd]
      exact ⟨nofun, nofun⟩
    | false =>
      rw [hd] at hl
      rw [Verbose.filter_context hd, hc]
      exact ⟨stays (by simp [hl]),
        fun e he => ⟨(ht.confirmed e he).1.succ (by simp [hl]), (ht.confirmed e he).2⟩⟩

variable (h0 : Init (r.state 0))
include h0

theorem told_at (hi : i ≤ r.length) : Told r i (r.state i) := by
  induction i with
  | zero =>
    rw [show r.state 0 = _ from h0]
    exact ⟨nofun, nofun⟩
  | succ i ih => exact (ih (Nat.le_of_succ_le hi)).step rfl (r.step_ok i hi)

/-- **Duplicate suppression.** A record is dropped only for the exception that was caught in the
most recent request and whose report there was the last to succeed; between two dropped records
lies the catch of the second one's exception; and a record of an exception is dropped only behind
a report of it that succeeded. -/
theorem duplicate_suppressed :
    (∀ i error, i < r.length → r.label i = .record error true →
      ∃ e, error = some e ∧ Confirmed r e i) ∧
      (∀ i j error error', i < j → j < r.length → r.label i = .record error true →
        r.label j = .record error' true →
          ∃ q e, i < q ∧ q < j ∧ error' = some e ∧ r.label q = .caught e) ∧
      ∀ i e dropped, i < r.length → r.label i = .record (some e) dropped →
        dropped = false ∨ ∃ p request_id, p < i ∧ r.label p = .report request_id e true := by
  have hdropped : ∀ i error, i < r.length → r.label i = .record error true →
      ∃ e, error = some e ∧ Confirmed r e i := by
    intro i error hi hl
    obtain ⟨e, he, hv⟩ := Step.dropped (hl ▸ r.step_ok i hi)
    exact ⟨e, he, ((told_at h0 hi.le).confirmed e hv).1⟩
  refine ⟨hdropped, fun i j error error' hij hj hli hlj => ?_, fun i e dropped hi hl => ?_⟩
  · obtain ⟨e, he, q, hq, ⟨hcaught, -⟩, hsince⟩ := hdropped j error' hj hlj
    refine ⟨q, e, Nat.lt_of_not_le fun hqi => ?_, hq, he, hcaught⟩
    rcases Nat.lt_or_eq_of_le hqi with hlt | rfl
    · exact (hsince i hlt hij).2.1 error hli
    · rw [hli] at hcaught
      cases hcaught
  · cases dropped with
    | false => exact .inl rfl
    | true =>
      obtain ⟨e', he, q, hq, ⟨-, p, hp, ⟨request_id, hreport⟩, -⟩, -⟩ := hdropped i _ hi hl
      obtain rfl : e = e' := Option.some.inj he
      exact .inr ⟨p, request_id, hp.trans hq, hreport⟩

end Runs

/-! ## A request whose completion cannot be recorded -/

section Completion

open Verbose.Policies (output producer record)

/-- Exception `7` is reported and caught. -/
def reportedFailure : Run (Step Unit) :=
  let r := Run.start (Step Unit) ⟨none, .idle⟩ .start
  let r := r.snoc (.start _ rfl)
  let r := r.snoc (.bound _ "1" rfl)
  let r := r.snoc (.report _ (some "1") (some "1") 7 true rfl)
  r.snoc (.caught _ (some "1") 7 rfl)

/-- The completion record raises `8`, which escapes; a runtime record of `7` follows. -/
def replacedFailure : Run (Step Unit) :=
  let r := reportedFailure.snoc (.ended _ (some 7) (some 8) rfl)
  r.snoc (.record _ output.filter producer (record "uvicorn.error" 40 (some 7) false none) rfl)

/-- `7` escapes, and the runtime records it. -/
def escapedFailure : Run (Step Unit) :=
  let r := reportedFailure.snoc (.ended _ (some 7) none rfl)
  r.snoc (.record _ output.filter producer (record "uvicorn.error" 40 (some 7) false none) rfl)

/-- The exception that escaped the most recent request. -/
def Escaped (r : Run (Step α)) (error : Nat) : Nat → Prop :=
  Since (fun m => ∃ raised, r.label m = .ended raised (some error))
    fun m => ∀ raised escaped, r.label m ≠ .ended raised escaped

/-- **The dropped record need not be of the exception that escaped.** -/
theorem replaced_dropped : ¬ ∀ (r : Run (Step Unit)), Init (r.state 0) → ∀ i e, i < r.length →
    r.label i = .record (some e) true → Escaped r e i := by
  intro h
  obtain ⟨m, hm, ⟨raised, hended⟩, -⟩ := h replacedFailure rfl 5 7 (by decide) rfl
  interval_cases m <;> simp [replacedFailure, reportedFailure, Run.snoc, Run.start] at hended

theorem duplicate_suppressed_escaped :
    escapedFailure.label 5 = .record (some 7) true ∧ Confirmed escapedFailure 7 5 := by
  obtain ⟨e, he, hconfirmed⟩ :=
    (duplicate_suppressed (r := escapedFailure) rfl).1 5 _ (by decide) rfl
  obtain rfl : 7 = e := Option.some.inj he
  exact ⟨rfl, hconfirmed⟩

end Completion

end LclFastapi.Middleware.Suppression
