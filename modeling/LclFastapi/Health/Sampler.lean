import LclFastapi.Lib.Shield
import Mathlib.Logic.Function.Basic

/-!
# The health sampler (`health/sampler.py`)

One `HealthSampler`: its `start`, the sampling task with its periodic `refresh`, the publications
it submits to threads, and any number of calls of `stop`. The code between two awaits is one step.

* `refresh` runs in `start` and then in the sampling task, one after the other (`Caller`). It
  collects metrics in a thread, submits one publication and drains it (`Lib/Shield.lean`). The
  metrics themselves are left out: no control depends on them.
* A cancellation is requested, and delivered at the await of the cancelled task. `stop` awaits the
  sampling task itself, so cancelling a waiting `stop` cancels the sampling task again.
* `start` is called once; a second call raises before it touches anything. Logging does not fail.
-/

namespace LclFastapi.Health

open Lib.Shield

/-! ## States -/

/-- Who calls `refresh`. -/
inductive Caller where
  | start
  /-- `run`, in the sampling task. -/
  | sampling
  deriving DecidableEq

/-- How a call of `refresh` ends, and the sampling task. -/
inductive Ending (ε : Type) where
  | returned
  | raised (e : Raised ε)
  | cancelled
  deriving DecidableEq

/-- Where a call of `refresh` is. -/
inductive Refresh where
  | idle
  /-- Awaiting `to_thread(system_snapshot, ...)`, with a cancellation to deliver. -/
  | collecting (requested : Bool)
  /-- In the loop around publication `k`. -/
  | draining (k : Nat) (w : Waiter)
  deriving DecidableEq

/-- Where `start` is. -/
inductive Start (ε : Type) where
  | new
  | refreshing
  | returned
  | failed (ending : Ending ε)
  deriving DecidableEq

/-- Where the sampling task is. -/
inductive Sampling (ε : Type) where
  | none
  /-- Before its first step. -/
  | created (requested : Bool)
  | sleeping (requested : Bool)
  | refreshing
  | ended (ending : Ending ε)
  deriving DecidableEq

/-- Where a call of `stop` is. -/
inductive Stop (ε : Type) where
  | idle
  /-- In `await self.task`, with a cancellation of its own to deliver. -/
  | waiting (requested : Bool)
  | returned
  | raised (e : Raised ε)
  deriving DecidableEq

/-- The sampler, with the publications it has asked for. -/
structure State (ε : Type) where
  start : Start ε
  sampling : Sampling ε
  refresh : Caller → Refresh
  /-- `self.task is not None`. -/
  task : Bool
  publications : Nat → Option (Operation ε Unit)
  /-- How many publications have been submitted. -/
  submitted : Nat
  stops : Nat → Stop ε

/-- `HealthSampler(...)`. -/
structure Init {ε : Type} (s : State ε) : Prop where
  start : s.start = .new
  sampling : s.sampling = .none
  refresh : ∀ c, s.refresh c = .idle
  task : s.task = false
  publications : ∀ k, s.publications k = Option.none
  stops : ∀ n, s.stops n = .idle

variable {ε : Type}

/-- What a cancellation does to a `refresh`. -/
def Refresh.cancel : Refresh → Refresh
  | .idle => .idle
  | .collecting _ => .collecting true
  | .draining k w => .draining k w.cancel

/-- What a cancellation does to the sampling task. -/
def Sampling.cancel : Sampling ε → Sampling ε
  | .created _ => .created true
  | .sleeping _ => .sleeping true
  | task => task

/-- The `refresh` of `c` is now `x`. -/
def State.setRefresh (s : State ε) (c : Caller) (x : Refresh) : State ε :=
  { s with refresh := Function.update s.refresh c x }

/-- Stop `n` is now `x`. -/
def State.setStop (s : State ε) (n : Nat) (x : Stop ε) : State ε :=
  { s with stops := Function.update s.stops n x }

/-- `task.cancel()` on the task that runs the caller's `refresh`. -/
def State.cancel (s : State ε) : Caller → State ε
  | .start => s.setRefresh .start (s.refresh .start).cancel
  | .sampling =>
    { s.setRefresh .sampling (s.refresh .sampling).cancel with sampling := s.sampling.cancel }

/-- The code after the loop of `refresh`, and the exception it logs. A `BaseException` outside
`Exception` passes both handlers. -/
def refreshEnding : Outcome ε Unit → Bool → Ending ε × Option (Raised ε)
  | .ok _, false => (.returned, none)
  | .ok _, true => (.cancelled, none)
  | .error (.base e), _ => (.raised (.base e), none)
  | .error e, false => (.raised e, none)
  | .error e, true => (.cancelled, some e)

/-- `refresh` has ended: `start` creates the task or raises, `run` goes on after an `OSError`. -/
def State.refreshed (s : State ε) : Caller → Ending ε → State ε
  | .start, .returned =>
    { s.setRefresh .start .idle with start := .returned, sampling := .created false, task := true }
  | .start, e => { s.setRefresh .start .idle with start := .failed e }
  | .sampling, .returned | .sampling, .raised (.osError _) =>
    { s.setRefresh .sampling .idle with sampling := .sleeping false }
  | .sampling, e => { s.setRefresh .sampling .idle with sampling := .ended e }

/-! ## Steps -/

/-- The steps. -/
inductive Label (ε : Type) where
  /-- The thread of publication `k`, or its task, takes a step. -/
  | thread (k : Nat)
  | cancel (c : Caller)
  /-- A call of `refresh` begins. -/
  | begin (c : Caller)
  | submit (c : Caller) (k : Nat)
  | inner (c : Caller)
  | ended (c : Caller) (ending : Ending ε) (logged : Option (Raised ε))
  /-- `stop` cancels the task and waits. -/
  | stop (n : Nat)
  | cancelStop (n : Nat)
  | stopped (n : Nat)
  | stopRaised (n : Nat) (e : Raised ε)

/-- The steps that cancel the task of a call of `refresh` that is under way. -/
def Label.Cancels (c : Caller) : Label ε → Prop
  | .cancel d => d = c
  | .stop _ | .cancelStop _ => c = .sampling
  | _ => False

/-- The steps of the event loop and of the publication threads. -/
inductive Step : State ε → Label ε → State ε → Prop
  | start (s : State ε) (h : s.start = .new) :
      Step s (.begin .start)
        ({ s with start := .refreshing }.setRefresh .start (.collecting false))
  /-- The sampling task runs for the first time. -/
  | first (s : State ε) (h : s.sampling = .created false) :
      Step s (.inner .sampling) { s with sampling := .sleeping false }
  | timer (s : State ε) (h : s.sampling = .sleeping false) :
      Step s (.begin .sampling)
        ({ s with sampling := .refreshing }.setRefresh .sampling (.collecting false))
  /-- `CancelledError` before the first step or in `sleep` ends the sampling task. -/
  | endTask (s : State ε) (h : s.sampling = .created true ∨ s.sampling = .sleeping true) :
      Step s (.inner .sampling) { s with sampling := .ended .cancelled }
  /-- The metrics are there: `create_task(to_thread(self.publish, time()))`. -/
  | submit (s : State ε) (c : Caller) (h : s.refresh c = .collecting false) :
      Step s (.submit c s.submitted)
        ({ s with
            publications := Function.update s.publications s.submitted (some .queued)
            submitted := s.submitted + 1 }.setRefresh c (.draining s.submitted ⟨false, false⟩))
  /-- Collecting the metrics raises. -/
  | collectFail (s : State ε) (c : Caller) (e : Raised ε) (h : s.refresh c = .collecting false) :
      Step s (.ended c (.raised e) none) (s.refreshed c (.raised e))
  /-- `CancelledError` while the metrics are collected. -/
  | collectCancel (s : State ε) (c : Caller) (h : s.refresh c = .collecting true) :
      Step s (.ended c .cancelled none) (s.refreshed c .cancelled)
  | thread (s : State ε) (k : Nat) (op op' : Operation ε Unit) (hop : s.publications k = some op)
      (h : Operation.Step op op') :
      Step s (.thread k) { s with publications := Function.update s.publications k (some op') }
  | again (s : State ε) (c : Caller) (k : Nat) (w w' : Waiter) (op : Operation ε Unit)
      (h : s.refresh c = .draining k w) (hop : s.publications k = some op) (hw : Again op w w') :
      Step s (.inner c) (s.setRefresh c (.draining k w'))
  | leave (s : State ε) (c : Caller) (k : Nat) (w : Waiter) (op : Operation ε Unit)
      (o : Outcome ε Unit) (caught : Bool) (h : s.refresh c = .draining k w)
      (hop : s.publications k = some op) (hw : Leaves op w o caught) :
      Step s (.ended c (refreshEnding o caught).1 (refreshEnding o caught).2)
        (s.refreshed c (refreshEnding o caught).1)
  | cancel (s : State ε) (c : Caller) : Step s (.cancel c) (s.cancel c)
  | stop (s : State ε) (n : Nat) (h : s.stops n = .idle) (ht : s.task = true) :
      Step s (.stop n) ((s.cancel .sampling).setStop n (.waiting false))
  /-- `self.task is None`. -/
  | stopNone (s : State ε) (n : Nat) (h : s.stops n = .idle) (ht : s.task = false) :
      Step s (.stopped n) (s.setStop n .returned)
  /-- Cancelling a waiting `stop` cancels the task it awaits, or, when that has ended, itself. -/
  | cancelStop (s : State ε) (n : Nat) (c : Bool) (h : s.stops n = .waiting c)
      (hrun : ∀ e, s.sampling ≠ .ended e) : Step s (.cancelStop n) (s.cancel .sampling)
  | cancelStopEnded (s : State ε) (n : Nat) (c : Bool) (e : Ending ε)
      (h : s.stops n = .waiting c) (hend : s.sampling = .ended e) :
      Step s (.cancelStop n) (s.setStop n (.waiting true))
  /-- `suppress(CancelledError)`, then `self.task = None`. -/
  | stopped (s : State ε) (n : Nat) (c : Bool) (e : Ending ε) (h : s.stops n = .waiting c)
      (hend : s.sampling = .ended e) (hc : c = true ∨ e = .cancelled ∨ e = .returned) :
      Step s (.stopped n) ({ s with task := false }.setStop n .returned)
  | stopRaised (s : State ε) (n : Nat) (e : Raised ε) (h : s.stops n = .waiting false)
      (hend : s.sampling = .ended (.raised e)) : Step s (.stopRaised n e) (s.setStop n (.raised e))

end LclFastapi.Health
