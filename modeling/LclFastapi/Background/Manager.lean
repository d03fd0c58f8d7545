import LclFastapi.Background.Thread

/-!
# The background manager (`background/manager.py`)

`BackgroundManager.start`, any number of calls of `stop` and the one `retire` task on the API loop,
with the threads of the registered workers (`Thread.lean`) and the lifespan that tears the business
resources down. The code between two awaits is one step or a few.

* `start` stops the manager itself when anything fails after the initial flush. The lifespan and
  others call `stop` after `start` has ended.
* A cancellation of a waiting `stop` is first requested, then delivered at its `await`; the loop
  around it catches the exception and waits again.
* The publication pump runs from the initial flush on. It may fail at any time, and stop every
  worker: a thread may be told to stop by anyone.
* `journal.emit` only puts into a queue and cannot fail; the retirement task is not cancelled.
-/

namespace LclFastapi.Background.Manager

/-! ## States -/

/-- How a call of `stop` ends: it returns, or raises `CancelledError` or what `retire` raised. -/
inductive Ending where
  | returned | cancelled | failed
  deriving DecidableEq

/-- Where a call of `stop` is. -/
inductive Call where
  | idle
  /-- Awaiting the retirement, with a cancellation to deliver, with one already caught. -/
  | waiting (requested cancelled : Bool)
  | ended (ending : Ending)
  deriving DecidableEq

/-- Who calls `stop`. -/
inductive Caller where
  /-- The `except BaseException` of `start`. -/
  | start
  /-- The callback that the lifespan has pushed. -/
  | lifespan
  | other (n : Nat)
  deriving DecidableEq

/-- Where `start` is. -/
inductive Start (W : Type) where
  | new
  | flushing
  /-- At the loop over the workers. -/
  | launching (rest : List W)
  /-- Awaiting `worker.ready`. -/
  | initializing (worker : W) (rest : List W)
  /-- At the test of the pump. -/
  | checking (rest : List W)
  /-- In `await self.stop()`. -/
  | failing
  | returned
  | raised

/-- The publication task. -/
inductive Pump where
  | none
  | running
  /-- Done; `os` for an `OSError`. -/
  | failed (os : Bool)
  | finished
  deriving DecidableEq

/-- The retirement task. -/
inductive Retire (W : Type) where
  | none
  | created
  /-- Calling `worker.stop()` on the rest. -/
  | signalling (rest : List W)
  /-- In `worker.stop()`, before its locked section. -/
  | locking (worker : W) (caller : Nat) (rest : List W)
  /-- Awaiting `done` of the started threads. -/
  | gathering
  | joining (rest : List W)
  /-- About to set `finished`. -/
  | finishing
  /-- Awaiting the pump. -/
  | pumping
  | ended (failed : Bool)

/-- The body of `retire` has been entered. -/
def Retire.entered {W : Type} : Retire W → Bool
  | .none | .created => false
  | _ => true

/-- The retirement task after a call of `stop` has seen to it. -/
def Retire.request {W : Type} : Retire W → Retire W
  | .none => .created
  | task => task

/-- The manager, its threads and the calls under way. -/
structure State (W : Type) where
  worker : W → Thread.State
  start : Start W
  pump : Pump
  /-- The Event `finished`. -/
  finished : Bool
  retirement : Retire W
  /-- How many times the body of `retire` has been entered. -/
  retires : Nat
  /-- The threads whose `join` has returned. -/
  joined : W → Bool
  calls : Caller → Call
  /-- The business resources have been torn down. -/
  torn : Bool

/-- A manager that has just been constructed. -/
structure Init {W : Type} (s : State W) : Prop where
  worker : ∀ w, Thread.Init (s.worker w)
  start : s.start = .new
  pump : s.pump = .none
  finished : s.finished = false
  retirement : s.retirement = .none
  retires : s.retires = 0
  joined : ∀ w, s.joined w = false
  calls : ∀ c, s.calls c = .idle
  torn : s.torn = false

variable {W : Type}

/-- The thread of a worker has been started: its `ident` is not None. -/
def State.Started (s : State W) (w : W) : Prop :=
  (s.worker w).pc ≠ .new

/-- The call of `c` is now `call`. -/
def State.setCall (s : State W) (c : Caller) (call : Call) : State W :=
  { s with calls := Function.update s.calls c call }

section SetCall

variable (s : State W) (c d : Caller) (call : Call)

@[simp, grind =] theorem State.setCall_calls :
    (s.setCall c call).calls d = if d = c then call else s.calls d := Function.update_apply ..

end SetCall

variable [DecidableEq W]

/-- The thread of `w` is now `t`. -/
def State.setWorker (s : State W) (w : W) (t : Thread.State) : State W :=
  { s with worker := Function.update s.worker w t }

section SetWorker

variable (s : State W) (v w : W) (t : Thread.State)

@[simp, grind =] theorem State.setWorker_worker :
    (s.setWorker w t).worker v = if v = w then t else s.worker v := Function.update_apply ..

@[simp, grind =] theorem State.setWorker_retirement :
    (s.setWorker w t).retirement = s.retirement := rfl

end SetWorker

/-- The last lines of `stop`. -/
def ending (failed cancelled : Bool) : Ending :=
  if failed then .failed else if cancelled then .cancelled else .returned

/-- What a step does. -/
inductive Label (W : Type) where
  | thread (worker : W) (label : Thread.Label)
  /-- The task of a waiting `stop` is cancelled. -/
  | cancel (c : Caller)
  | stopped (c : Caller) (ending : Ending)
  /-- The body of `retire` is entered. -/
  | retire
  /-- The lifespan tears the business resources down. -/
  | teardown
  | inner

/-! ## Steps -/

/-- The steps of `start`. -/
inductive StartStep (workers : List W) (auto_restart : W → Bool) : State W → State W → Prop
  | start (s : State W) (h : s.start = .new) :
      StartStep workers auto_restart s { s with start := .flushing }
  | flushed (s : State W) (h : s.start = .flushing) :
      StartStep workers auto_restart s { s with pump := .running, start := .launching workers }
  /-- The initial flush fails or is cancelled, outside the `try`. -/
  | flushFail (s : State W) (h : s.start = .flushing) :
      StartStep workers auto_restart s { s with start := .raised }
  | launch (s : State W) (w : W) (rest : List W) (t : Thread.State)
      (h : s.start = .launching (w :: rest))
      (hstep : Thread.Step (auto_restart w) (s.worker w) .inner t) (hnew : ¬ s.Started w) :
      StartStep workers auto_restart s
        { s.setWorker w t with start := .initializing w rest }
  | launchFail (s : State W) (w : W) (rest : List W) (h : s.start = .launching (w :: rest)) :
      StartStep workers auto_restart s { s with start := .failing }
  | launched (s : State W) (h : s.start = .launching []) :
      StartStep workers auto_restart s { s with start := .returned }
  | ready (s : State W) (w : W) (rest : List W) (h : s.start = .initializing w rest)
      (hready : (s.worker w).ready = .result) :
      StartStep workers auto_restart s { s with start := .checking rest }
  | readyFail (s : State W) (w : W) (rest : List W) (h : s.start = .initializing w rest)
      (hready : (s.worker w).ready = .exception) :
      StartStep workers auto_restart s { s with start := .failing }
  | cancelled (s : State W) (w : W) (rest : List W) (h : s.start = .initializing w rest) :
      StartStep workers auto_restart s { s with start := .failing }
  | checked (s : State W) (rest : List W) (h : s.start = .checking rest)
      (hpump : ∀ os, s.pump ≠ .failed os) :
      StartStep workers auto_restart s { s with start := .launching rest }
  | dead (s : State W) (rest : List W) (os : Bool) (h : s.start = .checking rest)
      (hpump : s.pump = .failed os) :
      StartStep workers auto_restart s { s with start := .failing }
  | raise (s : State W) (e : Ending) (h : s.start = .failing) (hc : s.calls .start = .ended e) :
      StartStep workers auto_restart s { s with start := .raised }

/-- The steps of `retire`. -/
inductive RetireStep (workers : List W) (auto_restart : W → Bool) :
    State W → Label W → State W → Prop
  | enter (s : State W) (h : s.retirement = .created) :
      RetireStep workers auto_restart s .retire
        { s with retires := s.retires + 1, retirement := .signalling workers }
  | signal (s : State W) (w : W) (rest : List W) (c : Nat) (t : Thread.State)
      (h : s.retirement = .signalling (w :: rest))
      (hstep : Thread.Step (auto_restart w) (s.worker w) (.stop c) t) :
      RetireStep workers auto_restart s (.thread w (.stop c))
        { s.setWorker w t with retirement := .locking w c rest }
  | locked (s : State W) (w : W) (rest : List W) (c : Nat) (scheduled : Option Nat)
      (t : Thread.State) (h : s.retirement = .locking w c rest)
      (hstep : Thread.Step (auto_restart w) (s.worker w) (.stopped c scheduled) t) :
      RetireStep workers auto_restart s (.thread w (.stopped c scheduled))
        { s.setWorker w t with retirement := .signalling rest }
  | signalled (s : State W) (h : s.retirement = .signalling []) :
      RetireStep workers auto_restart s .inner { s with retirement := .gathering }
  | gathered (s : State W) (h : s.retirement = .gathering)
      (hdone : ∀ w ∈ workers, s.Started w → (s.worker w).done = true) :
      RetireStep workers auto_restart s .inner { s with retirement := .joining workers }
  | join (s : State W) (w : W) (rest : List W) (h : s.retirement = .joining (w :: rest))
      (hpc : (s.worker w).pc = .finished) :
      RetireStep workers auto_restart s .inner
        { s with joined := Function.update s.joined w true, retirement := .joining rest }
  | skip (s : State W) (w : W) (rest : List W) (h : s.retirement = .joining (w :: rest))
      (hnew : ¬ s.Started w) :
      RetireStep workers auto_restart s .inner { s with retirement := .joining rest }
  | joined (s : State W) (h : s.retirement = .joining []) :
      RetireStep workers auto_restart s .inner { s with retirement := .finishing }
  | finish (s : State W) (h : s.retirement = .finishing) :
      RetireStep workers auto_restart s .inner
        { s with
          finished := true
          retirement := if s.pump = .none then .ended false else .pumping }
  | published (s : State W) (h : s.retirement = .pumping)
      (hpump : s.pump = .finished ∨ s.pump = .failed true) :
      RetireStep workers auto_restart s .inner { s with retirement := .ended false }
  | fail (s : State W) (h : s.retirement = .pumping) (hpump : s.pump = .failed false) :
      RetireStep workers auto_restart s .inner { s with retirement := .ended true }

/-- The steps of the calls of `stop`. -/
inductive StopStep {W : Type} : State W → Label W → State W → Prop
  /-- The first call creates the retirement task. -/
  | call (s : State W) (c : Caller) (hc : s.calls c = .idle)
      (hstart : if c = .start then s.start = .failing else s.start = .returned ∨ s.start = .raised)
      (hnot : ∀ failed, s.retirement ≠ .ended failed) :
      StopStep s .inner
        { s.setCall c (.waiting false false) with
          retirement := s.retirement.request }
  /-- The retirement has already ended. -/
  | callEnded (s : State W) (c : Caller) (failed : Bool) (hc : s.calls c = .idle)
      (hstart : if c = .start then s.start = .failing else s.start = .returned ∨ s.start = .raised)
      (h : s.retirement = .ended failed) :
      StopStep s (.stopped c (ending failed false))
        (s.setCall c (.ended (ending failed false)))
  | cancel (s : State W) (c : Caller) (requested cancelled : Bool)
      (hc : s.calls c = .waiting requested cancelled) :
      StopStep s (.cancel c) (s.setCall c (.waiting true cancelled))
  /-- The `CancelledError` is caught, and the retirement has not ended. -/
  | caught (s : State W) (c : Caller) (cancelled : Bool) (hc : s.calls c = .waiting true cancelled)
      (hnot : ∀ failed, s.retirement ≠ .ended failed) :
      StopStep s .inner (s.setCall c (.waiting false true))
  | caughtEnded (s : State W) (c : Caller) (cancelled failed : Bool)
      (hc : s.calls c = .waiting true cancelled) (h : s.retirement = .ended failed) :
      StopStep s (.stopped c (ending failed true)) (s.setCall c (.ended (ending failed true)))
  | resumed (s : State W) (c : Caller) (cancelled failed : Bool)
      (hc : s.calls c = .waiting false cancelled) (h : s.retirement = .ended failed) :
      StopStep s (.stopped c (ending failed cancelled))
        (s.setCall c (.ended (ending failed cancelled)))

/-- The steps of the API loop and of the threads. -/
inductive Step (workers : List W) (auto_restart : W → Bool) : State W → Label W → State W → Prop
  | start (s t : State W) (h : StartStep workers auto_restart s t) :
      Step workers auto_restart s .inner t
  | retire (s t : State W) (a : Label W) (h : RetireStep workers auto_restart s a t) :
      Step workers auto_restart s a t
  | stop (s t : State W) (a : Label W) (h : StopStep s a t) : Step workers auto_restart s a t
  /-- A step of a thread, or of someone who stops it; only `start` starts one. -/
  | thread (s : State W) (w : W) (a : Thread.Label) (t : Thread.State)
      (h : Thread.Step (auto_restart w) (s.worker w) a t) (hnew : ¬ s.Started w → t.pc = .new) :
      Step workers auto_restart s (.thread w a) (s.setWorker w t)
  | pumpFail (s : State W) (os : Bool) (h : s.pump = .running) :
      Step workers auto_restart s .inner { s with pump := .failed os }
  | pumpEnd (s : State W) (h : s.pump = .running) (hfin : s.finished = true) :
      Step workers auto_restart s .inner { s with pump := .finished }
  /-- The business exit stack goes on when its `stop` callback has ended. -/
  | teardown (s : State W) (e : Ending) (hc : s.calls .lifespan = .ended e)
      (htorn : s.torn = false) : Step workers auto_restart s .teardown { s with torn := true }

end LclFastapi.Background.Manager
