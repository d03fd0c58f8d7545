import LclFastapi.Lib.Run
import Mathlib.Data.List.Count
import Mathlib.Logic.Function.Basic

/-!
# One worker thread (`background/thread.py`)

`WorkerThread.run` on its own thread against any number of calls of `WorkerThread.stop`. The
sections under `self.lock` are single steps, and so is the write of `stop_event` before the one in
`stop`.

* `Runner.run` returns when the task it was given has finished.
* `State.callbacks` are the cancellations scheduled on the thread's loop, `State.cancelled` those
  that have been carried out, each by the attempt whose entry task it is for.
* `close_attempt` may return at any time: what it waits for is the bridge (`Service.lean`).
* Any call of `run` may raise at its place in the source. `Event.wait` may time out although the
  event has just been set.
-/

namespace LclFastapi.Background.Thread

/-! ## States -/

/-- The statuses of a worker. -/
inductive Status where
  | starting | running | completed | stopped | failed | restarting
  deriving DecidableEq

/-- `WorkerThread.record`. -/
structure Snapshot where
  status : Status
  attempts : Nat
  restarts : Nat
  deriving DecidableEq

/-- The concurrent Future `ready`. -/
inductive Promise where
  | pending | result | exception
  deriving DecidableEq

/-- `logging.INFO`. -/
def INFO : Int := 20
/-- `logging.WARNING`. -/
def WARNING : Int := 30
/-- `logging.ERROR`. -/
def ERROR : Int := 40

/-- How the execution of an entry ends. -/
inductive Outcome where
  | normal
  | cancelled
  /-- An `Exception` of this type. -/
  | exception (type : String)
  /-- Any other `BaseException`. -/
  | base
  deriving DecidableEq

/-- Where the worker thread is in `run`. -/
inductive PC where
  /-- `thread.start()` has not been called. -/
  | new
  /-- Entering the override scope and the Runner. -/
  | entering
  /-- In `runner.run(self.initialize(...))`. -/
  | initializing
  /-- About to store the loop under the lock. -/
  | publishing
  /-- About to resolve `ready`. -/
  | readying
  /-- At the test of the `while` loop, after this many attempts. -/
  | head (attempt : Nat)
  /-- About to publish `running`. -/
  | running (attempt : Nat)
  /-- Entering the scopes of the attempt. -/
  | setup (attempt : Nat)
  /-- About to call the executable. -/
  | invoking (attempt : Nat)
  /-- In the executable. -/
  | executing (attempt : Nat)
  /-- In `await_entry`, about to register the task under the lock. -/
  | registering (attempt : Nat)
  /-- Awaiting the entry. -/
  | awaiting (attempt : Nat)
  /-- About to clear the task under the lock. -/
  | clearing (attempt : Nat) (outcome : Outcome)
  /-- About to publish the outcome. -/
  | settling (attempt : Nat) (outcome : Outcome)
  /-- In `close_attempt`; `raised` when an exception is on its way out. -/
  | closing (attempt : Nat) (level : Int) (raised : Bool)
  /-- In `runner.run(scope.__aexit__(...))`. -/
  | exiting (attempt : Nat) (level : Int) (raised : Bool)
  /-- At the restart decision and in its wait. -/
  | delaying (attempt : Nat) (level : Int)
  /-- About to publish `restarting`. -/
  | restarting (attempt : Nat) (level : Int)
  /-- In `runner.run(stack.aclose())`. -/
  | tearing (raised : Bool)
  /-- About to drop the loop under the lock. -/
  | dropping (raised : Bool)
  /-- Leaving the Runner, which closes the loop. -/
  | leaving (raised : Bool)
  /-- In the `except BaseException` handler. -/
  | handling
  /-- About to resolve `done`. -/
  | finishing
  | finished

/-- The program points at which the thread's loop runs callbacks. -/
def PC.onLoop : PC → Bool
  | .initializing | .setup _ | .executing _ | .awaiting _ | .exiting .. | .tearing _ | .leaving _ =>
    true
  | _ => false

/-- Where a call of `stop` is. -/
inductive Caller where
  | idle
  /-- `stop_event` is set; about to take the lock. -/
  | set
  | returned
  deriving DecidableEq

/-- The attributes of a `WorkerThread`, and its program point. -/
structure State where
  stop_event : Bool
  /-- `self.loop is not None`. -/
  loop : Bool
  /-- The loop of the Runner has been closed. -/
  closed : Bool
  /-- `self.task`, by its attempt. -/
  task : Option Nat
  callbacks : List Nat
  cancelled : List Nat
  record : Snapshot
  ready : Promise
  done : Bool
  callers : Nat → Caller
  pc : PC

/-- A `WorkerThread` that has just been constructed. -/
structure Init (s : State) : Prop where
  stop_event : s.stop_event = false
  loop : s.loop = false
  closed : s.closed = false
  task : s.task = none
  callbacks : s.callbacks = []
  cancelled : s.cancelled = []
  record : s.record = ⟨.starting, 0, 0⟩
  ready : s.ready = .pending
  done : s.done = false
  callers : ∀ c, s.callers c = .idle
  pc : s.pc = .new

/-- `transition`: the record, and the thread moves on. -/
def State.transition (s : State) (status : Status) (attempt : Nat) (pc : PC) : State :=
  { s with record := ⟨status, attempt, attempt - 1⟩, pc := pc }

/-- What a step does. -/
inductive Label where
  /-- `transition` publishes a status. -/
  | transition (status : Status) (attempt : Nat) (level : Int) (reason : String)
  /-- The executable is called. -/
  | invoke (attempt : Nat)
  /-- `await_entry` registers its task, and schedules its cancellation when told to stop. -/
  | register (attempt : Nat) (scheduled : Bool)
  /-- A call of `stop` sets `stop_event`. -/
  | stop (caller : Nat)
  /-- A call of `stop` returns, having scheduled a cancellation or none. -/
  | stopped (caller : Nat) (scheduled : Option Nat)
  /-- The loop invokes `cancel()` on the task of an attempt. -/
  | cancel (attempt : Nat)
  | inner

/-! ## Steps -/

/-- The atomic steps of the worker thread, of its loop and of the callers of `stop`. -/
inductive Step (auto_restart : Bool) : State → Label → State → Prop
  | start (s : State) (hpc : s.pc = .new) : Step auto_restart s .inner { s with pc := .entering }
  | enter (s : State) (hpc : s.pc = .entering) :
      Step auto_restart s .inner { s with pc := .initializing }
  | enterFail (s : State) (hpc : s.pc = .entering) :
      Step auto_restart s .inner { s with pc := .handling }
  | initialized (s : State) (hpc : s.pc = .initializing) :
      Step auto_restart s .inner { s with pc := .publishing }
  | publish (s : State) (hpc : s.pc = .publishing) :
      Step auto_restart s .inner { s with loop := true, pc := .readying }
  | ready (s : State) (hpc : s.pc = .readying) (hready : s.ready = .pending) :
      Step auto_restart s .inner { s with ready := .result, pc := .head 0 }
  /-- Initialization, the setup of an attempt or the exit from its scopes raises. -/
  | fail (s : State) (hpc : s.pc = .initializing ∨ (∃ n, s.pc = .setup n) ∨
        ∃ n level raised, s.pc = .exiting n level raised) :
      Step auto_restart s .inner { s with pc := .tearing true }
  | leave (s : State) (n : Nat) (hpc : s.pc = .head n) (hstop : s.stop_event = true) :
      Step auto_restart s .inner { s with pc := .tearing false }
  | next (s : State) (n : Nat) (hpc : s.pc = .head n) (hstop : s.stop_event = false) :
      Step auto_restart s .inner { s with pc := .running (n + 1) }
  | running (s : State) (n : Nat) (hpc : s.pc = .running n) :
      Step auto_restart s (.transition .running n INFO "started")
        (s.transition .running n (.setup n))
  | setup (s : State) (n : Nat) (hpc : s.pc = .setup n) :
      Step auto_restart s .inner { s with pc := .invoking n }
  | invoke (s : State) (n : Nat) (hpc : s.pc = .invoking n) :
      Step auto_restart s (.invoke n) { s with pc := .executing n }
  /-- The executable returns a plain result, or raises. -/
  | execute (s : State) (n : Nat) (outcome : Outcome) (hpc : s.pc = .executing n) :
      Step auto_restart s .inner { s with pc := .settling n outcome }
  /-- The executable returns an awaitable. -/
  | awaitable (s : State) (n : Nat) (hpc : s.pc = .executing n) :
      Step auto_restart s .inner { s with pc := .registering n }
  /-- The first locked section of `await_entry`. -/
  | register (s : State) (n : Nat) (hpc : s.pc = .registering n) :
      Step auto_restart s (.register n s.stop_event)
        { s with
          task := some n
          callbacks := if s.stop_event then s.callbacks ++ [n] else s.callbacks
          pc := .awaiting n }
  | await (s : State) (n : Nat) (outcome : Outcome) (hpc : s.pc = .awaiting n) :
      Step auto_restart s .inner { s with pc := .clearing n outcome }
  /-- The locked section in the `finally` of `await_entry`. -/
  | clear (s : State) (n : Nat) (outcome : Outcome) (hpc : s.pc = .clearing n outcome) :
      Step auto_restart s .inner { s with task := none, pc := .settling n outcome }
  | completed (s : State) (n : Nat) (hpc : s.pc = .settling n .normal) :
      Step auto_restart s (.transition .completed n INFO "normal exit")
        (s.transition .completed n (.closing n INFO false))
  | stopped (s : State) (n : Nat) (hpc : s.pc = .settling n .cancelled) :
      Step auto_restart s (.transition .stopped n INFO "cancelled")
        (s.transition .stopped n (.closing n INFO false))
  | failed (s : State) (n : Nat) (type : String) (hpc : s.pc = .settling n (.exception type)) :
      Step auto_restart s (.transition .failed n ERROR ("exception=" ++ type))
        (s.transition .failed n (.closing n WARNING false))
  /-- The entry's failure cannot be logged, or is no `Exception`: it goes on through `finally`. -/
  | escape (s : State) (n : Nat) (level : Int)
      (hpc : s.pc = .settling n .base ∨ ∃ type, s.pc = .settling n (.exception type)) :
      Step auto_restart s .inner { s with pc := .closing n level true }
  /-- `close_attempt` returns, or raises. -/
  | close (s : State) (n : Nat) (level : Int) (raised again : Bool)
      (hpc : s.pc = .closing n level raised) :
      Step auto_restart s .inner { s with pc := .exiting n level (raised || again) }
  | exit (s : State) (n : Nat) (level : Int) (hpc : s.pc = .exiting n level false) :
      Step auto_restart s .inner { s with pc := .delaying n level }
  | exitRaise (s : State) (n : Nat) (level : Int) (hpc : s.pc = .exiting n level true) :
      Step auto_restart s .inner { s with pc := .tearing true }
  | finish (s : State) (n : Nat) (level : Int) (hpc : s.pc = .delaying n level)
      (h : auto_restart = false ∨ s.stop_event = true) :
      Step auto_restart s .inner { s with pc := .tearing false }
  | timeout (s : State) (n : Nat) (level : Int) (hpc : s.pc = .delaying n level)
      (h : auto_restart = true) : Step auto_restart s .inner { s with pc := .restarting n level }
  | restarting (s : State) (n : Nat) (level : Int) (hpc : s.pc = .restarting n level) :
      Step auto_restart s (.transition .restarting n level "restarting after exit")
        (s.transition .restarting n (.head n))
  | aclose (s : State) (raised : Bool) (hpc : s.pc = .tearing raised) :
      Step auto_restart s .inner { s with pc := .dropping raised }
  /-- `stack.aclose()` raises, and the loop is not dropped. -/
  | acloseFail (s : State) (raised : Bool) (hpc : s.pc = .tearing raised) :
      Step auto_restart s .inner { s with pc := .leaving true }
  | drop (s : State) (raised : Bool) (hpc : s.pc = .dropping raised) :
      Step auto_restart s .inner { s with loop := false, pc := .leaving raised }
  /-- The Runner closes its loop, and may raise. -/
  | closeRunner (s : State) (raised again : Bool) (hpc : s.pc = .leaving raised) :
      Step auto_restart s .inner
        { s with closed := true, pc := if raised || again then .handling else .finishing }
  | handleReady (s : State) (hpc : s.pc = .handling) (hready : s.ready = .pending) :
      Step auto_restart s .inner { s with ready := .exception, pc := .finishing }
  | handle (s : State) (type : String) (hpc : s.pc = .handling) (hready : s.ready ≠ .pending) :
      Step auto_restart s
        (.transition .failed s.record.attempts ERROR ("thread failure=" ++ type))
        (s.transition .failed s.record.attempts .finishing)
  | done (s : State) (hpc : s.pc = .finishing) :
      Step auto_restart s .inner { s with done := true, pc := .finished }
  /-- The loop runs a scheduled cancellation. -/
  | cancel (s : State) (n : Nat) (rest : List Nat) (hon : s.pc.onLoop = true)
      (hq : s.callbacks = n :: rest) :
      Step auto_restart s (.cancel n)
        { s with callbacks := rest, cancelled := s.cancelled ++ [n] }
  | stop (s : State) (c : Nat) (hc : s.callers c = .idle) :
      Step auto_restart s (.stop c)
        { s with stop_event := true, callers := Function.update s.callers c .set }
  /-- The locked section of `stop`, with a loop and a registered task. -/
  | stopTask (s : State) (c n : Nat) (hc : s.callers c = .set) (hloop : s.loop = true)
      (htask : s.task = some n) :
      Step auto_restart s (.stopped c (some n))
        { s with
          callbacks := s.callbacks ++ [n]
          callers := Function.update s.callers c .returned }
  | stopIdle (s : State) (c : Nat) (hc : s.callers c = .set)
      (hnone : s.loop = false ∨ s.task = none) :
      Step auto_restart s (.stopped c none)
        { s with callers := Function.update s.callers c .returned }

end LclFastapi.Background.Thread
