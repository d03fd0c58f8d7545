import LclFastapi.Lib.Run
import Mathlib.Data.Finset.Basic
import Mathlib.Data.Finset.Filter
import Mathlib.Logic.Function.Basic

/-!
# The service bridge (`background/bridge.py`)

The bridge of one worker thread on the service loop, over all attempts of the thread. The loop
serves one FIFO queue of handles, of which those that touch the bridge are modelled; a step of a
coroutine is one handle, and runs to its next suspension. Operations are numbered in the order the
thread chooses.

* `run_coroutine_threadsafe` files a handle that creates the task, whose first step is filed in
  turn. Cancelling its Future files a `Task.cancel`, as soon as the task exists.
* A finished task files its done callbacks in the order of their registration: `completed`, which
  `invoke` registers first, then the one of a `gather` that waits for it.
* `gather` counts the children that have already finished while it is called (so since Python 3.12;
  the project requires 3.14), and awaiting a Future that is done does not suspend: a pass of `drain`
  over finished tasks only goes straight back to the test of `while self.tasks`.
-/

namespace LclFastapi.Background.Bridge

/-! ## States -/

/-- The life of one submitted operation. -/
inductive Phase where
  | fresh
  /-- Submitted; its task has not been created. -/
  | submitted
  /-- The first step of its task is filed. -/
  | created
  | suspended
  /-- The next step of its task is filed. -/
  | ready
  /-- Its task is done, with all `finally` blocks. -/
  | finished
  deriving DecidableEq

/-- The task of one submitted operation. -/
structure Operation where
  phase : Phase
  /-- `Task.cancelling()`. -/
  cancelling : Nat
  /-- The Future that `submit` returned has been cancelled. -/
  cancelled : Bool

/-- `Task.cancel()`, which does nothing to a task that is done. -/
def Operation.cancel (o : Operation) : Operation :=
  if o.phase = .finished then o else { o with cancelling := o.cancelling + 1 }

@[simp, grind =] theorem Operation.cancel_phase (o : Operation) : o.cancel.phase = o.phase := by
  unfold Operation.cancel
  split <;> rfl

/-- The handles on the service loop. -/
inductive Handle where
  /-- Create the task of an operation. -/
  | start (i : Nat)
  | step (i : Nat)
  | cancelTask (i : Nat)
  /-- `ServiceBridge.completed`. -/
  | completed (i : Nat)
  /-- The done callback of `gather`. -/
  | gatherDone (i : Nat)
  /-- Create the task of `drain`. -/
  | startDrain
  | stepDrain
  deriving DecidableEq

/-- Where the `drain` of an attempt is. -/
inductive Drain where
  | idle
  /-- `close_attempt` has filed `startDrain`. -/
  | requested
  /-- The first step of its task is filed. -/
  | created
  /-- At the test of `while self.tasks`, with the loop in its hands. -/
  | testing
  /-- Awaiting a `gather` that lacks the reports of these tasks. -/
  | waiting (children : Finset Nat)
  /-- The step after the `gather` is filed. -/
  | woken
  | finished
  deriving DecidableEq

/-- The tasks whose end a `gather` still waits for. -/
def Drain.children : Drain → Finset Nat
  | .waiting children => children
  | _ => ∅

/-- Where the worker thread is in its attempts. -/
inductive PC where
  /-- Between attempts, after this many of them. -/
  | idle (attempt : Nat)
  /-- In the executable. -/
  | entry (attempt : Nat)
  /-- In `close_attempt`. -/
  | closing (attempt : Nat)
  /-- About to exit the Frame scope of the attempt. -/
  | exiting (attempt : Nat)
  deriving DecidableEq

/-- The event loop of the thread and its tasks. -/
structure State where
  queue : List Handle
  op : Nat → Operation
  tasks : Finset Nat
  drain : Drain
  pc : PC

/-- A bridge without submissions. -/
structure Init (s : State) : Prop where
  queue : s.queue = []
  op : ∀ i, s.op i = ⟨.fresh, 0, false⟩
  tasks : s.tasks = ∅
  drain : s.drain = .idle
  pc : s.pc = .idle 0

/-! ## The service loop -/

/-- Operation `i` is now `o`. -/
def State.setOp (s : State) (i : Nat) (o : Operation) : State :=
  { s with op := Function.update s.op i o }

section SetOp

variable (s : State) (i j : Nat) (o : Operation)

@[simp, grind =] theorem State.setOp_op : (s.setOp i o).op j = if j = i then o else s.op j :=
  Function.update_apply ..

@[simp, grind =] theorem State.setOp_tasks : (s.setOp i o).tasks = s.tasks := rfl
@[simp, grind =] theorem State.setOp_drain : (s.setOp i o).drain = s.drain := rfl
@[simp, grind =] theorem State.setOp_pc : (s.setOp i o).pc = s.pc := rfl

end SetOp

/-- The task set after a step of a task, whose first step is the beginning of `invoke`. -/
def State.invoke (s : State) (i : Nat) : Finset Nat :=
  if (s.op i).phase = .created then insert i s.tasks else s.tasks

/-- What the loop files when a task of the bridge finishes. -/
def State.callbacks (s : State) (i : Nat) : List Handle :=
  .completed i :: if i ∈ s.drain.children then [.gatherDone i] else []

/-- The report of one child to the `gather` that `drain` awaits. -/
def State.report (s : State) (i : Nat) (rest : List Handle) : State :=
  match s.drain with
  | .waiting children =>
    if children.erase i = ∅ then { s with queue := rest ++ [.stepDrain], drain := .woken }
    else { s with queue := rest, drain := .waiting (children.erase i) }
  | _ => { s with queue := rest }

section Report

variable (s : State) (i j : Nat) (rest : List Handle)

/-- A report is the last one `drain` waits for, an earlier one, or one nothing waits for. -/
theorem State.report_cases :
    (∃ children, s.drain = .waiting children ∧
      (children.erase i = ∅ ∧
          s.report i rest = { s with queue := rest ++ [.stepDrain], drain := .woken } ∨
        s.report i rest = { s with queue := rest, drain := .waiting (children.erase i) })) ∨
      (∀ children, s.drain ≠ .waiting children) ∧ s.report i rest = { s with queue := rest } := by
  cases hd : s.drain with
  | waiting children =>
    refine .inl ⟨children, rfl, ?_⟩
    by_cases he : children.erase i = ∅ <;> simp [State.report, hd, he]
  | _ => all_goals exact .inr ⟨by simp, by simp [State.report, hd]⟩

@[simp, grind =] theorem State.report_op : (s.report i rest).op j = s.op j := by
  rcases s.report_cases i rest with ⟨children, -, ⟨-, hr⟩ | hr⟩ | ⟨-, hr⟩ <;> rw [hr]

@[simp, grind =] theorem State.report_tasks : (s.report i rest).tasks = s.tasks := by
  rcases s.report_cases i rest with ⟨children, -, ⟨-, hr⟩ | hr⟩ | ⟨-, hr⟩ <;> rw [hr]

@[simp, grind =] theorem State.report_pc : (s.report i rest).pc = s.pc := by
  rcases s.report_cases i rest with ⟨children, -, ⟨-, hr⟩ | hr⟩ | ⟨-, hr⟩ <;> rw [hr]

theorem State.mem_report_queue {y : Handle} (hy : y ∈ rest) :
    y ∈ (s.report i rest).queue := by
  rcases s.report_cases i rest with ⟨children, -, ⟨-, hr⟩ | hr⟩ | ⟨-, hr⟩ <;> simp [hr, hy]

end Report

/-! ## `drain` -/

/-- The tasks one pass of `drain` cancels. -/
def State.targets (s : State) : Finset Nat :=
  s.tasks.filter fun i => (s.op i).cancelling = 0

/-- The tasks that are not done. -/
def State.unfinished (s : State) : Finset Nat :=
  s.tasks.filter fun i => (s.op i).phase ≠ .finished

/-- One pass of the body of `while self.tasks`, up to its suspension or back to the test. -/
def State.pass (s : State) : State :=
  { s with
    op := fun i => if i ∈ s.targets then (s.op i).cancel else s.op i
    drain := if s.unfinished = ∅ then .testing else .waiting s.unfinished }

section Pass

variable (s : State) (i : Nat)

@[simp, grind =] theorem State.pass_phase : (s.pass.op i).phase = (s.op i).phase := by
  simp only [State.pass]
  split <;> simp

@[simp, grind =] theorem State.pass_queue : s.pass.queue = s.queue := rfl
@[simp, grind =] theorem State.pass_tasks : s.pass.tasks = s.tasks := rfl
end Pass

/-! ## Steps -/

/-- What a step does. -/
inductive Label where
  | submit (i : Nat)
  /-- `drain` cancels these tasks and gathers the task set. -/
  | pass (targets : Finset Nat)
  /-- `close_attempt` is called. -/
  | close (attempt : Nat)
  /-- `close_attempt` returns. -/
  | closed (attempt : Nat)
  /-- The thread exits the Frame scope of the attempt. -/
  | exit (attempt : Nat)
  | attempt (attempt : Nat)
  | inner

/-- The atomic steps of the loop, of what it waits for, and of the worker thread. -/
inductive Step : State → Label → State → Prop
  | submit (s : State) (n i : Nat) (hpc : s.pc = .entry n) (hi : (s.op i).phase = .fresh) :
      Step s (.submit i)
        { s.setOp i { s.op i with phase := .submitted } with queue := s.queue ++ [.start i] }
  /-- The worker cancels the Future of an operation; without a task there is nothing to file. -/
  | cancelFuture (s : State) (i : Nat) (hi : (s.op i).phase ≠ .fresh)
      (hnot : (s.op i).cancelled = false) :
      Step s .inner
        { s.setOp i { s.op i with cancelled := true } with
          queue := if (s.op i).phase = .submitted then s.queue else s.queue ++ [.cancelTask i] }
  | start (s : State) (i : Nat) (rest : List Handle) (hq : s.queue = .start i :: rest)
      (hfree : s.drain ≠ .testing) (hi : (s.op i).phase = .submitted) :
      Step s .inner
        { s.setOp i { s.op i with phase := .created } with
          queue := rest ++ .step i :: if (s.op i).cancelled then [.cancelTask i] else [] }
  /-- A task cancelled before its first step never enters `invoke`. -/
  | unstarted (s : State) (i : Nat) (rest : List Handle) (hq : s.queue = .step i :: rest)
      (hfree : s.drain ≠ .testing) (hi : (s.op i).phase = .created)
      (hcancel : (s.op i).cancelling ≠ 0) :
      Step s .inner { s.setOp i { s.op i with phase := .finished } with queue := rest }
  /-- A step of an operation that suspends. It may have cancelled or uncancelled its own task. -/
  | suspend (s : State) (i cancelling : Nat) (rest : List Handle) (hq : s.queue = .step i :: rest)
      (hfree : s.drain ≠ .testing)
      (hi : (s.op i).phase = .ready ∨ (s.op i).phase = .created ∧ (s.op i).cancelling = 0) :
      Step s .inner
        { s.setOp i { s.op i with phase := .suspended, cancelling := cancelling } with
          queue := rest
          tasks := s.invoke i }
  /-- The last step of an operation: it returns or raises. -/
  | finish (s : State) (i : Nat) (rest : List Handle) (hq : s.queue = .step i :: rest)
      (hfree : s.drain ≠ .testing)
      (hi : (s.op i).phase = .ready ∨ (s.op i).phase = .created ∧ (s.op i).cancelling = 0) :
      Step s .inner
        { s.setOp i { s.op i with phase := .finished } with
          queue := rest ++ s.callbacks i
          tasks := s.invoke i }
  /-- What an operation awaits is there, or has been cancelled. -/
  | wake (s : State) (i : Nat) (hi : (s.op i).phase = .suspended) :
      Step s .inner
        { s.setOp i { s.op i with phase := .ready } with queue := s.queue ++ [.step i] }
  | cancelTask (s : State) (i : Nat) (rest : List Handle) (hq : s.queue = .cancelTask i :: rest)
      (hfree : s.drain ≠ .testing) :
      Step s .inner { s.setOp i (s.op i).cancel with queue := rest }
  | completed (s : State) (i : Nat) (rest : List Handle) (hq : s.queue = .completed i :: rest)
      (hfree : s.drain ≠ .testing) :
      Step s .inner { s with queue := rest, tasks := s.tasks.erase i }
  | gatherDone (s : State) (i : Nat) (rest : List Handle) (hq : s.queue = .gatherDone i :: rest)
      (hfree : s.drain ≠ .testing) : Step s .inner (s.report i rest)
  | startDrain (s : State) (rest : List Handle) (hq : s.queue = .startDrain :: rest)
      (hdrain : s.drain = .requested) :
      Step s .inner { s with queue := rest ++ [.stepDrain], drain := .created }
  | stepDrain (s : State) (rest : List Handle) (hq : s.queue = .stepDrain :: rest)
      (hdrain : s.drain = .created ∨ s.drain = .woken) :
      Step s .inner { s with queue := rest, drain := .testing }
  | pass (s : State) (hdrain : s.drain = .testing) (htasks : s.tasks ≠ ∅) :
      Step s (.pass s.targets) s.pass
  | drained (s : State) (hdrain : s.drain = .testing) (htasks : s.tasks = ∅) :
      Step s .inner { s with drain := .finished }
  | close (s : State) (n : Nat) (hpc : s.pc = .entry n) :
      Step s (.close n)
        { s with queue := s.queue ++ [.startDrain], drain := .requested, pc := .closing n }
  | closed (s : State) (n : Nat) (hpc : s.pc = .closing n) (hdrain : s.drain = .finished) :
      Step s (.closed n) { s with pc := .exiting n }
  | exit (s : State) (n : Nat) (hpc : s.pc = .exiting n) :
      Step s (.exit n) { s with pc := .idle n }
  | attempt (s : State) (n : Nat) (hpc : s.pc = .idle n) :
      Step s (.attempt (n + 1)) { s with drain := .idle, pc := .entry (n + 1) }

end LclFastapi.Background.Bridge
