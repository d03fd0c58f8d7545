import LclFastapi.Lib.ContextVar
import LclFastapi.Lib.Run
import LclFastapi.Verbose.Policy
import Mathlib.Logic.Function.Basic

/-!
# The policy of one Worker attempt (`background/thread.py`, `background/attempt.py`)

The loop of `WorkerThread.run` with its context variables, as a transition system: the thread's own
context, the Runner's context and the tasks, whose contexts are copies.

* `runner.run` runs a coroutine in the Runner's context itself, to its end. So `worker_attempt`
  binds there in its `__aenter__` and restores in its `__aexit__`.
* `FILE_VERBOSE_CONTEXT` and `WORKER_LOG_CONTEXT` are `Lib.ContextVar`s. A party may open scopes
  of its own that set `FILE_VERBOSE_CONTEXT`; a `with` block closes what it opened.
* The cache of the process, `current_file_control().snapshot().enabled`, changes at any step
  (`Step.update`). Tasks go on at any step, also those of earlier attempts.
* Every call between an entry and its exit may raise (`raised`): the native runtime, the start and
  the end of `use_verbose`, the derived Frame, the callable with the handling of its failure, and
  the cleanup.
* `pins` is history: what the cache held at the entry of each attempt.

**Headline:** `attempt_policy`.
-/

namespace LclFastapi.Background.Attempt

open Lib (ContextVar Run)
open Verbose (WorkerIdentity)

/-- The two contexts of a worker. -/
inductive Side where
  | thread
  | runner
  deriving DecidableEq

/-- Who runs: code in one of the two contexts, or a task. -/
inductive Party where
  | side (side : Side)
  | task (n : Nat)
  deriving DecidableEq

/-- Where the thread is in the body of its loop. -/
inductive PC where
  /-- At `while not self.stop_event.is_set()`. -/
  | loop
  /-- The attempt is counted. -/
  | entered
  /-- `WORKER_LOG_CONTEXT` is set in the thread. -/
  | logged
  /-- `use_service_verbose` has read the cache. -/
  | snapshotted (file_enabled : Bool)
  /-- `FILE_VERBOSE_CONTEXT` is set in the thread. -/
  | pinned
  /-- `use_verbose` is entered in the thread. -/
  | verbose
  /-- `__aenter__`: `WORKER_LOG_CONTEXT` is set in the Runner. -/
  | runnerLogged (file_enabled : Option Bool)
  /-- `__aenter__`: `FILE_VERBOSE_CONTEXT` is set in the Runner. -/
  | runnerPinned
  /-- `__aenter__`: `use_verbose` is entered in the Runner. -/
  | runnerVerbose
  /-- `self.executable` runs; `running` is inside `runner.run`. -/
  | entry (running : Bool)
  /-- At `context.bridge.close_attempt()`. -/
  | closing
  /-- `__aexit__`: leaving the derived Frame and `use_verbose` in the Runner. -/
  | runnerUnscope
  /-- About to reset `FILE_VERBOSE_CONTEXT` in the Runner. -/
  | runnerUnpin
  /-- About to reset `WORKER_LOG_CONTEXT` in the Runner. -/
  | runnerUnlog
  /-- `ExitStack.__exit__`: leaving `use_verbose` in the thread. -/
  | unscope
  /-- About to reset `FILE_VERBOSE_CONTEXT` in the thread. -/
  | unpin
  /-- About to reset `WORKER_LOG_CONTEXT` in the thread. -/
  | unlog
  /-- The `with ExitStack()` is left. -/
  | between
  | ended
  deriving DecidableEq

/-- What the parties of an attempt see, and how far it has come. -/
structure State where
  /-- What the process cache holds, if a control is bound. -/
  cache : Option Bool
  file : Party → ContextVar (Option Bool)
  log : Side → ContextVar (Option WorkerIdentity)
  pc : PC
  attempt : Nat
  /-- An exception leaves the `with ExitStack()`. -/
  raised : Bool
  /-- The attempt in which a task was created. -/
  tasks : Nat → Option Nat
  /-- The task was created inside a scope that sets `FILE_VERBOSE_CONTEXT`. -/
  inherited : Nat → Bool
  pins : Nat → Option Bool

namespace State

variable (s : State)

/-- `FILE_VERBOSE_CONTEXT.set(value)`. -/
def setFile (w : Party) (value : Option Bool) : State :=
  { s with file := Function.update s.file w ((s.file w).set value) }

/-- `FILE_VERBOSE_CONTEXT.reset(token)`. -/
def resetFile (w : Party) : State :=
  { s with file := Function.update s.file w (s.file w).reset }

/-- `WORKER_LOG_CONTEXT.set(identity)`. -/
def setLog (b : Side) (identity : WorkerIdentity) : State :=
  { s with log := Function.update s.log b ((s.log b).set (some identity)) }

/-- `WORKER_LOG_CONTEXT.reset(token)`. -/
def resetLog (b : Side) : State :=
  { s with log := Function.update s.log b (s.log b).reset }

/-- The attempt moves on. -/
def goto (pc : PC) : State := { s with pc := pc }

/-- A part of the attempt may raise. -/
def unwind (raised : Bool) (pc : PC) : State := { s with raised := s.raised || raised, pc := pc }

/-- The parties whose code may read the policy of the attempt. -/
def governs : Party → Bool
  | .side .thread => match s.pc with
    | .pinned | .verbose | .entry false | .closing | .unscope | .unpin => true
    | _ => false
  | .side .runner => match s.pc with
    | .runnerPinned | .runnerVerbose | .entry true | .runnerUnscope | .runnerUnpin => true
    | _ => false
  | .task n => (s.tasks n).isSome

/-- The parties that run code of the callable. -/
def runs : Party → Bool
  | .side .thread => decide (s.pc = .entry false)
  | .side .runner => decide (s.pc = .entry true)
  | .task n => (s.tasks n).isSome

/-- The party is in a scope of its own that sets `FILE_VERBOSE_CONTEXT`, or was created in one. -/
def nested : Party → Bool
  | .side b => decide (2 < (s.file (.side b)).levels.length)
  | .task n => s.inherited n || decide (1 < (s.file (.task n)).levels.length)

/-- The party has scopes of its own to close. -/
def opened : Party → Bool
  | .side b => decide (2 < (s.file (.side b)).levels.length)
  | .task n => decide (1 < (s.file (.task n)).levels.length)

/-- The attempt a party belongs to. -/
def attemptOf : Party → Option Nat
  | .side _ => some s.attempt
  | .task n => s.tasks n

end State

/-- The steps that a property speaks of. -/
inductive Label where
  /-- `snapshot()` at the entry of an attempt. -/
  | entry
  /-- `FILE_VERBOSE_CONTEXT.get()`. -/
  | read (w : Party) (value : Option Bool)
  | other

/-! ## Steps -/

variable (cli_verbose : Bool) (identity : Nat → WorkerIdentity)

/-- The steps of the thread, of the callable and its tasks, and of the rest of the process.
`identity k` is `(self.name, k, callable_path(self.executable))`. -/
inductive Step : State → Label → State → Prop
  | update (s : State) (cache : Option Bool) : Step s .other { s with cache := cache }
  | begin (s : State) (hpc : s.pc = .loop) :
      Step s .other { s with attempt := s.attempt + 1, raised := false, pc := .entered }
  | finish (s : State) (hpc : s.pc = .loop ∨ s.pc = .entered ∨ s.pc = .between) :
      Step s .other (s.goto .ended)
  | bindLog (s : State) (hpc : s.pc = .entered) :
      Step s .other ((s.setLog .thread (identity s.attempt)).goto .logged)
  /-- The start of `use_service_verbose`, in the thread. -/
  | snapshot (s : State) (hpc : s.pc = .logged) :
      Step s .entry
        ({ s with pins := Function.update s.pins s.attempt (some (s.cache.getD cli_verbose)) }.goto
          (.snapshotted (s.cache.getD cli_verbose)))
  | noRuntime (s : State) (v : Bool) (hpc : s.pc = .snapshotted v) :
      Step s .other (s.unwind true .unlog)
  | pin (s : State) (v : Bool) (hpc : s.pc = .snapshotted v) :
      Step s .other ((s.setFile (.side .thread) (some v)).goto .pinned)
  | verboseRaises (s : State) (hpc : s.pc = .pinned) : Step s .other (s.unwind true .unpin)
  | verbose (s : State) (hpc : s.pc = .pinned) : Step s .other (s.goto .verbose)
  /-- `runner.run(scope.__aenter__())`, with the value the thread reads. -/
  | aenter (s : State) (hpc : s.pc = .verbose) :
      Step s .other ((s.setLog .runner (identity s.attempt)).goto
        (.runnerLogged (s.file (.side .thread)).value))
  | runnerNoRuntime (s : State) (v : Option Bool) (hpc : s.pc = .runnerLogged v) :
      Step s .other (s.unwind true .runnerUnlog)
  /-- `use_service_verbose(..., file_enabled=v)` reads the cache if `v` is `None`. -/
  | runnerPin (s : State) (v : Option Bool) (hpc : s.pc = .runnerLogged v) :
      Step s .other ((s.setFile (.side .runner)
        (some (v.getD (s.cache.getD cli_verbose)))).goto .runnerPinned)
  | runnerVerboseRaises (s : State) (hpc : s.pc = .runnerPinned) :
      Step s .other (s.unwind true .runnerUnpin)
  | runnerVerbose (s : State) (hpc : s.pc = .runnerPinned) : Step s .other (s.goto .runnerVerbose)
  | frameRaises (s : State) (hpc : s.pc = .runnerVerbose) :
      Step s .other (s.unwind true .runnerUnpin)
  | frame (s : State) (hpc : s.pc = .runnerVerbose) : Step s .other (s.goto (.entry false))
  /-- `runner.run` of an awaitable entry, or of a coroutine of a synchronous entry. -/
  | run (s : State) (hpc : s.pc = .entry false) : Step s .other (s.goto (.entry true))
  | runReturns (s : State) (hpc : s.pc = .entry true) (hs : s.opened (.side .runner) = false) :
      Step s .other (s.goto (.entry false))
  /-- The entry returns, is cancelled or fails; `raised` when its handling raises. -/
  | leave (s : State) (raised : Bool) (hpc : s.pc = .entry false)
      (hs : s.opened (.side .thread) = false) : Step s .other (s.unwind raised .closing)
  | close (s : State) (raised : Bool) (hpc : s.pc = .closing) :
      Step s .other (s.unwind raised .runnerUnscope)
  | runnerUnscope (s : State) (raised : Bool) (hpc : s.pc = .runnerUnscope) :
      Step s .other (s.unwind raised .runnerUnpin)
  | runnerUnpin (s : State) (hpc : s.pc = .runnerUnpin) :
      Step s .other ((s.resetFile (.side .runner)).goto .runnerUnlog)
  | runnerUnlog (s : State) (hpc : s.pc = .runnerUnlog) :
      Step s .other ((s.resetLog .runner).goto .unscope)
  | unscope (s : State) (raised : Bool) (hpc : s.pc = .unscope) :
      Step s .other (s.unwind raised .unpin)
  | unpin (s : State) (hpc : s.pc = .unpin) :
      Step s .other ((s.resetFile (.side .thread)).goto .unlog)
  | unlog (s : State) (hpc : s.pc = .unlog) : Step s .other ((s.resetLog .thread).goto .between)
  | again (s : State) (hpc : s.pc = .between) (hr : s.raised = false) :
      Step s .other (s.goto .loop)
  | read (s : State) (w : Party) (hw : s.governs w = true) :
      Step s (.read w (s.file w).value) s
  | openScope (s : State) (w : Party) (value : Option Bool) (hw : s.runs w = true) :
      Step s .other (s.setFile w value)
  | closeScope (s : State) (w : Party) (hw : s.runs w = true) (hs : s.opened w = true) :
      Step s .other (s.resetFile w)
  /-- A task is created; it copies the context it is created in. -/
  | spawn (s : State) (w : Party) (n : Nat) (hw : s.governs w = true) (hn : s.tasks n = none) :
      Step s .other { s with
        file := Function.update s.file (.task n) (s.file w).copy
        tasks := Function.update s.tasks n (s.attemptOf w)
        inherited := Function.update s.inherited n (s.nested w) }

/-- A thread before its first attempt, with any bindings in its two contexts. -/
structure Init (s : State) : Prop where
  pc : s.pc = .loop
  attempt : s.attempt = 0
  tasks : ∀ n, s.tasks n = none
  pins : ∀ k, s.pins k = none
  file : ∀ b, (s.file (.side b)).tokens = []
  log : ∀ b, (s.log b).tokens = []

/-! ## What is bound where -/

/-- `FILE_VERBOSE_CONTEXT` is set for the attempt. -/
def PC.pins : PC → Side → Bool
  | .pinned, .thread | .verbose, .thread | .runnerLogged _, .thread | .runnerUnlog, .thread
  | .unscope, .thread | .unpin, .thread => true
  | .runnerPinned, _ | .runnerVerbose, _ | .entry _, _ | .closing, _ | .runnerUnscope, _
  | .runnerUnpin, _ => true
  | _, _ => false

/-- `WORKER_LOG_CONTEXT` is set for the attempt. -/
def PC.logs : PC → Side → Bool
  | .runnerLogged _, .runner | .runnerUnlog, .runner => true
  | .logged, .thread | .snapshotted _, .thread | .unlog, .thread => true
  | pc, b => pc.pins b

/-- The attempt has read the cache. -/
def PC.entered? : PC → Bool
  | .loop | .entered | .logged | .ended => false
  | _ => true

/-- The code of the callable runs in this context, or will go on there. -/
def PC.calls : PC → Side → Bool
  | .entry _, .thread | .entry true, .runner => true
  | _, _ => false

variable {cli_verbose : Bool} {identity : Nat → WorkerIdentity} {s s' : State} {l : Label}
  {b : Side} {n k : Nat}

/-- The bindings of the attempt lie on those before it, and below those of the callable. -/
structure Bound (identity : Nat → WorkerIdentity) (f : Side → Option Bool)
    (g : Side → Option WorkerIdentity) (s : State) : Prop where
  file : ∀ b, ∃ nested, (s.pc.calls b = false → nested = []) ∧
    (s.file (.side b)).levels =
      nested ++ if s.pc.pins b then [s.pins s.attempt, f b] else [f b]
  log : ∀ b, (s.log b).levels =
    if s.pc.logs b then [some (identity s.attempt), g b] else [g b]

/-- What the cache held at the entry of an attempt is settled. -/
structure Settled (s : State) : Prop where
  later : ∀ k, s.attempt < k → s.pins k = none
  before : s.pc = .entered ∨ s.pc = .logged → s.pins s.attempt = none
  snapshot : ∀ v, s.pc = .snapshotted v → s.pins s.attempt = some v
  pinned : s.pc.entered? = true → (s.pins s.attempt).isSome
  runner : ∀ v, s.pc = .runnerLogged v → v = s.pins s.attempt

section Bound

variable {f : Side → Option Bool} {g : Side → Option WorkerIdentity}

theorem bound_log (hb : Bound identity f g s) (h : Step cli_verbose identity s l s') (b : Side) :
    (s'.log b).levels = if s'.pc.logs b then [some (identity s'.attempt), g b] else [g b] := by
  have hlog := hb.log b
  cases h with
  | update | read | openScope | closeScope | spawn => exact hlog
  | finish hpc =>
    rcases hpc with hpc | hpc | hpc <;>
      simpa [State.goto, PC.logs, PC.pins, hpc] using hlog
  | runnerUnlog hpc =>
    cases b with
    | thread => simpa [State.goto, State.resetLog, PC.logs, PC.pins, hpc] using hlog
    | runner =>
      have hlog : (s.log .runner).levels = [some (identity s.attempt), g .runner] := by
        simpa [PC.logs, hpc] using hlog
      simpa [State.goto, State.resetLog, PC.logs, PC.pins] using
        ContextVar.levels_reset hlog (List.cons_ne_nil _ _)
  | unlog hpc =>
    cases b with
    | runner => simpa [State.goto, State.resetLog, PC.logs, PC.pins, hpc] using hlog
    | thread =>
      have hlog : (s.log .thread).levels = [some (identity s.attempt), g .thread] := by
        simpa [PC.logs, hpc] using hlog
      simpa [State.goto, State.resetLog, PC.logs, PC.pins] using
        ContextVar.levels_reset hlog (List.cons_ne_nil _ _)
  | _ =>
    cases b <;>
      simp_all [State.goto, State.unwind, State.setLog, State.setFile, State.resetFile, PC.logs,
        PC.pins]

/-- The levels of a side whose callable has closed its scopes. -/
theorem Bound.closed (hb : Bound identity f g s) (hp : s.pc.pins b = true)
    (hs : s.opened (.side b) = false) :
    (s.file (.side b)).levels = [s.pins s.attempt, f b] := by
  obtain ⟨nested, -, hl⟩ := hb.file b
  rw [if_pos hp] at hl
  have hlen : nested = [] := by
    simp only [State.opened, hl, List.length_append, List.length_cons, List.length_nil,
      decide_eq_false_iff_not] at hs
    exact List.eq_nil_of_length_eq_zero (by omega)
  rw [hl, hlen]
  rfl

/-- Code of the callable runs in a context where the policy is bound. -/
theorem calls_of_runs (hw : s.runs (.side b) = true) :
    s.pc.calls b = true ∧ s.pc.pins b = true := by
  cases b <;> simp_all [State.runs, PC.calls, PC.pins]

theorem bound_file (hb : Bound identity f g s) (hs : Settled s)
    (h : Step cli_verbose identity s l s') (b : Side) :
    ∃ nested, (s'.pc.calls b = false → nested = []) ∧
      (s'.file (.side b)).levels =
        nested ++ if s'.pc.pins b then [s'.pins s'.attempt, f b] else [f b] := by
  obtain ⟨nested, hn, hl⟩ := id (hb.file b)
  have elsewhere {w : Party} {x : ContextVar (Option Bool)} (hw : w ≠ .side b) :
      (Function.update s.file w x (.side b)).levels =
        nested ++ if s.pc.pins b then [s.pins s.attempt, f b] else [f b] := by
    rw [Function.update_of_ne (Ne.symm hw)]
    exact hl
  cases h with
  | update | read => exact ⟨nested, hn, hl⟩
  | spawn => exact ⟨nested, hn, by simpa using hl⟩
  | finish hpc =>
    rcases hpc with hpc | hpc | hpc <;>
      exact ⟨nested, by simpa [State.goto, PC.calls, hpc] using hn, by
        simpa [State.goto, PC.pins, hpc] using hl⟩
  | openScope w value hw =>
    by_cases hwb : w = .side b
    · subst hwb
      refine ⟨value :: nested, fun hc => ?_, ?_⟩
      · exact absurd ((calls_of_runs hw).1.symm.trans hc) (by simp)
      · show (Function.update s.file _ _ _).levels = _
        rw [Function.update_self, ContextVar.levels_set, hl]
        rfl
    · exact ⟨nested, hn, elsewhere hwb⟩
  | closeScope w hw ho =>
    by_cases hwb : w = .side b
    · subst hwb
      obtain ⟨hc, hp⟩ := calls_of_runs hw
      rw [if_pos hp] at hl
      -- the innermost level is one of the callable's own
      obtain ⟨v, rest, rfl⟩ : ∃ v rest, nested = v :: rest := by
        cases nested with
        | nil => simp [State.opened, hl] at ho
        | cons v rest => exact ⟨v, rest, rfl⟩
      refine ⟨rest, fun hc' => absurd (hc.symm.trans hc') (by simp), ?_⟩
      show (Function.update s.file _ _ _).levels = _
      rw [Function.update_self, ContextVar.levels_reset hl (by simp)]
      exact congrArg _ (if_pos hp).symm
    · exact ⟨nested, hn, elsewhere hwb⟩
  | runReturns hpc ho =>
    cases b with
    | thread => exact ⟨nested, by simp [State.goto, PC.calls], by
        simpa [hpc, State.goto, PC.pins] using hl⟩
    | runner => exact ⟨[], fun _ => rfl, hb.closed (by simp [hpc, PC.pins]) ho⟩
  | leave raised hpc ho =>
    cases b with
    | thread => exact ⟨[], fun _ => rfl, hb.closed (by simp [hpc, PC.pins]) ho⟩
    | runner =>
      exact ⟨nested, fun _ => hn (by simp [hpc, PC.calls]), by
        simpa [hpc, State.unwind, PC.pins] using hl⟩
  | pin v hpc =>
    obtain rfl : nested = [] := hn (by cases b <;> simp [hpc, PC.calls])
    refine ⟨[], fun _ => rfl, ?_⟩
    cases b <;> simp_all [State.goto, State.setFile, PC.pins, hs.snapshot v hpc]
  | runnerPin v hpc =>
    obtain rfl : nested = [] := hn (by cases b <;> simp [hpc, PC.calls])
    refine ⟨[], fun _ => rfl, ?_⟩
    obtain ⟨pin, hpin⟩ := Option.isSome_iff_exists.mp (hs.pinned (by simp [hpc, PC.entered?]))
    have hv : v = some pin := (hs.runner v hpc).trans hpin
    cases b <;> simp_all [State.goto, State.setFile, PC.pins]
  | runnerUnpin hpc | unpin hpc =>
    obtain rfl : nested = [] := hn (by cases b <;> simp [hpc, PC.calls])
    refine ⟨[], fun _ => rfl, ?_⟩
    cases b <;> simp_all [State.goto, State.resetFile, PC.pins]
    exact ContextVar.levels_reset hl (by simp)
  | _ =>
    exact ⟨nested, by cases b <;> simp_all [State.goto, State.unwind, State.setLog, PC.calls], by
      cases b <;> simp_all [State.goto, State.unwind, State.setLog, State.resetLog, PC.pins,
        PC.calls]⟩

theorem settled_step (hb : Bound identity f g s) (hs : Settled s)
    (h : Step cli_verbose identity s l s') : Settled s' := by
  cases h with
  | update | read | openScope | closeScope | spawn =>
    exact ⟨hs.later, hs.before, hs.snapshot, hs.pinned, hs.runner⟩
  | begin hpc =>
    have hnew : s.pins (s.attempt + 1) = none := hs.later _ (Nat.lt_succ_self _)
    exact ⟨fun k hk => hs.later k (Nat.lt_of_succ_lt hk), fun _ => hnew, nofun, nofun, nofun⟩
  | snapshot hpc =>
    refine ⟨fun k hk => ?_, by simp [State.goto], fun v hv => ?_, fun _ => ?_, by simp [State.goto]⟩
    · have hk : s.attempt < k := hk
      simpa [State.goto, hk.ne'] using hs.later k hk
    · simpa [State.goto] using hv
    · simp [State.goto]
  | bindLog hpc =>
    refine ⟨hs.later, fun _ => hs.before (.inl hpc), ?_, ?_, ?_⟩ <;> simp [State.goto, PC.entered?]
  | aenter hpc =>
    -- the thread reads what it has pinned: the callable does not run yet
    obtain ⟨nested, hn, hl⟩ := hb.file .thread
    obtain rfl : nested = [] := hn (by simp [hpc, PC.calls])
    have hvalue : (s.file (.side .thread)).value = s.pins s.attempt :=
      ContextVar.value_of_levels (by simpa [hpc, PC.pins] using hl)
    refine ⟨hs.later, by simp [State.goto], by simp [State.goto], fun _ => ?_, fun v hv => ?_⟩
    · exact hs.pinned (by simp [hpc, PC.entered?])
    · exact (PC.runnerLogged.inj hv).symm.trans hvalue
  | _ =>
    refine ⟨hs.later, ?_, ?_, fun hp => hs.pinned ?_, ?_⟩ <;>
      simp_all [State.goto, State.unwind, PC.entered?]

/-! ## Tasks -/

/-- A task that was not created in a scope of the callable has the policy of its attempt. -/
def Inherits (s : State) : Prop :=
  ∀ n k, s.tasks n = some k → (s.pins k).isSome ∧ (s.inherited n = false →
    ∃ nested, (s.file (.task n)).levels = nested ++ [s.pins k])

/-- Where a context governs its code, it has the policy of the attempt below the code's scopes. -/
theorem Bound.governed (hb : Bound identity f g s) (hw : s.governs (.side b) = true)
    (hn : s.nested (.side b) = false) : (s.file (.side b)).value = s.pins s.attempt := by
  have hp : s.pc.pins b = true := by
    cases b <;> simp only [State.governs] at hw <;> split at hw <;> simp_all [PC.pins]
  exact ContextVar.value_of_levels (hb.closed hp hn)

theorem entered_of_governs (hw : s.governs (.side b) = true) : s.pc.entered? = true := by
  cases b <;> simp only [State.governs] at hw <;> split at hw <;> simp_all [PC.entered?]

/-- Who governs belongs to an attempt, and has its policy outside scopes of its own. -/
theorem party_policy (hb : Bound identity f g s) (hs : Settled s) (ht : Inherits s) {w : Party}
    (hw : s.governs w = true) :
    ∃ k, s.attemptOf w = some k ∧ (s.pins k).isSome ∧
      (s.nested w = false → (s.file w).value = s.pins k) := by
  cases w with
  | side b =>
    exact ⟨s.attempt, rfl, hs.pinned (entered_of_governs hw), hb.governed hw⟩
  | task n =>
    obtain ⟨k, hk⟩ := Option.isSome_iff_exists.mp hw
    obtain ⟨hsome, hlevels⟩ := ht n k hk
    refine ⟨k, hk, hsome, fun hn => ?_⟩
    rw [State.nested, Bool.or_eq_false_iff, decide_eq_false_iff_not] at hn
    obtain ⟨nested, hl⟩ := hlevels hn.1
    have hlen : nested = [] := by
      rw [hl, List.length_append, List.length_singleton] at hn
      exact List.eq_nil_of_length_eq_zero (by omega)
    exact ContextVar.value_of_levels (by rw [hl, hlen]; rfl)

theorem inherits_step (hb : Bound identity f g s) (hs : Settled s) (ht : Inherits s)
    (h : Step cli_verbose identity s l s') : Inherits s' := by
  cases h with
  | snapshot hpc =>
    intro n k hk
    obtain ⟨hsome, hlevels⟩ := ht n k hk
    have hne : k ≠ s.attempt := by
      rintro rfl
      rw [hs.before (.inr hpc)] at hsome
      exact absurd hsome (by simp)
    simpa [State.goto, hne] using And.intro hsome hlevels
  | openScope w value hw =>
    intro n k hk
    obtain ⟨hsome, hlevels⟩ := ht n k hk
    refine ⟨hsome, fun hi => ?_⟩
    obtain ⟨nested, hl⟩ := hlevels hi
    by_cases hwn : w = .task n
    · subst hwn
      exact ⟨value :: nested, by simp [State.setFile, hl]⟩
    · exact ⟨nested, by simpa [State.setFile, Ne.symm hwn] using hl⟩
  | closeScope w hw ho =>
    intro n k hk
    obtain ⟨hsome, hlevels⟩ := ht n k hk
    refine ⟨hsome, fun hi => ?_⟩
    obtain ⟨nested, hl⟩ := hlevels hi
    by_cases hwn : w = .task n
    · subst hwn
      cases nested with
      | nil => simp [State.opened, hl] at ho
      | cons v rest =>
        exact ⟨rest, by simpa [State.resetFile] using ContextVar.levels_reset hl (by simp)⟩
    · exact ⟨nested, by simpa [State.resetFile, Ne.symm hwn] using hl⟩
  | spawn w m hw hm =>
    intro n k hk
    by_cases hn : n = m
    · subst hn
      obtain ⟨k', hk', hsome, hvalue⟩ := party_policy hb hs ht hw
      obtain rfl : k' = k := by simpa [hk'] using hk
      refine ⟨hsome, fun hi => ⟨[], ?_⟩⟩
      simpa using hvalue (by simpa using hi)
    · simpa [hn] using ht n k (by simpa [hn] using hk)
  | pin v hpc | runnerPin v hpc | runnerUnpin hpc | unpin hpc =>
    intro n k hk
    simpa [State.goto, State.setFile, State.resetFile] using ht n k hk
  | _ => exact ht

end Bound

/-! ## Runs -/

/-- **The invariant of an attempt.** -/
structure Inv (identity : Nat → WorkerIdentity) (f : Side → Option Bool)
    (g : Side → Option WorkerIdentity) (s : State) : Prop where
  bound : Bound identity f g s
  settled : Settled s
  inherits : Inherits s

theorem inv_step {f : Side → Option Bool} {g : Side → Option WorkerIdentity}
    (hi : Inv identity f g s) (h : Step cli_verbose identity s l s') : Inv identity f g s' :=
  ⟨⟨bound_file hi.bound hi.settled h, bound_log hi.bound h⟩,
    settled_step hi.bound hi.settled h, inherits_step hi.bound hi.settled hi.inherits h⟩

theorem inv_init (h : Init s) :
    Inv identity (fun b => (s.file (.side b)).value) (fun b => (s.log b).value) s := by
  refine ⟨⟨fun b => ⟨[], fun _ => rfl, ?_⟩, fun b => ?_⟩, ⟨fun k _ => h.pins k, ?_, ?_, ?_, ?_⟩,
    fun n k hk => ?_⟩
  · simp [h.pc, PC.pins, ContextVar.levels, h.file b]
  · simp [h.pc, PC.logs, PC.pins, ContextVar.levels, h.log b]
  · exact fun _ => h.pins _
  · simp [h.pc]
  · simp [h.pc, PC.entered?]
  · simp [h.pc]
  · simp [h.tasks n] at hk

/-- Between attempts. -/
def PC.outside : PC → Bool
  | .loop | .entered | .between | .ended => true
  | _ => false

/-- Between attempts nothing of an attempt is bound. -/
theorem Bound.outside {f : Side → Option Bool} {g : Side → Option WorkerIdentity}
    (hb : Bound identity f g s) (hpc : s.pc.outside = true) (b : Side) :
    (s.file (.side b)).value = f b ∧ (s.log b).value = g b := by
  obtain ⟨nested, hn, hl⟩ := hb.file b
  have hlog := hb.log b
  have hbinds : s.pc.calls b = false ∧ s.pc.pins b = false ∧ s.pc.logs b = false := by
    revert hpc
    cases s.pc <;> cases b <;> simp [PC.outside, PC.calls, PC.pins, PC.logs]
  obtain rfl : nested = [] := hn hbinds.1
  simp only [hbinds.2, Bool.false_eq_true, if_false] at hl hlog
  exact ⟨ContextVar.value_of_levels hl, ContextVar.value_of_levels hlog⟩

section Runs

variable {r : Run (Step cli_verbose identity)} {i j : Nat}

/-- The entry of attempt `k`. -/
def Enters (r : Run (Step cli_verbose identity)) (j k : Nat) : Prop :=
  j < r.length ∧ r.label j = .entry ∧ (r.state j).attempt = k

theorem Step.entry (h : Step cli_verbose identity s .entry s') :
    s.pc = .logged ∧ s'.pins s.attempt = some (s.cache.getD cli_verbose) := by
  cases h with
  | snapshot hpc => exact ⟨hpc, by simp [State.goto]⟩

/-- Only an entry settles what an attempt is pinned to. -/
theorem Step.pins_cases {v : Bool} (h : Step cli_verbose identity s l s')
    (hv : s'.pins k = some v) :
    s.pins k = some v ∨ (l = .entry ∧ s.attempt = k ∧ v = s.cache.getD cli_verbose) := by
  cases h with
  | snapshot hpc =>
    by_cases hk : k = s.attempt
    · subst hk
      exact .inr ⟨rfl, rfl, by simpa [State.goto, eq_comm] using hv⟩
    · exact .inl (by simpa [State.goto, hk] using hv)
  | _ => exact .inl hv

theorem Step.pins_mono (h : Step cli_verbose identity s l s') (hs : (s.pins k).isSome) :
    (s'.pins k).isSome := by
  cases h with
  | snapshot hpc => by_cases hk : k = s.attempt <;> simp_all [State.goto]
  | _ => exact hs

variable (h0 : Init (r.state 0))
include h0

theorem inv_at (hi : i ≤ r.length) :
    Inv identity (fun b => ((r.state 0).file (.side b)).value)
      (fun b => ((r.state 0).log b).value) (r.state i) :=
  r.invariant (inv_init h0) (fun _ _ _ h hi => inv_step hi h) i hi

/-- An attempt is entered once. -/
theorem enters_unique (hi : Enters r i k) (hj : Enters r j k) : i = j := by
  have hlt : ∀ {i j}, Enters r i k → Enters r j k → ¬ i < j := by
    intro i j ⟨hi, hli, hai⟩ ⟨hj, hlj, haj⟩ hij
    have hstep : Step cli_verbose identity (r.state i) .entry (r.state (i + 1)) :=
      hli ▸ r.step_ok i hi
    have hsome : ((r.state (i + 1)).pins k).isSome := by simp [← hai, hstep.entry.2]
    have hstill : ((r.state j).pins k).isSome :=
      r.stays (P := fun s => (s.pins k).isSome) (fun _ _ _ h => h.pins_mono) hij hj.le hsome
    have hentry : Step cli_verbose identity (r.state j) .entry (r.state (j + 1)) :=
      hlj ▸ r.step_ok j hj
    rw [← haj, (inv_at h0 hj.le).settled.before (.inr hentry.entry.1)] at hstill
    exact absurd hstill (by simp)
  rcases Nat.lt_trichotomy i j with h | h | h
  · exact absurd h (hlt hi hj)
  · exact h
  · exact absurd h (hlt hj hi)

/-- **One policy for each attempt.** Every read of `FILE_VERBOSE_CONTEXT` by code of an attempt, in
the thread's context, in the Runner's or in a task created in the attempt, outside scopes that set
it, returns what the cache held at the entry of that attempt. Outside attempts the two contexts
hold the bindings they held before the first. -/
theorem attempt_policy :
    (∀ i w v, i < r.length → r.label i = .read w v → (r.state i).nested w = false →
      ∃ k j, (r.state i).attemptOf w = some k ∧ Enters r j k ∧ (∀ j', Enters r j' k → j' = j) ∧
        j < i ∧ v = some ((r.state j).cache.getD cli_verbose)) ∧
      ∀ i j, i ≤ r.length → j ≤ r.length → (r.state i).pc.outside = true →
        (r.state j).pc.outside = true → ∀ b,
          ((r.state j).file (.side b)).value = ((r.state i).file (.side b)).value ∧
            ((r.state j).log b).value = ((r.state i).log b).value := by
  refine ⟨fun i w v hi hl hn => ?_, fun i j hi hj hpi hpj b => ?_⟩
  · have hinv := inv_at h0 hi.le
    have hstep : Step cli_verbose identity (r.state i) (.read w v) (r.state (i + 1)) :=
      hl ▸ r.step_ok i hi
    obtain ⟨hw, rfl⟩ : (r.state i).governs w = true ∧ v = ((r.state i).file w).value := by
      generalize r.state (i + 1) = s' at hstep
      cases hstep with
      | read w hw => exact ⟨hw, rfl⟩
    obtain ⟨k, hk, hsome, hvalue⟩ := party_policy hinv.bound hinv.settled hinv.inherits hw
    obtain ⟨v, hv⟩ := Option.isSome_iff_exists.mp hsome
    obtain ⟨j, hj, hlj, haj, hcache⟩ := r.caused (P := fun s => s.pins k = some v)
      (E := fun s l => l = .entry ∧ s.attempt = k ∧ v = s.cache.getD cli_verbose)
      (fun _ _ _ h => h.pins_cases) (by simp [h0.pins k]) hi.le hv
    have henters : Enters r j k := ⟨hj.trans hi, hlj, haj⟩
    refine ⟨k, j, hk, henters, fun j' hj' => enters_unique h0 hj' henters, hj, ?_⟩
    rw [hvalue hn, hv, hcache]
  · obtain ⟨hfi, hgi⟩ := (inv_at h0 hi).bound.outside hpi b
    obtain ⟨hfj, hgj⟩ := (inv_at h0 hj).bound.outside hpj b
    exact ⟨hfj.trans hfi.symm, hgj.trans hgi.symm⟩

end Runs

/-! ## An update during an attempt -/

/-- A worker whose process has diagnostics enabled. -/
def enabled : State where
  cache := some true
  file _ := .init none
  log _ := .init none
  pc := .loop
  attempt := 0
  raised := false
  tasks _ := none
  inherited _ := false
  pins _ := none

/-- The identities of the worker `job`. -/
def jobIdentity (attempt : Nat) : WorkerIdentity := ⟨"job", attempt, "service.job"⟩

/-- Diagnostics are disabled while the entry runs, before it reads its policy on the Runner. -/
def updatedDuring : Run (Step false jobIdentity) :=
  let r := Run.start (Step false jobIdentity) enabled .other
  let r := r.snoc (.begin _ rfl)
  let r := r.snoc (.bindLog _ rfl)
  let r := r.snoc (.snapshot _ rfl)
  let r := r.snoc (.pin _ true rfl)
  let r := r.snoc (.verbose _ rfl)
  let r := r.snoc (.aenter _ rfl)
  let r := r.snoc (.runnerPin _ (some true) rfl)
  let r := r.snoc (.runnerVerbose _ rfl)
  let r := r.snoc (.frame _ rfl)
  let r := r.snoc (.update _ (some false))
  let r := r.snoc (.run _ rfl)
  r.snoc (.read _ (.side .runner) rfl)

theorem attempt_policy_updated :
    updatedDuring.label 11 = .read (.side .runner) (some true) ∧
      (updatedDuring.state 11).cache = some false ∧
      ∃ j, Enters updatedDuring j 1 ∧
        some true = some ((updatedDuring.state j).cache.getD false) := by
  have hinit : Init (updatedDuring.state 0) :=
    ⟨rfl, rfl, fun _ => rfl, fun _ => rfl, fun _ => rfl, fun _ => rfl⟩
  obtain ⟨k, j, hk, hj, -, -, hv⟩ :=
    (attempt_policy hinit).1 11 (.side .runner) (some true) (by decide) rfl rfl
  obtain rfl : 1 = k := Option.some.inj hk
  exact ⟨rfl, rfl, j, hj, hv⟩

end LclFastapi.Background.Attempt
