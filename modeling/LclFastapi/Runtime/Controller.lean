import LclFastapi.Background.Journal

/-!
# Retirement deadlines of the controller (`runtime/controller.py`, `background/journal.py`)

`ControllerLog.retire` and `ControllerLog.background_tick` with `BackgroundEvents.expired` and
`terminate_background_process`, interleaved with worker deaths, pid reuse, publications and both
clocks. The methods run on the one process-manager thread; every read of a file, of a clock or of
the process table inside them is a step of its own.

* A call of `BackgroundEvents.read` is one step that consumes any records, or consumes some and
  raises `OSError`. `Background.Journal` has its parts.
* A worker record is kept as the identity it names: nothing else in it is used here.
* `psutil.Process(pid)` is the identity that holds the pid at that moment; `kill()` signals this
  identity or raises `NoSuchProcess` when it has gone, reused pid or not.
-/

namespace LclFastapi.Runtime.Controller

open Lib (Dict Identity Processes)
open Background (JournalRecord)

/-- An entry of a controller log batch. -/
abbrev Event := Int × String

/-- `logging.ERROR`. -/
def ERROR : Int := 40

/-- The line that announces a kill. -/
def timeoutLine (w : Identity) : Event :=
  (ERROR, "background shutdown timeout: terminating worker_pid=" ++ toString w.pid)

def readFailed (error : String) : Event := (ERROR, "background journal read failed: " ++ error)

/-- Where the process-manager thread is. -/
inductive PC where
  | idle
  /-- `live_workers` in `retire`. -/
  | observing (scan : LiveWorkers)
  /-- The loop of `retire`. -/
  | arming (todo : List Identity)
  /-- `background_tick`, about to call `read`. -/
  | reading (force : Bool)
  /-- The loop of `expired`, about to call `is_live`. -/
  | expiring (force : Bool) (todo : List (Nat × JournalRecord)) (expired : List Identity)
      (events : List Event)
  /-- `expired` found the process live and is about to compare the wall clock. -/
  | expireDue (force : Bool) (pid : Nat) (record : JournalRecord)
      (todo : List (Nat × JournalRecord)) (expired : List Identity) (events : List Event)
  /-- The loop over `retirements`, about to call `is_live`. -/
  | retiring (force : Bool) (todo : List (Identity × ℚ)) (expired : List Identity)
      (events : List Event)
  /-- The worker is live; about to compare the monotonic clock. -/
  | retireDue (force : Bool) (worker : Identity) (deadline : ℚ) (todo : List (Identity × ℚ))
      (expired : List Identity) (events : List Event)
  /-- About to hand the batch to the writer. -/
  | logging (events : List Event) (expired : List Identity)
  /-- The `finally` loop; `failed` when the writer raised. -/
  | killing (todo : List Identity) (failed : Bool)
  /-- The creation time of `process` matched; about to call `kill()`. -/
  | signalling (process : Identity) (todo : List Identity) (failed : Bool)

structure State where
  os : Processes
  /-- `time.monotonic()`. -/
  clock : ℚ
  /-- `time.time()`. -/
  wall : ℚ
  /-- The files of `worker_state_dir`. -/
  observations : String → Stored
  /-- `background.stopping`. -/
  stopping : Dict Nat JournalRecord
  /-- Monotonic deadlines by worker identity. -/
  retirements : Dict Identity ℚ
  pc : PC

/-- A controller that has just been constructed. -/
structure Init (s : State) : Prop where
  stopping : s.stopping = .empty
  retirements : s.retirements = .empty
  pc : s.pc = .idle

/-- What a step does. -/
inductive Label where
  /-- `retire(record)` for a verified worker, or `retire()` for all observed ones. -/
  | retire (target : Option Identity)
  /-- `retirements.setdefault` for a worker. -/
  | arm (w : Identity)
  | retired
  | retireRaise
  /-- `background_tick(force_kill)`. -/
  | tick (force : Bool)
  | read (records : List JournalRecord)
  /-- A retiring worker is found not live. -/
  | drop (w : Identity)
  /-- A worker is selected for termination. -/
  | select (w : Identity)
  /-- The batch is handed to the writer, which succeeds or raises; no call for the empty one. -/
  | log (events : List Event) (ok : Bool)
  /-- `terminate_background_process` looks the worker's pid up. -/
  | attempt (w : Identity)
  /-- The kill signal is sent to a process. -/
  | signal (id : Identity)
  /-- `AccessDenied` ends the tick. -/
  | denied
  | ret
  /-- The writer's exception leaves the tick. -/
  | raise
  | inner
  | environment

variable (graceful_timeout_seconds : ℚ) (service_id : Value)

/-- The atomic steps of the controller and of its environment. -/
inductive Step : State → Label → State → Prop
  | retireOne (s : State) (w : Identity) (hpc : s.pc = .idle) (hseen : w ∈ s.os.seen) :
      Step s (.retire (some w)) { s with pc := .arming [w] }
  | retireAll (s : State) (todo : List String) (hpc : s.pc = .idle)
      (hlist : Listing s.observations todo) :
      Step s (.retire none) { s with pc := .observing (.next todo []) }
  | observe (s : State) (scan scan' : LiveWorkers) (hpc : s.pc = .observing scan)
      (hscan : LiveWorkers.Step s.os s.observations service_id scan scan') :
      Step s .inner { s with pc := .observing scan' }
  | observeFail (s : State) (scan : LiveWorkers) (hpc : s.pc = .observing scan) :
      Step s .retireRaise { s with pc := .idle }
  | observeDone (s : State) (result : List Record) (hpc : s.pc = .observing (.next [] result)) :
      Step s .inner { s with pc := .arming (result.filterMap recordIdentity?) }
  | arm (s : State) (w : Identity) (todo : List Identity) (hpc : s.pc = .arming (w :: todo)) :
      Step s (.arm w)
        { s with
          retirements := s.retirements.setdefault w (s.clock + graceful_timeout_seconds)
          pc := .arming todo }
  | retired (s : State) (hpc : s.pc = .arming []) : Step s .retired { s with pc := .idle }
  | tick (s : State) (force : Bool) (hpc : s.pc = .idle) :
      Step s (.tick force) { s with pc := .reading force }
  /-- `events = self.background.read()`, and the snapshot `list(self.stopping.items())`. -/
  | read (s : State) (force : Bool) (records : List JournalRecord) (hpc : s.pc = .reading force) :
      Step s (.read records)
        { s with
          stopping := records.foldl Background.stopping s.stopping
          pc := .expiring force (records.foldl Background.stopping s.stopping).entries []
            (records.map fun r => (r.level, r.message)) }
  | readFail (s : State) (force : Bool) (records : List JournalRecord) (error : String)
      (hpc : s.pc = .reading force) :
      Step s (.read records)
        { s with
          stopping := records.foldl Background.stopping s.stopping
          pc := .expiring force (records.foldl Background.stopping s.stopping).entries []
            [readFailed error] }
  | expireLive (s : State) (force : Bool) (pid : Nat) (record : JournalRecord)
      (todo : List (Nat × JournalRecord)) (expired : List Identity) (events : List Event)
      (hpc : s.pc = .expiring force ((pid, record) :: todo) expired events)
      (hlive : s.os.live record.identity = true) :
      Step s .inner { s with pc := .expireDue force pid record todo expired events }
  | expireDead (s : State) (force : Bool) (pid : Nat) (record : JournalRecord)
      (todo : List (Nat × JournalRecord)) (expired : List Identity) (events : List Event)
      (hpc : s.pc = .expiring force ((pid, record) :: todo) expired events)
      (hdead : s.os.live record.identity = false) :
      Step s .inner
        { s with stopping := s.stopping.erase pid, pc := .expiring force todo expired events }
  | expireSelect (s : State) (force : Bool) (pid : Nat) (record : JournalRecord) (deadline : ℚ)
      (todo : List (Nat × JournalRecord)) (expired : List Identity) (events : List Event)
      (hpc : s.pc = .expireDue force pid record todo expired events)
      (hd : record.deadline = some deadline) (hdue : force = true ∨ deadline ≤ s.wall) :
      Step s (.select record.identity)
        { s with
          stopping := s.stopping.erase pid
          pc := .expiring force todo (expired ++ [record.identity]) events }
  | expireKeep (s : State) (pid : Nat) (record : JournalRecord) (deadline : ℚ)
      (todo : List (Nat × JournalRecord)) (expired : List Identity) (events : List Event)
      (hpc : s.pc = .expireDue false pid record todo expired events)
      (hd : record.deadline = some deadline) (hdue : s.wall < deadline) :
      Step s .inner { s with pc := .expiring false todo expired events }
  /-- The snapshot `list(self.retirements.items())`. -/
  | expired (s : State) (force : Bool) (expired : List Identity) (events : List Event)
      (hpc : s.pc = .expiring force [] expired events) :
      Step s .inner { s with pc := .retiring force s.retirements.entries expired events }
  | retireLive (s : State) (force : Bool) (w : Identity) (deadline : ℚ)
      (todo : List (Identity × ℚ)) (expired : List Identity) (events : List Event)
      (hpc : s.pc = .retiring force ((w, deadline) :: todo) expired events)
      (hlive : s.os.live w = true) :
      Step s .inner { s with pc := .retireDue force w deadline todo expired events }
  | retireDead (s : State) (force : Bool) (w : Identity) (deadline : ℚ)
      (todo : List (Identity × ℚ)) (expired : List Identity) (events : List Event)
      (hpc : s.pc = .retiring force ((w, deadline) :: todo) expired events)
      (hdead : s.os.live w = false) :
      Step s (.drop w)
        { s with retirements := s.retirements.erase w, pc := .retiring force todo expired events }
  | retireSelect (s : State) (force : Bool) (w : Identity) (deadline : ℚ)
      (todo : List (Identity × ℚ)) (expired : List Identity) (events : List Event)
      (hpc : s.pc = .retireDue force w deadline todo expired events)
      (hdue : force = true ∨ deadline ≤ s.clock) :
      Step s (.select w)
        { s with
          retirements := s.retirements.erase w
          pc := .retiring force todo (expired ++ [w]) events }
  | retireKeep (s : State) (w : Identity) (deadline : ℚ) (todo : List (Identity × ℚ))
      (expired : List Identity) (events : List Event)
      (hpc : s.pc = .retireDue false w deadline todo expired events) (hdue : s.clock < deadline) :
      Step s .inner { s with pc := .retiring false todo expired events }
  /-- The selection is deduplicated and its lines are added to the batch. -/
  | compose (s : State) (force : Bool) (expired : List Identity) (events : List Event)
      (hpc : s.pc = .retiring force [] expired events) :
      Step s .inner
        { s with
          pc := .logging (events ++ (Dict.distinct expired).map timeoutLine)
            (Dict.distinct expired) }
  | log (s : State) (events : List Event) (expired : List Identity) (ok : Bool)
      (hpc : s.pc = .logging events expired) (hok : events = [] → ok = true) :
      Step s (.log events ok) { s with pc := .killing expired !ok }
  /-- `psutil.Process(pid)` with the recorded creation time. -/
  | lookup (s : State) (w : Identity) (todo : List Identity) (failed : Bool) (p : Lib.Proc)
      (hpc : s.pc = .killing (w :: todo) failed) (htable : s.os.table w.pid = some p)
      (hcreated : p.created = w.created) :
      Step s (.attempt w) { s with pc := .signalling ⟨w.pid, p.created⟩ todo failed }
  /-- `NoSuchProcess`, or another creation time. -/
  | lookupOther (s : State) (w : Identity) (todo : List Identity) (failed : Bool)
      (hpc : s.pc = .killing (w :: todo) failed)
      (hother : ∀ p, s.os.table w.pid = some p → p.created ≠ w.created) :
      Step s (.attempt w) { s with pc := .killing todo failed }
  | signal (s : State) (id : Identity) (todo : List Identity) (failed : Bool) (p : Lib.Proc)
      (hpc : s.pc = .signalling id todo failed) (htable : s.os.table id.pid = some p)
      (hcreated : p.created = id.created) :
      Step s (.signal id) { s with pc := .killing todo failed }
  /-- `kill()` raises `NoSuchProcess`. -/
  | gone (s : State) (id : Identity) (todo : List Identity) (failed : Bool)
      (hpc : s.pc = .signalling id todo failed)
      (hgone : ∀ p, s.os.table id.pid = some p → p.created ≠ id.created) :
      Step s .inner { s with pc := .killing todo failed }
  | denied (s : State) (hpc : (∃ w todo failed, s.pc = .killing (w :: todo) failed) ∨
        ∃ id todo failed, s.pc = .signalling id todo failed) :
      Step s .denied { s with pc := .idle }
  | ret (s : State) (hpc : s.pc = .killing [] false) : Step s .ret { s with pc := .idle }
  | raise (s : State) (hpc : s.pc = .killing [] true) : Step s .raise { s with pc := .idle }
  | os (s : State) (q : Processes) (hq : Processes.Step s.os q) :
      Step s .environment { s with os := q }
  | time (s : State) (clock wall : ℚ) (hmono : s.clock ≤ clock) :
      Step s .environment { s with clock := clock, wall := wall }
  | publish (s : State) (p : String) (content : Stored) :
      Step s .environment
        { s with observations := Function.update s.observations p content }

end LclFastapi.Runtime.Controller
