import LclFastapi.Lib.Run
import LclFastapi.Runtime.State

/-!
# The hot-reload watcher (`runtime/reload.py`)

`ReloadWatcher.tick` in the owning process, interleaved with worker births, deaths, publications,
pid reuse and the shutdown marker. Every file read, liveness check, signal and log call of a tick is
one step.

* `Watch` holds what does not change: the roots, the resolution of paths and the runtime.
* A tick may raise at any of its calls. The callers stop the service then. Here further ticks may
  follow, except after a raise that separates an effect from its record (`PC.failed`): between
  taking a batch and recording it, or between issuing a retirement and recording it.
* The shutdown marker of a start stays once it is there.
-/

namespace LclFastapi.Runtime.Reload

open Lib (Identity Processes)

/-! ## Accepted changes -/

inductive Change where
  | added | modified | deleted

/-- What a watcher works with. -/
structure Watch where
  /-- The parts of each selected root. -/
  reload_dirs : List (List String)
  /-- The parts of `Path(filename).resolve()`; `none` is its `OSError`. -/
  resolve : String → Option (List String)
  service_id : Value
  /-- `self.identity["runtime"] == "uvicorn"`. -/
  uvicorn : Bool

/-- `PurePath.suffix`: from the last dot on, unless only dots precede it. -/
def suffix (name : String) : String :=
  let rev := name.toList.reverse
  let ext := rev.takeWhile (· ≠ '.')
  match rev.drop ext.length with
  | '.' :: stem => if stem.any (· ≠ '.') then String.ofList ('.' :: ext.reverse) else ""
  | _ => ""

/-- `accept_change`. -/
def acceptChange (watch : Watch) (_change : Change) (filename : String) : Option Bool :=
  (watch.resolve filename).map fun path =>
    suffix (path.getLast?.getD "") == ".py" && watch.reload_dirs.any (·.isPrefixOf path)

/-- `any(self.accept_change(...) for ...)`, which stops at the first accepted change. -/
def anyAccepted (watch : Watch) : List (Change × String) → Option Bool
  | [] => some false
  | (change, filename) :: changes =>
    match acceptChange watch change filename with
    | none => none
    | some true => some true
    | some false => anyAccepted watch changes

/-- A batch with an accepted Python change. -/
def Accepted (watch : Watch) (changes : List (Change × String)) : Prop :=
  ∃ c ∈ changes, acceptChange watch c.1 c.2 = some true

theorem anyAccepted_iff {watch : Watch} {changes : List (Change × String)} {b : Bool}
    (h : anyAccepted watch changes = some b) : b = true ↔ Accepted watch changes := by
  induction changes with
  | nil =>
    obtain rfl : false = b := Option.some.inj h
    simp [Accepted]
  | cons c changes ih =>
    obtain ⟨change, filename⟩ := c
    rw [anyAccepted] at h
    cases hc : acceptChange watch change filename with
    | none => simp [hc] at h
    | some accepted =>
      cases accepted with
      | true =>
        simp only [hc, Option.some.injEq] at h
        subst h
        simp [Accepted, hc]
      | false =>
        simp only [hc] at h
        rw [ih h]
        simp [Accepted, hc]

/-! ## States -/

/-- Where the master is in `tick`. -/
inductive PC where
  | idle
  /-- About to look for the shutdown marker. -/
  | starting
  /-- About to take a batch. -/
  | watching
  /-- About to log the first batch. -/
  | ready (changes : List (Change × String))
  | filtering (changes : List (Change × String))
  /-- About to test the worker in `retiring`. -/
  | checking
  /-- About to list the observations. -/
  | listing
  | scanning (scan : LiveWorkers)
  /-- A retirement is due; about to look for the marker again. -/
  | deciding (worker : Record)
  /-- About to call `controller_retiring`. -/
  | arming (worker : Record)
  /-- About to publish `reload.json`. -/
  | writing (worker : Record)
  /-- About to look the worker's pid up. -/
  | looking (worker : Record)
  /-- About to call `send_signal` on a process. -/
  | signalling (process : Identity) (worker : Record)
  /-- The retirement is issued; about to log and record it. -/
  | logging (worker : Record)
  | failed

structure State where
  os : Processes
  /-- `shutdown.json`. -/
  shutdown : Stored
  /-- `reload.json`. -/
  reload : Stored
  /-- The files of `worker_state_dir`. -/
  workers : String → Stored
  pending : Bool
  started : Bool
  retiring : Option Record
  pc : PC

/-- `shutdown_requested`. -/
def ShutdownRequested (watch : Watch) (shutdown : Stored) : Prop :=
  OfService watch.service_id (readState shutdown)

/-- A watcher that has just been constructed. -/
structure Init (s : State) : Prop where
  pending : s.pending = false
  retiring : s.retiring = none
  pc : s.pc = .idle

/-- What a step does. -/
inductive Label where
  | tick
  /-- A batch is consumed. -/
  | batch (changes : List (Change × String))
  /-- A retirement is issued: the process it reaches. -/
  | issue (worker : Record) (target : Identity)
  | ret
  | raise
  | inner
  | environment

/-! ## Steps -/

/-- The atomic steps of the watcher and of its environment. -/
inductive Step (watch : Watch) : State → Label → State → Prop
  | tick (s : State) (hpc : s.pc = .idle) : Step watch s .tick { s with pc := .starting }
  | shutdown (s : State) (hpc : s.pc = .starting) (h : ShutdownRequested watch s.shutdown) :
      Step watch s .ret { s with pc := .idle }
  | start (s : State) (hpc : s.pc = .starting) (h : ¬ ShutdownRequested watch s.shutdown) :
      Step watch s .inner { s with pc := .watching }
  /-- `next(self.changes)`. -/
  | batch (s : State) (changes : List (Change × String)) (hpc : s.pc = .watching) :
      Step watch s (.batch changes)
        { s with pc := if s.started then .filtering changes else .ready changes }
  /-- `controller_event("hot-reload watcher ready")`. -/
  | ready (s : State) (changes : List (Change × String)) (hpc : s.pc = .ready changes) :
      Step watch s .inner { s with started := true, pc := .filtering changes }
  | filter (s : State) (changes : List (Change × String)) (accepted : Bool)
      (hpc : s.pc = .filtering changes) (h : anyAccepted watch changes = some accepted) :
      Step watch s .inner { s with pending := s.pending || accepted, pc := .checking }
  /-- The retiring worker is still live. -/
  | waiting (s : State) (worker : Record) (hpc : s.pc = .checking)
      (hretiring : s.retiring = some worker) (hlive : isLive s.os worker = true) :
      Step watch s .ret { s with pc := .idle }
  | gone (s : State) (hpc : s.pc = .checking)
      (hgone : ∀ worker, s.retiring = some worker → isLive s.os worker = false) :
      Step watch s .inner { s with pc := .listing }
  | list (s : State) (todo : List String) (hpc : s.pc = .listing)
      (hlist : Listing s.workers todo) :
      Step watch s .inner { s with pc := .scanning (.next todo []) }
  | scan (s : State) (scan scan' : LiveWorkers) (hpc : s.pc = .scanning scan)
      (hscan : LiveWorkers.Step s.os s.workers watch.service_id scan scan') :
      Step watch s .inner { s with pc := .scanning scan' }
  | noWorkers (s : State) (hpc : s.pc = .scanning (.next [] [])) :
      Step watch s .ret { s with pc := .idle }
  /-- `self.retiring = None`, and nothing is pending. -/
  | settled (s : State) (worker : Record) (rest : List Record)
      (hpc : s.pc = .scanning (.next [] (worker :: rest))) (hpending : s.pending = false) :
      Step watch s .ret { s with retiring := none, pc := .idle }
  | due (s : State) (worker : Record) (rest : List Record)
      (hpc : s.pc = .scanning (.next [] (worker :: rest))) (hpending : s.pending = true) :
      Step watch s .inner { s with retiring := none, pc := .deciding worker }
  | shutdownSeen (s : State) (worker : Record) (hpc : s.pc = .deciding worker)
      (h : ShutdownRequested watch s.shutdown) : Step watch s .ret { s with pc := .idle }
  | decide (s : State) (worker : Record) (hpc : s.pc = .deciding worker)
      (h : ¬ ShutdownRequested watch s.shutdown) :
      Step watch s .inner { s with pc := .arming worker }
  | armed (s : State) (worker : Record) (hpc : s.pc = .arming worker) :
      Step watch s .inner
        { s with pc := if watch.uvicorn then .writing worker else .looking worker }
  /-- `atomic_write(... "reload.json", worker)`, which names its target. -/
  | write (s : State) (worker : Record) (target : Identity) (hpc : s.pc = .writing worker)
      (htarget : recordIdentity? worker = some target) :
      Step watch s (.issue worker target) { s with reload := .object worker, pc := .logging worker }
  /-- `psutil.Process(pid)` has the recorded creation time. -/
  | lookup (s : State) (worker : Record) (id : Identity) (p : Lib.Proc)
      (hpc : s.pc = .looking worker) (hid : recordIdentity? worker = some id)
      (htable : s.os.table id.pid = some p) (hcreated : p.created = id.created) :
      Step watch s .inner { s with pc := .signalling ⟨id.pid, p.created⟩ worker }
  /-- The pid has been reused, or is free. -/
  | reused (s : State) (worker : Record) (id : Identity) (hpc : s.pc = .looking worker)
      (hid : recordIdentity? worker = some id)
      (hother : ∀ p, s.os.table id.pid = some p → p.created ≠ id.created) :
      Step watch s .ret { s with pc := .idle }
  /-- `send_signal(SIGTERM)` is delivered. -/
  | signal (s : State) (process : Identity) (worker : Record) (p : Lib.Proc)
      (hpc : s.pc = .signalling process worker) (htable : s.os.table process.pid = some p)
      (hcreated : p.created = process.created) :
      Step watch s (.issue worker process) { s with pc := .logging worker }
  /-- `NoSuchProcess`. -/
  | vanished (s : State) (process : Identity) (worker : Record)
      (hpc : s.pc = .signalling process worker)
      (hgone : ∀ p, s.os.table process.pid = some p → p.created ≠ process.created) :
      Step watch s .ret { s with pc := .idle }
  /-- The retirement is logged, and recorded. -/
  | logged (s : State) (worker : Record) (hpc : s.pc = .logging worker) :
      Step watch s .ret { s with retiring := some worker, pending := false, pc := .idle }
  /-- A read, the native watcher, `controller_retiring` or the signal raises. -/
  | raise (s : State)
      (hpc : s.pc = .starting ∨ s.pc = .watching ∨ s.pc = .listing ∨
        (∃ scan, s.pc = .scanning scan) ∨ (∃ worker, s.pc = .deciding worker) ∨
        (∃ worker, s.pc = .arming worker) ∨ (∃ worker, s.pc = .writing worker) ∨
        (∃ worker, s.pc = .looking worker) ∨ ∃ process worker, s.pc = .signalling process worker) :
      Step watch s .raise { s with pc := .idle }
  /-- `accept_change` or a log call raises. -/
  | fail (s : State)
      (hpc : (∃ changes, s.pc = .ready changes) ∨
        (∃ changes, s.pc = .filtering changes ∧ anyAccepted watch changes = none) ∨
        ∃ worker, s.pc = .logging worker) :
      Step watch s .raise { s with pc := .failed }
  | os (s : State) (q : Processes) (hq : Processes.Step s.os q) :
      Step watch s .environment { s with os := q }
  | publish (s : State) (p : String) (content : Stored) :
      Step watch s .environment { s with workers := Function.update s.workers p content }
  | mark (s : State) (content : Stored)
      (hkeep : ShutdownRequested watch s.shutdown → ShutdownRequested watch content) :
      Step watch s .environment { s with shutdown := content }

end LclFastapi.Runtime.Reload
