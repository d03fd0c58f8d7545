import LclFastapi.Lib.Run
import LclFastapi.Runtime.State
import Mathlib.Data.List.Range

/-!
# Snowflake worker leases (`runtime/lease.py`, `cleanup_stale` of `runtime/service.py`)

The allocation protocol of one service directory as a transition system: any number of processes,
each with any number of threads (`Task`), run `WorkerIdLease.acquire`, `WorkerIdLease.release` and,
in a master, `cleanup_stale`. Each file read, liveness check, replace and unlink is one step.

* `leases.lock` (`State.lock`) is held by one task at a time. The kernel frees it when the holder's
  process dies: `Step.os` drops the holder and the activity of every process that is no longer
  live, at any program point.
* A lease object is known by its serial number (`State.grants`), so that two leases of one process
  for one id are two objects. `State.released` records that a `release` of the object has taken
  effect, `State.callers` that one was called.
* An `OSError` may leave any critical section at any of its steps (`Step.raise`).
* The sweep of `cleanup_stale` runs over an arbitrary list of paths, which covers every content the
  two directory listings can have.
-/

namespace LclFastapi.Runtime.Lease

open Lib (Identity Processes Task)

/-! ## Leases -/

/-- A file of the two swept directories. -/
inductive Path where
  /-- `state_dir / "leases" / f"{worker_id}.json"`. -/
  | lease (worker_id : Nat)
  /-- Any other JSON file of `leases` or of `worker_state_dir`. -/
  | other (name : String)
  deriving DecidableEq

/-- `WorkerIdLease`; its `path` is determined by the number. -/
structure WorkerIdLease where
  worker_id : Nat
  identity : Record
  deriving DecidableEq

/-- `WorkerIdLease.path`. -/
def WorkerIdLease.path (l : WorkerIdLease) : Path := .lease l.worker_id

/-- The range test of `acquire`; `type(x) is int` holds of every `Int`. -/
def validRange (worker_id_base worker_id_count : Int) : Bool :=
  !(decide (worker_id_base < 0) || decide (worker_id_count < 1) ||
    decide (1024 < worker_id_base + worker_id_count))

/-- `range(worker_id_base, worker_id_base + worker_id_count)`. -/
def workerIds (worker_id_base worker_id_count : Int) : List Nat :=
  List.range' worker_id_base.toNat worker_id_count.toNat

theorem mem_workerIds {base count : Int} (hv : validRange base count = true) {w : Nat} :
    w ∈ workerIds base count ↔ base ≤ w ∧ (w : Int) < base + count := by
  simp only [validRange, Bool.not_eq_true', Bool.or_eq_false_iff, decide_eq_false_iff_not] at hv
  simp only [workerIds, List.mem_range'_1]
  omega

theorem lt_of_mem_workerIds {base count : Int} (hv : validRange base count = true) {w : Nat}
    (hw : w ∈ workerIds base count) : w < 1024 := by
  have h := (mem_workerIds hv).mp hw
  simp only [validRange, Bool.not_eq_true', Bool.or_eq_false_iff, decide_eq_false_iff_not] at hv
  omega

/-! ## States -/

/-- An acquired lease object, with its owner and the range it was asked from. -/
structure Grant where
  lease : WorkerIdLease
  owner : Identity
  base : Int
  count : Int

/-- Where a task is in its current call. -/
inductive PC where
  | idle
  /-- `acquire` waits for `leases.lock`. -/
  | acquireLock (base count : Int)
  /-- `acquire` is about to read the next lease file of the remaining range. -/
  | acquireScan (base count : Int) (ids : List Nat)
  /-- `acquire` has read a lease file and is about to test its owner. -/
  | acquireCheck (base count : Int) (worker_id : Nat) (ids : List Nat) (record : Record)
  /-- `acquire` found no live owner and is about to write its own identity. -/
  | acquireWrite (base count : Int) (worker_id : Nat)
  /-- `release` of lease object `n` waits for `leases.lock`. -/
  | releaseLock (n : Nat)
  /-- `release` is about to read its lease file. -/
  | releaseRead (n : Nat)
  /-- `release` has read its lease file and is about to compare the identity. -/
  | releaseCheck (n : Nat) (record : Record)
  /-- `release` found its own identity and is about to unlink the file. -/
  | releaseUnlink (n : Nat)
  /-- `cleanup_stale` waits for `leases.lock`. -/
  | cleanupLock (paths : List Path)
  /-- `cleanup_stale` is about to read the next file of its listings. -/
  | cleanupScan (paths : List Path)
  | cleanupCheck (path : Path) (paths : List Path) (record : Record)
  /-- `cleanup_stale` found no live owner and is about to unlink the file. -/
  | cleanupUnlink (path : Path) (paths : List Path)
  /-- The call is about to leave its critical section, by return or by exception. -/
  | leave

/-- Inside `with file_lock(... "leases.lock")`. -/
def PC.inside : PC → Bool
  | .idle | .acquireLock .. | .releaseLock .. | .cleanupLock .. => false
  | _ => true

structure State where
  os : Processes
  files : Path → Stored
  /-- The holder of `leases.lock`. -/
  lock : Option Task
  pc : Task → PC
  /-- Lease objects by serial number. -/
  grants : Nat → Option Grant
  /-- The task that called `release` on a lease object. -/
  callers : Nat → Option Task
  /-- Lease objects whose `release` has taken effect. -/
  released : Nat → Bool
  /-- The next unused serial number. -/
  serial : Nat

/-- Any lease and observation files, any processes; no lease object and no call in progress. -/
def Init (s : State) : Prop :=
  s.lock = none ∧ (∀ t, s.pc t = .idle) ∧ (∀ n, s.grants n = none) ∧ (∀ n, s.callers n = none) ∧
    ∀ n, s.released n = false

/-- The task `t` moves to another program point. -/
def State.goto (s : State) (t : Task) (pc : PC) : State :=
  { s with pc := Function.update s.pc t pc }

/-- The kernel moves to `q`: processes that are not live there lose their calls and the lock. -/
def State.withOs (s : State) (q : Processes) : State :=
  { s with
    os := q
    lock := s.lock.filter fun t => q.live t.process
    pc := fun t => if q.live t.process then s.pc t else .idle }

/-- What a step does, for the runs that restrict the calls. -/
inductive Label where
  | acquire (t : Task)
  | release (t : Task) (n : Nat)
  | cleanup (t : Task)
  | inner (t : Task)
  | os

/-! ## Steps -/

/-- The atomic steps of the three operations and of the kernel. -/
inductive Step : State → Label → State → Prop
  /-- `acquire(state_dir=…, worker_id_base=base, worker_id_count=count)`. -/
  | acquire (s : State) (t : Task) (base count : Int) (hl : s.os.live t.process = true)
      (hpc : s.pc t = .idle) (hv : validRange base count = true) :
      Step s (.acquire t) (s.goto t (.acquireLock base count))
  /-- `ValueError("invalid Snowflake worker ID range")`, before the lock. -/
  | acquireInvalid (s : State) (t : Task) (base count : Int) (hl : s.os.live t.process = true)
      (hpc : s.pc t = .idle) (hv : validRange base count = false) : Step s (.acquire t) s
  | acquireEnter (s : State) (t : Task) (base count : Int) (hpc : s.pc t = .acquireLock base count)
      (hfree : s.lock = none) :
      Step s (.inner t)
        ({ s with lock := some t }.goto t (.acquireScan base count (workerIds base count)))
  /-- `read_state(path)`. -/
  | acquireRead (s : State) (t : Task) (base count : Int) (w : Nat) (ids : List Nat)
      (hpc : s.pc t = .acquireScan base count (w :: ids)) :
      Step s (.inner t)
        (s.goto t (.acquireCheck base count w ids (readState (s.files (.lease w)))))
  | acquireLive (s : State) (t : Task) (base count : Int) (w : Nat) (ids : List Nat) (r : Record)
      (hpc : s.pc t = .acquireCheck base count w ids r) (hlive : isLive s.os r = true) :
      Step s (.inner t) (s.goto t (.acquireScan base count ids))
  | acquireDead (s : State) (t : Task) (base count : Int) (w : Nat) (ids : List Nat) (r : Record)
      (hpc : s.pc t = .acquireCheck base count w ids r) (hdead : isLive s.os r = false) :
      Step s (.inner t) (s.goto t (.acquireWrite base count w))
  /-- `os.replace` of `atomic_write(path, process_identity())`; the lease object exists. -/
  | acquireWrite (s : State) (t : Task) (base count : Int) (w : Nat)
      (hpc : s.pc t = .acquireWrite base count w) :
      Step s (.inner t)
        ({ s with
            files := Function.update s.files (.lease w) (.object (processIdentity t.process))
            grants := Function.update s.grants s.serial
              (some ⟨⟨w, processIdentity t.process⟩, t.process, base, count⟩)
            serial := s.serial + 1 }.goto t .leave)
  /-- The replace succeeds and removing the temporary file raises: no lease object is returned. -/
  | acquireLost (s : State) (t : Task) (base count : Int) (w : Nat)
      (hpc : s.pc t = .acquireWrite base count w) :
      Step s (.inner t)
        ({ s with
            files := Function.update s.files (.lease w)
              (.object (processIdentity t.process)) }.goto t .leave)
  /-- Every number has a live owner: `RuntimeError`. -/
  | acquireExhausted (s : State) (t : Task) (base count : Int)
      (hpc : s.pc t = .acquireScan base count []) : Step s (.inner t) (s.goto t .leave)
  /-- The owner calls `release` on a lease object it acquired. -/
  | release (s : State) (t : Task) (n : Nat) (g : Grant) (hl : s.os.live t.process = true)
      (hpc : s.pc t = .idle) (hg : s.grants n = some g) (ho : g.owner = t.process) :
      Step s (.release t n)
        ({ s with callers := Function.update s.callers n (some t) }.goto t (.releaseLock n))
  | releaseEnter (s : State) (t : Task) (n : Nat) (hpc : s.pc t = .releaseLock n)
      (hfree : s.lock = none) :
      Step s (.inner t) ({ s with lock := some t }.goto t (.releaseRead n))
  | releaseRead (s : State) (t : Task) (n : Nat) (g : Grant) (hpc : s.pc t = .releaseRead n)
      (hg : s.grants n = some g) :
      Step s (.inner t) (s.goto t (.releaseCheck n (readState (s.files g.lease.path))))
  | releaseOurs (s : State) (t : Task) (n : Nat) (g : Grant) (r : Record)
      (hpc : s.pc t = .releaseCheck n r) (hg : s.grants n = some g)
      (heq : r.pyEq g.lease.identity = true) : Step s (.inner t) (s.goto t (.releaseUnlink n))
  | releaseForeign (s : State) (t : Task) (n : Nat) (g : Grant) (r : Record)
      (hpc : s.pc t = .releaseCheck n r) (hg : s.grants n = some g)
      (hne : r.pyEq g.lease.identity = false) :
      Step s (.inner t)
        ({ s with released := Function.update s.released n true }.goto t .leave)
  | releaseUnlink (s : State) (t : Task) (n : Nat) (g : Grant) (hpc : s.pc t = .releaseUnlink n)
      (hg : s.grants n = some g) :
      Step s (.inner t)
        ({ s with
            files := Function.update s.files g.lease.path .absent
            released := Function.update s.released n true }.goto t .leave)
  /-- A master calls `cleanup_stale`; `paths` are its two listings. -/
  | cleanup (s : State) (t : Task) (paths : List Path) (hl : s.os.live t.process = true)
      (hpc : s.pc t = .idle) : Step s (.cleanup t) (s.goto t (.cleanupLock paths))
  | cleanupEnter (s : State) (t : Task) (paths : List Path) (hpc : s.pc t = .cleanupLock paths)
      (hfree : s.lock = none) :
      Step s (.inner t) ({ s with lock := some t }.goto t (.cleanupScan paths))
  | cleanupRead (s : State) (t : Task) (p : Path) (paths : List Path)
      (hpc : s.pc t = .cleanupScan (p :: paths)) :
      Step s (.inner t) (s.goto t (.cleanupCheck p paths (readState (s.files p))))
  | cleanupLive (s : State) (t : Task) (p : Path) (paths : List Path) (r : Record)
      (hpc : s.pc t = .cleanupCheck p paths r) (hlive : isLive s.os r = true) :
      Step s (.inner t) (s.goto t (.cleanupScan paths))
  | cleanupDead (s : State) (t : Task) (p : Path) (paths : List Path) (r : Record)
      (hpc : s.pc t = .cleanupCheck p paths r) (hdead : isLive s.os r = false) :
      Step s (.inner t) (s.goto t (.cleanupUnlink p paths))
  | cleanupUnlink (s : State) (t : Task) (p : Path) (paths : List Path)
      (hpc : s.pc t = .cleanupUnlink p paths) :
      Step s (.inner t)
        ({ s with files := Function.update s.files p .absent }.goto t (.cleanupScan paths))
  | cleanupDone (s : State) (t : Task) (hpc : s.pc t = .cleanupScan []) :
      Step s (.inner t) (s.goto t .leave)
  /-- A file operation of the critical section raises. -/
  | raise (s : State) (t : Task) (hin : (s.pc t).inside = true) :
      Step s (.inner t) (s.goto t .leave)
  /-- The `finally` of `file_lock`. -/
  | leave (s : State) (t : Task) (hpc : s.pc t = .leave) :
      Step s (.inner t) ({ s with lock := none }.goto t .idle)
  /-- A process starts, dies (its locks are freed) or is reaped. -/
  | os (s : State) (q : Processes) (hq : Processes.Step s.os q) : Step s .os (s.withOs q)

end LclFastapi.Runtime.Lease
