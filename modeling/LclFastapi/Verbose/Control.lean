import LclFastapi.Lib.Run
import LclFastapi.Runtime.State

/-!
# The shared file-verbose target (`verbose/control.py`, `verbose/storage.py`, `verbose/types.py`)

One service directory holds the target in `logging-control.json`; each process caches it in its
`FileVerboseControl`. The model is the interleaving of every `__init__`, `update` and `refresh` of
any number of processes and threads.

* `logging-control.lock` excludes other updaters and is freed when its holder dies. Reading and
  replacing the target and each section under the in-memory `self.lock` are single steps.
* A target write replaces the whole file (`Step.updateWrite`) or raises and leaves it
  (`Step.updateFail` at the same point).
* `Register.update` is the abstract sequential object: what one idempotent update does to the
  target.
-/

namespace LclFastapi.Verbose

open Lib (Identity Processes Task)
open LclFastapi.Runtime (Record Stored Value processIdentity readState)

/-! ## The target file -/

/-- `FileVerboseState`; `__post_init__` admits a Boolean and a nonnegative revision. -/
structure FileVerboseState where
  enabled : Bool
  revision : Nat
  deriving DecidableEq

/-- The record `write_target` publishes. -/
def targetRecord (service_id : String) (state : FileVerboseState) : Record :=
  [("service_id", .str service_id), ("enabled", .bool state.enabled),
    ("revision", .int state.revision)]

/-- `read_target`; `none` is its `OSError`. -/
def readTarget (service_id : String) (file : Stored) : Option FileVerboseState :=
  let record := readState file
  match record.get "service_id", record.get "enabled", record.get "revision" with
  | some sid, some (.bool enabled), some (.int revision) =>
    if sid.pyEq (.str service_id) = true ∧ 0 ≤ revision then some ⟨enabled, revision.toNat⟩
    else none
  | _, _, _ => none

/-- What is written is what is read back. -/
@[simp] theorem readTarget_targetRecord (service_id : String) (state : FileVerboseState) :
    readTarget service_id (.object (targetRecord service_id state)) = some state := by
  simp [readTarget, readState, targetRecord, Record.get, List.lookup_cons, Value.pyEq,
    Value.number?]

/-- The record `observe` publishes for a process. `role` and `observed_at` depend on no state. -/
def observationRecord (id : Identity) (service_id role : String) (state : FileVerboseState)
    (observed_at : ℚ) : Record :=
  processIdentity id ++
    [("service_id", .str service_id), ("role", .str role), ("enabled", .bool state.enabled),
      ("revision", .int state.revision), ("observed_at", .float observed_at)]

/-- The cache `c` after `observe(state)`: an older value does not replace it. -/
def observed (c state : FileVerboseState) : FileVerboseState :=
  if c.revision ≤ state.revision then state else c

/-! ## The abstract register -/

namespace Register

/-- One update of the revisioned switch: nothing when the value is already set. -/
def update (a : FileVerboseState) (enabled : Bool) : FileVerboseState :=
  if enabled = a.enabled then a else ⟨enabled, a.revision + 1⟩

/-- `b` is the switch after some updates of `a`: the revision counts the changes. -/
def Later (a b : FileVerboseState) : Prop :=
  ∃ n, b.revision = a.revision + n ∧ b.enabled = (a.enabled ^^ decide (n % 2 = 1))

theorem Later.refl (a : FileVerboseState) : Later a a := ⟨0, by simp, by simp⟩

theorem Later.trans {a b c : FileVerboseState} (h : Later a b) (h' : Later b c) : Later a c := by
  obtain ⟨m, hm, hme⟩ := h
  obtain ⟨n, hn, hne⟩ := h'
  refine ⟨m + n, by omega, ?_⟩
  rw [hne, hme, Bool.xor_assoc]
  congr 1
  rcases Nat.mod_two_eq_zero_or_one m with h1 | h1 <;>
    rcases Nat.mod_two_eq_zero_or_one n with h2 | h2 <;> simp [Nat.add_mod, h1, h2]

theorem Later.update (a : FileVerboseState) (e : Bool) : Later a (update a e) := by
  unfold Register.update
  split
  · exact .refl a
  · rename_i h
    refine ⟨1, rfl, ?_⟩
    cases e <;> cases ha : a.enabled <;> simp_all

theorem Later.revision_le {a b : FileVerboseState} (h : Later a b) : a.revision ≤ b.revision := by
  obtain ⟨n, hn, -⟩ := h
  omega

theorem Later.eq_of_revision {a b : FileVerboseState} (h : Later a b)
    (hr : a.revision = b.revision) : a = b := by
  obtain ⟨n, hn, he⟩ := h
  have : n = 0 := by omega
  subst this
  cases a; cases b
  simp_all

/-- Consecutive revisions have opposite values. -/
theorem Later.opposite {a b : FileVerboseState} (h : Later a b)
    (hr : b.revision = a.revision + 1) : b.enabled = !a.enabled := by
  obtain ⟨n, hn, he⟩ := h
  have : n = 1 := by omega
  subst this
  simpa using he

end Register

/-! ## States -/

/-- Where a thread is in its current call. -/
inductive PC where
  | idle
  /-- `__init__` is about to read the target for the first time. -/
  | initRead
  /-- `refresh` is about to read the target. -/
  | refreshRead
  /-- `observe` is about to take `self.lock`. -/
  | observeCache (state : FileVerboseState)
  /-- `observe` is about to publish the value it left in the cache. -/
  | observePublish (current : FileVerboseState)
  /-- `update` is about to raise its `TypeError`. -/
  | updateReject
  /-- `update` waits for `logging-control.lock`. -/
  | updateLock (enabled : Bool)
  /-- `update` is about to read the target. -/
  | updateRead (enabled : Bool)
  /-- `update` is about to compare the revision it read with the cached one. -/
  | updateCheck (enabled : Bool) (state : FileVerboseState)
  /-- `update` is about to replace the target. -/
  | updateWrite (state : FileVerboseState)
  /-- `update` is about to store the accepted state in the cache. -/
  | updateStore (state : FileVerboseState)
  /-- `update` is about to release the lock and return. -/
  | updateReturn (state : FileVerboseState)
  /-- An exception is about to leave `update` through `file_lock`. -/
  | updateRaise
  deriving DecidableEq

/-- Between entering and leaving `file_lock(... "logging-control.lock")`. -/
def PC.updating : PC → Bool
  | .updateRead _ | .updateCheck .. | .updateWrite _ | .updateStore _ | .updateReturn _
  | .updateRaise => true
  | _ => false

structure State where
  os : Processes
  /-- `logging-control.json`. -/
  target : Stored
  /-- The holder of `logging-control.lock`. -/
  lock : Option Task
  /-- The `state` field of each process's control object, once it exists. -/
  cache : Identity → Option FileVerboseState
  /-- `logging-observations/{pid}.json`. -/
  observations : Nat → Stored
  pc : Task → PC

/-- A published target, no control object and no call in progress. -/
def Init (service_id : String) (s : State) : Prop :=
  (∃ state, s.target = .object (targetRecord service_id state)) ∧ s.lock = none ∧
    (∀ id, s.cache id = none) ∧ ∀ t, s.pc t = .idle

/-- The thread `t` moves to another program point. -/
def State.goto (s : State) (t : Task) (pc : PC) : State :=
  { s with pc := Function.update s.pc t pc }

/-- The kernel moves to `q`: processes that are not live there lose their calls and the lock. -/
def State.withOs (s : State) (q : Processes) : State :=
  { s with
    os := q
    lock := s.lock.filter fun t => q.live t.process
    pc := fun t => if q.live t.process then s.pc t else .idle }

/-- What a step does, as the callers of the control object see it. -/
inductive Label where
  /-- `update(enabled)` is called with any object. -/
  | call (t : Task) (enabled : Value)
  | ret (t : Task) (state : FileVerboseState)
  | raise (t : Task)
  /-- A step inside a call of `update`. -/
  | inner (t : Task)
  /-- A step of `__init__` or `refresh`. -/
  | refresh (t : Task)
  | os

/-- The thread that takes a step. -/
def Label.task : Label → Option Task
  | .call t _ | .ret t _ | .raise t | .inner t | .refresh t => some t
  | .os => none

/-! ## Steps -/

/-- The atomic steps of the control objects and of the kernel. -/
inductive Step (service_id : String) : State → Label → State → Prop
  /-- `FileVerboseControl(directory, service_id, role)`. -/
  | init (s : State) (t : Task) (hl : s.os.live t.process = true) (hpc : s.pc t = .idle)
      (hnew : s.cache t.process = none) : Step service_id s (.refresh t) (s.goto t .initRead)
  /-- `self.state = read_target(...)`, then `self.refresh()`. -/
  | initRead (s : State) (t : Task) (state : FileVerboseState) (hpc : s.pc t = .initRead)
      (hread : readTarget service_id s.target = some state) :
      Step service_id s (.refresh t)
        ({ s with cache := Function.update s.cache t.process (some state) }.goto t .refreshRead)
  /-- `refresh()`. -/
  | refresh (s : State) (t : Task) (c : FileVerboseState) (hl : s.os.live t.process = true)
      (hpc : s.pc t = .idle) (hc : s.cache t.process = some c) :
      Step service_id s (.refresh t) (s.goto t .refreshRead)
  | refreshRead (s : State) (t : Task) (state : FileVerboseState) (hpc : s.pc t = .refreshRead)
      (hread : readTarget service_id s.target = some state) :
      Step service_id s (.refresh t) (s.goto t (.observeCache state))
  /-- The section under `self.lock` in `observe`. -/
  | observeCache (s : State) (t : Task) (state c : FileVerboseState)
      (hpc : s.pc t = .observeCache state) (hc : s.cache t.process = some c) :
      Step service_id s (.refresh t)
        ({ s with
            cache := Function.update s.cache t.process (some (observed c state)) }.goto t
          (.observePublish (observed c state)))
  | observePublish (s : State) (t : Task) (current : FileVerboseState) (role : String)
      (observed_at : ℚ) (hpc : s.pc t = .observePublish current) :
      Step service_id s (.refresh t)
        ({ s with
            observations := Function.update s.observations t.process.pid
              (.object (observationRecord t.process service_id role current observed_at)) }.goto t
          .idle)
  /-- Reading the target or publishing the observation raises. -/
  | refreshFail (s : State) (t : Task)
      (hpc : s.pc t = .initRead ∨ s.pc t = .refreshRead ∨ ∃ c, s.pc t = .observePublish c) :
      Step service_id s (.refresh t) (s.goto t .idle)
  /-- `update(enabled)` with a Boolean. -/
  | call (s : State) (t : Task) (enabled : Bool) (c : FileVerboseState)
      (hl : s.os.live t.process = true) (hpc : s.pc t = .idle) (hc : s.cache t.process = some c) :
      Step service_id s (.call t (.bool enabled)) (s.goto t (.updateLock enabled))
  | callInvalid (s : State) (t : Task) (enabled : Value) (hl : s.os.live t.process = true)
      (hpc : s.pc t = .idle) (hne : ∀ b, enabled ≠ .bool b) :
      Step service_id s (.call t enabled) (s.goto t .updateReject)
  /-- `TypeError("enabled must be a Boolean")`. -/
  | updateReject (s : State) (t : Task) (hpc : s.pc t = .updateReject) :
      Step service_id s (.raise t) (s.goto t .idle)
  | enter (s : State) (t : Task) (enabled : Bool) (hpc : s.pc t = .updateLock enabled)
      (hfree : s.lock = none) :
      Step service_id s (.inner t) ({ s with lock := some t }.goto t (.updateRead enabled))
  /-- Opening or locking `logging-control.lock` raises. -/
  | enterFail (s : State) (t : Task) (enabled : Bool) (hpc : s.pc t = .updateLock enabled) :
      Step service_id s (.raise t) (s.goto t .idle)
  | updateRead (s : State) (t : Task) (enabled : Bool) (state : FileVerboseState)
      (hpc : s.pc t = .updateRead enabled) (hread : readTarget service_id s.target = some state) :
      Step service_id s (.inner t) (s.goto t (.updateCheck enabled state))
  /-- The revision test under `self.lock` passes; then `enabled != state.enabled`. -/
  | updateCheck (s : State) (t : Task) (enabled : Bool) (state c : FileVerboseState)
      (hpc : s.pc t = .updateCheck enabled state) (hc : s.cache t.process = some c)
      (hrev : c.revision ≤ state.revision) :
      Step service_id s (.inner t)
        (s.goto t (if enabled ≠ state.enabled then .updateWrite ⟨enabled, state.revision + 1⟩
          else .updateStore state))
  /-- `OSError("file verbose control revision moved backwards")`. -/
  | updateBackwards (s : State) (t : Task) (enabled : Bool) (state c : FileVerboseState)
      (hpc : s.pc t = .updateCheck enabled state) (hc : s.cache t.process = some c)
      (hrev : state.revision < c.revision) :
      Step service_id s (.inner t) (s.goto t .updateRaise)
  /-- `write_target` replaces the file. -/
  | updateWrite (s : State) (t : Task) (state : FileVerboseState)
      (hpc : s.pc t = .updateWrite state) :
      Step service_id s (.inner t)
        ({ s with target := .object (targetRecord service_id state) }.goto t (.updateStore state))
  /-- Reading or writing the target raises. -/
  | updateFail (s : State) (t : Task)
      (hpc : (∃ e, s.pc t = .updateRead e) ∨ ∃ state, s.pc t = .updateWrite state) :
      Step service_id s (.inner t) (s.goto t .updateRaise)
  /-- `self.state = state` under `self.lock`. -/
  | updateStore (s : State) (t : Task) (state : FileVerboseState)
      (hpc : s.pc t = .updateStore state) :
      Step service_id s (.inner t)
        ({ s with cache := Function.update s.cache t.process (some state) }.goto t
          (.updateReturn state))
  | updateReturn (s : State) (t : Task) (state : FileVerboseState)
      (hpc : s.pc t = .updateReturn state) :
      Step service_id s (.ret t state) ({ s with lock := none }.goto t .idle)
  | updateRaise (s : State) (t : Task) (hpc : s.pc t = .updateRaise) :
      Step service_id s (.raise t) ({ s with lock := none }.goto t .idle)
  /-- A process starts, dies (its lock is freed) or is reaped. -/
  | os (s : State) (q : Processes) (hq : Processes.Step s.os q) :
      Step service_id s .os (s.withOs q)

end LclFastapi.Verbose
