import LclFastapi.Lib.Run
import LclFastapi.Verbose.Control

/-!
# The service scope of a master (`runtime/service.py`)

`service_runtime` as a transition system: any number of master processes of one service directory
run it, one start per process, with every file operation a step of its own.

* `service.lock` is taken without waiting and held to the end of the scope; the kernel frees it when
  its holder dies. `Step.os` is also the crash of a master between any two operations.
* An operation of the start may raise, and so may the body; the `finally` then runs (`PC.check`).
  An operation of the `finally` may raise too, and skips the rest of it (`Step.cleanFail`).
* `token_path.write_text` truncates the file before it writes. `private_file` restricts the access
  to the existing file.
* A `service_id` is fresh: no file and no earlier start has it. Others (workers, the command line)
  publish markers, observations and targets at any time, with the `service_id` of a start begun
  before. Readers change nothing.
-/

namespace LclFastapi.Runtime.Service

open Lib (Identity Processes)
open LclFastapi.Verbose (FileVerboseState targetRecord)

/-! ## Starts and files -/

/-- One complete start: its master process and what it has generated. -/
structure Start where
  process : Identity
  service_id : String
  /-- `secrets.token_urlsafe(32)`. -/
  secret : String
  /-- The fields of the record that come from the settings and the clock. -/
  settings : Record
  deriving DecidableEq

/-- `process_identity()` updated with the service's fields. -/
def Start.identity (s : Start) : Record :=
  processIdentity s.process ++ ("service_id", .str s.service_id) :: s.settings

/-- `control.token`. -/
structure Token where
  /-- The access has been restricted by `private_file`. -/
  restricted : Bool
  content : String
  deriving DecidableEq

/-- The files of `state_dir`, with the pid file. -/
structure Files where
  runtime : Stored
  token : Option Token
  shutdown : Stored
  reload : Stored
  /-- `logging-control.json`. -/
  control : Stored
  /-- `logging-observations/*.json`. -/
  observations : String → Stored
  pid : Option String

/-- `read_state(path).get("service_id") == identity["service_id"]`. -/
def ofStart (file : Stored) (s : Start) : Prop :=
  ∃ v, (readState file).get "service_id" = some v ∧ v.pyEq (.str s.service_id) = true

instance (file : Stored) (s : Start) : Decidable (ofStart file s) :=
  decidable_of_iff
    (((readState file).get "service_id").any (fun v => v.pyEq (.str s.service_id)) = true)
    (Option.any_eq_true ..)

/-- `shutdown_requested`. -/
def shutdownRequested (f : Files) (s : Start) : Prop := ofStart f.shutdown s

/-- The test of `reload.json` in `watch_worker_shutdown`, in the worker `w` of the start. -/
def reloadRequested (f : Files) (s : Start) (w : Identity) : Prop :=
  ofStart f.reload s ∧ ∃ p c, (readState f.reload).get "pid" = some p ∧
    p.pyEq (.int w.pid) = true ∧ (readState f.reload).get "process_create_time" = some c ∧
    c.pyEq (.float w.created) = true

/-- The `service_id` that a file carries. -/
def serviceId? (file : Stored) : Option String :=
  match (readState file).get "service_id" with
  | some (.str sid) => some sid
  | _ => none

/-- A file carries no other `service_id` than those of `ids`. -/
def KnownBy (ids : Set String) (file : Stored) : Prop :=
  ∀ sid, serviceId? file = some sid → sid ∈ ids

/-! ## States -/

/-- Where a master is in `service_runtime`; up to `serving`, about to do the named operation. -/
inductive PC where
  | idle
  | unlinkShutdown
  | unlinkReload
  /-- `token_path.touch()`. -/
  | touch
  /-- `private_file(token_path)`. -/
  | restrict
  /-- `write_text` opens the token for writing. -/
  | truncate
  | write
  /-- `atomic_write(runtime_path, identity)`. -/
  | publish
  | target
  | pid
  /-- In the body. -/
  | serving
  /-- At the test of the `finally`. -/
  | check
  /-- `cleanup_stale`, which leaves the files here alone. -/
  | cleanup
  | removeRuntime
  | removeShutdown
  | removeReload
  | removeControl
  | removeObservations (todo : List String)
  | removePid
  | removeToken
  /-- About to release `service.lock`; `left` when the test or the removal of `runtime.json` has
  raised. -/
  | unlock (left : Bool)
  | over_ (left : Bool)
  deriving DecidableEq

/-- In the `try` of the scope. -/
def PC.starting : PC → Bool
  | .unlinkShutdown | .unlinkReload | .touch | .restrict | .truncate | .write | .publish | .target
  | .pid | .serving => true
  | _ => false

/-- In the `finally` of the scope. -/
def PC.cleaning : PC → Bool
  | .check | .cleanup | .removeRuntime | .removeShutdown | .removeReload | .removeControl
  | .removeObservations _ | .removePid | .removeToken => true
  | _ => false

/-- Inside `with file_lock(directory / "service.lock", blocking=False)`. -/
def PC.inside (pc : PC) : Bool := pc.starting || pc.cleaning || match pc with
  | .unlock _ => true
  | _ => false

/-- Past the removal of `runtime.json`, or past a test that found another's. -/
def PC.removed : PC → Bool
  | .removeShutdown | .removeReload | .removeControl | .removeObservations _ | .removePid
  | .removeToken | .unlock false => true
  | _ => false

structure State where
  os : Processes
  /-- The holder of `service.lock`. -/
  lock : Option Identity
  files : Files
  /-- The start of each master process, once begun. -/
  start : Identity → Option Start
  /-- The service ids handed out so far, those of stale files included. -/
  ids : Set String
  pc : Identity → PC

/-- Any files, and no start under way. -/
structure Init (s : State) : Prop where
  lock : s.lock = none
  start : ∀ p, s.start p = none
  pc : ∀ p, s.pc p = .idle
  runtime : KnownBy s.ids s.files.runtime
  shutdown : KnownBy s.ids s.files.shutdown
  reload : KnownBy s.ids s.files.reload

/-- The master `p` moves on. -/
def State.goto (s : State) (p : Identity) (pc : PC) : State :=
  { s with pc := Function.update s.pc p pc }

/-- The master `p` has done a file operation. -/
def State.did (s : State) (p : Identity) (f : Files) (pc : PC) : State :=
  { s with files := f }.goto p pc

/-- The kernel moves to `q`: processes that are not live there stop and lose the lock. -/
def State.withOs (s : State) (q : Processes) : State :=
  { s with
    os := q
    lock := s.lock.filter fun p => q.live p
    pc := fun p => if q.live p then s.pc p else .idle }

/-- What a step does. -/
inductive Label where
  /-- The lock is taken and the identity is generated. -/
  | begin (p : Identity)
  | inner (p : Identity)
  /-- The secret is written. -/
  | write (p : Identity)
  /-- A file is removed after the test of the `finally`. -/
  | remove (p : Identity)
  /-- An operation of the `finally` raises. -/
  | cleanFail (p : Identity)
  | left (p : Identity)
  /-- Another process publishes. -/
  | other
  | os

/-! ## Steps -/

inductive Step : State → Label → State → Prop
  /-- `file_lock` succeeds; one start per master process. -/
  | begin (s : State) (start : Start) (hl : s.os.live start.process = true)
      (hpc : s.pc start.process = .idle) (hnew : s.start start.process = none)
      (hfree : s.lock = none) (hfresh : start.service_id ∉ s.ids) :
      Step s (.begin start.process)
        ({ s with
            lock := some start.process
            start := Function.update s.start start.process (some start)
            ids := insert start.service_id s.ids }.goto start.process .unlinkShutdown)
  | unlinkShutdown (s : State) (p : Identity) (hpc : s.pc p = .unlinkShutdown) :
      Step s (.inner p) (s.did p { s.files with shutdown := .absent } .unlinkReload)
  | unlinkReload (s : State) (p : Identity) (hpc : s.pc p = .unlinkReload) :
      Step s (.inner p) (s.did p { s.files with reload := .absent } .touch)
  | touch (s : State) (p : Identity) (hpc : s.pc p = .touch) :
      Step s (.inner p)
        (s.did p { s.files with token := some (s.files.token.getD ⟨false, ""⟩) } .restrict)
  | restrict (s : State) (p : Identity) (t : Token) (hpc : s.pc p = .restrict)
      (ht : s.files.token = some t) :
      Step s (.inner p)
        (s.did p { s.files with token := some { t with restricted := true } } .truncate)
  | truncate (s : State) (p : Identity) (hpc : s.pc p = .truncate) :
      Step s (.inner p)
        (s.did p { s.files with token := some ⟨(s.files.token.getD ⟨false, ""⟩).restricted, ""⟩ }
          .write)
  | write (s : State) (p : Identity) (start : Start) (t : Token) (hpc : s.pc p = .write)
      (hs : s.start p = some start) (ht : s.files.token = some t) :
      Step s (.write p)
        (s.did p { s.files with token := some { t with content := start.secret } } .publish)
  | publish (s : State) (p : Identity) (start : Start) (hpc : s.pc p = .publish)
      (hs : s.start p = some start) :
      Step s (.inner p) (s.did p { s.files with runtime := .object start.identity } .target)
  | target (s : State) (p : Identity) (start : Start) (enabled : Bool) (hpc : s.pc p = .target)
      (hs : s.start p = some start) :
      Step s (.inner p)
        (s.did p
          { s.files with control := .object (targetRecord start.service_id ⟨enabled, 0⟩) } .pid)
  | pid (s : State) (p : Identity) (hpc : s.pc p = .pid) :
      Step s (.inner p) (s.did p { s.files with pid := some (toString p.pid) } .serving)
  /-- The body ends, or it or an operation of the start raises; a failed write leaves any text. -/
  | leave (s : State) (p : Identity) (hpc : (s.pc p).starting = true) :
      Step s (.inner p) (s.goto p .check)
  | writeFail (s : State) (p : Identity) (t : Token) (text : String) (hpc : s.pc p = .write)
      (ht : s.files.token = some t) :
      Step s (.inner p)
        (s.did p { s.files with token := some { t with content := text } } .check)
  | check (s : State) (p : Identity) (start : Start) (hpc : s.pc p = .check)
      (hs : s.start p = some start) (hown : ofStart s.files.runtime start) :
      Step s (.inner p) (s.goto p .cleanup)
  /-- `runtime.json` names no or another start: only the token goes. -/
  | checkOther (s : State) (p : Identity) (start : Start) (hpc : s.pc p = .check)
      (hs : s.start p = some start) (hown : ¬ ofStart s.files.runtime start) :
      Step s (.inner p) (s.goto p .removeToken)
  | cleanup (s : State) (p : Identity) (hpc : s.pc p = .cleanup) :
      Step s (.inner p) (s.goto p .removeRuntime)
  | removeRuntime (s : State) (p : Identity) (hpc : s.pc p = .removeRuntime) :
      Step s (.remove p) (s.did p { s.files with runtime := .absent } .removeShutdown)
  | removeShutdown (s : State) (p : Identity) (hpc : s.pc p = .removeShutdown) :
      Step s (.remove p) (s.did p { s.files with shutdown := .absent } .removeReload)
  | removeReload (s : State) (p : Identity) (hpc : s.pc p = .removeReload) :
      Step s (.remove p) (s.did p { s.files with reload := .absent } .removeControl)
  /-- `logging-control.json` goes, and the observations are listed. -/
  | removeControl (s : State) (p : Identity) (todo : List String) (hpc : s.pc p = .removeControl)
      (hglob : ∀ path, path ∈ todo ↔ s.files.observations path ≠ .absent) :
      Step s (.remove p)
        (s.did p { s.files with control := .absent } (.removeObservations todo))
  | removeObservation (s : State) (p : Identity) (start : Start) (path : String)
      (todo : List String) (hpc : s.pc p = .removeObservations (path :: todo))
      (hs : s.start p = some start) (hown : ofStart (s.files.observations path) start) :
      Step s (.remove p)
        (s.did p
          { s.files with observations := Function.update s.files.observations path .absent }
          (.removeObservations todo))
  | keepObservation (s : State) (p : Identity) (start : Start) (path : String)
      (todo : List String) (hpc : s.pc p = .removeObservations (path :: todo))
      (hs : s.start p = some start) (hown : ¬ ofStart (s.files.observations path) start) :
      Step s (.inner p) (s.goto p (.removeObservations todo))
  | observed (s : State) (p : Identity) (hpc : s.pc p = .removeObservations []) :
      Step s (.inner p) (s.goto p .removePid)
  | removePid (s : State) (p : Identity) (hpc : s.pc p = .removePid) :
      Step s (.remove p) (s.did p { s.files with pid := none } .removeToken)
  /-- `token_path.unlink`, outside the test. -/
  | removeToken (s : State) (p : Identity) (hpc : s.pc p = .removeToken) :
      Step s (.inner p) (s.did p { s.files with token := none } (.unlock false))
  | cleanFail (s : State) (p : Identity) (hpc : (s.pc p).cleaning = true) :
      Step s (.cleanFail p) (s.goto p (.unlock !(s.pc p).removed))
  | unlock (s : State) (p : Identity) (left : Bool) (hpc : s.pc p = .unlock left) :
      Step s (.left p) ({ s with lock := none }.goto p (.over_ left))
  /-- Others publish markers, targets and observations of starts begun before. -/
  | other (s : State) (shutdown reload control : Stored) (observations : String → Stored)
      (hs : KnownBy s.ids shutdown) (hr : KnownBy s.ids reload) :
      Step s .other
        { s with
          files :=
            { s.files with
              shutdown := shutdown, reload := reload, control := control
              observations := observations } }
  /-- A process starts, dies or is reaped. -/
  | os (s : State) (q : Processes) (hq : Processes.Step s.os q) : Step s .os (s.withOs q)

end LclFastapi.Runtime.Service
