import LclFastapi.Lib.Processes
import Mathlib.Data.Rat.Cast.Order

/-!
# Trusted state files and process identities (`runtime/state.py`)

A state file holds one JSON object. `readState` is `read_state` without its error path: a file that
is absent, malformed or not an object reads as the empty record. A `PermissionError` that outlasts
the retries is a raising step of the caller's model.

* A decoded value is `Value`. Arrays and nested objects are kept as their JSON text
  (`Value.compound`): no modelled function looks inside one.
* `Value.pyEq` is Python's `==`, under which `True`, `1` and `1.0` are equal.
* `isLive` is `is_live` over the process table: the type tests of the source (`type(x) is int`
  rejects a Boolean), then one exact look at the process. NaN and the infinities, which no process
  has as a creation time, are left out of `Value.float`.
-/

namespace LclFastapi.Runtime

open Lib (Identity Proc Processes)

/-- A decoded JSON value. -/
inductive Value where
  | null
  | bool (b : Bool)
  | int (n : Int)
  | float (x : ℚ)
  | str (s : String)
  | compound (text : String)
  deriving DecidableEq

/-- The number a value compares as. -/
def Value.number? : Value → Option ℚ
  | .bool b => some (if b then 1 else 0)
  | .int n => some n
  | .float x => some x
  | _ => none

/-- Python's `==` on decoded values. -/
def Value.pyEq (a b : Value) : Bool :=
  match a.number?, b.number? with
  | some x, some y => decide (x = y)
  | none, none => decide (a = b)
  | _, _ => false

/-- A decoded JSON object, `dict[str, object]`; keys are distinct. -/
abbrev Record := List (String × Value)

/-- `record.get(key)`. -/
def Record.get (r : Record) (key : String) : Option Value := r.lookup key

/-- Python's `==` on dictionaries. -/
def Record.pyEq (a b : Record) : Bool :=
  a.length == b.length &&
    a.all fun e => match Record.get b e.1 with
      | some v => e.2.pyEq v
      | none => false

/-- What a path holds: nothing, bytes that are no JSON, or a JSON value. -/
inductive Stored where
  | absent
  | malformed
  | object (r : Record)
  | other (v : Value)
  deriving DecidableEq

/-- `read_state`. -/
def readState : Stored → Record
  | .object r => r
  | .absent | .malformed | .other _ => []

/-- `process_identity()` in the process `id`. -/
def processIdentity (id : Identity) : Record :=
  [("pid", .int id.pid), ("process_create_time", .float id.created)]

/-- `type(created) in {int, float}`, and its value. -/
def creationTime? : Value → Option ℚ
  | .int n => some n
  | .float x => some x
  | _ => none

/-- The identity a record names, when both fields have the accepted types. -/
def recordIdentity? (r : Record) : Option Identity :=
  match r.get "pid", (r.get "process_create_time").bind creationTime? with
  | some (.int pid), some created => if 0 < pid then some ⟨pid.toNat, created⟩ else none
  | _, _ => none

/-- `is_live`. -/
def isLive (os : Processes) (record : Record) : Bool :=
  match recordIdentity? record with
  | some id => os.live id
  | none => false

/-- Where `live_workers` is in its loop over the sorted observation files. -/
inductive LiveWorkers where
  /-- About to read the next file. -/
  | next (todo : List String) (result : List Record)
  /-- A record has been read and is about to be tested. -/
  | check (record : Record) (todo : List String) (result : List Record)

/-- The records `live_workers` has kept so far. -/
def LiveWorkers.result : LiveWorkers → List Record
  | .next _ result | .check _ _ result => result

/-- A record that names this service start. -/
def OfService (service_id : Value) (record : Record) : Prop :=
  ∃ sid, record.get "service_id" = some sid ∧ sid.pyEq service_id = true

/-- The listing `sorted(directory.glob("*.json"))`. -/
structure Listing (files : String → Stored) (todo : List String) : Prop where
  sorted : todo.Pairwise (· < ·)
  glob : ∀ p, p ∈ todo ↔ files p ≠ .absent

/-- One step of `live_workers`: the read of a file, or the test of its record. -/
inductive LiveWorkers.Step (os : Processes) (files : String → Stored) (service_id : Value) :
    LiveWorkers → LiveWorkers → Prop
  | read (p : String) (todo : List String) (result : List Record) :
      Step os files service_id (.next (p :: todo) result) (.check (readState (files p)) todo result)
  | keep (record : Record) (todo : List String) (result : List Record)
      (hown : OfService service_id record) (hlive : isLive os record = true) :
      Step os files service_id (.check record todo result) (.next todo (result ++ [record]))
  | skip (record : Record) (todo : List String) (result : List Record)
      (h : ¬ OfService service_id record ∨ isLive os record = false) :
      Step os files service_id (.check record todo result) (.next todo result)

variable {os : Processes} {id : Identity}

/-- What `live_workers` adds to its result is a live worker of this start. -/
theorem LiveWorkers.Step.result_cases {files : String → Stored} {sid : Value}
    {scan scan' : LiveWorkers} (h : LiveWorkers.Step os files sid scan scan') {record : Record}
    (hr : record ∈ scan'.result) :
    record ∈ scan.result ∨ (OfService sid record ∧ isLive os record = true) := by
  cases h with
  | read | skip => exact .inl hr
  | keep record' todo result hown hlive =>
    rcases List.mem_append.mp hr with hm | hm
    · exact .inl hm
    · rw [List.mem_singleton.mp hm]
      exact .inr ⟨hown, hlive⟩

/-- A live record names a live process. -/
theorem live_of_isLive {record : Record} (h : isLive os record = true) :
    ∃ w, recordIdentity? record = some w ∧ os.live w = true := by
  unfold isLive at h
  split at h
  · rename_i w hw
    exact ⟨w, hw, h⟩
  · exact absurd h (by simp)

theorem recordIdentity_processIdentity (hpos : 0 < id.pid) :
    recordIdentity? (processIdentity id) = some id := by
  simp [recordIdentity?, processIdentity, Record.get, creationTime?, List.lookup_cons, hpos]

/-- A process's own identity record is live exactly while the process is. -/
theorem isLive_processIdentity : isLive os (processIdentity id) = os.live id := by
  unfold isLive
  by_cases hpos : 0 < id.pid
  · rw [recordIdentity_processIdentity hpos]
  · have hdead : os.live id = false := eq_false_of_ne_true (mt Processes.pos_of_live hpos)
    simp [recordIdentity?, processIdentity, Record.get, creationTime?, List.lookup_cons, hpos,
      hdead]

end LclFastapi.Runtime
