import LclFastapi.Lib.Dict
import LclFastapi.Lib.Message
import LclFastapi.Lib.Processes
import LclFastapi.Lib.Replay
import LclFastapi.Lib.Run
import Mathlib.Tactic.IntervalCases

/-!
# Worker transitions in the controller log (`ControllerLog.tick`)

A tick that observes compares the live workers with those of the observation before, keyed by pid
and creation time, and reports what has changed. Its messages name pids only.

* A worker record is kept as the identity it names and what `record.get("log_files")` is, of any
  type `L` with the `==` and the `str` that Python has for it.
* The workers that are gone are reported in any order (`downs`): the code iterates over a set.
* A tick before its deadline, or one that raises before it compares, observes nothing.
* A tick composes a batch, keeps the workers it has seen and hands the batch to `emit`, which logs
  it message by message or raises after some of them.

Results:
* **`replay_latest`**: replaying the batches from the start never fails and ends with the pids of
  the latest observation. So do the messages logged, until an emission raises. The number in the
  heartbeat is that of the workers, and the rotations reported are those of the workers in two
  consecutive observations whose `log_files` differ. Numbers are read back from the text.
* `lost_not_replayed`: after an emission that raised, the messages logged need not replay.
* `replay_batch`: the step of it. A pid that goes to a new process is first taken down, because
  every `worker down` precedes every `worker up`.
-/

namespace LclFastapi.Runtime.Transitions

open Lib (Change Dict Identity Run replay)
open Lib.Message (Apart Ends after? after?_append after?_apart numberAfter? numberAfter?_append
  numberAfter?_apart numbered? numbered?_append numbered?_apart)

/-- A worker record, in what a tick reads of it. -/
structure Worker (L : Type*) where
  identity : Identity
  log_files : L

variable {L : Type*}

/-! ## Messages -/

/-- The message of every observation. -/
def heartbeat (service_pid workers : Nat) : String :=
  "heartbeat service_pid=" ++ toString service_pid ++ " workers=" ++ toString workers

theorem heartbeat_eq (service_pid workers : Nat) :
    heartbeat service_pid workers = "heartbeat service_pid=" ++
      (toString service_pid ++ (" workers=" ++ toString workers)) := by
  unfold heartbeat
  rw [String.append_assoc, String.append_assoc]

/-- The message for a worker that is gone. -/
def workerDown (key : Identity) : String := "worker down worker_pid=" ++ toString key.pid

/-- The message for a worker that was not there before. -/
def workerUp (key : Identity) : String := "worker up worker_pid=" ++ toString key.pid

/-- The message for a worker with other `log_files` than before. -/
def logRotate [ToString L] (key : Identity) (worker : Worker L) : String :=
  "worker log rotate worker_pid=" ++ toString key.pid ++ " paths=" ++ toString worker.log_files

theorem logRotate_eq [ToString L] (key : Identity) (worker : Worker L) :
    logRotate key worker = "worker log rotate worker_pid=" ++
      (toString key.pid ++ (" paths=" ++ toString worker.log_files)) := by
  unfold logRotate
  rw [String.append_assoc, String.append_assoc]

/-! ## The observation -/

/-- `{(worker["pid"], worker["process_create_time"]): worker for worker in live_workers(…)}`. -/
def observed (live : List (Worker L)) : Dict Identity (Worker L) :=
  live.foldl (fun d worker => d.set worker.identity worker) .empty

variable {live previous : List (Worker L)}

/-- `worker["pid"]`. -/
def Worker.pid (worker : Worker L) : Nat := worker.identity.pid

theorem identity_nodup (h : (live.map Worker.pid).Nodup) : (live.map Worker.identity).Nodup := by
  have hpids : (live.map Worker.identity).map Identity.pid = live.map Worker.pid := by
    rw [List.map_map]
    rfl
  exact .of_map _ (hpids ▸ h)

theorem observed_entries (h : (live.map Worker.pid).Nodup) :
    (observed live).entries = live.map fun worker => (worker.identity, worker) :=
  Dict.entries_foldl_set (identity_nodup h) fun _ _ => List.not_mem_nil

theorem observed_keys (h : (live.map Worker.pid).Nodup) :
    (observed live).keys = live.map Worker.identity := by
  rw [Dict.keys, observed_entries h, List.map_map]
  rfl

theorem get?_observed (h : (live.map Worker.pid).Nodup) (key : Identity) :
    (observed live).get? key = live.find? fun worker => decide (worker.identity = key) := by
  rw [Dict.get?, observed_entries h, List.find?_map, Option.map_map]
  exact congrFun Option.map_id _

/-- Of distinct workers, at most one is the one of a key. -/
theorem any_of_find? (h : (previous.map Worker.identity).Nodup) (key : Identity)
    (differs : Worker L → Bool) :
    (previous.any fun old => decide (old.identity = key) && differs old) =
      ((previous.find? fun old => decide (old.identity = key)).map differs).getD false := by
  induction previous with
  | nil => rfl
  | cons old previous ih =>
    obtain ⟨hnew, h⟩ := List.nodup_cons.mp h
    rw [List.any_cons, List.find?_cons]
    by_cases hkey : old.identity = key
    · have hrest :
          (previous.any fun old => decide (old.identity = key) && differs old) = false := by
        rw [List.any_eq_false]
        intro other hother hdiffers
        have hsame := of_decide_eq_true (Bool.and_eq_true_iff.mp hdiffers).1
        exact hnew (List.mem_map.mpr ⟨other, hother, hsame.trans hkey.symm⟩)
      simp [hkey, hrest]
    · simp [hkey, ih h]

/-! ## A tick -/

variable [ToString L]

/-- What is reported of a worker that is live now. -/
def report [BEq L] (workers : Dict Identity (Worker L)) (key : Identity) (worker : Worker L) :
    Option String :=
  match workers.get? key with
  | none => some (workerUp key)
  | some previous =>
    if worker.log_files != previous.log_files then some (logRotate key worker) else none

/-- The messages of one tick. -/
def events [BEq L] (service_pid : Nat) (workers current : Dict Identity (Worker L))
    (downs : List Identity) : List String :=
  heartbeat service_pid current.entries.length :: (downs.map workerDown ++
    current.entries.filterMap fun e => report workers e.1 e.2)

/-- What `ControllerLog` keeps between ticks. -/
structure State (L : Type*) where
  workers : Dict Identity (Worker L)
  /-- The monotonic time of the next observation. -/
  deadline : ℚ

/-- What one tick did. -/
inductive Label (L : Type*) where
  /-- Before the deadline. -/
  | early
  /-- Before it compares. -/
  | raised
  /-- The live workers seen, and the batch emitted. -/
  | emitted (live : List (Worker L)) (batch : List String)
  /-- The emission of the batch raised when `logged` had been logged. -/
  | lost (live : List (Worker L)) (batch logged : List String)

/-- `self.workers.keys() - current.keys()`, in the order in which it is iterated over. -/
structure Gone (workers current : Dict Identity (Worker L)) (downs : List Identity) : Prop where
  nodup : downs.Nodup
  mem : ∀ key, key ∈ downs ↔ key ∈ workers.keys ∧ key ∉ current.keys

/-- One `tick(force)` at the monotonic time `now`. -/
inductive Step [BEq L] (service_pid : Nat) (sample_interval_seconds : ℚ) :
    State L → Label L → State L → Prop
  | early (s) (now) (h : now < s.deadline) :
      Step service_pid sample_interval_seconds s .early s
  /-- The background tick raises. -/
  | backgroundRaises (s) : Step service_pid sample_interval_seconds s .raised s
  /-- The warning or the worker files raise. -/
  | observeRaises (s) (force) (now) (h : force = true ∨ s.deadline ≤ now) :
      Step service_pid sample_interval_seconds s .raised
        { s with deadline := now + sample_interval_seconds }
  | observe (s) (force) (now) (live) (downs) (h : force = true ∨ s.deadline ≤ now)
      (hgone : Gone s.workers (observed live) downs) :
      Step service_pid sample_interval_seconds s
        (.emitted live (events service_pid s.workers (observed live) downs))
        { workers := observed live, deadline := now + sample_interval_seconds }
  /-- `self.emit(events)` raises. `self.workers` has been assigned before it. -/
  | emitRaises (s) (force) (now) (live) (downs) (logged) (h : force = true ∨ s.deadline ≤ now)
      (hgone : Gone s.workers (observed live) downs)
      (hlogged : logged <+: events service_pid s.workers (observed live) downs) :
      Step service_pid sample_interval_seconds s
        (.lost live (events service_pid s.workers (observed live) downs) logged)
        { workers := observed live, deadline := now + sample_interval_seconds }

/-! ## Reading the messages -/

/-- The pid that a message brings up. -/
def up? (message : String) : Option Nat := numbered? "worker up worker_pid=" message

/-- The pid that a message takes down. -/
def down? (message : String) : Option Nat := numbered? "worker down worker_pid=" message

/-- What a message says about the set of pids. -/
def change? (message : String) : Option (Change Nat) :=
  ((up? message).map .add).or ((down? message).map .remove)

/-- The service pid and the number of workers in a heartbeat. -/
def heartbeat? (message : String) : Option (Nat × Nat) :=
  (numberAfter? "heartbeat service_pid=" message.toList).bind fun pid =>
    (numberAfter? " workers=" pid.2).bind fun workers =>
      if workers.2.isEmpty then some (pid.1, workers.1) else none

/-- The pid and the paths in a rotation. -/
def rotation? (message : String) : Option (Nat × String) :=
  (numberAfter? "worker log rotate worker_pid=" message.toList).bind fun pid =>
    (after? " paths=" pid.2).map fun paths => (pid.1, String.ofList paths)

theorem change?_workerUp (key : Identity) : change? (workerUp key) = some (.add key.pid) := by
  have hup : up? (workerUp key) = some key.pid := numbered?_append _
  rw [change?, hup]
  rfl

theorem change?_workerDown (key : Identity) :
    change? (workerDown key) = some (.remove key.pid) := by
  have hup : up? (workerDown key) = none := numbered?_apart (by decide)
  have hdown : down? (workerDown key) = some key.pid := numbered?_append _
  rw [change?, hup, hdown]
  rfl

/-- A message of another kind changes nothing. -/
theorem change?_other {head : String} (rest : String) (hup : Apart "worker up worker_pid=" head)
    (hdown : Apart "worker down worker_pid=" head) : change? (head ++ rest) = none := by
  have hup : up? (head ++ rest) = none := numbered?_apart hup
  have hdown : down? (head ++ rest) = none := numbered?_apart hdown
  rw [change?, hup, hdown]
  rfl

theorem change?_heartbeat (service_pid workers : Nat) :
    change? (heartbeat service_pid workers) = none := by
  rw [heartbeat_eq]
  exact change?_other _ (by decide) (by decide)

theorem change?_logRotate (key : Identity) (worker : Worker L) :
    change? (logRotate key worker) = none := by
  rw [logRotate_eq]
  exact change?_other _ (by decide) (by decide)

theorem heartbeat?_heartbeat (service_pid workers : Nat) :
    heartbeat? (heartbeat service_pid workers) = some (service_pid, workers) := by
  have htext : (heartbeat service_pid workers).toList =
      "heartbeat service_pid=".toList ++ ((toString service_pid).toList ++
        (" workers=".toList ++ ((toString workers).toList ++ []))) := by
    rw [heartbeat_eq]
    simp only [String.toList_append, List.append_nil]
  have hpid : Ends (" workers=".toList ++ ((toString workers).toList ++ [])) := rfl
  have hend : Ends [] := rfl
  have hfirst := numberAfter?_append (n := service_pid) "heartbeat service_pid=" hpid
  have hsecond := numberAfter?_append (n := workers) " workers=" hend
  rw [heartbeat?, htext, hfirst, Option.bind_some, hsecond]
  rfl

theorem heartbeat?_other {head : String} (rest : String)
    (h : Apart "heartbeat service_pid=" head) : heartbeat? (head ++ rest) = none := by
  have hhead := numberAfter?_apart rest.toList h
  rw [heartbeat?, String.toList_append, hhead]
  rfl

theorem rotation?_logRotate (key : Identity) (worker : Worker L) :
    rotation? (logRotate key worker) = some (key.pid, toString worker.log_files) := by
  have htext : (logRotate key worker).toList =
      "worker log rotate worker_pid=".toList ++ ((toString key.pid).toList ++
        (" paths=".toList ++ (toString worker.log_files).toList)) := by
    rw [logRotate_eq]
    simp only [String.toList_append]
  have hpid : Ends (" paths=".toList ++ (toString worker.log_files).toList) := rfl
  have hfirst := numberAfter?_append (n := key.pid) "worker log rotate worker_pid=" hpid
  have hpaths := after?_append " paths=" (toString worker.log_files).toList
  rw [rotation?, htext, hfirst, Option.bind_some, hpaths, Option.map_some, String.ofList_toList]

theorem rotation?_other {head : String} (rest : String)
    (h : Apart "worker log rotate worker_pid=" head) : rotation? (head ++ rest) = none := by
  have hhead := numberAfter?_apart rest.toList h
  rw [rotation?, String.toList_append, hhead]
  rfl

variable [BEq L] {workers current : Dict Identity (Worker L)} {downs : List Identity}
  {service_pid : Nat}

/-- The workers that were not there before. -/
def ups (workers current : Dict Identity (Worker L)) : List Identity :=
  current.keys.filter fun key => decide (key ∉ workers.keys)

theorem change?_report (key : Identity) (worker : Worker L) :
    (report workers key worker).bind change? =
      if key ∈ workers.keys then none else some (.add key.pid) := by
  unfold report
  split
  · rename_i hnone
    rw [if_neg (Dict.get?_eq_none.mp hnone), Option.bind_some, change?_workerUp]
  · rename_i previous hsome
    have hkey : key ∈ workers.keys := by
      by_contra hkey
      rw [Dict.get?_eq_none.mpr hkey] at hsome
      cases hsome
    rw [if_pos hkey]
    split
    · rw [Option.bind_some, change?_logRotate]
    · rfl

theorem changes_report (es : List (Identity × Worker L)) :
    (es.filterMap fun e => report workers e.1 e.2).filterMap change? =
      (((es.map Prod.fst).filter fun key => decide (key ∉ workers.keys)).map Identity.pid).map
        .add := by
  rw [List.filterMap_filterMap]
  induction es with
  | nil => rfl
  | cons e es ih =>
    rw [List.filterMap_cons, change?_report, ih, List.map_cons, List.filter_cons]
    by_cases hkey : e.1 ∈ workers.keys <;> simp [hkey]

/-- **What the messages of a tick change.** -/
theorem changes_events :
    (events service_pid workers current downs).filterMap change? =
      (downs.map Identity.pid).map .remove ++
        ((ups workers current).map Identity.pid).map .add := by
  have hdowns : (downs.map workerDown).filterMap change? =
      (downs.map Identity.pid).map .remove := by
    rw [List.filterMap_map, List.map_map, ← List.filterMap_eq_map]
    exact List.filterMap_congr fun key _ => change?_workerDown key
  rw [events, List.filterMap_cons, change?_heartbeat, List.filterMap_append, hdowns, changes_report]
  rfl

/-- Distinct pids make distinct identities. -/
theorem eq_of_pid {keys : List Identity} (hnodup : (keys.map Identity.pid).Nodup) {a b : Identity}
    (ha : a ∈ keys) (hb : b ∈ keys) (h : a.pid = b.pid) : a = b :=
  List.inj_on_of_nodup_map hnodup ha hb h

/-- **One tick replays from the pids of the workers before to those of the workers now.** -/
theorem replay_batch (hworkers : (workers.keys.map Identity.pid).Nodup)
    (hcurrent : (current.keys.map Identity.pid).Nodup) (hgone : Gone workers current downs) :
    replay (workers.keys.map Identity.pid).toFinset
        ((events service_pid workers current downs).filterMap change?) =
      some (current.keys.map Identity.pid).toFinset := by
  have hdown (key : Identity) (h : key ∈ downs) : key ∈ workers.keys := ((hgone.mem key).mp h).1
  have hremoved : (downs.map Identity.pid).Nodup :=
    hgone.nodup.map_on fun a ha b hb h => eq_of_pid hworkers (hdown a ha) (hdown b hb) h
  have hadded : ((ups workers current).map Identity.pid).Nodup :=
    hcurrent.sublist (List.filter_sublist.map Identity.pid)
  have hmem : ∀ pid ∈ downs.map Identity.pid, pid ∈ (workers.keys.map Identity.pid).toFinset := by
    intro pid hpid
    obtain ⟨key, hkey, rfl⟩ := List.mem_map.mp hpid
    exact List.mem_toFinset.mpr (List.mem_map.mpr ⟨key, hdown key hkey, rfl⟩)
  -- A pid in both is that of a process that has ended, or its worker would not be new.
  have hnew : ∀ pid ∈ (ups workers current).map Identity.pid,
      pid ∈ (workers.keys.map Identity.pid).toFinset → pid ∈ downs.map Identity.pid := by
    intro pid hpid hold
    obtain ⟨key, hkey, rfl⟩ := List.mem_map.mp hpid
    obtain ⟨hcur, hfresh⟩ := List.mem_filter.mp hkey
    obtain ⟨old, hold, hsame⟩ := List.mem_map.mp (List.mem_toFinset.mp hold)
    refine List.mem_map.mpr ⟨old, (hgone.mem old).mpr ⟨hold, fun hlive => ?_⟩, hsame⟩
    rw [eq_of_pid hcurrent hlive hcur hsame] at hold
    exact of_decide_eq_true hfresh hold
  rw [changes_events, Lib.replay_update hremoved hadded hmem hnew]
  congr 1
  ext pid
  simp only [Finset.mem_union, Finset.mem_sdiff, List.mem_toFinset, List.mem_map]
  constructor
  · rintro (⟨⟨key, hkey, rfl⟩, hstays⟩ | ⟨key, hkey, rfl⟩)
    · by_contra hout
      have hcur : key ∉ current.keys := fun hcur => hout ⟨key, hcur, rfl⟩
      exact hstays ⟨key, (hgone.mem key).mpr ⟨hkey, hcur⟩, rfl⟩
    · exact ⟨key, List.mem_of_mem_filter hkey, rfl⟩
  · rintro ⟨key, hcur, rfl⟩
    by_cases hkey : key ∈ workers.keys
    · refine .inl ⟨⟨key, hkey, rfl⟩, ?_⟩
      rintro ⟨down, hdowns, hsame⟩
      have hout := ((hgone.mem down).mp hdowns).2
      rw [eq_of_pid hworkers (hdown down hdowns) hkey hsame] at hout
      exact hout hcur
    · exact .inr ⟨key, List.mem_filter.mpr ⟨hcur, by simpa using hkey⟩, rfl⟩

/-! ## Rotations and heartbeat -/

/-- The workers that were there in the observation before, with other `log_files`. -/
def rotated (previous live : List (Worker L)) : List (Worker L) :=
  live.filter fun worker => previous.any fun old =>
    decide (old.identity = worker.identity) && worker.log_files != old.log_files

/-- What a tick says of a worker, when it is a rotation. -/
theorem rotation?_report (hprevious : (previous.map Worker.pid).Nodup) (worker : Worker L) :
    (report (observed previous) worker.identity worker).bind rotation? =
      if previous.any fun old =>
          decide (old.identity = worker.identity) && worker.log_files != old.log_files
        then some (worker.pid, toString worker.log_files) else none := by
  have hup : rotation? (workerUp worker.identity) = none := rotation?_other _ (by decide)
  rw [any_of_find? (identity_nodup hprevious) _ fun old => worker.log_files != old.log_files,
    report, get?_observed hprevious]
  cases previous.find? fun old => decide (old.identity = worker.identity) with
  | none => simp [hup]
  | some old =>
    simp only [Option.map_some, Option.getD_some]
    by_cases hdiffers : (worker.log_files != old.log_files) = true
    · rw [if_pos hdiffers, if_pos hdiffers, Option.bind_some, rotation?_logRotate]
      rfl
    · rw [if_neg hdiffers, if_neg hdiffers]
      rfl

/-- The messages for the workers that are gone say nothing to a reader of another head. -/
theorem filterMap_downs {α : Type*} {read : String → Option α}
    (h : ∀ key, read (workerDown key) = none) : (downs.map workerDown).filterMap read = [] := by
  rw [List.filterMap_map, List.filterMap_eq_nil_iff]
  exact fun key _ => h key

/-- The rotations that a tick reports. -/
theorem rotations_events (hprevious : (previous.map Worker.pid).Nodup)
    (hlive : (live.map Worker.pid).Nodup) :
    (events service_pid (observed previous) (observed live) downs).filterMap rotation? =
      (rotated previous live).map fun worker => (worker.pid, toString worker.log_files) := by
  have hbeat (n : Nat) : rotation? (heartbeat service_pid n) = none := by
    rw [heartbeat_eq]
    exact rotation?_other _ (by decide)
  have hdown (key : Identity) : rotation? (workerDown key) = none := rotation?_other _ (by decide)
  rw [events, List.filterMap_cons, hbeat, List.filterMap_append, filterMap_downs hdown,
    List.nil_append, List.filterMap_filterMap, observed_entries hlive, List.filterMap_map, rotated]
  simp only [Function.comp_def, rotation?_report hprevious]
  rw [← List.filterMap_eq_filter, List.map_filterMap]
  refine List.filterMap_congr fun worker _ => ?_
  rw [Option.guard]
  split <;> rfl

/-- What a tick says of a worker is no heartbeat. -/
theorem heartbeat?_report (key : Identity) (worker : Worker L) :
    (report workers key worker).bind heartbeat? = none := by
  unfold report
  split
  · exact heartbeat?_other _ (by decide)
  · split
    · rw [Option.bind_some, logRotate_eq]
      exact heartbeat?_other _ (by decide)
    · rfl

/-- A tick reports one heartbeat. -/
theorem heartbeats_events (hlive : (live.map Worker.pid).Nodup) :
    (events service_pid workers (observed live) downs).filterMap heartbeat? =
      [(service_pid, live.length)] := by
  have hdown (key : Identity) : heartbeat? (workerDown key) = none := heartbeat?_other _ (by decide)
  have hreports : ((observed live).entries.filterMap fun e => report workers e.1 e.2).filterMap
      heartbeat? = [] := by
    rw [List.filterMap_filterMap, List.filterMap_eq_nil_iff]
    exact fun e _ => heartbeat?_report e.1 e.2
  rw [events, List.filterMap_cons, heartbeat?_heartbeat, List.filterMap_append,
    filterMap_downs hdown, hreports, observed_entries hlive, List.length_map]
  rfl

/-! ## Runs -/

variable {sample_interval_seconds : ℚ} {s s' : State L}

/-- The live workers that a tick has seen, and the batch it has composed. -/
def Label.observed? : Label L → Option (List (Worker L) × List String)
  | .emitted live batch | .lost live batch _ => some (live, batch)
  | _ => none

/-- What a tick has logged. -/
def Label.logged? : Label L → Option (List String)
  | .emitted _ batch => some batch
  | .lost _ _ logged => some logged
  | _ => none

/-- The emission of the tick raised. -/
def Label.Lost : Label L → Prop
  | .lost .. => True
  | _ => False

omit [ToString L] [BEq L] in
/-- Unless its emission raises, a tick logs its batch. -/
theorem Label.logged?_of_not_lost {l : Label L} (h : ¬ l.Lost) :
    l.logged? = l.observed?.map Prod.snd := by
  cases l with
  | lost => exact absurd trivial h
  | _ => rfl

/-- A tick that observes: what it composes and what it keeps. -/
theorem Step.observed_spec {l : Label L} {batch : List String}
    (h : Step service_pid sample_interval_seconds s l s') (hl : l.observed? = some (live, batch)) :
    s'.workers = observed live ∧ ∃ downs, Gone s.workers (observed live) downs ∧
      batch = events service_pid s.workers (observed live) downs := by
  cases h with
  | observe _ _ live downs _ hgone =>
    obtain ⟨rfl, rfl⟩ := Prod.mk.inj (Option.some.inj hl)
    exact ⟨rfl, downs, hgone, rfl⟩
  | emitRaises _ _ live downs logged _ hgone =>
    obtain ⟨rfl, rfl⟩ := Prod.mk.inj (Option.some.inj hl)
    exact ⟨rfl, downs, hgone, rfl⟩
  | _ => cases hl

theorem Step.idle {l : Label L} (h : Step service_pid sample_interval_seconds s l s')
    (hl : l.observed? = none) : s'.workers = s.workers := by
  cases h with
  | observe => cases hl
  | emitRaises => cases hl
  | _ => rfl

section

variable (r : Run (Step (L := L) service_pid sample_interval_seconds))

/-- The workers of the latest observation before the moment `i`. -/
def latest (i : Nat) : List (Worker L) :=
  ((r.trace Label.observed? i).getLast?.map Prod.fst).getD []

/-- The messages of the batches composed before the moment `i`. -/
def composed (i : Nat) : List String := ((r.trace Label.observed? i).map Prod.snd).flatten

/-- The messages logged before the moment `i`. -/
def logged (i : Nat) : List String := (r.trace Label.logged? i).flatten

variable {r} {i : Nat} {batch : List String}

theorem latest_observed (hl : (r.label i).observed? = some (live, batch)) :
    latest r (i + 1) = live := by
  simp [latest, r.trace_succ, hl]

theorem composed_observed (hl : (r.label i).observed? = some (live, batch)) :
    composed r (i + 1) = composed r i ++ batch := by
  simp [composed, r.trace_succ, hl]

theorem latest_idle (hl : (r.label i).observed? = none) : latest r (i + 1) = latest r i := by
  simp [latest, r.trace_succ, hl]

theorem composed_idle (hl : (r.label i).observed? = none) : composed r (i + 1) = composed r i := by
  simp [composed, r.trace_succ, hl]

/-- Until an emission raises, what is composed is logged. -/
theorem logged_eq (h : ∀ k, k < i → ¬ (r.label k).Lost) : logged r i = composed r i := by
  induction i with
  | zero => rfl
  | succ i ih =>
    have hrest : logged r i = composed r i := ih fun k hk => h k (Nat.lt_succ_of_lt hk)
    rw [logged, composed] at hrest ⊢
    rw [r.trace_succ, r.trace_succ, Label.logged?_of_not_lost (h i (Nat.lt_succ_self i))]
    cases (r.label i).observed? with
    | none => simpa using hrest
    | some seen => simp [hrest]

/-- Every observation is of distinct pids. -/
def Distinct (r : Run (Step (L := L) service_pid sample_interval_seconds)) : Prop :=
  ∀ i live batch, i < r.length → (r.label i).observed? = some (live, batch) →
    (live.map Worker.pid).Nodup

/-- What every tick leaves: the workers of the latest observation, and batches that replay to
their pids. -/
theorem replay_at (h0 : (r.state 0).workers = .empty) (hdistinct : Distinct r) :
    ∀ i, i ≤ r.length → (r.state i).workers = observed (latest r i) ∧
      ((latest r i).map Worker.pid).Nodup ∧
      replay ∅ ((composed r i).filterMap change?) =
        some ((latest r i).map Worker.pid).toFinset := by
  intro i hi
  induction i with
  | zero => exact ⟨h0, List.nodup_nil, rfl⟩
  | succ i ih =>
    obtain ⟨hworkers, hnodup, hreplay⟩ := ih (Nat.le_of_succ_le hi)
    have hstep := r.step_ok i hi
    cases hl : (r.label i).observed? with
    | none =>
      rw [hstep.idle hl, latest_idle hl, composed_idle hl]
      exact ⟨hworkers, hnodup, hreplay⟩
    | some seen =>
      obtain ⟨live, batch⟩ := seen
      have hlive := hdistinct i live batch hi hl
      obtain ⟨hnext, downs, hgone, rfl⟩ := hstep.observed_spec hl
      rw [hworkers] at hgone
      have hpids {live : List (Worker L)} (h : (live.map Worker.pid).Nodup) :
          (observed live).keys.map Identity.pid = live.map Worker.pid := by
        rw [observed_keys h, List.map_map]
        rfl
      have hbatch : replay ((latest r i).map Worker.pid).toFinset
          ((events service_pid (observed (latest r i)) (observed live) downs).filterMap change?) =
          some (live.map Worker.pid).toFinset := by
        rw [← hpids hnodup, ← hpids hlive]
        exact replay_batch (hpids hnodup ▸ hnodup) (hpids hlive ▸ hlive) hgone
      rw [latest_observed hl, composed_observed hl, List.filterMap_append, Lib.replay_append,
        hreplay, Option.bind_some, hworkers]
      exact ⟨hnext, hlive, hbatch⟩

/-- What the messages of all ticks say. -/
structure Replays (r : Run (Step (L := L) service_pid sample_interval_seconds)) : Prop where
  /-- The batches replay to the pids of the latest observation. -/
  batches : ∀ i, i ≤ r.length → replay ∅ ((composed r i).filterMap change?) =
    some ((latest r i).map Worker.pid).toFinset
  /-- So do the messages logged, until an emission raises. -/
  messages : ∀ i, i ≤ r.length → (∀ k, k < i → ¬ (r.label k).Lost) →
    replay ∅ ((logged r i).filterMap change?) = some ((latest r i).map Worker.pid).toFinset
  /-- A batch reports the rotations since the observation before, and the number of workers. -/
  reports : ∀ i live batch, i < r.length → (r.label i).observed? = some (live, batch) →
    latest r (i + 1) = live ∧
    batch.filterMap rotation? =
      (rotated (latest r i) live).map (fun worker => (worker.pid, toString worker.log_files)) ∧
    batch.filterMap heartbeat? = [(service_pid, live.length)]

/-- **The messages of all ticks replay to the workers observed.** -/
theorem replay_latest (r : Run (Step (L := L) service_pid sample_interval_seconds))
    (h0 : (r.state 0).workers = .empty) (hdistinct : Distinct r) : Replays r where
  batches i hi := (replay_at h0 hdistinct i hi).2.2
  messages i hi hemitted := by
    rw [logged_eq hemitted]
    exact (replay_at h0 hdistinct i hi).2.2
  reports i live batch hi hl := by
    obtain ⟨hworkers, hnodup, -⟩ := replay_at h0 hdistinct i (Nat.le_of_lt hi)
    have hlive := hdistinct i live batch hi hl
    obtain ⟨-, downs, -, rfl⟩ := (r.step_ok i hi).observed_spec hl
    rw [hworkers]
    exact ⟨latest_observed hl, rotations_events hnodup hlive, heartbeats_events hlive⟩

end

section Reuse

/-- One pid, of two processes one after the other. -/
def first : Worker (List String) := ⟨⟨7, 1⟩, ["a.log"]⟩

/-- The process that has the pid after it. -/
def second : Worker (List String) := ⟨⟨7, 2⟩, ["b.log"]⟩

theorem gone_none : Gone (.empty : Dict Identity (Worker (List String))) (observed [first]) [] :=
  ⟨List.nodup_nil, fun key => by simp [Dict.keys, Dict.empty]⟩

theorem gone_first {live : List (Worker (List String))}
    (h : first.identity ∉ (observed live).keys) :
    Gone (observed [first]) (observed live) [first.identity] := by
  refine ⟨List.nodup_singleton _, fun key => ?_⟩
  have hkeys : (observed [first]).keys = [first.identity] := rfl
  rw [hkeys]
  simp only [List.mem_singleton]
  refine ⟨fun hkey => ⟨hkey, ?_⟩, fun hkey => hkey.1⟩
  rw [hkey]
  exact h

/-- The pid is reused between two ticks. -/
def reused : Run (Step (L := List String) 1 5) :=
  let r := Run.start (Step (L := List String) 1 5) ⟨.empty, 0⟩ .early
  let r := r.snoc (.observe _ true 0 [first] [] (.inl rfl) gone_none)
  r.snoc (.observe _ true 5 [second] [first.identity] (.inl rfl) (gone_first (by decide)))

/-- Runs of two ticks that see at most one worker each. -/
theorem distinct_of_two {r : Run (Step (L := List String) 1 5)} (hlength : r.length = 2)
    {a b : List (Worker (List String))} {batch batch' : List String}
    (h0 : (r.label 0).observed? = some (a, batch)) (ha : a.length ≤ 1)
    (h1 : (r.label 1).observed? = some (b, batch')) (hb : b.length ≤ 1) : Distinct r := by
  intro i live batch'' hi hl
  rw [hlength] at hi
  have hone : live.length ≤ 1 := by
    interval_cases i
    · rw [h0] at hl
      exact (Prod.mk.inj (Option.some.inj hl)).1 ▸ ha
    · rw [h1] at hl
      exact (Prod.mk.inj (Option.some.inj hl)).1 ▸ hb
  match live, hone with
  | [], _ => exact List.nodup_nil
  | [worker], _ => exact List.nodup_singleton _

theorem replay_latest_reused : latest reused 2 = [second] ∧ Replays reused :=
  ⟨rfl, replay_latest reused rfl
    (distinct_of_two (a := [first]) (b := [second]) rfl rfl (Nat.le_refl 1) rfl (Nat.le_refl 1))⟩

/-- The first emission raises, and the worker it announced is gone in the last tick. -/
def lostUp : Run (Step (L := List String) 1 5) :=
  let r := Run.start (Step (L := List String) 1 5) ⟨.empty, 0⟩ .early
  let r := r.snoc (.emitRaises _ true 0 [first] [] [] (.inl rfl) gone_none List.nil_prefix)
  r.snoc (.observe _ true 5 [] [first.identity] (.inl rfl) (gone_first (by decide)))

/-- The log of the service then takes down a worker that it never brought up. -/
theorem lost_not_replayed :
    (lostUp.state 0).workers = .empty ∧ Distinct lostUp ∧
      replay ∅ ((logged lostUp 2).filterMap change?) = none := by
  have hlogged : logged lostUp 2 = [heartbeat 1 0, workerDown ⟨7, 1⟩] := rfl
  refine ⟨rfl, distinct_of_two (a := [first]) (b := []) rfl rfl (Nat.le_refl 1) rfl
    (Nat.zero_le 1), ?_⟩
  rw [hlogged, List.filterMap_cons, change?_heartbeat, List.filterMap_cons, change?_workerDown]
  rfl

end Reuse

end LclFastapi.Runtime.Transitions
