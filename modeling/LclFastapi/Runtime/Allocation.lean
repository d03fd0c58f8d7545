import LclFastapi.Config
import LclFastapi.Runtime.LeaseExclusion
import Mathlib.Logic.Relation
import Mathlib.Order.Bounds.Basic

/-!
# First-fit allocation (`WorkerIdLease.acquire`)

One call of `acquire`, from the lease directory it finds to the one it leaves.

* `scan` is the loop over the range. `os w` is the process table at the test of the record of `w`:
  processes may start and die between two tests.
* `acquire_steps` is the connection to the protocol of `Runtime.Lease`: a task that is alone with
  the lock reaches the files of `acquire`.

**Headline:** `allocation_exact`, for the range of every accepted settings record.
-/

namespace LclFastapi.Runtime.Lease

open Lib (Identity Processes Task)
open Config (Settings settings_from_frame settings_from_frame_ok Accepted)

/-- How `acquire` ends. -/
inductive Acquired where
  | lease (l : WorkerIdLease)
  | valueError (message : String)
  | runtimeError (message : String)
  deriving DecidableEq

/-- The recorded owner of `w` is exactly live. -/
def liveOwner (os : Nat → Processes) (files : Path → Stored) (w : Nat) : Bool :=
  isLive (os w) (readState (files (.lease w)))

/-- The loop of `acquire`: the first number without a live owner. -/
def scan (os : Nat → Processes) (files : Path → Stored) : List Nat → Option Nat
  | [] => none
  | w :: ids => if !liveOwner os files w then some w else scan os files ids

/-- `WorkerIdLease.acquire` in the process `self`, and the files it leaves. -/
def acquire (os : Nat → Processes) (self : Identity) (files : Path → Stored)
    (worker_id_base worker_id_count : Int) : Acquired × (Path → Stored) :=
  if !validRange worker_id_base worker_id_count then
    (.valueError "invalid Snowflake worker ID range", files)
  else
    match scan os files (workerIds worker_id_base worker_id_count) with
    | some w =>
      (.lease ⟨w, processIdentity self⟩,
        Function.update files (.lease w) (.object (processIdentity self)))
    | none => (.runtimeError "all configured Snowflake worker IDs are leased", files)

variable {os : Nat → Processes} {self : Identity} {files : Path → Stored} {ids : List Nat}
variable {base count : Int} {w : Nat}

/-! ## The scan -/

/-- The scan stops where every number before it has a live owner. -/
theorem scan_some (h : scan os files ids = some w) :
    ∃ before after, ids = before ++ w :: after ∧ (∀ v ∈ before, liveOwner os files v = true) ∧
      liveOwner os files w = false := by
  induction ids with
  | nil => cases h
  | cons v ids ih =>
    unfold scan at h
    split at h
    · rename_i hv
      cases h
      exact ⟨[], ids, rfl, by simp, by simpa using hv⟩
    · rename_i hv
      obtain ⟨before, after, rfl, hbefore, hw⟩ := ih h
      refine ⟨v :: before, after, rfl, ?_, hw⟩
      intro u hu
      rcases List.mem_cons.mp hu with rfl | hu
      · simpa using hv
      · exact hbefore u hu

theorem scan_none : scan os files ids = none ↔ ∀ w ∈ ids, liveOwner os files w = true := by
  induction ids with
  | nil => simp [scan]
  | cons v ids ih => by_cases hv : liveOwner os files v = true <;> simp [scan, hv, ih]

/-- In an increasing range, the scan finds the least number without a live owner. -/
theorem scan_least (hsorted : ids.Pairwise (· < ·)) (h : scan os files ids = some w) :
    IsLeast {v | v ∈ ids ∧ liveOwner os files v = false} w := by
  obtain ⟨before, after, rfl, hbefore, hw⟩ := scan_some h
  refine ⟨⟨by simp, hw⟩, ?_⟩
  rintro v ⟨hv, hdead⟩
  rcases List.mem_append.mp hv with hv | hv
  · simp [hbefore v hv] at hdead
  · rcases List.mem_cons.mp hv with rfl | hv
    · exact le_refl v
    · exact ((List.pairwise_cons.mp (List.pairwise_append.mp hsorted).2.1).1 v hv).le

theorem workerIds_sorted (base count : Int) : (workerIds base count).Pairwise (· < ·) :=
  List.pairwise_lt_range'

/-! ## The connection to the protocol -/

section Protocol

variable {s : State} {t : Task}

theorem goto_goto (s : State) (t : Task) (pc pc' : PC) :
    (s.goto t pc).goto t pc' = s.goto t pc' := by
  simp [State.goto]

/-- Steps of one task, while no process starts or dies. -/
abbrev Steps (t : Task) : State → State → Prop :=
  Relation.ReflTransGen fun a b => Step a (.inner t) b

/-- The scan of a task that holds the lock. -/
theorem scan_steps (hpc : s.pc t = .acquireScan base count ids) :
    ∃ pc, Steps t s (s.goto t pc) ∧
      pc = ((scan (fun _ => s.os) s.files ids).elim (.acquireScan base count [])
        (.acquireWrite base count)) := by
  induction ids generalizing s with
  | nil =>
    have hsame : s.goto t (.acquireScan base count []) = s := by
      simp [State.goto, ← hpc]
    exact ⟨_, hsame.symm ▸ .refl, rfl⟩
  | cons v ids ih =>
    have hread := Step.acquireRead s t base count v ids hpc
    cases hlive : isLive s.os (readState (s.files (.lease v))) with
    | false =>
      have hdead := Step.acquireDead _ t base count v ids _ (goto_pc_self s t _) hlive
      refine ⟨.acquireWrite base count v, ?_, by simp [scan, liveOwner, hlive]⟩
      rw [goto_goto] at hdead
      exact .tail (.single hread) hdead
    | true =>
      have hskip := Step.acquireLive _ t base count v ids _ (goto_pc_self s t _) hlive
      rw [goto_goto] at hskip
      obtain ⟨pc, hrun, hend⟩ := ih (goto_pc_self s t _)
      rw [goto_goto] at hrun
      refine ⟨pc, .trans (.tail (.single hread) hskip) hrun, ?_⟩
      rw [hend]
      simp [scan, liveOwner, hlive, State.goto]

theorem steps_leave {e : State} (h : Steps t s (e.goto t .leave)) :
    Steps t s ({ e.goto t .leave with lock := none }.goto t .idle) :=
  .tail h (.leave _ t (goto_pc_self e t .leave))

/-- From the scan to the end of the call. -/
theorem scan_returns (hpc : s.pc t = .acquireScan base count ids) :
    ∃ s', Steps t s s' ∧ s'.pc t = .idle ∧
      s'.files = ((scan (fun _ => s.os) s.files ids).elim s.files
        fun w => Function.update s.files (.lease w) (.object (processIdentity t.process))) := by
  obtain ⟨pc, hrun, hend⟩ := scan_steps hpc
  have hat : (s.goto t pc).pc t = pc := goto_pc_self s t pc
  cases hfound : scan (fun _ => s.os) s.files ids with
  | none =>
    rw [hfound] at hend
    have hraise := Step.acquireExhausted (s.goto t pc) t base count (hat.trans hend)
    exact ⟨_, steps_leave (.tail hrun hraise), goto_pc_self _ t _, rfl⟩
  | some w =>
    rw [hfound] at hend
    have hwrite := Step.acquireWrite (s.goto t pc) t base count w (hat.trans hend)
    exact ⟨_, steps_leave (.tail hrun hwrite), goto_pc_self _ t _, rfl⟩

/-- A call that finds the lock free and is alone with it leaves the files of `acquire`. -/
theorem acquire_steps (hlive : s.os.live t.process = true) (hpc : s.pc t = .idle)
    (hfree : s.lock = none) (hv : validRange base count = true) :
    ∃ a b, Step s (.acquire t) a ∧ Steps t a b ∧ b.pc t = .idle ∧
      b.files = (acquire (fun _ => s.os) t.process s.files base count).2 := by
  have hcall := Step.acquire s t base count hlive hpc hv
  have henter := Step.acquireEnter _ t base count (goto_pc_self s t _) hfree
  obtain ⟨s', hrun, hidle, hfiles⟩ := scan_returns (goto_pc_self _ t (.acquireScan base count
    (workerIds base count)))
  refine ⟨_, s', hcall, .head henter hrun, hidle, ?_⟩
  rw [hfiles]
  cases hfound : scan (fun _ => s.os) s.files (workerIds base count) <;>
    simp [acquire, hv, hfound, State.goto]

end Protocol

/-! ## Agreement with the validation of the settings -/

/-- Validation leaves the range test of `acquire` nothing to reject. -/
theorem validRange_of_accepted {settings : Settings} (h : Accepted settings) :
    validRange settings.worker_id_base settings.worker_id_count = true := by
  have hbase := h.worker_id_base
  have hcount := h.worker_id_count
  have hworkers := h.workers
  simp only [validRange, Bool.not_eq_true', Bool.or_eq_false_iff, decide_eq_false_iff_not]
  omega

/-- How many numbers of a range have a live recorded owner. -/
def liveOwners (os : Nat → Processes) (files : Path → Stored) (base count : Int) : Nat :=
  (workerIds base count).countP (liveOwner os files)

/-- A range with fewer live owners than numbers has a number to lease. -/
theorem scan_of_liveOwners (h : (liveOwners os files base count : Int) < count) :
    ∃ w, scan os files (workerIds base count) = some w := by
  rw [← Option.ne_none_iff_exists']
  intro hnone
  have hall := List.countP_eq_length.mpr (scan_none.mp hnone)
  have hlength : (workerIds base count).length = count.toNat := List.length_range'
  unfold liveOwners at h
  omega

/-- What one call does, over the range from `base` of `count` numbers. -/
structure Exact (os : Nat → Processes) (self : Identity) (files : Path → Stored)
    (base count workers : Int) (outcome : Acquired × (Path → Stored)) : Prop where
  no_valueError : ∀ message, outcome.1 ≠ .valueError message
  lease : ∀ l, outcome.1 = .lease l ↔ l.identity = processIdentity self ∧
    IsLeast {w : Nat | (base ≤ w ∧ w < base + count) ∧ liveOwner os files w = false} l.worker_id
  written : ∀ l, outcome.1 = .lease l →
    outcome.2 l.path = .object (processIdentity self) ∧ ∀ p ≠ l.path, outcome.2 p = files p
  exhausted : (∃ message, outcome.1 = .runtimeError message) ↔
    ∀ w : Nat, base ≤ w ∧ w < base + count → liveOwner os files w = true
  unchanged : ∀ message, outcome.1 = .runtimeError message → outcome.2 = files
  succeeds : (liveOwners os files base count : Int) ≤ workers - 1 → ∃ l, outcome.1 = .lease l

/-- `acquire` is exact over every range that it accepts. -/
theorem acquire_exact (hv : validRange base count = true) {workers : Int}
    (hworkers : workers ≤ count) :
    Exact os self files base count workers (acquire os self files base count) := by
  cases hfound : scan os files (workerIds base count) with
  | none =>
    have hresult : acquire os self files base count
        = (.runtimeError "all configured Snowflake worker IDs are leased", files) := by
      simp [acquire, hv, hfound]
    have hall : ∀ w : Nat, base ≤ w ∧ w < base + count → liveOwner os files w = true :=
      fun w hw => scan_none.mp hfound w ((mem_workerIds hv).mpr hw)
    rw [hresult]
    refine ⟨nofun, fun l => ⟨nofun, ?_⟩, nofun, ⟨fun _ => hall, fun _ => ⟨_, rfl⟩⟩,
      fun _ _ => rfl, ?_⟩
    · rintro ⟨-, ⟨hl, hdead⟩, -⟩
      simp [hall _ hl] at hdead
    · intro hfew
      obtain ⟨w, hw⟩ := scan_of_liveOwners (hfew.trans_lt (by omega))
      simp [hfound] at hw
  | some w =>
    have hresult : acquire os self files base count = (.lease ⟨w, processIdentity self⟩,
        Function.update files (.lease w) (.object (processIdentity self))) := by
      simp [acquire, hv, hfound]
    have hleast := scan_least (workerIds_sorted base count) hfound
    simp only [mem_workerIds hv] at hleast
    rw [hresult]
    refine ⟨nofun, fun l => ⟨?_, ?_⟩, ?_, ⟨nofun, fun hall => ?_⟩, nofun, fun _ => ⟨_, rfl⟩⟩
    · rintro ⟨⟩
      exact ⟨rfl, hleast⟩
    · rintro ⟨hl, hleast'⟩
      obtain ⟨v, identity⟩ := l
      obtain rfl : identity = processIdentity self := hl
      obtain rfl : w = v := hleast.unique hleast'
      rfl
    · rintro l ⟨⟩
      exact ⟨Function.update_self .., fun p hp => Function.update_of_ne hp ..⟩
    · have hdead := hleast.1.2
      simp [hall w hleast.1.1] at hdead

/-- **Allocation is exact over every lease directory, for every accepted settings record.** -/
theorem allocation_exact {get : String → Render.Result Config.Value}
    {urlsplit : String → Render.Result Config.SplitResult} {resolve : String → String}
    {settings : Settings} (h : settings_from_frame get urlsplit resolve = .ok settings)
    (os : Nat → Processes) (self : Identity) (files : Path → Stored) :
    Exact os self files settings.worker_id_base settings.worker_id_count settings.workers
      (acquire os self files settings.worker_id_base settings.worker_id_count) :=
  have haccepted := settings_from_frame_ok h
  acquire_exact (validRange_of_accepted haccepted) haccepted.worker_id_count.1

/-- `0.json` names the live process `⟨7, 1⟩`, `1.json` was truncated, the others are absent. -/
def truncatedFiles : Path → Stored
  | .lease 0 => .object (processIdentity ⟨7, 1⟩)
  | .lease 1 => .malformed
  | _ => .absent

theorem allocation_exact_truncated :
    (acquire (fun _ => oneProcess.os) ⟨8, 2⟩ truncatedFiles 0 64).1
        = .lease ⟨1, processIdentity ⟨8, 2⟩⟩ ∧
      Exact (fun _ => oneProcess.os) ⟨8, 2⟩ truncatedFiles 0 64 2
        (acquire (fun _ => oneProcess.os) ⟨8, 2⟩ truncatedFiles 0 64) :=
  ⟨by decide, allocation_exact Config.settings_from_defaults _ _ _⟩

end LclFastapi.Runtime.Lease
