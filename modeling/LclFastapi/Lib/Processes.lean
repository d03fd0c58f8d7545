import Mathlib.Data.Set.Insert
import Mathlib.Data.Rat.Defs
import Mathlib.Logic.Function.Basic

/-!
# Operating-system processes with reused process ids

A process is identified by its pid and its creation time. The kernel keeps one entry for each pid:
a running process, or a zombie until its parent reaps it, and hands the pid out again afterwards.
A pid is therefore no identity, but the pair is: no two processes of one history have the same pid
and creation time (`Processes.seen`, the premise of `Step.spawn`).

What every user of the table rests on: a process that is not live never becomes live again
(`Step.dead_stays`), and a step makes at most one identity live, one that never existed before
(`Step.live_of_live`).
-/

namespace LclFastapi.Lib

/-- One process of the machine's history: its pid and its creation time in seconds. -/
structure Identity where
  pid : Nat
  created : ℚ
  deriving DecidableEq

/-- A thread of a process. -/
structure Task where
  process : Identity
  thread : Nat
  deriving DecidableEq

/-- The kernel's entry for one pid. -/
structure Proc where
  created : ℚ
  zombie : Bool
  deriving DecidableEq

/-- The process table, with every identity of the history so far. -/
structure Processes where
  table : Nat → Option Proc
  seen : Set Identity
  /-- An entry belongs to an identity of the history. -/
  table_seen : ∀ pid p, table pid = some p → ⟨pid, p.created⟩ ∈ seen
  /-- Process ids are positive. -/
  pid_pos : ∀ pid p, table pid = some p → 0 < pid

namespace Processes

variable {p q : Processes} {id : Identity}

/-- No process at all. -/
def empty : Processes where
  table _ := none
  seen := ∅
  table_seen _ _ h := by simp at h
  pid_pos _ _ h := by simp at h

/-- The exact process runs: same pid, same creation time, not a zombie. -/
def live (p : Processes) (id : Identity) : Bool :=
  match p.table id.pid with
  | some e => decide (e.created = id.created) && !e.zombie
  | none => false

theorem live_iff : p.live id = true ↔ p.table id.pid = some ⟨id.created, false⟩ := by
  unfold live
  cases h : p.table id.pid with
  | none => simp
  | some e =>
    obtain ⟨c, z⟩ := e
    simp

theorem seen_of_live (h : p.live id = true) : id ∈ p.seen :=
  p.table_seen _ _ (live_iff.mp h)

theorem pos_of_live (h : p.live id = true) : 0 < id.pid :=
  p.pid_pos _ _ (live_iff.mp h)

/-- Two live processes under one pid are the same process. -/
theorem live_unique {id' : Identity} (h : p.live id = true) (h' : p.live id' = true)
    (hpid : id.pid = id'.pid) : id = id' := by
  rw [live_iff] at h h'
  rw [hpid, h'] at h
  obtain ⟨pid, created⟩ := id
  obtain ⟨pid', created'⟩ := id'
  simp only [Option.some.injEq, Proc.mk.injEq, and_true] at h hpid
  rw [h, hpid]

/-- A new process under a free pid. -/
def spawn (p : Processes) (id : Identity) (hpos : 0 < id.pid) : Processes where
  table := Function.update p.table id.pid (some ⟨id.created, false⟩)
  seen := insert id p.seen
  table_seen pid e h := by
    by_cases hp : pid = id.pid
    · subst hp
      rw [Function.update_self, Option.some.injEq] at h
      exact Or.inl (by rw [← h])
    · rw [Function.update_of_ne hp] at h
      exact Or.inr (p.table_seen _ _ h)
  pid_pos pid e h := by
    by_cases hp : pid = id.pid
    · exact hp ▸ hpos
    · rw [Function.update_of_ne hp] at h
      exact p.pid_pos _ _ h

/-- A machine on which these processes run. -/
def ofList (ids : List Identity) : Processes :=
  ids.foldl (fun p id => if h : 0 < id.pid then p.spawn id h else p) empty

/-- Death of a process: a zombie remains. -/
def exit (p : Processes) (id : Identity) (hl : p.live id = true) : Processes where
  table := Function.update p.table id.pid (some ⟨id.created, true⟩)
  seen := p.seen
  table_seen pid e h := by
    by_cases hp : pid = id.pid
    · subst hp
      rw [Function.update_self, Option.some.injEq] at h
      exact h ▸ seen_of_live hl
    · rw [Function.update_of_ne hp] at h
      exact p.table_seen _ _ h
  pid_pos pid e h := by
    by_cases hp : pid = id.pid
    · exact hp ▸ pos_of_live hl
    · rw [Function.update_of_ne hp] at h
      exact p.pid_pos _ _ h

/-- The parent collects a zombie; its pid is free again. -/
def reap (p : Processes) (pid : Nat) : Processes where
  table := Function.update p.table pid none
  seen := p.seen
  table_seen pid' e h := by
    by_cases hp : pid' = pid
    · rw [hp, Function.update_self] at h
      exact absurd h (by simp)
    · rw [Function.update_of_ne hp] at h
      exact p.table_seen _ _ h
  pid_pos pid' e h := by
    by_cases hp : pid' = pid
    · rw [hp, Function.update_self] at h
      exact absurd h (by simp)
    · rw [Function.update_of_ne hp] at h
      exact p.pid_pos _ _ h

/-- What the kernel can do. -/
inductive Step : Processes → Processes → Prop
  | spawn (p : Processes) (id : Identity) (hpos : 0 < id.pid) (hfree : p.table id.pid = none)
      (hnew : id ∉ p.seen) : Step p (p.spawn id hpos)
  | exit (p : Processes) (id : Identity) (hl : p.live id = true) : Step p (p.exit id hl)
  | reap (p : Processes) (pid : Nat) (c : ℚ) (hz : p.table pid = some ⟨c, true⟩) :
      Step p (p.reap pid)

/-- A live process was live before the step, or never existed before. -/
theorem Step.live_of_live (h : Step p q) (hq : q.live id = true) :
    p.live id = true ∨ id ∉ p.seen := by
  rw [live_iff] at hq
  cases h with
  | spawn new hpos hfree hnew =>
    by_cases hid : id.pid = new.pid
    · simp only [Processes.spawn, hid, Function.update_self, Option.some.injEq,
        Proc.mk.injEq, and_true] at hq
      have : id = new := by cases id; cases new; simp_all
      exact Or.inr (this ▸ hnew)
    · simp only [Processes.spawn, Function.update_of_ne hid] at hq
      exact Or.inl (live_iff.mpr hq)
  | exit old hl =>
    by_cases hid : id.pid = old.pid
    · simp [Processes.exit, hid] at hq
    · simp only [Processes.exit, Function.update_of_ne hid] at hq
      exact Or.inl (live_iff.mpr hq)
  | reap pid c hz =>
    by_cases hid : id.pid = pid
    · simp [Processes.reap, hid] at hq
    · simp only [Processes.reap, Function.update_of_ne hid] at hq
      exact Or.inl (live_iff.mpr hq)

theorem Step.seen_mono (h : Step p q) (hs : id ∈ p.seen) : id ∈ q.seen := by
  cases h with
  | spawn => exact Or.inr hs
  | exit | reap => exact hs

/-- **Death is final**: an identity of the history that is not live stays so. -/
theorem Step.dead_stays (h : Step p q) (hs : id ∈ p.seen) (hd : p.live id = false) :
    q.live id = false := by
  cases hq : q.live id with
  | false => rfl
  | true =>
    rcases h.live_of_live hq with hl | hn
    · rw [hd] at hl
      exact absurd hl (by simp)
    · exact absurd hs hn

end Processes

end LclFastapi.Lib
