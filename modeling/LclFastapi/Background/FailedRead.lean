import LclFastapi.Background.Journal
import Mathlib.Logic.Relation

/-!
# Failing calls of `BackgroundEvents.read`

One call of `read` over the journals it finds, with a fault wherever the file system may raise
`OSError`, and the calls and appends that follow it.

* `readlines`, `readJournal` and `readAll` are the three loops of `read`. They return the events
  collected so far also when they raise; `read` discards them then, as the exception does.
* `owed` are the records of a journal that no call has consumed. A call that returns returns them
  (`read_returns`), and one that raises forgets those ahead of its fault (`read_raises`).
* `Recovers` says of a failing call that what was owed before it is returned by later calls, each
  record once and in order.

**Headline:** `failed_read_recovers`: a failing call recovers exactly when no record is ahead of
its fault.
-/

namespace LclFastapi.Background.FailedRead

open Lib (Dict Identity Run Reachable)
open LclFastapi.Runtime (Value)
open Journal (Line accepted Event accepted_append)

/-- `BackgroundEvents` and the directory; offsets count lines. -/
structure State where
  files : String → Option (List Line)
  offsets : String → Option Nat
  identities : String → Option JournalRecord
  stopping : Dict Nat JournalRecord

/-- `self.offsets.get(path, 0)`. -/
def State.offset (s : State) (path : String) : Nat := (s.offsets path).getD 0

/-- The complete lines that `readline` returns after the seek. -/
def State.unread (s : State) (path : String) : List Line :=
  ((s.files path).getD []).drop (s.offset path)

/-- Where a call meets an `OSError`. -/
structure Faults where
  opening : String → Bool
  /-- The call of `readline` after this many lines of the journal. -/
  readline : String → Nat → Bool
  unlink : String → Bool

/-- What a loop leaves: the state, the list `events`, and whether it raises. -/
structure Outcome where
  state : State
  events : List Event
  raised : Bool

variable (sid : Value)

/-- One complete line. -/
def consume (path : String) (s : State) (line : Line) : State :=
  let s := { s with offsets := Function.update s.offsets path (some (s.offset path + 1)) }
  match line.accepted? sid with
  | some r =>
    { s with
      identities := Function.update s.identities path (some r)
      stopping := Background.stopping s.stopping r }
  | none => s

/-- The events of a line. -/
def eventsOf (path : String) (line : Line) : List Event :=
  match line.accepted? sid with
  | some r => [(path, r)]
  | none => []

/-- `while line := stream.readline()`. -/
def readlines (raises : Nat → Bool) (path : String) :
    Nat → List Line → State → List Event → Outcome
  | n, [], s, events => ⟨s, events, raises n⟩
  | n, line :: lines, s, events =>
    if raises n then ⟨s, events, true⟩
    else readlines raises path (n + 1) lines (consume sid path s line)
      (events ++ eventsOf sid path line)

/-- `path.unlink(missing_ok=True)`, and the entries of the path are dropped. -/
def State.unlink (s : State) (path : String) : State :=
  { s with
    files := Function.update s.files path none
    offsets := Function.update s.offsets path none
    identities := Function.update s.identities path none }

variable (live : Identity → Bool) (faults : Faults)

/-- After the last line: the journal of a process that is not live is removed. -/
def removeDead (path : String) (o : Outcome) : Outcome :=
  match o.state.identities path with
  | some last =>
    if !live last.identity then
      if faults.unlink path then { o with raised := true }
      else { o with state := o.state.unlink path }
    else o
  | none => o

/-- One journal. -/
def readJournal (path : String) (s : State) (events : List Event) : Outcome :=
  if faults.opening path then ⟨s, events, true⟩
  else
    let o := readlines sid (faults.readline path) path 0 (s.unread path) s events
    if o.raised then o else removeDead live faults path o

/-- `for path in sorted(self.directory.glob("*.jsonl"))`. -/
def readAll : List String → State → List Event → Outcome
  | [], s, events => ⟨s, events, false⟩
  | path :: todo, s, events =>
    let o := readJournal sid live faults path s events
    if o.raised then o else readAll todo o.state o.events

/-- `BackgroundEvents.read`; no result when it raises. -/
def read (paths : List String) (s : State) : State × Option (List Event) :=
  let o := readAll sid live faults paths s []
  (o.state, if o.raised then none else some o.events)

/-! ## What is owed -/

/-- The records of a journal that no call has consumed. -/
def owed (s : State) (path : String) : List JournalRecord := accepted sid (s.unread path)

/-- The records of some events that come from one journal. -/
def ofJournal (path : String) (events : List Event) : List JournalRecord :=
  events.filterMap fun e => if e.1 = path then some e.2 else none

/-- The record whose process the call looks at after the last line. -/
def lastRecord (s : State) (path : String) : Option JournalRecord :=
  (accepted sid (s.unread path)).getLast?.or (s.identities path)

/-- The call raises at this journal, after `n` of its lines. -/
inductive FailsAt (s : State) (path : String) : Nat → Prop
  | opening (h : faults.opening path = true) : FailsAt s path 0
  | readline (n : Nat) (hopen : faults.opening path = false) (hn : n ≤ (s.unread path).length)
      (h : faults.readline path n = true) (hfirst : ∀ m < n, faults.readline path m = false) :
      FailsAt s path n
  | unlink (last : JournalRecord) (hopen : faults.opening path = false)
      (hread : ∀ m ≤ (s.unread path).length, faults.readline path m = false)
      (hlast : lastRecord sid s path = some last) (hdead : live last.identity = false)
      (h : faults.unlink path = true) : FailsAt s path (s.unread path).length

/-- The call raises at `path`, after `n` of its lines and all of the journals `before`. -/
def Fails (s : State) (paths before : List String) (path : String) (n : Nat) : Prop :=
  (∃ after, paths = before ++ path :: after) ∧
    (∀ p ∈ before, ∀ k, ¬ FailsAt sid live faults s p k) ∧ FailsAt sid live faults s path n

/-- No record is ahead of the fault. -/
def NothingAhead (s : State) (before : List String) (path : String) (n : Nat) : Prop :=
  (∀ p ∈ before, owed sid s p = []) ∧ accepted sid ((s.unread path).take n) = []

variable {sid live faults} {s s' : State} {path p q : String} {line : Line} {lines : List Line}
variable {events : List Event} {n : Nat} {paths before : List String}

/-! ## One journal -/

theorem consume_files : (consume sid path s line).files = s.files := by
  unfold consume
  split <;> rfl

theorem consume_offsets : (consume sid path s line).offsets =
    Function.update s.offsets path (some (s.offset path + 1)) := by
  unfold consume
  split <;> rfl

theorem consume_identities : (consume sid path s line).identities =
    Function.update s.identities path ((line.accepted? sid).or (s.identities path)) := by
  unfold consume
  cases line.accepted? sid with
  | some r => rfl
  | none => simp

/-- The state after some lines of a journal. -/
def advance (sid : Value) (path : String) (s : State) (lines : List Line) : State :=
  lines.foldl (consume sid path) s

theorem advance_files : (advance sid path s lines).files = s.files := by
  induction lines generalizing s with
  | nil => rfl
  | cons line lines ih => exact (ih (s := consume sid path s line)).trans consume_files

theorem advance_offset : (advance sid path s lines).offset path = s.offset path + lines.length := by
  induction lines generalizing s with
  | nil => rfl
  | cons line lines ih =>
    have hfirst : (consume sid path s line).offset path = s.offset path + 1 := by
      simp [State.offset, consume_offsets]
    have hrest := ih (s := consume sid path s line)
    rw [hfirst] at hrest
    rw [List.length_cons, Nat.add_comm lines.length, ← Nat.add_assoc]
    exact hrest

theorem advance_offsets_other (hq : q ≠ path) :
    (advance sid path s lines).offsets q = s.offsets q := by
  induction lines generalizing s with
  | nil => rfl
  | cons line lines ih =>
    refine (ih (s := consume sid path s line)).trans ?_
    rw [consume_offsets, Function.update_of_ne hq]

theorem advance_identities_other (hq : q ≠ path) :
    (advance sid path s lines).identities q = s.identities q := by
  induction lines generalizing s with
  | nil => rfl
  | cons line lines ih =>
    refine (ih (s := consume sid path s line)).trans ?_
    rw [consume_identities, Function.update_of_ne hq]

/-- The last accepted record is the one whose process is looked at. -/
theorem advance_identities : (advance sid path s lines).identities path =
    (accepted sid lines).getLast?.or (s.identities path) := by
  induction lines generalizing s with
  | nil => rfl
  | cons line lines ih =>
    refine (ih (s := consume sid path s line)).trans ?_
    rw [consume_identities, Function.update_self]
    unfold accepted
    rw [List.filterMap_cons]
    cases line.accepted? sid with
    | none => rfl
    | some r =>
      rw [List.getLast?_cons]
      cases (lines.filterMap (Line.accepted? sid)).getLast? <;> rfl

/-- Some lines are the fold of `consume`, when no call of `readline` raises. -/
theorem readlines_ok {raises : Nat → Bool} (h : ∀ m ≤ lines.length, raises (n + m) = false) :
    readlines sid raises path n lines s events =
      ⟨advance sid path s lines, events ++ lines.flatMap (eventsOf sid path), false⟩ := by
  induction lines generalizing n s events with
  | nil => simpa [readlines, advance] using h 0 le_rfl
  | cons line lines ih =>
    have hn : raises n = false := by simpa using h 0 (Nat.zero_le _)
    have hrest : ∀ m ≤ lines.length, raises (n + 1 + m) = false := by
      intro m hm
      rw [Nat.add_assoc, Nat.add_comm 1]
      exact h (m + 1) (Nat.succ_le_succ hm)
    simp only [readlines, hn, Bool.false_eq_true, if_false]
    rw [ih hrest, List.append_assoc]
    rfl

/-- A call of `readline` raises after `k` lines. -/
theorem readlines_raise {raises : Nat → Bool} {k : Nat} (hk : k ≤ lines.length)
    (h : raises (n + k) = true) (hfirst : ∀ m < k, raises (n + m) = false) :
    readlines sid raises path n lines s events = ⟨advance sid path s (lines.take k),
      events ++ (lines.take k).flatMap (eventsOf sid path), true⟩ := by
  induction lines generalizing n s events k with
  | nil =>
    obtain rfl : k = 0 := Nat.le_zero.mp hk
    simpa [readlines, advance] using h
  | cons line lines ih =>
    cases k with
    | zero =>
      have hn : raises n = true := h
      simp [readlines, hn, advance]
    | succ k =>
      have hn : raises n = false := hfirst 0 (Nat.succ_pos k)
      have hraise : raises (n + 1 + k) = true := by
        rw [Nat.add_assoc, Nat.add_comm 1]
        exact h
      have hrest : ∀ m < k, raises (n + 1 + m) = false := by
        intro m hm
        rw [Nat.add_assoc, Nat.add_comm 1]
        exact hfirst (m + 1) (Nat.succ_lt_succ hm)
      simp only [readlines, hn, Bool.false_eq_true, if_false, List.take_succ_cons]
      rw [ih (Nat.le_of_succ_le_succ hk) hraise hrest, List.append_assoc]
      rfl

/-- The offset is within the file. -/
def Within (s : State) : Prop := ∀ path, s.offset path ≤ ((s.files path).getD []).length

/-- A call has consumed `n` lines of one journal, and touched no other. -/
structure Consumed (s : State) (path : String) (n : Nat) (s' : State) : Prop where
  unread : s'.unread path = (s.unread path).drop n
  files : ∀ q ≠ path, s'.files q = s.files q
  offsets : ∀ q ≠ path, s'.offsets q = s.offsets q
  identities : ∀ q ≠ path, s'.identities q = s.identities q
  kept : ∀ q, (s'.files q).isSome = true → (s.files q).isSome = true
  within : Within s → Within s'

theorem consumed_advance (sid : Value) (hn : n ≤ (s.unread path).length) :
    Consumed s path n (advance sid path s ((s.unread path).take n)) := by
  have hoffset : (advance sid path s ((s.unread path).take n)).offset path = s.offset path + n := by
    rw [advance_offset, List.length_take, Nat.min_eq_left hn]
  refine ⟨?_, fun q _ => by rw [advance_files], fun q hq => advance_offsets_other hq,
    fun q hq => advance_identities_other hq, fun q => by rw [advance_files]; exact id, ?_⟩
  · unfold State.unread at *
    rw [hoffset, advance_files, List.drop_drop]
  · intro hw q
    rw [advance_files]
    by_cases hq : q = path
    · subst hq
      have hlength := hw q
      rw [hoffset]
      rw [State.unread, List.length_drop] at hn
      omega
    · have hsame : (advance sid path s ((s.unread path).take n)).offset q = s.offset q := by
        unfold State.offset
        rw [advance_offsets_other hq]
      rw [hsame]
      exact hw q

theorem Consumed.unlink (h : Consumed s path n s') (hn : n = (s.unread path).length) :
    Consumed s path n (s'.unlink path) := by
  refine ⟨?_, fun q hq => ?_, fun q hq => ?_, fun q hq => ?_, fun q hq => ?_, fun hw q => ?_⟩
  · rw [hn, List.drop_length]
    simp [State.unread, State.unlink]
  · simpa [State.unlink, hq] using h.files q hq
  · simpa [State.unlink, hq] using h.offsets q hq
  · simpa [State.unlink, hq] using h.identities q hq
  · by_cases hp : q = path
    · simp [State.unlink, hp] at hq
    · exact h.kept q (by simpa [State.unlink, hp] using hq)
  · by_cases hp : q = path
    · simp [State.unlink, State.offset, hp]
    · simpa [State.unlink, State.offset, hp] using h.within hw q

/-- The events of the first `n` unread lines of a journal. -/
def firstEvents (sid : Value) (s : State) (path : String) (n : Nat) : List Event :=
  ((s.unread path).take n).flatMap (eventsOf sid path)

/-- The loop over the lines of a journal, without a fault. -/
theorem readlines_all (hread : ∀ m ≤ (s.unread path).length, faults.readline path m = false) :
    readlines sid (faults.readline path) path 0 (s.unread path) s events =
      ⟨advance sid path s (s.unread path),
        events ++ firstEvents sid s path (s.unread path).length, false⟩ := by
  unfold firstEvents
  rw [List.take_length]
  exact readlines_ok fun m hm => by
    rw [Nat.zero_add]
    exact hread m hm

theorem consumed_all (sid : Value) (s : State) (path : String) :
    Consumed s path (s.unread path).length (advance sid path s (s.unread path)) := by
  have h := consumed_advance sid (le_refl (s.unread path).length)
  rwa [List.take_length] at h

/-- **A journal without a fault** is read to its end. -/
theorem readJournal_ok (events : List Event) (h : ∀ k, ¬ FailsAt sid live faults s path k) :
    ∃ s', readJournal sid live faults path s events =
        ⟨s', events ++ firstEvents sid s path (s.unread path).length, false⟩ ∧
      Consumed s path (s.unread path).length s' := by
  have hopen : faults.opening path = false :=
    Bool.eq_false_iff.mpr fun hopen => h 0 (.opening hopen)
  have hread : ∀ m ≤ (s.unread path).length, faults.readline path m = false := by
    intro m hm
    induction m using Nat.strong_induction_on with
    | h m ih =>
      exact Bool.eq_false_iff.mpr fun hraise =>
        h m (.readline m hopen hm hraise fun k hk => ih k hk (hk.le.trans hm))
  have hlast : (advance sid path s (s.unread path)).identities path = lastRecord sid s path :=
    advance_identities
  have hall := consumed_all sid s path
  simp only [readJournal, removeDead, hopen, readlines_all hread, hlast, Bool.false_eq_true,
    if_false]
  cases hrecord : lastRecord sid s path with
  | none => exact ⟨_, rfl, hall⟩
  | some last =>
    simp only
    cases hlive : live last.identity with
    | true => exact ⟨_, rfl, hall⟩
    | false =>
      have hunlink : faults.unlink path = false :=
        Bool.eq_false_iff.mpr fun hunlink =>
          h _ (.unlink last hopen hread hrecord hlive hunlink)
      rw [hunlink]
      exact ⟨_, rfl, hall.unlink rfl⟩

/-- **A journal with a fault** is read up to it. -/
theorem readJournal_raises (events : List Event) (h : FailsAt sid live faults s path n) :
    ∃ s', readJournal sid live faults path s events =
        ⟨s', events ++ firstEvents sid s path n, true⟩ ∧ Consumed s path n s' := by
  cases h with
  | opening hopen =>
    have hnone := consumed_advance sid (Nat.zero_le (s.unread path).length)
    exact ⟨s, by simp [readJournal, hopen, firstEvents], hnone⟩
  | readline n hopen hn hraise hfirst =>
    have hlines : readlines sid (faults.readline path) path 0 (s.unread path) s events =
        ⟨advance sid path s ((s.unread path).take n), events ++ firstEvents sid s path n,
          true⟩ := by
      refine readlines_raise hn (by rwa [Nat.zero_add]) fun m hm => ?_
      rw [Nat.zero_add]
      exact hfirst m hm
    refine ⟨_, ?_, consumed_advance sid hn⟩
    simp only [readJournal, hopen, hlines, Bool.false_eq_true, if_false, if_true]
  | unlink last hopen hread hlast hdead hunlink =>
    have hidentity : (advance sid path s (s.unread path)).identities path = some last :=
      advance_identities.trans hlast
    refine ⟨_, ?_, consumed_all sid s path⟩
    simp only [readJournal, removeDead, hopen, readlines_all hread, hidentity, hdead, hunlink,
      Bool.false_eq_true, if_false, Bool.not_false, if_true]

/-! ## All journals -/

/-- The call has come to the end of some journals, and touched no other. -/
structure Drained (s : State) (paths : List String) (s' : State) : Prop where
  unread : ∀ p ∈ paths, s'.unread p = []
  files : ∀ q ∉ paths, s'.files q = s.files q
  offsets : ∀ q ∉ paths, s'.offsets q = s.offsets q
  identities : ∀ q ∉ paths, s'.identities q = s.identities q
  kept : ∀ q, (s'.files q).isSome = true → (s.files q).isSome = true
  within : Within s → Within s'

theorem Drained.unread_other (h : Drained s paths s') (hq : q ∉ paths) :
    s'.unread q = s.unread q := by
  unfold State.unread State.offset
  rw [h.files q hq, h.offsets q hq]

theorem Consumed.unread_other (h : Consumed s path n s') (hq : q ≠ path) :
    s'.unread q = s.unread q := by
  unfold State.unread State.offset
  rw [h.files q hq, h.offsets q hq]

theorem Drained.nil : Drained s [] s :=
  ⟨fun _ hp => absurd hp List.not_mem_nil, fun _ _ => rfl, fun _ _ => rfl, fun _ _ => rfl,
    fun _ h => h, fun h => h⟩

theorem Drained.cons {t : State} (h : Consumed s path (s.unread path).length t)
    (ht : Drained t paths s') (hp : path ∉ paths) : Drained s (path :: paths) s' := by
  have hother {q : String} (hq : q ∉ path :: paths) : q ≠ path ∧ q ∉ paths :=
    ⟨fun he => hq (he ▸ .head _), fun hm => hq (.tail _ hm)⟩
  refine ⟨fun p hm => ?_, fun q hq => ?_, fun q hq => ?_, fun q hq => ?_,
    fun q hq => h.kept q (ht.kept q hq), fun hw => ht.within (h.within hw)⟩
  · rcases List.mem_cons.mp hm with rfl | hm
    · rw [ht.unread_other hp, h.unread, List.drop_length]
    · exact ht.unread p hm
  · exact (ht.files q (hother hq).2).trans (h.files q (hother hq).1)
  · exact (ht.offsets q (hother hq).2).trans (h.offsets q (hother hq).1)
  · exact (ht.identities q (hother hq).2).trans (h.identities q (hother hq).1)

/-- A fault depends on the unread lines of its journal and on the process recorded for it. -/
theorem FailsAt.congr (h : FailsAt sid live faults s path n) (hu : s'.unread path = s.unread path)
    (hi : s'.identities path = s.identities path) : FailsAt sid live faults s' path n := by
  have hlast : lastRecord sid s' path = lastRecord sid s path := by
    unfold lastRecord
    rw [hu, hi]
  cases h with
  | opening hopen => exact .opening hopen
  | readline n hopen hn hraise hfirst => exact .readline n hopen (hu ▸ hn) hraise hfirst
  | unlink last hopen hread hrecord hdead hunlink =>
    rw [← hu]
    exact .unlink last hopen (hu ▸ hread) (hlast.trans hrecord) hdead hunlink

/-- The events of all unread lines of some journals. -/
def allEvents (sid : Value) (s : State) (paths : List String) : List Event :=
  paths.flatMap fun p => firstEvents sid s p (s.unread p).length

theorem firstEvents_congr (hu : s'.unread path = s.unread path) :
    firstEvents sid s' path n = firstEvents sid s path n := by
  unfold firstEvents
  rw [hu]

theorem allEvents_congr (hu : ∀ p ∈ paths, s'.unread p = s.unread p) :
    allEvents sid s' paths = allEvents sid s paths := by
  induction paths with
  | nil => rfl
  | cons p paths ih =>
    obtain ⟨hp, hpaths⟩ := List.forall_mem_cons.mp hu
    unfold allEvents at *
    rw [List.flatMap_cons, List.flatMap_cons, ih hpaths, firstEvents_congr hp, hp]

/-- **Journals without a fault** are read to their ends; the loop goes on with the next ones. -/
theorem readAll_ok (rest : List String) (events : List Event) (hnodup : paths.Nodup)
    (h : ∀ p ∈ paths, ∀ k, ¬ FailsAt sid live faults s p k) :
    ∃ s', readAll sid live faults (paths ++ rest) s events =
        readAll sid live faults rest s' (events ++ allEvents sid s paths) ∧ Drained s paths s' := by
  induction paths generalizing s events with
  | nil => exact ⟨s, by simp [allEvents], .nil⟩
  | cons p paths ih =>
    obtain ⟨hp, hnodup⟩ := List.nodup_cons.mp hnodup
    obtain ⟨hfirst, hlater⟩ := List.forall_mem_cons.mp h
    obtain ⟨t, hread, ht⟩ := readJournal_ok events hfirst
    have hne {q : String} (hq : q ∈ paths) : q ≠ p := fun he => hp (he ▸ hq)
    have hclear : ∀ q ∈ paths, ∀ k, ¬ FailsAt sid live faults t q k := fun q hq k hf =>
      hlater q hq k (hf.congr (ht.unread_other (hne hq)).symm (ht.identities q (hne hq)).symm)
    obtain ⟨s', hall, hdrained⟩ :=
      ih (events ++ firstEvents sid s p (s.unread p).length) hnodup hclear
    refine ⟨s', ?_, .cons ht hdrained hp⟩
    have hevents : allEvents sid t paths = allEvents sid s paths :=
      allEvents_congr fun q hq => ht.unread_other (hne hq)
    simp only [List.cons_append, readAll, hread, Bool.false_eq_true, if_false]
    rw [hall, hevents, List.append_assoc]
    rfl

/-- What a call has done before its fault. -/
structure Forgotten (s : State) (before : List String) (path : String) (n : Nat) (s' : State) :
    Prop where
  ahead : ∀ p ∈ before, s'.unread p = []
  fault : s'.unread path = (s.unread path).drop n
  others : ∀ q ∉ before, q ≠ path → s'.unread q = s.unread q
  kept : ∀ q, (s'.files q).isSome = true → (s.files q).isSome = true
  within : Within s → Within s'

/-- **A call that raises** leaves the journals before its fault without unread lines. -/
theorem read_raises (hnodup : paths.Nodup) (h : Fails sid live faults s paths before path n) :
    ∃ s', read sid live faults paths s = (s', none) ∧ Forgotten s before path n s' := by
  obtain ⟨⟨after, rfl⟩, hbefore, hfail⟩ := h
  obtain ⟨hnd, -, hdisjoint⟩ := List.nodup_append.mp hnodup
  have hpath : path ∉ before := fun hm => hdisjoint path hm path (.head _) rfl
  obtain ⟨t, hall, ht⟩ := readAll_ok (path :: after) [] hnd hbefore
  have hfail' := hfail.congr (ht.unread_other hpath) (ht.identities path hpath)
  obtain ⟨s', hread, hs'⟩ := readJournal_raises ([] ++ allEvents sid s before) hfail'
  refine ⟨s', ?_, ?_, ?_, ?_, fun q hq => ht.kept q (hs'.kept q hq),
    fun hw => hs'.within (ht.within hw)⟩
  · simp only [read, hall, readAll, hread, if_true]
  · intro p hp
    have hne : p ≠ path := fun he => hpath (he ▸ hp)
    rw [hs'.unread_other hne, ht.unread p hp]
  · rw [hs'.unread, ht.unread_other hpath]
  · intro q hq hne
    rw [hs'.unread_other hne, ht.unread_other hq]

/-- **A call that returns** returns what is owed, and leaves nothing. -/
theorem read_returns (hnodup : paths.Nodup)
    (h : ∀ p ∈ paths, ∀ k, ¬ FailsAt sid live faults s p k) :
    ∃ s', read sid live faults paths s = (s', some (allEvents sid s paths)) ∧
      Drained s paths s' := by
  obtain ⟨s', hall, hs'⟩ := readAll_ok [] [] hnodup h
  rw [List.append_nil] at hall
  refine ⟨s', ?_, hs'⟩
  simp [read, hall, readAll]

/-! ## Records -/

theorem ofJournal_append (l m : List Event) :
    ofJournal p (l ++ m) = ofJournal p l ++ ofJournal p m := List.filterMap_append

theorem ofJournal_eventsOf : ofJournal p (lines.flatMap (eventsOf sid path)) =
    if p = path then accepted sid lines else [] := by
  induction lines with
  | nil => simp [ofJournal, accepted]
  | cons line lines ih =>
    rw [List.flatMap_cons, ofJournal_append, ih]
    unfold accepted eventsOf
    cases h : line.accepted? sid <;> by_cases hp : p = path <;>
      simp [ofJournal, h, hp, eq_comm]

theorem ofJournal_allEvents (hnodup : paths.Nodup) :
    ofJournal p (allEvents sid s paths) = if p ∈ paths then owed sid s p else [] := by
  induction paths with
  | nil => rfl
  | cons q paths ih =>
    obtain ⟨hq, hnodup⟩ := List.nodup_cons.mp hnodup
    have hcons : allEvents sid s (q :: paths) =
        firstEvents sid s q (s.unread q).length ++ allEvents sid s paths := rfl
    have hfirst : ofJournal p (firstEvents sid s q (s.unread q).length) =
        if p = q then owed sid s q else [] := by
      unfold firstEvents
      rw [List.take_length, ofJournal_eventsOf]
      rfl
    rw [hcons, ofJournal_append, hfirst, ih hnodup]
    by_cases hp : p = q
    · subst hp
      simp [hq]
    · simp [hp]

/-! ## Calls and appends -/

/-- `sorted(self.directory.glob("*.jsonl"))`. -/
structure Listing (s : State) (paths : List String) : Prop where
  sorted : paths.Pairwise (· < ·)
  glob : ∀ p, p ∈ paths ↔ (s.files p).isSome = true

theorem Listing.nodup (h : Listing s paths) : paths.Nodup :=
  h.sorted.imp fun {a b} (hlt : a < b) (he : a = b) => String.lt_irrefl b (he ▸ hlt)

/-- A journal that is not listed owes nothing. -/
theorem Listing.owed_eq (h : Listing s paths) (sid : Value) (p : String) :
    (if p ∈ paths then owed sid s p else []) = owed sid s p := by
  split
  · rfl
  · rename_i hp
    rw [h.glob, Bool.not_eq_true, Option.isSome_eq_false_iff, Option.isNone_iff_eq_none] at hp
    simp [owed, State.unread, hp, accepted]

/-- A process completes a line of its journal. -/
def State.append (s : State) (path : String) (line : Line) : State :=
  { s with files := Function.update s.files path (some ((s.files path).getD [] ++ [line])) }

theorem append_unread (h : s.offset path ≤ ((s.files path).getD []).length) :
    (s.append path line).unread path = s.unread path ++ [line] := by
  unfold State.append State.unread State.offset at *
  simp only [Function.update_self, Option.getD_some]
  exact List.drop_append_of_le_length h

theorem append_unread_other (hq : q ≠ path) : (s.append path line).unread q = s.unread q := by
  simp [State.append, State.unread, State.offset, hq]

inductive Label where
  /-- A process completes a line of its journal. -/
  | append (path : String) (line : Line)
  | returned (events : List Event)
  /-- A call raises at this journal, after so many of its lines and all of the journals before. -/
  | failed (before : List String) (path : String) (n : Nat)

/-- Calls of `read`, and what the processes do between them. -/
inductive Step (sid : Value) : State → Label → State → Prop
  | append (s : State) (path : String) (line : Line) :
      Step sid s (.append path line) (s.append path line)
  | returned (s s' : State) (live : Identity → Bool) (faults : Faults) (paths : List String)
      (events : List Event) (hlist : Listing s paths)
      (hread : read sid live faults paths s = (s', some events)) :
      Step sid s (.returned events) s'
  | failed (s s' : State) (live : Identity → Bool) (faults : Faults) (paths : List String)
      (before : List String) (path : String) (n : Nat) (hlist : Listing s paths)
      (hfails : Fails sid live faults s paths before path n)
      (hread : read sid live faults paths s = (s', none)) :
      Step sid s (.failed before path n) s'

/-- A reader that has just been constructed, over any journals. -/
structure Init (s : State) : Prop where
  offsets : ∀ p, s.offsets p = none
  identities : ∀ p, s.identities p = none
  stopping : s.stopping = .empty

/-- What a step returns of a journal. -/
def Label.returned? (path : String) : Label → Option (List JournalRecord)
  | .returned events => some (ofJournal path events)
  | _ => none

/-- The record that a step appends to a journal. -/
def Label.appended? (sid : Value) (path : String) : Label → Option JournalRecord
  | .append p line => if p = path then line.accepted? sid else none
  | _ => none

/-- A failing call has no record ahead of its fault. -/
def Clean (sid : Value) (s : State) : Label → Prop
  | .failed before path n => NothingAhead sid s before path n
  | _ => True

/-- What was owed in `s` is returned after `s'`: whatever is appended and however the later calls
fail with nothing ahead, the calls have returned, once one of them returns, every record of a
journal that was owed or has been appended, once and in order. -/
def Recovers (sid : Value) (s s' : State) : Prop :=
  ∀ r : Run (Step sid), r.state 0 = s' → (∀ k, k < r.length → Clean sid (r.state k) (r.label k)) →
    ∀ m, m < r.length → (∃ events, r.label m = .returned events) → ∀ path,
      (r.trace (Label.returned? path) (m + 1)).flatten =
        owed sid s path ++ r.trace (Label.appended? sid path) (m + 1)

/-- Some journal of a list is the first with a fault. -/
theorem fails_of_failsAt (h : ∃ p ∈ paths, ∃ k, FailsAt sid live faults s p k) :
    ∃ before path n, Fails sid live faults s paths before path n := by
  induction paths with
  | nil =>
    obtain ⟨p, hp, -⟩ := h
    cases hp
  | cons q paths ih =>
    by_cases hq : ∃ k, FailsAt sid live faults s q k
    · obtain ⟨k, hk⟩ := hq
      exact ⟨[], q, k, ⟨paths, rfl⟩, fun _ hp => absurd hp List.not_mem_nil, hk⟩
    · obtain ⟨p, hp, k, hk⟩ := h
      rcases List.mem_cons.mp hp with rfl | hp
      · exact absurd ⟨k, hk⟩ hq
      · obtain ⟨before, path, n, ⟨after, rfl⟩, hbefore, hfail⟩ := ih ⟨p, hp, k, hk⟩
        refine ⟨q :: before, path, n, ⟨after, rfl⟩, fun x hx k hk => ?_, hfail⟩
        rcases List.mem_cons.mp hx with rfl | hx
        · exact hq ⟨k, hk⟩
        · exact hbefore x hx k hk

/-- A returning call returns what each journal owes. -/
theorem returned_of_read {events : List Event} (hlist : Listing s paths)
    (hread : read sid live faults paths s = (s', some events)) :
    (∀ q, ofJournal q events = owed sid s q) ∧ (∀ q, owed sid s' q = []) ∧
      (Within s → Within s') := by
  have hok : ∀ p ∈ paths, ∀ k, ¬ FailsAt sid live faults s p k := by
    intro p hp k hk
    obtain ⟨before, path, n, hfails⟩ := fails_of_failsAt ⟨p, hp, k, hk⟩
    obtain ⟨t, hnone, -⟩ := read_raises hlist.nodup hfails
    rw [hread] at hnone
    cases hnone
  obtain ⟨t, hall, ht⟩ := read_returns hlist.nodup hok
  rw [hread] at hall
  cases hall
  refine ⟨fun q => (ofJournal_allEvents hlist.nodup).trans (hlist.owed_eq sid q), fun q => ?_,
    ht.within⟩
  by_cases hq : q ∈ paths
  · unfold owed
    rw [ht.unread q hq]
    rfl
  · have hsame : owed sid s' q = owed sid s q := by
      unfold owed
      rw [ht.unread_other hq]
    rw [hsame, ← hlist.owed_eq sid q, if_neg hq]

/-- A failing call keeps everything owed, exactly when nothing is ahead of its fault. -/
theorem Forgotten.owed_iff (h : Forgotten s before path n s') :
    (∀ q, owed sid s' q = owed sid s q) ↔ NothingAhead sid s before path n := by
  have hsplit : owed sid s path =
      accepted sid ((s.unread path).take n) ++ accepted sid ((s.unread path).drop n) := by
    unfold owed
    rw [← accepted_append, List.take_append_drop]
  have hrest : owed sid s' path = accepted sid ((s.unread path).drop n) := by
    unfold owed
    rw [h.fault]
  have hahead {p : String} (hp : p ∈ before) : owed sid s' p = [] := by
    unfold owed
    rw [h.ahead p hp]
    rfl
  constructor
  · intro hsame
    refine ⟨fun p hp => (hsame p).symm.trans (hahead hp), ?_⟩
    have heq := (hrest.symm.trans (hsame path)).trans hsplit
    exact List.self_eq_append_left.mp heq
  · rintro ⟨hbefore, htake⟩ q
    by_cases hq : q ∈ before
    · rw [hahead hq, hbefore q hq]
    · by_cases hp : q = path
      · rw [hp, hrest, hsplit, htake, List.nil_append]
      · unfold owed
        rw [h.others q hq hp]

/-- A raising call, as a step of the system. -/
theorem forgotten_of_read (hlist : Listing s paths)
    (hfails : Fails sid live faults s paths before path n)
    (hread : read sid live faults paths s = (s', none)) : Forgotten s before path n s' := by
  obtain ⟨t, hraise, ht⟩ := read_raises hlist.nodup hfails
  rw [hread] at hraise
  cases hraise
  exact ht

/-! ## The ledger -/

theorem within_step {l : Label} (h : Step sid s l s') (hw : Within s) : Within s' := by
  cases h with
  | append p line =>
    intro q
    by_cases hq : q = p
    · subst hq
      refine (hw q).trans ?_
      simp [State.append]
    · simpa [State.append, State.offset, hq] using hw q
  | returned _ live faults paths events hlist hread => exact (returned_of_read hlist hread).2.2 hw
  | failed _ live faults paths before path n hlist hfails hread =>
    exact (forgotten_of_read hlist hfails hread).within hw

/-- A step returns and leaves what was owed and is appended. -/
theorem ledger_step {l : Label} (h : Step sid s l s') (hw : Within s) (hclean : Clean sid s l)
    (q : String) : (l.returned? q).toList.flatten ++ owed sid s' q =
      owed sid s q ++ (l.appended? sid q).toList := by
  cases h with
  | append p line =>
    by_cases hq : p = q
    · subst hq
      unfold owed
      rw [append_unread (hw p), accepted_append]
      cases hline : line.accepted? sid <;>
        simp [Label.returned?, Label.appended?, accepted, hline]
    · unfold owed
      rw [append_unread_other (Ne.symm hq)]
      simp [Label.returned?, Label.appended?, hq]
  | returned _ live faults paths events hlist hread =>
    obtain ⟨hevents, hempty, -⟩ := returned_of_read hlist hread
    simp [Label.returned?, Label.appended?, hevents q, hempty q]
  | failed _ live faults paths before path n hlist hfails hread =>
    have hforgotten := forgotten_of_read hlist hfails hread
    simp [Label.returned?, Label.appended?, hforgotten.owed_iff.mpr hclean q]

theorem ledger_run (r : Run (Step sid)) (hw : Within (r.state 0))
    (hclean : ∀ k, k < r.length → Clean sid (r.state k) (r.label k)) (q : String) {i : Nat}
    (hi : i ≤ r.length) : (r.trace (Label.returned? q) i).flatten ++ owed sid (r.state i) q =
      owed sid (r.state 0) q ++ r.trace (Label.appended? sid q) i := by
  induction i with
  | zero => simp
  | succ i ih =>
    have hwithin : Within (r.state i) :=
      r.invariant hw (fun _ _ _ h hs => within_step h hs) i (Nat.le_of_succ_le hi)
    have hstep := ledger_step (r.step_ok i hi) hwithin (hclean i hi) q
    rw [Run.trace_succ, Run.trace_succ, List.flatten_append, List.append_assoc, hstep,
      ← List.append_assoc, ih (Nat.le_of_succ_le hi), List.append_assoc]

theorem within_reachable (h : Reachable Init (Step sid) s) : Within s :=
  h.invariant (fun s hinit path => by simp [State.offset, hinit.offsets path])
    fun _ _ _ hstep hw => within_step hstep hw

/-- A state that owes the same recovers it. -/
theorem recovers_of_owed (hw : Within s') (h : ∀ q, owed sid s' q = owed sid s q) :
    Recovers sid s s' := by
  rintro r rfl hclean m hm ⟨events, hreturned⟩ q
  have hledger := ledger_run r hw hclean q hm
  have hstep := r.step_ok m hm
  rw [hreturned] at hstep
  have hempty : owed sid (r.state (m + 1)) q = [] := by
    generalize r.state (m + 1) = t at hstep
    cases hstep with
    | returned _ live faults paths _ hlist hread => exact (returned_of_read hlist hread).2.1 q
  rwa [hempty, List.append_nil, h q] at hledger

/-- No fault at all. -/
def noFaults : Faults := ⟨fun _ => false, fun _ _ => false, fun _ => false⟩

theorem not_failsAt_noFaults {k : Nat} : ¬ FailsAt sid live noFaults s p k := nofun

/-- One call without a fault shows what a state owes. -/
theorem owed_of_recovers (h : Recovers sid s s') (hlist : Listing s' paths) (q : String) :
    owed sid s' q = owed sid s q := by
  obtain ⟨t, hread, -⟩ : ∃ t, read sid (fun _ => true) noFaults paths s' =
      (t, some (allEvents sid s' paths)) ∧ Drained s' paths t :=
    read_returns hlist.nodup fun _ _ _ => not_failsAt_noFaults
  have hcall := Step.returned s' t (fun _ => true) noFaults paths _ hlist hread
  have hone := h ((Run.start (Step sid) s' (.returned [])).snoc hcall) rfl
    (fun k hk => by
      obtain rfl : k = 0 := Nat.lt_one_iff.mp hk
      exact trivial) 0 Nat.zero_lt_one ⟨_, rfl⟩ q
  have hlabel : ((Run.start (Step sid) s' (.returned [])).snoc hcall).label 0 =
      .returned (allEvents sid s' paths) := rfl
  rw [Run.trace_succ, Run.trace_succ, hlabel] at hone
  have hevents := (ofJournal_allEvents hlist.nodup).trans (hlist.owed_eq sid q)
  simpa [Label.returned?, Label.appended?, hevents] using hone

/-- **A failing call recovers exactly when no record is ahead of its fault.** -/
theorem failed_read_recovers (hs : Reachable Init (Step sid) s) (hlist : Listing s paths)
    (hfails : Fails sid live faults s paths before path n) :
    Recovers sid s (read sid live faults paths s).1 ↔ NothingAhead sid s before path n := by
  obtain ⟨s', hread, hs'⟩ := read_raises hlist.nodup hfails
  rw [hread, ← hs'.owed_iff]
  constructor
  · intro h q
    have hlist' : Listing s' (paths.filter fun p => (s'.files p).isSome) := by
      refine ⟨hlist.sorted.filter _, fun p => ?_⟩
      rw [List.mem_filter, hlist.glob]
      exact ⟨fun hp => hp.2, fun hp => ⟨hs'.kept p hp, hp⟩⟩
    exact owed_of_recovers h hlist' q
  · exact recovers_of_owed (hs'.within (within_reachable hs))

/-! ## The connection to the interleaved model -/

section Interleaved

variable {w : Identity} {j : Journal.State} {todo : List String}

/-- The reader's part of a state of `Background.Journal`, at a program point. -/
def State.at (s : State) (j : Journal.State) (pc : Journal.PC) : Journal.State :=
  { j with
    files := s.files, offsets := s.offsets, identities := s.identities, stopping := s.stopping
    pc := pc }

/-- Steps of a call of `read`, while nothing else happens. -/
abbrev Steps (sid : Value) (w : Identity) : Journal.State → Journal.State → Prop :=
  Relation.ReflTransGen fun a b => ∃ l, Journal.Step sid w a l b

theorem consume_step (hu : s.unread path = line :: lines) :
    ∃ l, Journal.Step sid w (s.at j (.readline path todo events)) l
      ((consume sid path s line).at j
        (.readline path todo (events ++ eventsOf sid path line))) := by
  cases hfile : s.files path with
  | none => simp [State.unread, hfile] at hu
  | some all =>
    have hline : all[s.offset path]? = some line := by
      have hdrop : all.drop (s.offset path) = line :: lines := by
        simpa [State.unread, hfile] using hu
      rw [← List.head?_drop, hdrop]
      rfl
    have hstep : Journal.Step sid w (s.at j (.readline path todo events)) .reading _ :=
      .readline _ path todo events all line rfl hfile hline
    refine ⟨.reading, ?_⟩
    unfold consume eventsOf
    cases hline : line.accepted? sid with
    | none =>
      rw [hline] at hstep
      rw [List.append_nil]
      exact hstep
    | some r =>
      rw [hline] at hstep
      exact hstep

theorem consume_unread (hu : s.unread path = line :: lines) :
    (consume sid path s line).unread path = lines := by
  have hone : Consumed s path 1 (advance sid path s ((s.unread path).take 1)) :=
    consumed_advance sid (by simp [hu])
  have hunread := hone.unread
  rw [hu] at hunread
  exact hunread

/-- The loop over the lines of a journal, up to its end or to a fault. -/
theorem readlines_steps {raises : Nat → Bool} (hu : s.unread path = lines) :
    Steps sid w (s.at j (.readline path todo events))
      ((readlines sid raises path n lines s events).state.at j
        (.readline path todo (readlines sid raises path n lines s events).events)) := by
  induction lines generalizing n s events with
  | nil => exact .refl
  | cons line lines ih =>
    unfold readlines
    split
    · exact .refl
    · exact .head (consume_step hu) (ih (consume_unread hu))

/-- A loop that does not raise comes to the end of its journal. -/
theorem readlines_end {raises : Nat → Bool} (hu : s.unread path = lines)
    (h : (readlines sid raises path n lines s events).raised = false) :
    (readlines sid raises path n lines s events).state.unread path = [] := by
  induction lines generalizing n s events with
  | nil => exact hu
  | cons line lines ih =>
    unfold readlines at h ⊢
    split at h
    · cases h
    · rename_i hraise
      rw [if_neg hraise]
      exact ih (consume_unread hu) h

/-- A journal is read without touching another file. -/
theorem readJournal_files (hq : q ≠ path) :
    (readJournal sid live faults path s events).state.files q = s.files q := by
  by_cases h : ∃ k, FailsAt sid live faults s path k
  · obtain ⟨k, hk⟩ := h
    obtain ⟨s', hread, hs'⟩ := readJournal_raises events hk
    rw [hread]
    exact hs'.files q hq
  · obtain ⟨s', hread, hs'⟩ := readJournal_ok events (not_exists.mp h)
    rw [hread]
    exact hs'.files q hq

/-- From the end of a journal to the next one or to a fault. -/
theorem removeDead_steps {o : Outcome} (hraised : o.raised = false)
    (hend : o.state.unread path = []) :
    ∃ pc, Steps sid w (o.state.at j (.readline path todo o.events))
        ((removeDead j.os.live faults path o).state.at j pc) ∧
      if (removeDead j.os.live faults path o).raised then pc ≠ .idle
      else pc = .next todo (removeDead j.os.live faults path o).events := by
  have heof : Steps sid w (o.state.at j (.readline path todo o.events))
      (o.state.at j (.check path todo o.events)) := by
    refine .single ⟨.reading, .eof _ path todo o.events rfl fun lines hfile => ?_⟩
    have hnone : lines.drop (o.state.offset path) = [] := by
      have hfile' : o.state.files path = some lines := hfile
      simpa [State.unread, hfile'] using hend
    exact List.drop_eq_nil_iff.mp hnone
  have hgoes (hl : ∀ r, o.state.identities path = some r → j.os.live r.identity = true) :
      Steps sid w (o.state.at j (.readline path todo o.events))
        (o.state.at j (.next todo o.events)) :=
    .tail heof ⟨.reading, .live _ path todo o.events rfl hl⟩
  unfold removeDead
  cases hlast : o.state.identities path with
  | none => exact ⟨_, hgoes (by simp [hlast]), by simp [hraised]⟩
  | some last =>
    simp only
    cases hl : j.os.live last.identity with
    | true => exact ⟨_, hgoes (by simp [hlast, hl]), by simp [hraised]⟩
    | false =>
      have hdead : Steps sid w (o.state.at j (.readline path todo o.events))
          (o.state.at j (.unlink path todo o.events)) :=
        .tail heof ⟨_, .dead _ path todo o.events last rfl hlast hl⟩
      cases hunlink : faults.unlink path with
      | true => exact ⟨_, hdead, nofun⟩
      | false =>
        exact ⟨_, .tail hdead ⟨.reading, .unlink _ path todo o.events rfl⟩, by simp [hraised]⟩

/-- One journal, up to the next one or to a fault. -/
theorem readJournal_steps (hfile : (s.files path).isSome = true) :
    ∃ pc, Steps sid w (s.at j (.next (path :: todo) events))
        ((readJournal sid j.os.live faults path s events).state.at j pc) ∧
      if (readJournal sid j.os.live faults path s events).raised then pc ≠ .idle
      else pc = .next todo (readJournal sid j.os.live faults path s events).events := by
  unfold readJournal
  split
  · exact ⟨_, .refl, nofun⟩
  · have hlines : Steps sid w (s.at j (.readline path todo events))
        ((readlines sid (faults.readline path) path 0 (s.unread path) s events).state.at j
          (.readline path todo
            (readlines sid (faults.readline path) path 0 (s.unread path) s events).events)) :=
      readlines_steps rfl
    have hend : (readlines sid (faults.readline path) path 0 (s.unread path) s events).raised
        = false → _ := readlines_end rfl
    have hopen : Steps sid w (s.at j (.next (path :: todo) events)) _ :=
      .head ⟨.reading, .open _ path todo events rfl hfile⟩ hlines
    dsimp only
    generalize readlines sid (faults.readline path) path 0 (s.unread path) s events = o
      at hopen hend ⊢
    split
    · exact ⟨_, hopen, by simp [*]⟩
    · rename_i hraised
      obtain ⟨pc, hsteps, hpc⟩ := removeDead_steps (Bool.eq_false_iff.mpr hraised)
        (hend (Bool.eq_false_iff.mpr hraised))
      exact ⟨pc, hopen.trans hsteps, hpc⟩

/-- All journals, up to the return or to a fault. -/
theorem readAll_steps (hfiles : ∀ p ∈ paths, (s.files p).isSome = true) (hnodup : paths.Nodup) :
    ∃ pc, Steps sid w (s.at j (.next paths events))
        ((readAll sid j.os.live faults paths s events).state.at j pc) ∧
      if (readAll sid j.os.live faults paths s events).raised then pc ≠ .idle
      else pc = .next [] (readAll sid j.os.live faults paths s events).events := by
  induction paths generalizing s events with
  | nil => exact ⟨_, .refl, rfl⟩
  | cons path paths ih =>
    obtain ⟨hpath, hnodup⟩ := List.nodup_cons.mp hnodup
    obtain ⟨hfile, hfiles⟩ := List.forall_mem_cons.mp hfiles
    obtain ⟨pc, hsteps, hpc⟩ : ∃ pc, Steps sid w (s.at j (.next (path :: paths) events))
        ((readJournal sid j.os.live faults path s events).state.at j pc) ∧ _ :=
      readJournal_steps hfile
    have hothers : ∀ q ≠ path,
        (readJournal sid j.os.live faults path s events).state.files q = s.files q :=
      fun q hq => readJournal_files hq
    unfold readAll
    dsimp only
    generalize readJournal sid j.os.live faults path s events = o at hsteps hpc hothers ⊢
    split
    · rename_i hraised
      rw [if_pos hraised] at hpc
      exact ⟨pc, hsteps, hpc⟩
    · rename_i hraised
      rw [if_neg hraised] at hpc
      have hfiles' : ∀ p ∈ paths, (o.state.files p).isSome = true := fun p hp => by
        rw [hothers p fun he => hpath (he ▸ hp)]
        exact hfiles p hp
      obtain ⟨pc', hrest, hpc'⟩ : ∃ pc', Steps sid w (o.state.at j (.next paths o.events))
          ((readAll sid j.os.live faults paths o.state o.events).state.at j pc') ∧ _ :=
        ih hfiles' hnodup
      rw [← hpc] at hrest
      exact ⟨pc', hsteps.trans hrest, hpc'⟩

/-- The reader and the directory of a state of `Background.Journal`. -/
def ofJournalState (j : Journal.State) : State := ⟨j.files, j.offsets, j.identities, j.stopping⟩

/-- **A call of `read` is one of the interleaved model** in which nothing else happens. -/
theorem read_steps (hpc : j.pc = .idle) (hlist : Listing (ofJournalState j) paths) :
    ∃ j', Steps sid w j j' ∧ j'.pc = .idle ∧
      ofJournalState j' = (read sid j.os.live faults paths (ofJournalState j)).1 ∧
      j'.returns = j.returns ++ (read sid j.os.live faults paths (ofJournalState j)).2.toList := by
  have hbegin : Steps sid w j ((ofJournalState j).at j (.next paths [])) :=
    .single ⟨_, .list j paths hpc hlist.sorted hlist.glob⟩
  obtain ⟨pc, hsteps, hend⟩ : ∃ pc, Steps sid w ((ofJournalState j).at j (.next paths []))
      ((readAll sid j.os.live faults paths (ofJournalState j) []).state.at j pc) ∧ _ :=
    readAll_steps (fun p hp => (hlist.glob p).mp hp) hlist.nodup
  unfold read
  dsimp only
  generalize readAll sid j.os.live faults paths (ofJournalState j) [] = o at hsteps hend ⊢
  split
  · rename_i hraised
    rw [if_pos hraised] at hend
    exact ⟨_, .tail (hbegin.trans hsteps) ⟨_, .raise _ hend⟩, rfl, rfl, by simp [State.at]⟩
  · rename_i hraised
    rw [if_neg hraised] at hend
    exact ⟨_, .tail (hbegin.trans hsteps) ⟨_, .ret _ o.events hend⟩, rfl, rfl, rfl⟩

end Interleaved

/-! ### The second of two journals cannot be opened -/

/-- `{"level": 20, "message": "background retired", "retired": true, ...}` of process 7. -/
def retired : JournalRecord where
  identity := ⟨7, 0⟩
  service_id := .str "start"
  level := 20
  message := "background retired"
  deadline := none
  retired := true
  sequence := 1

/-- The journals of processes 7 and 8, not read yet. -/
def twoJournals : State where
  files p :=
    if p = "7.jsonl" then some [.record retired] else if p = "8.jsonl" then some [] else none
  offsets _ := none
  identities _ := none
  stopping := .empty

theorem twoJournals_init : Init twoJournals := ⟨fun _ => rfl, fun _ => rfl, rfl⟩

theorem twoJournals_listing : Listing twoJournals ["7.jsonl", "8.jsonl"] := by
  refine ⟨by decide, fun p => ?_⟩
  by_cases h7 : p = "7.jsonl"
  · simp [twoJournals, h7]
  · by_cases h8 : p = "8.jsonl" <;> simp [twoJournals, h7, h8]

/-- One journal cannot be opened. -/
def deniedOpen (path : String) : Faults := { noFaults with opening := fun p => p == path }

theorem failed_read_recovers_first : Recovers (.str "start") twoJournals
    (read (.str "start") (fun _ => true) (deniedOpen "7.jsonl") ["7.jsonl", "8.jsonl"]
      twoJournals).1 := by
  have hfails : Fails (.str "start") (fun _ => true) (deniedOpen "7.jsonl") twoJournals
      ["7.jsonl", "8.jsonl"] [] "7.jsonl" 0 :=
    ⟨⟨["8.jsonl"], rfl⟩, fun _ hp => absurd hp List.not_mem_nil, .opening rfl⟩
  exact (failed_read_recovers (.start twoJournals_init) twoJournals_listing hfails).mpr
    ⟨fun _ hp => absurd hp List.not_mem_nil, rfl⟩

/-- **A journal that cannot be opened loses the records of the journals before it.** -/
theorem denied_open_loses :
    ¬ ∀ (s : State) (live : Identity → Bool) (faults : Faults) (paths before : List String)
      (path : String) (n : Nat), Reachable Init (Step (.str "start")) s → Listing s paths →
      Fails (.str "start") live faults s paths before path n →
      Recovers (.str "start") s (read (.str "start") live faults paths s).1 := by
  intro h
  have hfails : Fails (.str "start") (fun _ => true) (deniedOpen "8.jsonl") twoJournals
      ["7.jsonl", "8.jsonl"] ["7.jsonl"] "8.jsonl" 0 := by
    refine ⟨⟨[], rfl⟩, fun p hp k hk => ?_, .opening rfl⟩
    obtain rfl := List.mem_singleton.mp hp
    cases hk with
    | opening hopen => exact absurd hopen (by decide)
    | readline _ _ _ hraise => cases hraise
    | unlink _ _ _ _ hdead => cases hdead
  have hrecovers := h twoJournals _ _ _ _ _ _ (.start twoJournals_init) twoJournals_listing hfails
  have hlist : Listing (read (.str "start") (fun _ => true) (deniedOpen "8.jsonl")
      ["7.jsonl", "8.jsonl"] twoJournals).1 ["7.jsonl", "8.jsonl"] :=
    ⟨twoJournals_listing.sorted, twoJournals_listing.glob⟩
  have hsame := owed_of_recovers hrecovers hlist "7.jsonl"
  cases hsame

end LclFastapi.Background.FailedRead
