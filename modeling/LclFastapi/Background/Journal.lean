import LclFastapi.Lib.Dict
import LclFastapi.Lib.Run
import LclFastapi.Runtime.State

/-!
# The background journal (`background/journal.py`)

An API process appends JSON lines to `background/{pid}.jsonl` (`BackgroundJournal.flush`), and the
controller consumes them (`BackgroundEvents.read`). The system follows one writer `w` against the
controller; every other journal holds arbitrary lines at every moment.

* A line is complete when its newline is in the file. `readline` treats a partial last line as the
  end of the file, so the files hold complete lines only.
* Listing the directory, each `readline`, the liveness check, the unlink and the return of `read`
  are single steps. `read` may raise between any two of them.
* `State.written` and `State.returns` are history: the writer's records of this service start, and
  the results of the calls of `read`, with the journal each event came from.
-/

namespace LclFastapi.Background

open Lib (Dict Identity Processes)
open LclFastapi.Runtime (Value)

/-! ## Records -/

/-- A record `BackgroundJournal.emit` enqueues and `flush` numbers. -/
structure JournalRecord where
  identity : Identity
  service_id : Value
  level : Int
  message : String
  deadline : Option ℚ
  retired : Bool
  sequence : Nat
  deriving DecidableEq

/-- The stopping table after a record: announced deadlines by pid, until `retired`. -/
def stopping (table : Dict Nat JournalRecord) (record : JournalRecord) : Dict Nat JournalRecord :=
  let table := if record.deadline.isSome then table.set record.identity.pid record else table
  if record.retired then table.erase record.identity.pid else table

theorem stopping_get? {table : Dict Nat JournalRecord} {record r : JournalRecord} {pid : Nat}
    (h : (stopping table record).get? pid = some r) :
    table.get? pid = some r ∨ (r = record ∧ record.deadline.isSome = true) := by
  unfold stopping at h
  generalize htable : (if record.deadline.isSome then table.set record.identity.pid record
    else table) = table' at h
  have hset (h : table'.get? pid = some r) :
      table.get? pid = some r ∨ (r = record ∧ record.deadline.isSome = true) := by
    rw [← htable] at h
    split at h
    · rename_i hd
      rw [Dict.get?_set] at h
      split at h
      · exact .inr ⟨(Option.some.inj h).symm, hd⟩
      · exact .inl h
    · exact .inl h
  split at h
  · rw [Dict.get?_erase] at h
    split at h
    · exact absurd h (by simp)
    · exact hset h
  · exact hset h

/-- What the table holds after some records was there before, or is a deadline among them. -/
theorem stopping_foldl {table : Dict Nat JournalRecord} {records : List JournalRecord}
    {r : JournalRecord} {pid : Nat} (h : (records.foldl stopping table).get? pid = some r) :
    table.get? pid = some r ∨ (r ∈ records ∧ r.deadline.isSome = true) := by
  induction records generalizing table with
  | nil => exact .inl h
  | cons record records ih =>
    rcases ih h with h | ⟨hm, hd⟩
    · rcases stopping_get? h with h | ⟨rfl, hd⟩
      · exact .inl h
      · exact .inr ⟨List.mem_cons_self, hd⟩
    · exact .inr ⟨List.mem_cons_of_mem _ hm, hd⟩

namespace Journal

/-- A complete line. `other` is one that `json.loads` rejects, or no object. -/
inductive Line where
  | record (r : JournalRecord)
  | other
  deriving DecidableEq

/-- The record `read` accepts from a line. -/
def Line.accepted? (service_id : Value) : Line → Option JournalRecord
  | .record r => if r.service_id.pyEq service_id then some r else none
  | .other => none

theorem Line.eq_of_accepted {sid : Value} {line : Line} {r : JournalRecord}
    (h : line.accepted? sid = some r) : line = .record r := by
  cases line with
  | other => exact absurd h (by simp [Line.accepted?])
  | record r' =>
    rw [Line.accepted?] at h
    split at h
    · rw [Option.some.inj h]
    · exact absurd h (by simp)

/-- The accepted records of some lines. -/
def accepted (service_id : Value) (lines : List Line) : List JournalRecord :=
  lines.filterMap (Line.accepted? service_id)

@[simp] theorem accepted_append (sid : Value) (l m : List Line) :
    accepted sid (l ++ m) = accepted sid l ++ accepted sid m := List.filterMap_append

/-- `BackgroundJournal.path`. -/
def path (w : Identity) : String := toString w.pid ++ ".jsonl"

/-! ## States -/

/-- An event of a `read`, with its journal. -/
abbrev Event := String × JournalRecord

/-- Where the controller is in `read`. `todo` are the listed journals still to come. -/
inductive PC where
  | idle
  /-- The head of the `for` loop. -/
  | next (todo : List String) (events : List Event)
  /-- About to call `readline`. -/
  | readline (path : String) (todo : List String) (events : List Event)
  /-- At the end of the file, about to look at the recorded process. -/
  | check (path : String) (todo : List String) (events : List Event)
  /-- The recorded process is not live: about to unlink its journal. -/
  | unlink (path : String) (todo : List String) (events : List Event)

/-- The events `read` has collected so far. -/
def PC.events : PC → List Event
  | .idle => []
  | .next _ events | .readline _ _ events | .check _ _ events | .unlink _ _ events => events

structure State where
  os : Processes
  files : String → Option (List Line)
  /-- `self.offsets`, in lines. -/
  offsets : String → Option Nat
  /-- `self.identities`. -/
  identities : String → Option JournalRecord
  /-- `self.stopping`. -/
  stopping : Dict Nat JournalRecord
  pc : PC
  written : List JournalRecord
  returns : List (List Event)
  /-- How many calls of `read` have returned since the writer's death. -/
  completed : Nat

/-- `self.offsets.get(path, 0)`. -/
def State.offset (s : State) (path : String) : Nat := (s.offsets path).getD 0

/-- The start of the writer `w`: its journal holds nothing of this service start. -/
structure Init (sid : Value) (w : Identity) (s : State) : Prop where
  live : s.os.live w = true
  files : ∀ lines, s.files (path w) = some lines → accepted sid lines = []
  offsets : s.offsets (path w) = none
  identities : s.identities (path w) = none
  pc : s.pc = .idle
  written : s.written = []
  returns : s.returns = []
  completed : s.completed = 0

/-- What a step does. -/
inductive Label where
  /-- A step of the writer, of other processes or of the kernel. -/
  | environment
  /-- A step inside `read`. -/
  | reading
  /-- The liveness check finds the process recorded for `path` dead. -/
  | dead (path : String)
  | ret (events : List Event)
  | raise

/-! ## Steps -/

/-- The atomic steps of the writer `w`, of the controller and of their environment. -/
inductive Step (sid : Value) (w : Identity) : State → Label → State → Prop
  /-- `flush` opens the journal for appending. -/
  | create (s : State) (hl : s.os.live w = true) :
      Step sid w s .environment
        { s with files := Function.update s.files (path w) (some ((s.files (path w)).getD [])) }
  /-- `flush` appends one complete line of its own. -/
  | append (s : State) (line : Line) (hl : s.os.live w = true)
      (hown : ∀ r, line = .record r → r.identity = w) :
      Step sid w s .environment
        { s with
          files := Function.update s.files (path w) (some ((s.files (path w)).getD [] ++ [line]))
          written := s.written ++ accepted sid [line] }
  /-- Other journals change in any way. -/
  | other (s : State) (p : String) (lines : Option (List Line)) (hp : p ≠ path w) :
      Step sid w s .environment { s with files := Function.update s.files p lines }
  | os (s : State) (q : Processes) (hq : Processes.Step s.os q) :
      Step sid w s .environment { s with os := q }
  /-- `sorted(self.directory.glob("*.jsonl"))`. -/
  | list (s : State) (todo : List String) (hpc : s.pc = .idle) (hsorted : todo.Pairwise (· < ·))
      (hglob : ∀ p, p ∈ todo ↔ (s.files p).isSome = true) :
      Step sid w s .reading { s with pc := .next todo [] }
  /-- `path.open("rb")`, then `stream.seek(...)`. -/
  | open (s : State) (p : String) (todo : List String) (events : List Event)
      (hpc : s.pc = .next (p :: todo) events) (hfile : (s.files p).isSome = true) :
      Step sid w s .reading { s with pc := .readline p todo events }
  /-- `readline` returns a complete line. -/
  | readline (s : State) (p : String) (todo : List String) (events : List Event)
      (lines : List Line) (line : Line) (hpc : s.pc = .readline p todo events)
      (hfile : s.files p = some lines) (hline : lines[s.offset p]? = some line) :
      Step sid w s .reading
        (match line.accepted? sid with
        | some r =>
          { s with
            offsets := Function.update s.offsets p (some (s.offset p + 1))
            identities := Function.update s.identities p (some r)
            stopping := Background.stopping s.stopping r
            pc := .readline p todo (events ++ [(p, r)]) }
        | none =>
          { s with
            offsets := Function.update s.offsets p (some (s.offset p + 1))
            pc := .readline p todo events })
  /-- `readline` finds no complete line. -/
  | eof (s : State) (p : String) (todo : List String) (events : List Event)
      (hpc : s.pc = .readline p todo events)
      (hfile : ∀ lines, s.files p = some lines → lines.length ≤ s.offset p) :
      Step sid w s .reading { s with pc := .check p todo events }
  /-- `last is None`, or `is_live(last)`. -/
  | live (s : State) (p : String) (todo : List String) (events : List Event)
      (hpc : s.pc = .check p todo events)
      (hlive : ∀ r, s.identities p = some r → s.os.live r.identity = true) :
      Step sid w s .reading { s with pc := .next todo events }
  | dead (s : State) (p : String) (todo : List String) (events : List Event) (r : JournalRecord)
      (hpc : s.pc = .check p todo events) (hlast : s.identities p = some r)
      (hdead : s.os.live r.identity = false) :
      Step sid w s (.dead p) { s with pc := .unlink p todo events }
  /-- `path.unlink(missing_ok=True)`, and the entries of the path are dropped. -/
  | unlink (s : State) (p : String) (todo : List String) (events : List Event)
      (hpc : s.pc = .unlink p todo events) :
      Step sid w s .reading
        { s with
          files := Function.update s.files p none
          offsets := Function.update s.offsets p none
          identities := Function.update s.identities p none
          pc := .next todo events }
  | ret (s : State) (events : List Event) (hpc : s.pc = .next [] events) :
      Step sid w s (.ret events)
        { s with
          pc := .idle
          returns := s.returns ++ [events]
          completed := if s.os.live w then s.completed else s.completed + 1 }
  /-- Listing, opening, reading or unlinking a journal raises. -/
  | raise (s : State) (hpc : s.pc ≠ .idle) : Step sid w s .raise { s with pc := .idle }

end Journal

end LclFastapi.Background
