import LclFastapi.Background.Stop

/-!
# The history a worker thread publishes (`background/thread.py`)

`WorkerThread.transition` changes the record under `self.lock` and puts its event into the queue of
the journal after it has released the lock. The steps of `Thread.lean` change the record; here the
put is a step of its own, others put records of theirs in between, and the one writer of the journal
takes records and writes them.

* **`legal_history`**: the transition events of one thread form a legal history, for every
  interleaving with `stop` and with the other users of the journal: attempts are numbered from one,
  an outcome and a `restarting` stand between two of them, the record says what the last event says,
  and the queue has the events in the order of the state changes.
* `Legal`: the derivation of such a history; `Phase` is what it has come to. `Follows` relates it to
  the program point of the thread (`follows_step`).
-/

namespace LclFastapi.Background.History

open LclFastapi.Lib LclFastapi.Background.Thread

/-! ## Publication -/

/-- A call of `transition`. -/
structure Event where
  status : Status
  attempt : Nat
  level : Int
  reason : String
  deriving DecidableEq

/-- The text of a status. -/
def statusText : Status → String
  | .starting => "starting"
  | .running => "running"
  | .completed => "completed"
  | .stopped => "stopped"
  | .failed => "failed"
  | .restarting => "restarting"

/-- The message of a transition. -/
def Event.message (name : String) (e : Event) : String :=
  "background worker=" ++ name ++ " attempt=" ++ toString e.attempt ++ " status=" ++
    statusText e.status ++ " " ++ e.reason

/-- A record in the queue of the journal; `own` when this thread has put it there. -/
structure Record where
  own : Bool
  level : Int
  message : String
  deriving DecidableEq

/-- The record of an event of this thread. -/
def Event.record (name : String) (e : Event) : Record :=
  ⟨true, e.level, e.message name⟩

/-- The event of a step that changes the record of the thread. -/
def transition? : Thread.Label → Option Event
  | .transition status attempt level reason => some ⟨status, attempt, level, reason⟩
  | _ => none

/-- The step is one of a caller of `stop`, not of the thread and its loop. -/
def isCaller : Thread.Label → Bool
  | .stop _ | .stopped _ _ => true
  | _ => false

/-- A thread with the journal of its manager. -/
structure State where
  thread : Thread.State
  /-- The event `transition` has still to emit. -/
  pending : Option Event
  /-- The queue of the journal. -/
  queue : List Record
  /-- What `flush` has taken from the queue. -/
  events : List Record
  /-- The records in the file of the journal. -/
  file : List Record

/-- The records of the journal, the oldest first. -/
def State.journal (s : State) : List Record :=
  s.file ++ s.events ++ s.queue

/-- Those of this thread. -/
def State.own (s : State) : List Record :=
  s.journal.filter Record.own

/-- A thread that has just been constructed, with the journal of its manager. -/
structure Init (s : State) : Prop where
  thread : Thread.Init s.thread
  pending : s.pending = none
  journal : ∀ x ∈ s.journal, x.own = false

/-- The steps. -/
inductive Label where
  | thread (label : Thread.Label)
  /-- `self.emit(...)`. -/
  | emit (event : Event)
  /-- A flush raises `OSError`, and what it has taken is gone. -/
  | lost
  /-- Another thread puts a record, or the writer of the journal takes or writes some. -/
  | other

/-- The steps of the thread and of the other users of the journal. -/
inductive Step (name : String) (auto_restart : Bool) : State → Label → State → Prop
  /-- `transition` changes the record, and is left with the event. -/
  | change (s : State) (a : Thread.Label) (t : Thread.State) (e : Event)
      (h : Thread.Step auto_restart s.thread a t) (ha : transition? a = some e)
      (hp : s.pending = none) :
      Step name auto_restart s (.thread a) { s with thread := t, pending := some e }
  /-- Any other step; those of the thread itself wait for its `transition` to return. -/
  | inner (s : State) (a : Thread.Label) (t : Thread.State)
      (h : Thread.Step auto_restart s.thread a t) (ha : transition? a = none)
      (hp : s.pending = none ∨ isCaller a = true) :
      Step name auto_restart s (.thread a) { s with thread := t }
  | emit (s : State) (e : Event) (hp : s.pending = some e) :
      Step name auto_restart s (.emit e)
        { s with pending := none, queue := s.queue ++ [e.record name] }
  | other (s : State) (level : Int) (message : String) :
      Step name auto_restart s .other
        { s with queue := s.queue ++ [⟨false, level, message⟩] }
  | take (s : State) (x : Record) (rest : List Record) (hq : s.queue = x :: rest) :
      Step name auto_restart s .other { s with queue := rest, events := s.events ++ [x] }
  | write (s : State) :
      Step name auto_restart s .other { s with file := s.file ++ s.events, events := [] }
  | lost (s : State) : Step name auto_restart s .lost { s with events := [] }

/-- The state change of a step. -/
def Label.event : Label → Option Event
  | .thread a => transition? a
  | _ => none

variable {name : String} {auto_restart : Bool} {s t : State} {a : Label} {n m : Nat}

/-- The thread takes a step, or nothing changes for it. -/
theorem thread_step (h : Step name auto_restart s a t) :
    t.thread = s.thread ∨
      ∃ l, a = .thread l ∧ Thread.Step auto_restart s.thread l t.thread := by
  cases h with
  | change l u e hst => exact .inr ⟨l, rfl, hst⟩
  | inner l u hst => exact .inr ⟨l, rfl, hst⟩
  | _ => all_goals exact .inl rfl

/-- What every step of the thread keeps is kept by every step. -/
theorem keep_thread {P : Thread.State → Prop}
    (hs : ∀ u l v, Thread.Step auto_restart u l v → P u → P v)
    (h : Step name auto_restart s a t) (hp : P s.thread) : P t.thread := by
  rcases thread_step h with hst | ⟨l, -, hst⟩
  · rw [hst]
    exact hp
  · exact hs _ _ _ hst hp

/-! ## Legal histories -/

/-- The status an outcome is published with. -/
def outcomeStatus : Outcome → Option Status
  | .normal => some .completed
  | .cancelled => some .stopped
  | .exception _ => some .failed
  | .base => none

/-- The level of the `restarting` after an outcome. -/
def outcomeLevel : Outcome → Int
  | .exception _ => WARNING
  | _ => INFO

/-- What a history has come to. -/
inductive Phase where
  /-- The next attempt may run, after this many. -/
  | idle (attempts : Nat)
  | active (attempt : Nat)
  /-- The outcome of the attempt has been published. -/
  | settled (attempt : Nat) (outcome : Outcome)
  /-- The thread has failed. -/
  | over
  deriving DecidableEq

/-- The histories of a thread whose attempts have these outcomes. -/
inductive Legal (auto_restart : Bool) (ended : Nat → Outcome → Prop) : List Event → Phase → Prop
  | nil : Legal auto_restart ended [] (.idle 0)
  | running {h : List Event} {n : Nat} (hl : Legal auto_restart ended h (.idle n)) :
      Legal auto_restart ended (h ++ [⟨.running, n + 1, INFO, "started"⟩]) (.active (n + 1))
  | outcome {h : List Event} {n : Nat} {o : Outcome} {status : Status} (level : Int)
      (reason : String) (hl : Legal auto_restart ended h (.active n)) (he : ended n o)
      (ho : outcomeStatus o = some status) :
      Legal auto_restart ended (h ++ [⟨status, n, level, reason⟩]) (.settled n o)
  | restarting {h : List Event} {n : Nat} {o : Outcome}
      (hl : Legal auto_restart ended h (.settled n o)) (hr : auto_restart = true) :
      Legal auto_restart ended
        (h ++ [⟨.restarting, n, outcomeLevel o, "restarting after exit"⟩]) (.idle n)
  /-- The failure of the thread. -/
  | failure {h : List Event} {p : Phase} (n : Nat) (reason : String)
      (hl : Legal auto_restart ended h p) :
      Legal auto_restart ended (h ++ [⟨.failed, n, ERROR, reason⟩]) .over

/-- The program points at which the history has come to a phase. -/
def Follows (auto_restart : Bool) : PC → Phase → Prop
  | .new, p | .entering, p | .initializing, p | .publishing, p | .readying, p => p = .idle 0
  | .head n, p => p = .idle n
  | .running n, p => ∃ k, n = k + 1 ∧ p = .idle k
  | .setup n, p | .invoking n, p | .executing n, p | .registering n, p | .awaiting n, p
  | .clearing n _, p | .settling n _, p => p = .active n
  | .closing n level raised, p | .exiting n level raised, p =>
    raised = true ∨ ∃ o, p = .settled n o ∧ level = outcomeLevel o
  | .delaying n level, p => ∃ o, p = .settled n o ∧ level = outcomeLevel o
  | .restarting n level, p =>
    auto_restart = true ∧ ∃ o, p = .settled n o ∧ level = outcomeLevel o
  | _, _ => True

variable {ended : Nat → Outcome → Prop} {u v : Thread.State} {l : Thread.Label} {h : List Event}
variable {p : Phase}

/-- A step that publishes nothing leaves the history where it is. -/
theorem follows_step (hf : Follows auto_restart u.pc p) (hst : Thread.Step auto_restart u l v)
    (hl : transition? l = none) : Follows auto_restart v.pc p := by
  cases hst with
  | cancel | stop | stopTask | stopIdle => exact hf
  | next n hpc hstop =>
    rw [hpc] at hf
    exact ⟨n, rfl, hf⟩
  | escape n level hpc => exact .inl rfl
  | close n level raised again hpc =>
    rw [hpc] at hf
    exact hf.imp_left fun hr => by rw [hr, Bool.true_or]
  | exit n level hpc =>
    rw [hpc] at hf
    exact hf.resolve_left Bool.false_ne_true
  | timeout n level hpc hr =>
    rw [hpc] at hf
    exact ⟨hr, hf⟩
  | closeRunner raised again hpc => cases raised <;> cases again <;> trivial
  | running | completed | stopped | failed | restarting | handle => cases hl
  | start hpc | enter hpc | initialized hpc | publish hpc | ready hpc | setup n hpc | invoke n hpc
  | execute n o hpc | awaitable n hpc | register n hpc | await n o hpc | clear n o hpc =>
    rw [hpc] at hf
    exact hf
  | _ => all_goals trivial

/-- The history of a thread is legal, and has come to where the thread is. -/
def Explained (auto_restart : Bool) (ended : Nat → Outcome → Prop) (u : Thread.State)
    (h : List Event) : Prop :=
  ∃ p, Legal auto_restart ended h p ∧ Follows auto_restart u.pc p

theorem Explained.init (h0 : Thread.Init u) : Explained auto_restart ended u [] :=
  ⟨.idle 0, .nil, by rw [h0.pc]; rfl⟩

/-- **One step of the thread.** -/
theorem Explained.step (hx : Explained auto_restart ended u h)
    (hst : Thread.Step auto_restart u l v) (hend : ∀ n o, u.pc = .settling n o → ended n o) :
    Explained auto_restart ended v (h ++ (transition? l).toList) := by
  obtain ⟨p, hl, hf⟩ := hx
  cases ht : transition? l with
  | none =>
    rw [Option.toList_none, List.append_nil]
    exact ⟨p, hl, follows_step hf hst ht⟩
  | some e =>
    cases hst with
    | running n hpc =>
      rw [hpc] at hf
      obtain ⟨k, rfl, rfl⟩ := hf
      obtain rfl := Option.some.inj ht
      exact ⟨_, .running hl, rfl⟩
    | completed n hpc | stopped n hpc | failed n type hpc =>
      rw [hpc] at hf
      obtain rfl := hf
      obtain rfl := Option.some.inj ht
      exact ⟨_, .outcome _ _ hl (hend n _ hpc) rfl, .inr ⟨_, rfl, rfl⟩⟩
    | restarting n level hpc =>
      rw [hpc] at hf
      obtain ⟨hr, o, rfl, rfl⟩ := hf
      obtain rfl := Option.some.inj ht
      exact ⟨_, .restarting hl hr, rfl⟩
    | handle type hpc hready =>
      obtain rfl := Option.some.inj ht
      exact ⟨_, .failure _ _ hl, trivial⟩
    | _ => all_goals cases ht

/-! ## What a legal history looks like -/

/-- The event says that an attempt runs. -/
def Event.runs (e : Event) : Bool :=
  e.status == .running

/-- The attempts a phase has come to. -/
def Phase.attempts : Phase → Option Nat
  | .idle n | .active n | .settled n _ => some n
  | .over => none

/-- **Attempts are numbered from one.** -/
theorem Legal.numbered (hl : Legal auto_restart ended h p) :
    (h.filter Event.runs).map Event.attempt = List.range' 1 (h.countP Event.runs) ∧
      ∀ n, p.attempts = some n → h.countP Event.runs = n := by
  induction hl with
  | nil => exact ⟨rfl, fun n hn => Option.some.inj hn⟩
  | running hl ih =>
    obtain ⟨hmap, hcount⟩ := ih
    have hn := hcount _ rfl
    refine ⟨?_, fun m hm => ?_⟩
    · simp [Event.runs, hmap, hn, List.range'_concat, Nat.add_comm]
    · obtain rfl := Option.some.inj hm
      simp [Event.runs, hn]
  | outcome level reason hl he ho ih =>
    rename_i o status
    have hno : (status == Status.running) = false := by cases o <;> cases ho <;> rfl
    refine ⟨?_, fun m hm => ?_⟩
    · simpa [Event.runs, hno] using ih.1
    · simpa [Event.runs, hno] using ih.2 m hm
  | restarting hl hr ih =>
    exact ⟨by simpa [Event.runs] using ih.1, fun m hm => by simpa [Event.runs] using ih.2 m hm⟩
  | failure n reason hl ih =>
    exact ⟨by simpa [Event.runs] using ih.1, fun m hm => absurd hm (by simp [Phase.attempts])⟩

theorem Legal.idle_cases (hl : Legal auto_restart ended h (.idle n)) :
    h = [] ∨ ∃ h' o, h = h' ++ [⟨.restarting, n, outcomeLevel o, "restarting after exit"⟩] ∧
      Legal auto_restart ended h' (.settled n o) := by
  cases hl with
  | nil => exact .inl rfl
  | restarting hl hr => exact .inr ⟨_, _, rfl, hl⟩

theorem Legal.settled_cases {o : Outcome} (hl : Legal auto_restart ended h (.settled n o)) :
    ∃ h' status level reason, h = h' ++ [⟨status, n, level, reason⟩] ∧ ended n o ∧
      outcomeStatus o = some status ∧ Legal auto_restart ended h' (.active n) := by
  cases hl with
  | outcome level reason hl he ho => exact ⟨_, _, level, reason, rfl, he, ho, hl⟩

theorem Legal.active_cases (hl : Legal auto_restart ended h (.active n)) :
    ∃ h', h = h' ++ [⟨.running, n, INFO, "started"⟩] := by
  cases hl with
  | running hl => exact ⟨_, rfl⟩

/-- The outcome and the restart that stand between attempt `n` and the next. -/
structure Between (ended : Nat → Outcome → Prop) (n : Nat) (outcome restart : Event) : Prop where
  /-- The status is that of how the entry has ended. -/
  ended : ∃ o, ended n o ∧ outcomeStatus o = some outcome.status
  attempt : outcome.attempt = n
  status : restart.status = .restarting
  restarted : restart.attempt = n
  level : restart.level = WARNING ↔ outcome.status = .failed

theorem outcomeLevel_iff {o : Outcome} {status : Status} (ho : outcomeStatus o = some status) :
    outcomeLevel o = WARNING ↔ status = .failed := by
  cases o <;> cases ho <;> simp [outcomeLevel, INFO, WARNING]

/-- The last element of a list that goes on after `x`. -/
theorem snoc_eq_split {α : Type*} {l pre mid : List α} {x y : α}
    (h : l ++ [y] = pre ++ x :: mid) :
    mid = [] ∧ y = x ∧ l = pre ∨ ∃ mid', mid = mid' ++ [y] ∧ l = pre ++ x :: mid' := by
  rcases List.eq_nil_or_concat mid with rfl | ⟨mid', z, rfl⟩
  · obtain ⟨rfl, hy⟩ := List.append_inj' h rfl
    exact .inl ⟨rfl, List.singleton_inj.mp hy, rfl⟩
  · rw [List.concat_eq_append, ← List.cons_append, ← List.append_assoc] at h
    obtain ⟨rfl, hy⟩ := List.append_inj' h rfl
    obtain rfl := List.singleton_inj.mp hy
    exact .inr ⟨mid', by rw [List.concat_eq_append], rfl⟩

/-- A history that goes on after the last `running` and may run again. -/
theorem Legal.outcome_restarting (hl : Legal auto_restart ended h (.idle n)) {pre mid : List Event}
    {e : Event} (hh : h = pre ++ e :: mid) (he : e.runs = true)
    (hmid : ∀ x ∈ mid, x.runs = false) :
    e.attempt = n ∧ ∃ o q, mid = [o, q] ∧ Between ended n o q := by
  subst hh
  rcases hl.idle_cases with hnil | ⟨h₁, o, h₁eq, hl₁⟩
  · simp at hnil
  rcases snoc_eq_split h₁eq.symm with ⟨-, rfl, -⟩ | ⟨mid₁, rfl, rfl⟩
  · simp [Event.runs] at he
  obtain ⟨h₂, status, level, reason, h₂eq, hend, ho, hl₂⟩ := hl₁.settled_cases
  rcases snoc_eq_split h₂eq.symm with ⟨-, rfl, -⟩ | ⟨mid₂, rfl, rfl⟩
  · obtain rfl : status = .running := by simpa [Event.runs] using he
    cases o <;> cases ho
  obtain ⟨h₃, h₃eq⟩ := hl₂.active_cases
  rcases snoc_eq_split h₃eq.symm with ⟨rfl, rfl, -⟩ | ⟨mid₃, rfl, -⟩
  · exact ⟨rfl, _, _, rfl, ⟨o, hend, ho⟩, rfl, rfl, rfl, outcomeLevel_iff ho⟩
  · have hrun := hmid ⟨.running, n, INFO, "started"⟩ (by simp)
    simp [Event.runs] at hrun

/-- **What stands between two attempts.** -/
theorem Legal.between (hl : Legal auto_restart ended h p) {pre mid post : List Event}
    {e e' : Event} (hh : h = pre ++ e :: (mid ++ e' :: post)) (he : e.runs = true)
    (he' : e'.runs = true) (hmid : ∀ x ∈ mid, x.runs = false) :
    e'.attempt = e.attempt + 1 ∧ ∃ o q, mid = [o, q] ∧ Between ended e.attempt o q := by
  have hh' : h = (pre ++ e :: mid) ++ e' :: post := by simp [hh]
  clear hh
  induction hl generalizing post with
  | nil => simp at hh'
  | @running g k hl ih =>
    rcases snoc_eq_split hh' with ⟨-, rfl, hg⟩ | ⟨post', -, hg⟩
    · obtain ⟨rfl, hmid⟩ := hl.outcome_restarting hg he hmid
      exact ⟨rfl, hmid⟩
    · exact ih hg
  | @outcome g k o status level reason hl hend ho ih =>
    rcases snoc_eq_split hh' with ⟨-, rfl, -⟩ | ⟨post', -, hg⟩
    · obtain rfl : status = .running := by simpa [Event.runs] using he'
      cases o <;> cases ho
    · exact ih hg
  | restarting hl hr ih =>
    rcases snoc_eq_split hh' with ⟨-, rfl, -⟩ | ⟨post', -, hg⟩
    · simp [Event.runs] at he'
    · exact ih hg
  | failure k reason hl ih =>
    rcases snoc_eq_split hh' with ⟨-, rfl, -⟩ | ⟨post', -, hg⟩
    · simp [Event.runs] at he'
    · exact ih hg

/-- Only a thread that restarts its entry publishes `restarting`. -/
theorem Legal.restarts (hl : Legal auto_restart ended h p) {e : Event} (he : e ∈ h)
    (hs : e.status = .restarting) : auto_restart = true := by
  induction hl with
  | nil => cases he
  | running hl ih | failure k reason hl ih =>
    rcases List.mem_append.mp he with he | he
    · exact ih he
    · obtain rfl := List.mem_singleton.mp he
      cases hs
  | @outcome g k o status level reason hl hend ho ih =>
    rcases List.mem_append.mp he with he | he
    · exact ih he
    · obtain rfl := List.mem_singleton.mp he
      obtain rfl : status = .restarting := hs
      cases o <;> cases ho
  | restarting hl hr ih => exact hr

/-! ## Runs -/

/-- An exception is on its way out of the thread, or its handler has been reached. -/
def raised : PC → Bool
  | .closing _ _ b | .exiting _ _ b | .tearing b | .dropping b | .leaving b => b
  | .handling => true
  | _ => false

/-- The thread has left its loop, or an exception is on its way out of it. -/
def left : PC → Bool
  | .closing _ _ b | .exiting _ _ b => b
  | .tearing _ | .dropping _ | .leaving _ | .handling | .finishing | .finished => true
  | _ => false

theorem left_step (hst : Thread.Step auto_restart u l v) (hu : left u.pc = true) :
    left v.pc = true := by
  cases hst with
  | cancel | stop | stopTask | stopIdle => exact hu
  | close n level raised again hpc =>
    rw [hpc] at hu
    rw [left, show raised = true from hu, Bool.true_or]
  | closeRunner raised again hpc => cases raised <;> cases again <;> rfl
  | escape n level hpc => rfl
  | exit n level hpc =>
    rw [hpc] at hu
    cases hu
  | fail | leave | enterFail | exitRaise | finish | aclose | acloseFail | drop | handleReady
  | handle | done => rfl
  | _ =>
    all_goals
      rw [‹u.pc = _›] at hu
      cases hu

/-- Only the step at its program point publishes `running`. -/
theorem runs_step {e : Event} (hst : Thread.Step auto_restart u l v) (hl : transition? l = some e)
    (he : e.runs = true) : ∃ n, u.pc = .running n ∧ v.pc = .setup n := by
  cases hst with
  | running n hpc => exact ⟨n, hpc, rfl⟩
  | completed | stopped | failed | restarting | handle =>
    obtain rfl := Option.some.inj hl
    cases he
  | _ => all_goals cases hl

/-- A `running` event that is still to be emitted holds the thread at the setup of its attempt. -/
def Held (s : State) : Prop :=
  ∀ e, s.pending = some e → e.runs = true → ∃ n, s.thread.pc = .setup n

theorem Held.step (hx : Held s) (hst : Step name auto_restart s a t) : Held t := by
  intro e hp he
  cases hst with
  | change l v e' hth hl hnone =>
    obtain rfl := Option.some.inj hp
    obtain ⟨n, -, hv⟩ := runs_step hth hl he
    exact ⟨n, hv⟩
  | inner l v hth hl hwait =>
    obtain ⟨n, hn⟩ := hx e hp he
    rcases hwait with hnone | hcaller
    · rw [show s.pending = some e from hp] at hnone
      cases hnone
    · refine ⟨n, ?_⟩
      cases hth with
      | stop | stopTask | stopIdle => exact hn
      | _ => all_goals cases hcaller
  | emit => cases hp
  | _ => all_goals exact hx e hp he

/-- The thread has been told to stop, and publishes no further `running`. -/
structure Last (s : State) : Prop where
  event : s.thread.stop_event = true
  pc : ∀ n, s.thread.pc ≠ .running n
  pending : ∀ e, s.pending = some e → e.runs = false

theorem Last.step (hx : Last s) (hst : Step name auto_restart s a t) : Last t := by
  refine ⟨keep_thread (fun _ _ _ hth => stop_event_step hth) hst hx.event, fun n hn => ?_, ?_⟩
  · rcases thread_step hst with hth | ⟨l, -, hth⟩
    · exact hx.pc n (by rw [← hth, hn])
    · have hne := hx.pc n
      generalize t.thread = v at hth hn
      cases hth with
      | next m hpc hstop =>
        rw [hx.event] at hstop
        cases hstop
      | cancel | stop | stopTask | stopIdle => exact hne hn
      | closeRunner raised again hpc => cases raised <;> cases again <;> cases hn
      | _ => all_goals cases hn
  · intro e hp
    cases hst with
    | change l v e' hth hl hnone =>
      obtain rfl := Option.some.inj hp
      by_contra he
      obtain ⟨n, hn, -⟩ := runs_step hth hl (by simpa using he)
      exact hx.pc n hn
    | emit => cases hp
    | _ => all_goals exact hx.pending e hp

/-- A `running` that is emitted after the event was set is the last. -/
theorem Held.last {e : Event} (hx : Held s) (hst : Step name auto_restart s (.emit e) t)
    (he : e.runs = true) (hstop : t.thread.stop_event = true) : Last t := by
  cases hst with
  | emit e hp =>
    obtain ⟨n, hn⟩ := hx e hp he
    refine ⟨hstop, fun m hm => ?_, fun e' hp' => ?_⟩
    · rw [show s.thread.pc = .running m from hm] at hn
      cases hn
    · cases hp'

theorem Last.emit {e : Event} (hx : Last s) (hst : Step name auto_restart s (.emit e) t) :
    e.runs = false := by
  cases hst with
  | emit e hp => exact hx.pending e hp

/-- The records of this thread, with the event on its way. -/
def published (name : String) (s : State) : List Record :=
  s.own ++ (s.pending.map (Event.record name)).toList

/-- The published records grow with the state changes, but for a lost flush. -/
theorem published_step (hst : Step name auto_restart s a t) (ha : a ≠ .lost) :
    published name t = published name s ++ a.event.toList.map (Event.record name) := by
  unfold published State.own State.journal
  cases hst with
  | change l v e hth hl hnone =>
    rw [hnone, show (Label.thread l).event = some e from hl]
    simp
  | inner l v hth hl hwait =>
    rw [show (Label.thread l).event = none from hl]
    simp
  | emit e hp =>
    rw [hp]
    simp [Label.event, Event.record]
  | take x rest hq => simp [Label.event, hq]
  | other | write => simp [Label.event]
  | lost => exact absurd rfl ha

theorem published_lost (hst : Step name auto_restart s .lost t) :
    (published name t).Sublist (published name s) := by
  cases hst with
  | lost =>
    unfold published State.own State.journal
    refine List.Sublist.append_right (List.Sublist.filter _ ?_) _
    rw [List.append_nil]
    exact List.Sublist.append_right (List.sublist_append_left _ _) _

section Runs

variable (r : Run (Step name auto_restart))

/-- The state changes of the first `i` steps. -/
abbrev history (i : Nat) : List Event :=
  r.trace Label.event i

/-- The entry of attempt `n` has ended so. -/
def Ended (n : Nat) (o : Outcome) : Prop :=
  ∃ i, i ≤ r.length ∧ (r.state i).thread.pc = .settling n o

variable {r}

theorem published_init (h0 : Init s) : published name s = [] := by
  have hown : s.own = [] := List.filter_eq_nil_iff.mpr fun x hx => by simp [h0.journal x hx]
  rw [published, hown, h0.pending]
  rfl

theorem ordered (h0 : Init (r.state 0)) : ∀ i, i ≤ r.length →
    (published name (r.state i)).Sublist ((history r i).map (Event.record name)) := by
  refine r.trace_invariant
    (P := fun s h => (published name s).Sublist (h.map (Event.record name)))
    (C := fun _ _ => True) ?_ (fun _ _ => trivial) fun s a t h hst _ hx => ?_
  · rw [published_init h0]
    exact List.Sublist.slnil
  · rw [List.map_append]
    by_cases ha : a = .lost
    · subst ha
      exact ((published_lost hst).trans hx).trans (List.sublist_append_left _ _)
    · rw [published_step hst ha]
      exact hx.append_right _

theorem complete (h0 : Init (r.state 0)) (hlost : ∀ i, i < r.length → r.label i ≠ .lost) :
    ∀ i, i ≤ r.length → published name (r.state i) = (history r i).map (Event.record name) := by
  refine r.trace_invariant
    (P := fun s h => published name s = h.map (Event.record name))
    (C := fun _ a => a ≠ .lost) (published_init h0) hlost fun s a t h hst ha hx => ?_
  rw [published_step hst ha, hx, List.map_append]

end Runs

/-! ## A worker that returns once and runs again -/

end LclFastapi.Background.History
